import WalletLedger.Decimal
import Mathlib.Data.List.DropRight
import Mathlib.Data.Rat.Cast.Order

/-!
# Decimal text

Digits are read by their places (`Decimal.value_append`, `Decimal.value_cons`). The digits of a
number have no zero in front that could be left out (`Decimal.eq_zero_of_head?_digits`); filled up
to a width they have this width (`Decimal.length_padded_of_lt`), and digits of one width stand in
the order of their numbers (`Decimal.lt_iff_value_lt`). Without the zeros at their end the places
behind a point stand for the same fraction (`Decimal.fraction_trimmed`), so a number with places is
read back as it was written (`Decimal.read_withPlaces`).
-/

namespace WalletLedger

/-- Where places of one weight are followed by smaller ones, the heavier ones are compared first. -/
theorem add_lt_add_iff_of_monotone {f : Nat → Nat} (hf : Monotone f) {a b x y : Nat}
    (hx : f a + x < f (a + 1)) (hy : f b + y < f (b + 1)) :
    f a + x < f b + y ↔ a < b ∨ a = b ∧ x < y := by
  rcases lt_trichotomy a b with hlt | rfl | hlt
  · have hle : f (a + 1) ≤ f b := hf hlt
    exact iff_of_true (by omega) (.inl hlt)
  · omega
  · have hle : f (b + 1) ≤ f a := hf hlt
    exact iff_of_false (by omega) (by omega)

namespace Decimal

variable {cs ds : List Char}

/-! ### Digits and their places -/

/-- The number that a single digit stands for. -/
def digitValue (c : Char) : Nat := c.toNat - '0'.toNat

theorem isDigit_iff {c : Char} : c.isDigit ↔ '0'.toNat ≤ c.toNat ∧ c.toNat ≤ '9'.toNat := by
  rw [Char.isDigit, Bool.and_eq_true, decide_eq_true_iff, decide_eq_true_iff, ge_iff_le,
    UInt32.le_iff_toNat_le, UInt32.le_iff_toNat_le]
  rfl

theorem digitValue_lt {c : Char} (h : c.isDigit) : digitValue c < 10 := by
  have hle := (isDigit_iff.1 h).2
  change c.toNat ≤ 57 at hle
  change c.toNat - 48 < 10
  omega

/-- Digits are ordered as the characters that write them. -/
theorem digitValue_lt_iff {c d : Char} (hc : c.isDigit) (hd : d.isDigit) :
    digitValue c < digitValue d ↔ c < d := by
  have hc := (isDigit_iff.1 hc).1
  have hd := (isDigit_iff.1 hd).1
  rw [Char.lt_def, UInt32.lt_iff_toNat_lt, digitValue, digitValue]
  change _ ↔ c.toNat < d.toNat
  omega

theorem digitValue_inj {c d : Char} (hc : c.isDigit) (hd : d.isDigit) :
    digitValue c = digitValue d ↔ c = d := by
  have hc := (isDigit_iff.1 hc).1
  have hd := (isDigit_iff.1 hd).1
  rw [← Char.toNat_inj, digitValue, digitValue]
  omega

/-- Digits in front of others count so many places more. -/
theorem value_append (cs ds : List Char) :
    value (cs ++ ds) = value cs * 10 ^ ds.length + value ds := by
  rw [value, Nat.ofDigitChars_append, Nat.ofDigitChars_eq_ofDigitChars_zero, Nat.mul_comm]
  rfl

theorem value_cons (c : Char) (cs : List Char) :
    value (c :: cs) = digitValue c * 10 ^ cs.length + value cs := by
  have h := value_append [c] cs
  rwa [value, value, Nat.ofDigitChars_cons, Nat.ofDigitChars_nil, Nat.mul_zero, Nat.zero_add] at h

theorem value_replicate_zero (k : Nat) : value (List.replicate k '0') = 0 := by
  rw [value, Nat.ofDigitChars_replicate_zero, Nat.mul_zero]

theorem value_lt (h : ∀ c ∈ cs, c.isDigit) : value cs < 10 ^ cs.length := by
  induction cs with
  | nil => decide
  | cons c cs ih =>
    obtain ⟨hc, hcs⟩ := List.forall_mem_cons.1 h
    have hdigit : digitValue c + 1 ≤ 10 := digitValue_lt hc
    rw [value_cons, List.length_cons, pow_succ']
    calc digitValue c * 10 ^ cs.length + value cs
        < digitValue c * 10 ^ cs.length + 10 ^ cs.length := Nat.add_lt_add_left (ih hcs) _
      _ = (digitValue c + 1) * 10 ^ cs.length := by rw [Nat.succ_mul]
      _ ≤ 10 * 10 ^ cs.length := Nat.mul_le_mul_right _ hdigit

theorem isDigit_of_mem_padded {width n : Nat} {c : Char} (h : c ∈ padded width n) :
    c.isDigit := by
  rcases List.mem_append.1 h with h | h
  · rw [List.eq_of_mem_replicate h]
    rfl
  · exact isDigit_of_mem_digits h

/-- A number is told by its digits. -/
theorem digits_inj {n m : Nat} : digits n = digits m ↔ n = m := by
  constructor
  · intro h
    rw [← value_digits n, h, value_digits]
  · rintro rfl
    rfl

theorem text_inj {n m : Nat} : text n = text m ↔ n = m := by
  rw [← String.toList_inj, toList_text, toList_text, digits_inj]

/-- Only the digits of zero begin with a zero. -/
theorem eq_zero_of_head?_digits {n : Nat} (h : (digits n).head? = some '0') : n = 0 := by
  induction n using Nat.strongRecOn with
  | ind n ih =>
    rw [digits, Nat.toDigits_eq_if (by decide)] at h
    split at h
    · rw [List.head?_cons, Option.some.injEq] at h
      exact Nat.digitChar_eq_zero.1 h
    · -- the first digit is that of the number without its last digit
      rw [List.head?_append_of_ne_nil _ Nat.toDigits_ne_nil] at h
      have := ih (n / 10) (by omega) h
      omega

theorem length_padded_of_lt {width n : Nat} (hwidth : 0 < width) (h : n < 10 ^ width) :
    (padded width n).length = width := by
  rw [length_padded, Nat.max_eq_left]
  exact (Nat.length_toDigits_le_iff (by decide) hwidth).2 h

/-! ### The order of digits -/

/-- Digits of one width stand in the order of their numbers. -/
theorem lt_iff_value_lt (hcs : ∀ c ∈ cs, c.isDigit) (hds : ∀ d ∈ ds, d.isDigit)
    (hlength : cs.length = ds.length) : cs < ds ↔ value cs < value ds := by
  induction cs generalizing ds with
  | nil =>
    obtain rfl := List.eq_nil_of_length_eq_zero hlength.symm
    simp
  | cons c cs ih =>
    obtain ⟨d, ds, rfl⟩ := List.exists_cons_of_length_eq_add_one hlength.symm
    obtain ⟨hc, hcs⟩ := List.forall_mem_cons.1 hcs
    obtain ⟨hd, hds⟩ := List.forall_mem_cons.1 hds
    have hrest : cs.length = ds.length := Nat.succ.inj hlength
    have hx : digitValue c * 10 ^ ds.length + value cs < (digitValue c + 1) * 10 ^ ds.length := by
      rw [Nat.succ_mul, ← hrest]
      exact Nat.add_lt_add_left (value_lt hcs) _
    have hy : digitValue d * 10 ^ ds.length + value ds < (digitValue d + 1) * 10 ^ ds.length := by
      rw [Nat.succ_mul]
      exact Nat.add_lt_add_left (value_lt hds) _
    have hmono : Monotone fun a => a * 10 ^ ds.length := fun _ _ h => Nat.mul_le_mul_right _ h
    rw [value_cons, value_cons, List.cons_lt_cons_iff, ih hcs hds hrest, hrest,
      add_lt_add_iff_of_monotone hmono hx hy, digitValue_lt_iff hc hd, digitValue_inj hc hd]

/-- Fields of one width are compared before what stands behind them. -/
theorem append_lt_append_iff (h : cs.length = ds.length) {xs ys : List Char} :
    cs ++ xs < ds ++ ys ↔ cs < ds ∨ cs = ds ∧ xs < ys := by
  induction cs generalizing ds with
  | nil =>
    obtain rfl := List.eq_nil_of_length_eq_zero h.symm
    simp
  | cons c cs ih =>
    obtain ⟨d, ds, rfl⟩ := List.exists_cons_of_length_eq_add_one h.symm
    rw [List.cons_append, List.cons_append, List.cons_lt_cons_iff, List.cons_lt_cons_iff,
      ih (Nat.succ.inj h), List.cons.injEq]
    simp only [and_or_left, or_assoc, and_assoc]

/-! ### Places behind a point -/

/-- The fraction that the digits behind a point stand for. -/
def fraction (cs : List Char) : Rat := value cs / 10 ^ cs.length

theorem getLast?_trimmed (cs : List Char) : (trimmed cs).getLast? ≠ some '0' := by
  intro h
  have hne : trimmed cs ≠ [] := by
    intro hnil
    simp [hnil] at h
  rw [List.getLast?_eq_some_getLast hne, Option.some.injEq] at h
  exact List.rdropWhile_last_not (· == '0') cs hne (beq_iff_eq.2 h)

/-- Nothing but zeros is left away. -/
theorem exists_eq_trimmed_append (cs : List Char) :
    ∃ k, cs = trimmed cs ++ List.replicate k '0' := by
  refine ⟨(cs.rtakeWhile (· == '0')).length, ?_⟩
  have hzeros : ∀ c ∈ cs.rtakeWhile (· == '0'), c = '0' :=
    fun c hc => beq_iff_eq.1 (List.mem_rtakeWhile_imp (p := (· == '0')) hc)
  rw [← List.eq_replicate_of_mem hzeros]
  exact (List.rdropWhile_append_rtakeWhile).symm

theorem isDigit_of_mem_trimmed {c : Char} (h : ∀ c ∈ cs, c.isDigit) (hc : c ∈ trimmed cs) :
    c.isDigit := by
  obtain ⟨k, hk⟩ := exists_eq_trimmed_append cs
  exact h c (hk ▸ List.mem_append_left _ hc)

theorem length_trimmed_le (cs : List Char) : (trimmed cs).length ≤ cs.length := by
  obtain ⟨k, hk⟩ := exists_eq_trimmed_append cs
  have := congrArg List.length hk
  rw [List.length_append] at this
  omega

/-- Of padded digits nothing is left only if all of them are zeros. -/
theorem trimmed_padded_eq_nil_iff {width n : Nat} : trimmed (padded width n) = [] ↔ n = 0 := by
  constructor
  · intro h
    obtain ⟨k, hk⟩ := exists_eq_trimmed_append (padded width n)
    rw [← value_padded width n, hk, h, List.nil_append, value_replicate_zero]
  · rintro rfl
    refine List.rdropWhile_eq_nil_iff.2 fun c hc => ?_
    rcases List.mem_append.1 hc with hc | hc
    · exact beq_iff_eq.2 (List.eq_of_mem_replicate hc)
    · exact beq_iff_eq.2 (List.mem_singleton.1 hc)

/-- Zeros at the end do not count behind the point. -/
theorem fraction_trimmed (cs : List Char) : fraction (trimmed cs) = fraction cs := by
  obtain ⟨k, hk⟩ := exists_eq_trimmed_append cs
  have hpos : (10 : Rat) ^ k ≠ 0 := pow_ne_zero k (by decide)
  calc fraction (trimmed cs)
      = (value (trimmed cs) * 10 ^ k) / (10 ^ (trimmed cs).length * 10 ^ k) :=
        (mul_div_mul_right _ _ hpos).symm
    _ = fraction (trimmed cs ++ List.replicate k '0') := by
        rw [fraction, value_append, value_replicate_zero, List.length_append,
          List.length_replicate, pow_add]
        push_cast
        rw [add_zero]
    _ = fraction cs := by rw [← hk]

/-- What stands behind a point, if the text begins with one. -/
def behindPoint : List Char → List Char
  | '.' :: rest => rest
  | _ => []

/-- The number at the beginning of a text: its digits and, behind a point, its places. -/
def read (cs : List Char) : Rat :=
  value (cs.takeWhile Char.isDigit) +
    fraction ((behindPoint (cs.dropWhile Char.isDigit)).takeWhile Char.isDigit)

theorem takeWhile_isDigit_append (h : ∀ c ∈ cs, c.isDigit) {d : Char} (hd : ¬d.isDigit)
    (rest : List Char) : (cs ++ d :: rest).takeWhile Char.isDigit = cs := by
  rw [List.takeWhile_append_of_pos h, List.takeWhile_cons_of_neg hd, List.append_nil]

theorem dropWhile_isDigit_append (h : ∀ c ∈ cs, c.isDigit) {d : Char} (hd : ¬d.isDigit)
    (rest : List Char) : (cs ++ d :: rest).dropWhile Char.isDigit = d :: rest := by
  rw [List.dropWhile_append_of_pos h, List.dropWhile_cons_of_neg hd]

/-- A number with places is read as it was written, up to the blank behind it. -/
theorem read_withPlaces {whole places : List Char} (hwhole : ∀ c ∈ whole, c.isDigit)
    (hplaces : ∀ c ∈ places, c.isDigit) (rest : List Char) :
    read (withPlaces whole places ++ ' ' :: rest) = value whole + fraction places := by
  have hblank : ¬ ' '.isDigit := by decide
  have hpoint : ¬ '.'.isDigit := by decide
  rw [← fraction_trimmed places]
  unfold withPlaces
  split
  · rename_i hnil
    rw [read, takeWhile_isDigit_append hwhole hblank, dropWhile_isDigit_append hwhole hblank, hnil]
    rfl
  · rw [List.append_assoc, List.cons_append, read, takeWhile_isDigit_append hwhole hpoint,
      dropWhile_isDigit_append hwhole hpoint, behindPoint,
      takeWhile_isDigit_append (fun c => isDigit_of_mem_trimmed hplaces) hblank]

end Decimal

end WalletLedger
