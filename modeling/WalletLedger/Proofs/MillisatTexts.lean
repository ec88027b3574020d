import WalletLedger.Amount
import WalletLedger.Millisats
import WalletLedger.Proofs.DecimalTexts
import Mathlib.Tactic.NormNum

/-!
# Fees in thousandths, as text

A number of thousandths is shown as a decimal number of satoshis in its one shortest form
(`Decimal.IsShortest`). The zeros at the end of its three places can be taken off one after the
other, since one of the places is something else (`Decimal.popZeros?_eq`); what is left is read back
as the same number (`Millisats.read_text`), so no two numbers look alike (`Millisats.text_inj`).
-/

namespace WalletLedger

namespace Decimal

/-! ### The shortest form -/

/-- A number in its shortest form: digits with no zero in front that could be left out, and behind
the point, if there are places, digits of which the last is not a zero. -/
structure IsShortest (whole places : List Char) : Prop where
  whole_ne_nil : whole ≠ []
  isDigit_of_mem_whole : ∀ c ∈ whole, c.isDigit
  whole_of_head? : whole.head? = some '0' → whole = ['0']
  isDigit_of_mem_places : ∀ c ∈ places, c.isDigit
  getLast?_places : places.getLast? ≠ some '0'

/-- No digit can be left away from plain digits and places without zeros at their end. -/
theorem isShortest_digits_trimmed (n : Nat) {places : List Char}
    (h : ∀ c ∈ places, c.isDigit) : IsShortest (digits n) (trimmed places) where
  whole_ne_nil := digits_ne_nil n
  isDigit_of_mem_whole := fun _ => isDigit_of_mem_digits
  whole_of_head? := by
    intro hzero
    rw [eq_zero_of_head?_digits hzero]
    rfl
  isDigit_of_mem_places := fun _ => isDigit_of_mem_trimmed h
  getLast?_places := getLast?_trimmed places

/-! ### Taking zeros off -/

/-- Zeros taken off the end one after the other, for as long as the last digit is one. There is no
result if the digits run out before another one is seen. -/
def popZeros? (cs : List Char) : Option (List Char) :=
  match _h : cs.getLast? with
  | none => none
  | some c => if c = '0' then popZeros? cs.dropLast else some cs
termination_by cs.length
decreasing_by
  have hne : cs ≠ [] := by
    rintro rfl
    contradiction
  have := List.length_pos_of_ne_nil hne
  rw [List.length_dropLast]
  omega

theorem popZeros?_nil : popZeros? [] = none := by
  rw [popZeros?]
  rfl

theorem popZeros?_concat (cs : List Char) (c : Char) :
    popZeros? (cs ++ [c]) = if c = '0' then popZeros? cs else some (cs ++ [c]) := by
  rw [popZeros?]
  split
  · simp_all
  · simp_all

/-- The zeros are taken off without running out of digits exactly if some digit is left. -/
theorem popZeros?_eq (cs : List Char) :
    popZeros? cs = if trimmed cs = [] then none else some (trimmed cs) := by
  induction cs using List.reverseRecOn with
  | nil => exact popZeros?_nil
  | append_singleton cs c ih =>
    rw [popZeros?_concat]
    by_cases hc : c = '0'
    · have htrimmed : trimmed (cs ++ [c]) = trimmed cs :=
        List.rdropWhile_concat_pos (· == '0') cs c (beq_iff_eq.2 hc)
      rw [if_pos hc, htrimmed, ih]
    · have htrimmed : trimmed (cs ++ [c]) = cs ++ [c] :=
        List.rdropWhile_concat_neg (· == '0') cs c (mt beq_iff_eq.1 hc)
      rw [if_neg hc, htrimmed, if_neg (by simp)]

end Decimal

namespace Millisats

/-! ### The text of a number of thousandths -/

/-- The thousandths beyond the last full satoshi, in three digits. -/
def places (m : Millisats) : List Char := Decimal.padded 3 (m.count.toNat % 1000)

theorem isDigit_of_mem_places (m : Millisats) : ∀ c ∈ m.places, c.isDigit :=
  fun _ => Decimal.isDigit_of_mem_padded

theorem length_places (m : Millisats) : m.places.length = 3 :=
  Decimal.length_padded_of_lt (by decide) (Nat.mod_lt _ (by decide))

theorem trimmed_places_eq_nil_iff (m : Millisats) :
    Decimal.trimmed m.places = [] ↔ m.count.toNat % 1000 = 0 :=
  Decimal.trimmed_padded_eq_nil_iff

theorem toList_text (m : Millisats) :
    m.text.toList =
      Decimal.withPlaces (Decimal.digits (m.count.toNat / 1000)) m.places ++ " sats".toList := by
  rw [text, String.toList_append, String.toList_ofList]
  rfl

theorem fraction_places (m : Millisats) :
    Decimal.fraction m.places = (m.count.toNat % 1000 : Nat) / 1000 := by
  rw [Decimal.fraction, length_places, places, Decimal.value_padded]
  norm_num

/-- The text is read as the number it was written for. -/
theorem read_text (m : Millisats) : Decimal.read m.text.toList * 1000 = m.count.toNat := by
  have hread := Decimal.read_withPlaces
    (fun _ => Decimal.isDigit_of_mem_digits (n := m.count.toNat / 1000)) m.isDigit_of_mem_places
    "sats".toList
  have hsplit : ((m.count.toNat / 1000 * 1000 + m.count.toNat % 1000 : Nat) : Rat) =
      m.count.toNat := by
    rw [Nat.div_add_mod']
  change Decimal.read (_ ++ " sats".toList) = _ at hread
  rw [toList_text, hread, Decimal.value_digits, fraction_places, add_mul,
    div_mul_cancel₀ _ (by norm_num), ← hsplit]
  push_cast
  rfl

/-- The text tells the number of thousandths. -/
theorem text_inj {m n : Millisats} : m.text = n.text ↔ m = n := by
  constructor
  · intro h
    have hcount : (m.count.toNat : Rat) = n.count.toNat := by
      rw [← read_text m, h, read_text]
    obtain ⟨count⟩ := m
    obtain ⟨count'⟩ := n
    rw [mk.injEq, ← UInt64.toNat_inj]
    exact_mod_cast hcount
  · rintro rfl
    rfl

/-- Full satoshis are shown as an amount. -/
theorem text_of_thousands {m : Millisats} {a : Amount}
    (h : m.count.toNat = 1000 * a.units.toNat) : m.text = a.text := by
  have hnone : Decimal.trimmed m.places = [] := by
    rw [trimmed_places_eq_nil_iff]
    omega
  have hwhole : m.count.toNat / 1000 = a.units.toNat := by omega
  rw [← String.toList_inj, toList_text, Decimal.withPlaces, if_pos hnone, hwhole, Amount.text,
    String.toList_append, Decimal.toList_text]

/-- **Thousandths are shown exactly and in one way.** The text is a number of satoshis in its
shortest decimal form, with one to three places exactly if the thousandths are not full satoshis;
the zeros are taken off the places without running out of digits; the number is read back from its
text, and so no other number has this text; and full satoshis are shown as an amount is. -/
theorem text_exact (m : Millisats) :
    (∃ whole places, Decimal.IsShortest whole places ∧
      m.text.toList = whole ++ (if places = [] then [] else '.' :: places) ++ " sats".toList ∧
      (places = [] ↔ m.count.toNat % 1000 = 0) ∧ places.length ≤ 3 ∧
      (m.count.toNat % 1000 ≠ 0 →
        Decimal.popZeros? (Decimal.padded 3 (m.count.toNat % 1000)) = some places)) ∧
    Decimal.read m.text.toList * 1000 = m.count.toNat ∧
    (∀ n : Millisats, m.text = n.text ↔ m = n) ∧
    ∀ units : UInt64, 1000 * units.toNat < 18446744073709551616 →
      text ⟨1000 * units⟩ = Amount.text ⟨units⟩ := by
  refine ⟨⟨_, _, Decimal.isShortest_digits_trimmed (m.count.toNat / 1000) m.isDigit_of_mem_places,
    ?_, m.trimmed_places_eq_nil_iff, ?_, fun hplaces => ?_⟩, m.read_text, fun n => text_inj,
    fun units hunits => text_of_thousands ?_⟩
  · rw [toList_text, Decimal.withPlaces]
    split <;> simp
  · exact m.length_places ▸ Decimal.length_trimmed_le m.places
  · exact (Decimal.popZeros?_eq m.places).trans (if_neg (mt m.trimmed_places_eq_nil_iff.1 hplaces))
  · rw [UInt64.toNat_mul]
    exact Nat.mod_eq_of_lt hunits

/-- A zero in front of a digit stays and one behind it goes, and the most full satoshis that can be
reckoned in thousandths are shown as the amount. -/
theorem text_exact_hundredth :
    1010 % 1000 ≠ 0 ∧
    (∃ whole, (text ⟨1010⟩).toList = whole ++ '.' :: ['0', '1'] ++ " sats".toList) ∧
    1000 * (18446744073709551 : UInt64).toNat < 18446744073709551616 ∧
    text ⟨1000 * 18446744073709551⟩ = Amount.text ⟨18446744073709551⟩ := by
  obtain ⟨⟨whole, places, -, htext, -, -, hplaces⟩, -, -, hfull⟩ := text_exact ⟨1010⟩
  have hpop : Decimal.popZeros? (Decimal.padded 3 10) = some ['0', '1'] := by
    rw [Decimal.popZeros?_eq]
    decide
  obtain rfl := Option.some.inj ((hplaces (by decide)).symm.trans hpop)
  exact ⟨by decide, ⟨whole, htext⟩, by decide, hfull _ (by decide)⟩

end Millisats

end WalletLedger
