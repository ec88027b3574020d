import WalletLedger.Proofs.Amounts

/-!
# Adding and taking away

Amounts are whole numbers cut off at the limit: `Amount.add_eq_ofTotal` reads a sum off the exact
total, and a breach stands for every total above the limit. What whole numbers give is kept by the
cut, so adding does not depend on the order or the grouping, breaches included (`Amount.add_comm`,
`Amount.add_assoc`), what was added can be taken away again, and what was taken away can be put back
unless there was more than the limit to begin with. `Amount.partialMonoidLaws` gathers the laws for
any three amounts, also those above the limit.
-/

namespace WalletLedger.Amount

variable {a b c d s t : Amount}

/-! ### Sums as totals -/

/-- The amount of a total; a total above the limit is a breach. -/
def ofTotal (n : Nat) : Except Breach Amount :=
  if n ≤ limit.toNat then .ok ⟨UInt64.ofNat n⟩ else .error .amountOverflow

/-- A total within the limit is an amount of that many units. -/
theorem ofTotal_eq_ok_iff {n : Nat} :
    ofTotal n = .ok s ↔ s.units.toNat = n ∧ n ≤ limit.toNat := by
  unfold ofTotal
  split
  · rename_i h
    have hn : (UInt64.ofNat n).toNat = n := by
      rw [limit_toNat] at h
      exact UInt64.toNat_ofNat_of_lt' (by simp [UInt64.size]; omega)
    rw [Except.ok.injEq, eq_iff_toNat_eq, hn]
    omega
  · rename_i h
    simp [h]

theorem ofTotal_of_limit_lt {n : Nat} (h : limit.toNat < n) :
    ofTotal n = .error .amountOverflow := if_neg (Nat.not_le.2 h)

/-- Whether two amounts have a sum, and which, depends on their total alone. -/
theorem add_eq_ofTotal (a b : Amount) : a.add b = ofTotal (a.units.toNat + b.units.toNat) := by
  cases h : a.add b with
  | ok s =>
    obtain ⟨hs, hle⟩ := add_eq_ok_iff.1 h
    exact (ofTotal_eq_ok_iff.2 ⟨hs, hs ▸ hle⟩).symm
  | error e =>
    obtain ⟨rfl, hlt⟩ := add_eq_error_iff.1 h
    exact (ofTotal_of_limit_lt hlt).symm

theorem add_comm (a b : Amount) : a.add b = b.add a := by
  rw [add_eq_ofTotal, add_eq_ofTotal, Nat.add_comm]

/-- Adding to a total adds to the number: a total above the limit stays above it. -/
theorem ofTotal_bind_add (n : Nat) (c : Amount) :
    (ofTotal n >>= fun s => s.add c) = ofTotal (n + c.units.toNat) := by
  by_cases h : n ≤ limit.toNat
  · obtain ⟨s, hs⟩ : ∃ s, ofTotal n = .ok s := ⟨_, if_pos h⟩
    rw [hs, ← (ofTotal_eq_ok_iff.1 hs).1]
    exact add_eq_ofTotal s c
  · rw [ofTotal_of_limit_lt (by omega), ofTotal_of_limit_lt (by omega)]
    rfl

/-- Three amounts may be added in either grouping, and if the total is above the limit both are a
breach. -/
theorem add_assoc (a b c : Amount) :
    (a.add b >>= fun s => s.add c) = b.add c >>= fun s => a.add s := by
  have hright : (b.add c >>= fun s => a.add s) = b.add c >>= fun s => s.add a := by
    simp only [add_comm a]
  rw [hright, add_eq_ofTotal, add_eq_ofTotal, ofTotal_bind_add, ofTotal_bind_add]
  congr 1
  omega

/-- Nothing is added by zero. An amount above the limit is no sum at all, not even of itself and
zero. -/
theorem add_zero (h : a.units.toNat ≤ limit.toNat) : a.add zero = .ok a :=
  add_eq_ok_iff.2 ⟨rfl, h⟩

/-! ### Taking away what was added -/

theorem subtract_of_add (h : a.add b = .ok s) : s.subtract b = .ok a :=
  subtract_eq_ok_iff.2 (add_eq_ok_iff.1 h).1.symm

theorem add_of_subtract (ha : a.units.toNat ≤ limit.toNat) (h : a.subtract b = .ok d) :
    d.add b = .ok a :=
  add_eq_ok_iff.2 ⟨(subtract_eq_ok_iff.1 h).symm, ha⟩

theorem add_right_cancel (ha : a.add c = .ok s) (hb : b.add c = .ok s) : a = b := by
  have hsame := subtract_of_add hb
  rwa [subtract_of_add ha, Except.ok.injEq] at hsame

/-! ### The order of sums and differences -/

theorem le_iff_toNat_le : a ≤ b ↔ a.units.toNat ≤ b.units.toNat := UInt64.le_iff_toNat_le

/-- Sums with the same amount are ordered as what it was added to. -/
theorem le_iff_of_add (ha : a.add c = .ok s) (hb : b.add c = .ok t) : s ≤ t ↔ a ≤ b := by
  rw [le_iff_toNat_le, le_iff_toNat_le, (add_eq_ok_iff.1 ha).1, (add_eq_ok_iff.1 hb).1,
    Nat.add_le_add_iff_right]

theorem le_iff_of_subtract (ha : a.subtract c = .ok s) (hb : b.subtract c = .ok t) :
    s ≤ t ↔ a ≤ b := by
  rw [le_iff_toNat_le, le_iff_toNat_le, ← subtract_eq_ok_iff.1 ha, ← subtract_eq_ok_iff.1 hb,
    Nat.add_le_add_iff_right]

/-! ### The laws together -/

/-- Three amounts are added, taken away and compared as whole numbers are, as far as the results
are defined. -/
structure PartialMonoidLaws (a b c : Amount) : Prop where
  /-- A sum within the limit is the sum of the numbers. -/
  sum_iff : ∀ s, a.add b = .ok s ↔
    s.units.toNat = a.units.toNat + b.units.toNat ∧
      a.units.toNat + b.units.toNat ≤ 9223372036854775807
  /-- A sum above the limit is a breach, and no other is. -/
  breach_iff : ∀ breach, a.add b = .error breach ↔
    breach = .amountOverflow ∧ 9223372036854775807 < a.units.toNat + b.units.toNat
  /-- A difference is what is left of the number. -/
  difference_iff : ∀ d, a.subtract b = .ok d ↔ d.units.toNat + b.units.toNat = a.units.toNat
  /-- The order does not matter. -/
  comm : a.add b = b.add a
  /-- The grouping does not matter, not even to whether there is a breach. -/
  assoc : (a.add b >>= fun s => s.add c) = b.add c >>= fun s => a.add s
  /-- Nothing is added by the amount of nothing. -/
  zero : a.units.toNat ≤ 9223372036854775807 → a.add zero = .ok a
  /-- Different amounts do not become the same. -/
  cancel : ∀ s, a.add c = .ok s → b.add c = .ok s → a = b
  /-- What was added can be taken away. -/
  subtract_of_add : ∀ s, a.add b = .ok s → s.subtract b = .ok a
  /-- What was taken from an amount within the limit can be put back. -/
  add_of_subtract : ∀ d, a.subtract b = .ok d → a.units.toNat ≤ 9223372036854775807 →
    d.add b = .ok a
  /-- Sums are ordered as what they are sums of. -/
  add_le_iff : ∀ s t, a.add c = .ok s → b.add c = .ok t → (s ≤ t ↔ a ≤ b)
  /-- Differences are ordered as the amounts that the same was taken from. -/
  subtract_le_iff : ∀ s t, a.subtract c = .ok s → b.subtract c = .ok t → (s ≤ t ↔ a ≤ b)

/-- **Amounts are a partial monoid.** Any three amounts, within the limit or above it, obey the laws
of an ordered cancellative monoid as far as their sums and differences are defined, and the sums of
the same amounts are all defined or all breaches. -/
theorem partialMonoidLaws (a b c : Amount) : PartialMonoidLaws a b c where
  sum_iff := fun s => by rw [add_eq_ofTotal, ofTotal_eq_ok_iff, limit_toNat]
  breach_iff := fun _ => add_eq_error_iff
  difference_iff := fun _ => subtract_eq_ok_iff
  comm := add_comm a b
  assoc := add_assoc a b c
  zero := add_zero
  cancel := fun _ => add_right_cancel
  subtract_of_add := fun _ => subtract_of_add
  add_of_subtract := fun _ hd ha => add_of_subtract ha hd
  add_le_iff := fun _ _ => le_iff_of_add
  subtract_le_iff := fun _ _ => le_iff_of_subtract

/-- The largest amount is reached by adding, and taken apart again. Both ways of adding one more to
it are breaches, although only one of them breaks off at its first sum. What is left of an amount
above the limit cannot always be put back. -/
theorem partialMonoidLaws_at_limit :
    let largest : Amount := ⟨9223372036854775807⟩
    let above : Amount := ⟨18446744073709551615⟩
    Amount.add ⟨9223372036854775806⟩ ⟨1⟩ = .ok largest ∧
    largest.subtract ⟨1⟩ = .ok ⟨9223372036854775806⟩ ∧
    (largest.add ⟨1⟩ >>= fun s => s.add zero) = .error .amountOverflow ∧
    (Amount.add ⟨1⟩ zero >>= fun s => largest.add s) = .error .amountOverflow ∧
    above.subtract ⟨1⟩ = .ok ⟨18446744073709551614⟩ ∧
    Amount.add ⟨18446744073709551614⟩ ⟨1⟩ = .error .amountOverflow := by
  intro largest above
  have hsum : Amount.add ⟨9223372036854775806⟩ ⟨1⟩ = .ok largest :=
    ((partialMonoidLaws _ _ zero).sum_iff _).2 ⟨rfl, by decide⟩
  have hover : largest.add ⟨1⟩ = .error .amountOverflow :=
    ((partialMonoidLaws _ _ zero).breach_iff _).2 ⟨rfl, by decide⟩
  have hfirst : (largest.add ⟨1⟩ >>= fun s => s.add zero) = .error .amountOverflow := by
    rw [hover]
    rfl
  refine ⟨hsum, (partialMonoidLaws _ _ zero).subtract_of_add _ hsum, hfirst, ?_,
    subtract_eq_ok_iff.2 (by decide), ?_⟩
  · rw [← (partialMonoidLaws largest ⟨1⟩ zero).assoc, hfirst]
  · exact ((partialMonoidLaws _ _ zero).breach_iff _).2 ⟨rfl, by decide⟩

end WalletLedger.Amount
