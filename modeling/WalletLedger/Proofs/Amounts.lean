import WalletLedger.Amount

/-!
# Amounts as whole numbers

An amount is a word, but what is added to it and taken from it is meant as a whole number. Here the
operations are described by the number of units alone: `add_eq_ok_iff` and `subtract_eq_ok_iff` say
which amount is answered, `add_eq_error_iff` and `subtract_eq_error_iff` when none is.
-/

namespace WalletLedger

/-- A signed number becomes the word that stands for the same whole number. -/
theorem unsigned?_eq_some_iff {n : Int64} {u : UInt64} :
    unsigned? n = some u ↔ (u.toNat : Int) = n.toInt := by
  have hlt := n.toInt_lt
  unfold unsigned?
  split
  · rename_i h
    rw [Int64.lt_iff_toInt_lt, Int64.toInt_zero] at h
    constructor
    · rintro ⟨⟩
    · omega
  · rename_i h
    have hn : (n.toUInt64.toNat : Int) = n.toInt := by
      rw [Int64.toNat_toUInt64_of_le (by simpa using h), Int64.toNatClampNeg]
      rw [Int64.lt_iff_toInt_lt, Int64.toInt_zero] at h
      omega
    rw [Option.some.injEq, ← UInt64.toNat_inj]
    omega

theorem unsigned?_eq_none_iff {n : Int64} : unsigned? n = none ↔ n.toInt < 0 := by
  simp [unsigned?, Int64.lt_iff_toInt_lt]

/-- What was a signed number has at most 63 bits. -/
theorem le_of_unsigned? {n : Int64} {u : UInt64} (h : unsigned? n = some u) :
    u.toNat ≤ 9223372036854775807 := by
  have hn := unsigned?_eq_some_iff.1 h
  have hlt := n.toInt_lt
  omega

namespace Amount

variable {a b c : Amount}

theorem limit_toNat : limit.toNat = 9223372036854775807 := rfl

theorem eq_iff_toNat_eq : a = b ↔ a.units.toNat = b.units.toNat := by
  obtain ⟨x⟩ := a
  obtain ⟨y⟩ := b
  rw [UInt64.toNat_inj, mk.injEq]

/-- An amount is made of every number that is not negative, and has as many units. -/
theorem ofUnits_eq_ok_iff {n : Int64} : ofUnits n = .ok a ↔ (a.units.toNat : Int) = n.toInt := by
  rw [← unsigned?_eq_some_iff]
  cases hn : unsigned? n with
  | none => simp [ofUnits, ofUnits?, hn]
  | some u =>
    simp only [ofUnits, ofUnits?, hn, Option.map_some, Except.ok.injEq, Option.some.injEq]
    rw [eq_iff_toNat_eq, UInt64.toNat_inj]

theorem ofUnits_eq_error_iff {n : Int64} {e : AmountError} :
    ofUnits n = .error e ↔ e = .invalidAmount ∧ n.toInt < 0 := by
  rw [← unsigned?_eq_none_iff]
  cases hn : unsigned? n <;> simp [ofUnits, ofUnits?, hn, eq_comm]

/-- The two comparisons of `add` come to a single one between whole numbers. -/
theorem add_fits_iff :
    ¬(limit < a.units ∨ limit - a.units < b.units) ↔
      a.units.toNat + b.units.toNat ≤ limit.toNat := by
  rw [not_or, UInt64.lt_iff_toNat_lt, UInt64.lt_iff_toNat_lt]
  constructor
  · rintro ⟨ha, hb⟩
    rw [UInt64.toNat_sub_of_le _ _ (UInt64.le_iff_toNat_le.2 (Nat.not_lt.1 ha))] at hb
    omega
  · intro h
    rw [UInt64.toNat_sub_of_le _ _ (UInt64.le_iff_toNat_le.2 (by omega))]
    omega

/-- A sum is answered if it is within the limit, and is then the sum of the whole numbers. -/
theorem add_eq_ok_iff :
    a.add b = .ok c ↔
      c.units.toNat = a.units.toNat + b.units.toNat ∧ c.units.toNat ≤ limit.toNat := by
  unfold add
  split
  · rename_i h
    have hover := mt add_fits_iff.2 (not_not_intro h)
    constructor
    · rintro ⟨⟩
    · omega
  · rename_i h
    have hfits := add_fits_iff.1 h
    -- a sum within the limit is far from where words wrap around
    have hsum : (a.units + b.units).toNat = a.units.toNat + b.units.toNat := by
      rw [UInt64.toNat_add]
      have := limit_toNat
      omega
    rw [Except.ok.injEq, eq_iff_toNat_eq, hsum]
    omega

/-- A sum above the limit is a breach, whichever of the two comparisons finds it. -/
theorem add_eq_error_iff {e : Breach} :
    a.add b = .error e ↔
      e = .amountOverflow ∧ limit.toNat < a.units.toNat + b.units.toNat := by
  rw [← Nat.not_le, ← add_fits_iff, Classical.not_not]
  unfold add
  split <;> simp_all [eq_comm]

/-- A difference is what must be added to get back to the larger amount. -/
theorem subtract_eq_ok_iff :
    a.subtract b = .ok c ↔ c.units.toNat + b.units.toNat = a.units.toNat := by
  unfold subtract
  split
  · rename_i h
    rw [UInt64.lt_iff_toNat_lt] at h
    constructor
    · rintro ⟨⟩
    · omega
  · rename_i h
    rw [UInt64.not_lt] at h
    have hdiff := UInt64.toNat_sub_of_le _ _ h
    rw [UInt64.le_iff_toNat_le] at h
    rw [Except.ok.injEq, eq_iff_toNat_eq, hdiff]
    omega

theorem subtract_eq_error_iff {e : AmountError} :
    a.subtract b = .error e ↔ e = .underflow ∧ a.units.toNat < b.units.toNat := by
  rw [← UInt64.lt_iff_toNat_lt]
  unfold subtract
  split <;> simp_all [eq_comm]

/-- The difference of two amounts, if it is an amount. -/
theorem exists_subtract_eq_ok (h : b.units.toNat ≤ a.units.toNat) :
    ∃ c, a.subtract b = .ok c ∧ c.units.toNat + b.units.toNat = a.units.toNat := by
  cases hsub : a.subtract b with
  | ok c => exact ⟨c, rfl, subtract_eq_ok_iff.1 hsub⟩
  | error e =>
    have := (subtract_eq_error_iff.1 hsub).2
    omega

end Amount

end WalletLedger
