import WalletLedger.Proofs.Acceptance
import WalletLedger.View

/-!
# What can be shown of a well-formed entry

A well-formed entry has listed codes and an amount with a signed counterpart, so nothing that is
asked of it meets a breach: `Entry.view_isWhole` says that every part of its view can be shown, and
`Entry.signedUnits_inbound` and `Entry.signedUnits_outbound` with which sign its amount counts.
-/

namespace WalletLedger

namespace Movement

theorem classify_inbound (status : Status) :
    classify (.listed .inbound) (.listed status) = .ok ⟨1, inboundVerb status⟩ := rfl

theorem classify_outbound (status : Status) :
    classify (.listed .outbound) (.listed status) = .ok ⟨-1, outboundVerb status⟩ := rfl

/-- There are words for every movement with listed codes. -/
theorem exists_classify_eq_ok {flow : Coded Flow} {status : Coded Status}
    (hflow : ∃ f, flow = .listed f) (hstatus : ∃ s, status = .listed s) :
    ∃ c, classify flow status = .ok c := by
  obtain ⟨f, rfl⟩ := hflow
  obtain ⟨s, rfl⟩ := hstatus
  cases f with
  | inbound => exact ⟨_, classify_inbound s⟩
  | outbound => exact ⟨_, classify_outbound s⟩

/-- A listed flow has a sign to be written before the amount. -/
theorem exists_signText_eq_ok {flow : Coded Flow} (hflow : ∃ f, flow = .listed f) :
    ∃ text, signText flow = .ok text := by
  obtain ⟨f, rfl⟩ := hflow
  cases f <;> exact ⟨_, rfl⟩

theorem exists_arrow_eq_ok {flow : Coded Flow} (hflow : ∃ f, flow = .listed f) :
    ∃ a, arrow flow = .ok a := by
  obtain ⟨f, rfl⟩ := hflow
  cases f <;> exact ⟨_, rfl⟩

end Movement

namespace Entry

variable {e : Entry}

/-- The headline has the words for the movement. -/
theorem headline_of_classify {c : Classification}
    (hc : Movement.classify e.flow e.status = .ok c) : e.headline = .ok ("You " ++ c.verb) := by
  rw [headline, hc]
  rfl

/-- A well-formed amount has a signed counterpart, so its sign is that of the movement. -/
theorem signedUnits_of_classify (h : e.WellFormed) {c : Classification}
    (hc : Movement.classify e.flow e.status = .ok c) :
    e.signedUnits = .ok (c.sign * (e.amount.units.toNat : Int)) := by
  have hle : ¬Amount.limit < e.amount.units := by
    rw [UInt64.lt_iff_toNat_lt, Amount.limit_toNat]
    have := h.amount
    omega
  rw [signedUnits, if_neg hle, hc]
  rfl

/-- What came in counts in full. -/
theorem signedUnits_inbound (h : e.WellFormed) (hflow : e.flow = .listed .inbound) :
    e.signedUnits = .ok (e.amount.units.toNat : Int) := by
  obtain ⟨s, hs⟩ := h.status
  have hc := Movement.classify_inbound s
  rw [← hflow, ← hs] at hc
  rw [signedUnits_of_classify h hc, Int.one_mul]

/-- What went out counts against what came in. -/
theorem signedUnits_outbound (h : e.WellFormed) (hflow : e.flow = .listed .outbound) :
    e.signedUnits = .ok (-(e.amount.units.toNat : Int)) := by
  obtain ⟨s, hs⟩ := h.status
  have hc := Movement.classify_outbound s
  rw [← hflow, ← hs] at hc
  rw [signedUnits_of_classify h hc, Int.neg_mul, Int.one_mul]

/-- **All that there is to a well-formed entry can be shown.** -/
theorem view_isWhole (h : e.WellFormed) : e.view.IsWhole := by
  obtain ⟨c, hc⟩ := Movement.exists_classify_eq_ok h.flow h.status
  exact {
    arrow := Movement.exists_arrow_eq_ok h.flow
    signText := Movement.exists_signText_eq_ok h.flow
    headline := ⟨_, headline_of_classify hc⟩
    signedUnits := ⟨_, signedUnits_of_classify h hc⟩ }

end Entry

end WalletLedger
