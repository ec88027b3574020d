import Mathlib.Algebra.BigOperators.Group.List.Basic
import Mathlib.Algebra.Order.Ring.Int
import WalletLedger.Ledger
import WalletLedger.Proofs.Snapshots
import WalletLedger.Proofs.Views

/-!
# Totals are exact

The totals of a ledger are reckoned amount by amount, with a check at each addition. `totals_cases`
says that the checks come to one at the end: the totals are the exact sums (`flowSum`) if these are
amounts, and there are none otherwise. So they do not depend on the order of the records
(`totals_congr`), and the difference of the two is the sum of the signed amounts
(`exists_mapM_signedUnits`).
-/

namespace WalletLedger

/-- The exact sum of the amounts of a flow. -/
def flowSum (flow : Flow) (entries : List Entry) : ℕ :=
  ((entries.filter fun e => e.flow = .listed flow).map fun e => e.amount.units.toNat).sum

theorem flowSum_cons_of_eq {flow : Flow} {e : Entry} (h : e.flow = .listed flow)
    (rest : List Entry) : flowSum flow (e :: rest) = e.amount.units.toNat + flowSum flow rest := by
  simp [flowSum, h]

theorem flowSum_cons_of_ne {flow : Flow} {e : Entry} (h : e.flow ≠ .listed flow)
    (rest : List Entry) : flowSum flow (e :: rest) = flowSum flow rest := by
  simp [flowSum, h]

theorem flowSum_perm {entries others : List Entry} (h : entries.Perm others) (flow : Flow) :
    flowSum flow entries = flowSum flow others :=
  ((h.filter _).map _).sum_eq

/-! ### One check instead of many -/

/-- Adding up from an amount within the limit succeeds or fails as the exact sum does. -/
theorem foldlM_add_cases (entries : List Entry) (start : Amount)
    (h : start.units.toNat ≤ Amount.limit.toNat) :
    (Amount.limit.toNat < start.units.toNat + (entries.map fun e => e.amount.units.toNat).sum ∧
      entries.foldlM (fun sum e => sum.add e.amount) start = .error .amountOverflow) ∨
    (∃ total, entries.foldlM (fun sum e => sum.add e.amount) start = .ok total ∧
      total.units.toNat = start.units.toNat + (entries.map fun e => e.amount.units.toNat).sum ∧
      total.units.toNat ≤ Amount.limit.toNat) := by
  -- each partial sum is a start within the limit for the entries after it
  induction entries generalizing start with
  | nil => exact Or.inr ⟨start, rfl, by simp, h⟩
  | cons e rest ih =>
    rw [List.map_cons, List.sum_cons, ← Nat.add_assoc, List.foldlM_cons]
    cases hadd : start.add e.amount with
    | error b =>
      -- a partial sum above the limit keeps the whole sum above it
      obtain ⟨rfl, hlt⟩ := Amount.add_eq_error_iff.1 hadd
      exact Or.inl ⟨by omega, rfl⟩
    | ok next =>
      obtain ⟨hnext, hle⟩ := Amount.add_eq_ok_iff.1 hadd
      rw [← hnext]
      exact ih next hle

theorem flowTotal_cases (flow : Flow) (entries : List Entry) :
    (Amount.limit.toNat < flowSum flow entries ∧
      flowTotal flow entries = .error .amountOverflow) ∨
    (∃ total, flowTotal flow entries = .ok total ∧
      total.units.toNat = flowSum flow entries ∧ flowSum flow entries ≤ Amount.limit.toNat) := by
  have hzero : Amount.zero.units.toNat = 0 := rfl
  rcases foldlM_add_cases (entries.filter fun e => e.flow = .listed flow)
    Amount.zero (by omega) with ⟨hlt, herr⟩ | ⟨total, hok, htotal, hle⟩
  · rw [hzero, Nat.zero_add] at hlt
    exact Or.inl ⟨hlt, herr⟩
  · rw [hzero, Nat.zero_add] at htotal
    rw [htotal] at hle
    exact Or.inr ⟨total, hok, htotal, hle⟩

/-- The totals are the exact sums if both are amounts, and otherwise there are none. -/
theorem totals_cases (entries : List Entry) :
    ((Amount.limit.toNat < flowSum .inbound entries ∨
        Amount.limit.toNat < flowSum .outbound entries) ∧
      totals entries = .error .amountOverflow) ∨
    (∃ t, totals entries = .ok t ∧
      (t.inbound.units.toNat = flowSum .inbound entries ∧
        flowSum .inbound entries ≤ Amount.limit.toNat) ∧
      (t.outbound.units.toNat = flowSum .outbound entries ∧
        flowSum .outbound entries ≤ Amount.limit.toNat) ∧
      t.net = t.inbound.subtract t.outbound) := by
  unfold totals
  rcases flowTotal_cases .inbound entries with ⟨hlt, herr⟩ | ⟨inbound, hin, hsum⟩
  · rw [herr]
    exact Or.inl ⟨Or.inl hlt, rfl⟩
  · rw [hin]
    rcases flowTotal_cases .outbound entries with ⟨hlt, herr⟩ | ⟨outbound, hout, hsum'⟩
    · rw [herr]
      exact Or.inl ⟨Or.inr hlt, rfl⟩
    · rw [hout]
      exact Or.inr ⟨_, rfl, hsum, hsum', rfl⟩

/-- Entries with the same sums have the same totals, or both have none. -/
theorem totals_congr {entries others : List Entry}
    (hin : flowSum .inbound entries = flowSum .inbound others)
    (hout : flowSum .outbound entries = flowSum .outbound others) :
    totals entries = totals others := by
  rcases totals_cases entries with ⟨hlt, herr⟩ | ⟨⟨inbound, outbound, net⟩, hok, hsum, hsum', hnet⟩
  · rcases totals_cases others with ⟨-, herr'⟩ | ⟨t, -, hsum, hsum', -⟩
    · rw [herr, herr']
    · omega
  · rcases totals_cases others with ⟨hlt, -⟩ | ⟨⟨inbound', outbound', net'⟩, hok', ht, ht', hnet'⟩
    · omega
    · have hinbound : inbound = inbound' := by
        rw [Amount.eq_iff_toNat_eq]
        exact hsum.1.trans (hin.trans ht.1.symm)
      have houtbound : outbound = outbound' := by
        rw [Amount.eq_iff_toNat_eq]
        exact hsum'.1.trans (hout.trans ht'.1.symm)
      subst hinbound houtbound
      rw [hok, hok', show net = net' from hnet.trans hnet'.symm]

/-! ### The sum of the signed amounts -/

/-- Well-formed entries all have a signed amount, and these come to the difference of the two
sums. -/
theorem exists_mapM_signedUnits (entries : List Entry) (h : ∀ e ∈ entries, e.WellFormed) :
    ∃ units, entries.mapM Entry.signedUnits = .ok units ∧
      units.sum = (flowSum .inbound entries : ℤ) - flowSum .outbound entries := by
  induction entries with
  | nil => exact ⟨[], rfl, rfl⟩
  | cons e rest ih =>
    obtain ⟨units, hunits, hsum⟩ := ih fun e he => h e (List.mem_cons_of_mem _ he)
    have hwf := h e List.mem_cons_self
    obtain ⟨flow, hflow⟩ := hwf.flow
    rw [List.mapM_cons, hunits]
    cases flow with
    | inbound =>
      rw [Entry.signedUnits_inbound hwf hflow, flowSum_cons_of_eq hflow,
        flowSum_cons_of_ne (show e.flow ≠ .listed .outbound by simp [hflow])]
      refine ⟨_, rfl, ?_⟩
      rw [List.sum_cons, hsum]
      omega
    | outbound =>
      rw [Entry.signedUnits_outbound hwf hflow, flowSum_cons_of_eq hflow,
        flowSum_cons_of_ne (show e.flow ≠ .listed .inbound by simp [hflow])]
      refine ⟨_, rfl, ?_⟩
      rw [List.sum_cons, hsum]
      omega

theorem wellFormed_of_mem_entries {records : List Record} :
    ∀ e ∈ (Intake.ofRecords records).entries, e.WellFormed := by
  intro e he
  obtain ⟨r, -, hr⟩ := Intake.mem_entries_iff.1 he
  exact Entry.wellFormed_of_toEntry hr

/-- **Totals are exact and do not depend on the order.** Of the entries that a list of records makes
there are no totals exactly when the sum of a flow is above the limit. Otherwise both sums are
exact, and what is left of the one without the other is the sum of the signed amounts if that is
not negative, and an underflow if it is. Neither another order of the records nor rejected records
among them make a difference. -/
theorem totals_ofRecords (records : List Record) :
    let entries := (Intake.ofRecords records).entries
    (totals entries = .error .amountOverflow ↔
      9223372036854775807 < flowSum .inbound entries ∨
      9223372036854775807 < flowSum .outbound entries) ∧
    (flowSum .inbound entries ≤ 9223372036854775807 →
      flowSum .outbound entries ≤ 9223372036854775807 →
      ∃ t units, totals entries = .ok t ∧
        t.inbound.units.toNat = flowSum .inbound entries ∧
        t.outbound.units.toNat = flowSum .outbound entries ∧
        entries.mapM Entry.signedUnits = .ok units ∧
        (0 ≤ units.sum → ∃ net, t.net = .ok net ∧ (net.units.toNat : ℤ) = units.sum) ∧
        (units.sum < 0 → t.net = .error .underflow)) ∧
    (∀ others, records.Perm others →
      totals (Intake.ofRecords others).entries = totals entries) ∧
    (∀ others, others.filter Record.isAccepted = records.filter Record.isAccepted →
      totals (Intake.ofRecords others).entries = totals entries) := by
  intro entries
  have hlimit := Amount.limit_toNat
  refine ⟨?_, fun hin hout => ?_, fun others h => ?_, fun others h => ?_⟩
  · rcases totals_cases entries with ⟨hlt, herr⟩ | ⟨t, hok, hin, hout, -⟩
    · exact iff_of_true herr hlt
    · refine iff_of_false (by simp [hok]) ?_
      omega
  · obtain ⟨units, hunits, hsum⟩ :=
      exists_mapM_signedUnits entries wellFormed_of_mem_entries
    rcases totals_cases entries with ⟨hlt, -⟩ | ⟨t, hok, hti, hto, hnet⟩
    · omega
    · -- the signed amounts come to the one sum less the other, so their sign is that of the net
      refine ⟨t, units, hok, hti.1, hto.1, hunits, fun h => ?_, fun h => ?_⟩
      · obtain ⟨net, hsub, hdiff⟩ := Amount.exists_subtract_eq_ok (a := t.inbound)
          (b := t.outbound) (by omega)
        exact ⟨net, hnet.trans hsub, by omega⟩
      · rw [hnet, Amount.subtract_eq_error_iff]
        exact ⟨rfl, by omega⟩
  · have hentries : (Intake.ofRecords others).entries.Perm entries := by
      simp only [entries, Intake.ofRecords, Intake.entries_ofRecordsFrom]
      exact h.symm.filterMap _
    exact totals_congr (flowSum_perm hentries _) (flowSum_perm hentries _)
  · have hsame := congrArg (fun rs => (Intake.ofRecords rs).entries) h
    simp only [Intake.ofRecords_filter] at hsame
    rw [hsame]

/-- More went out than came in, and a rejected record does not count. -/
theorem totals_ofRecords_short :
    let records : List Record := [⟨"Inbound", "Confirmed", 0, 5, .trade "opened"⟩,
      ⟨"Outbound", "Lost", 0, 1, .trade "lost"⟩,
      ⟨"Outbound", "Pending", 0, 7, .trade "closed"⟩]
    let entries := (Intake.ofRecords records).entries
    flowSum .inbound entries ≤ 9223372036854775807 ∧
    flowSum .outbound entries ≤ 9223372036854775807 ∧
    ∃ t, totals entries = .ok t ∧ t.net = .error .underflow := by
  intro records entries
  have hin : flowSum .inbound entries ≤ 9223372036854775807 := by decide +kernel
  have hout : flowSum .outbound entries ≤ 9223372036854775807 := by decide +kernel
  have hsigned : entries.mapM Entry.signedUnits = .ok [5, -7] := by decide +kernel
  obtain ⟨t, units, hok, -, -, hunits, -, hshort⟩ := (totals_ofRecords records).2.1 hin hout
  cases hunits.symm.trans hsigned
  exact ⟨hin, hout, t, hok, hshort (by decide)⟩

end WalletLedger
