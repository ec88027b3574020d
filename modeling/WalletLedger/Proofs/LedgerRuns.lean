import WalletLedger.Ledger
import WalletLedger.Proofs.Snapshots
import WalletLedger.Proofs.Views

/-!
# Runs of a ledger

A run is a list of steps taken one after the other from the empty ledger. A step other than a
refresh leaves the snapshot alone (`Ledger.held_next`), and so does any list of such steps
(`Ledger.held_after_of_not_mem`); hence the snapshot is always that of the last refresh
(`Ledger.held_after_eq_some_iff`). What it holds was made from records and can be shown in full.
-/

namespace WalletLedger.Ledger

/-! ### Steps one after the other -/

@[simp] theorem after_nil (l : Ledger) : l.after [] = l := rfl

@[simp] theorem after_cons (l : Ledger) (step : Step) (steps : List Step) :
    l.after (step :: steps) = (l.next step).after steps := rfl

theorem after_append (l : Ledger) (steps more : List Step) :
    l.after (steps ++ more) = (l.after steps).after more := List.foldl_append

/-- A step in a run is answered on the ledger that the steps before it leave. -/
theorem getElem?_answers (l : Ledger) (steps : List Step) (i : Nat) :
    (l.answers steps)[i]? = steps[i]?.map (l.after (steps.take i)).answer :=
  getElem?_session next answer answers (fun _ => rfl) (fun _ _ _ => rfl) l steps i

/-! ### The snapshot of the last refresh -/

/-- A change of the records, or a question, leaves the snapshot alone. -/
theorem held_next {step : Step} (h : step ≠ .refresh) (l : Ledger) :
    (l.next step).held = l.held := by
  cases step with
  | refresh => exact absurd rfl h
  | _ => rfl

/-- A refresh takes the entries of all records that make one. -/
theorem held_next_refresh (l : Ledger) :
    (l.next .refresh).held = some (l.records.filterMap Record.entry?) := by
  rw [next, Intake.ofRecords, Intake.entries_ofRecordsFrom]

/-- Without a refresh a run ends with the snapshot with which it began. -/
theorem held_after_of_not_mem {steps : List Step} (h : Step.refresh ∉ steps) (l : Ledger) :
    (l.after steps).held = l.held := by
  induction steps generalizing l with
  | nil => rw [after_nil]
  | cons step rest ih =>
    rw [List.mem_cons, not_or] at h
    obtain ⟨hne, hrest⟩ := h
    rw [after_cons, ih hrest, held_next (Ne.symm hne)]

/-- What is done after the last refresh does not matter to the snapshot. -/
theorem held_after_refresh (l : Ledger) (before : List Step) {since : List Step}
    (h : Step.refresh ∉ since) :
    (l.after (before ++ .refresh :: since)).held =
      some ((l.after before).records.filterMap Record.entry?) := by
  rw [after_append, after_cons, held_after_of_not_mem h, held_next_refresh]

/-- A run that refreshes at all refreshes for a last time. -/
theorem exists_last_refresh {steps : List Step} (h : Step.refresh ∈ steps) :
    ∃ before since, steps = before ++ .refresh :: since ∧ Step.refresh ∉ since := by
  -- the last refresh is the first one from the end
  obtain ⟨later, earlier, heq, hlater⟩ := List.eq_append_cons_of_mem (List.mem_reverse.2 h)
  refine ⟨earlier.reverse, later.reverse, ?_, by simpa using hlater⟩
  have := congrArg List.reverse heq
  simpa using this

/-- The snapshot of a run from the empty ledger is that of its last refresh; without a refresh there
is none. -/
theorem held_after_eq_some_iff {steps : List Step} {entries : List Entry} :
    (empty.after steps).held = some entries ↔
      ∃ before since, steps = before ++ .refresh :: since ∧ Step.refresh ∉ since ∧
        entries = (empty.after before).records.filterMap Record.entry? := by
  constructor
  · intro hheld
    by_cases h : Step.refresh ∈ steps
    · obtain ⟨before, since, rfl, hsince⟩ := exists_last_refresh h
      rw [held_after_refresh empty before hsince] at hheld
      exact ⟨before, since, rfl, hsince, (Option.some.inj hheld).symm⟩
    · rw [held_after_of_not_mem h] at hheld
      cases hheld
  · rintro ⟨before, since, rfl, hsince, rfl⟩
    exact held_after_refresh empty before hsince

/-! ### What a snapshot holds -/

/-- Every entry in a snapshot was made from a record, so it is well formed. -/
theorem wellFormed_of_held {steps : List Step} {entries : List Entry}
    (h : (empty.after steps).held = some entries) {e : Entry} (he : e ∈ entries) :
    e.WellFormed := by
  obtain ⟨before, since, -, -, rfl⟩ := held_after_eq_some_iff.1 h
  obtain ⟨r, -, hr⟩ := List.mem_filterMap.1 he
  exact Entry.wellFormed_of_toEntry (Record.entry?_eq_some_iff.1 hr)

/-! ### Places that are not there -/

theorem next_edit_of_length_le {l : Ledger} {index : Nat} (h : l.records.length ≤ index)
    (change : RecordChange) : l.next (.edit index change) = l := by
  rw [next, List.modify_eq_self h]

theorem next_remove_of_length_le {l : Ledger} {index : Nat} (h : l.records.length ≤ index) :
    l.next (.remove index) = l := by
  rw [next, List.eraseIdx_of_length_le h]

/-- **A snapshot stands still and can be shown.** At the end of any run the snapshot, if there is
one, holds the entries that the records made when they were last taken in; every view that was
answered on the way, and every entry held, can be shown in full; and a step for a place that is
not there changes nothing. -/
theorem run_snapshot_frozen (steps : List Step) :
    (∀ entries, (empty.after steps).held = some entries ↔
      ∃ before since, steps = before ++ .refresh :: since ∧ Step.refresh ∉ since ∧
        entries = (empty.after before).records.filterMap Record.entry?) ∧
    (∀ i : Nat, steps[i]? = some .view →
      ∃ views, (empty.answers steps)[i]? = some (.ok (.views views)) ∧
        views = (empty.after (steps.take i)).held.map (List.map Entry.view) ∧
        ∀ vs, views = some vs → ∀ v ∈ vs, v.IsWhole) ∧
    (∀ entries, (empty.after steps).held = some entries → ∀ e ∈ entries,
      e.view.IsWhole ∧ ∃ c, Movement.classify e.flow e.status = .ok c) ∧
    (∀ index : Nat, (empty.after steps).records.length ≤ index →
      (∀ change, (empty.after steps).next (.edit index change) = empty.after steps) ∧
      (empty.after steps).next (.remove index) = empty.after steps) := by
  refine ⟨fun entries => held_after_eq_some_iff, fun i hi => ?_, fun entries h e he => ?_,
    fun index h => ⟨next_edit_of_length_le h, next_remove_of_length_le h⟩⟩
  · -- a view is answered from the snapshot that the steps before it leave
    refine ⟨_, by rw [getElem?_answers, hi]; rfl, rfl, fun vs hvs v hv => ?_⟩
    obtain ⟨entries, hentries, rfl⟩ := Option.map_eq_some_iff.1 hvs
    obtain ⟨e, he, rfl⟩ := List.mem_map.1 hv
    exact Entry.view_isWhole (wellFormed_of_held hentries he)
  · have hwf := wellFormed_of_held h he
    exact ⟨Entry.view_isWhole hwf, Movement.exists_classify_eq_ok hwf.flow hwf.status⟩

/-- A snapshot can still be shown when its only record has become one that makes no entry. -/
theorem run_snapshot_frozen_spoiled :
    let steps : List Step :=
      [.push ⟨"Inbound", "Confirmed", 0, 5, .trade "order"⟩, .refresh,
        .edit 0 ⟨none, some "Lost", none, some (-1)⟩, .view]
    let entry : Entry := ⟨.listed .inbound, .listed .confirmed, ⟨0⟩, ⟨5⟩, .trade "order"⟩
    steps[3]? = some .view ∧
    (∃ views, (empty.answers steps)[3]? = some (.ok (.views views)) ∧
      ∀ vs, views = some vs → ∀ v ∈ vs, v.IsWhole) ∧
    (empty.after steps).held = some [entry] ∧ entry.view.IsWhole ∧
    (empty.after steps).records.length ≤ 1 ∧
    (empty.after steps).next (.remove 1) = empty.after steps := by
  intro steps entry
  obtain ⟨-, hview, hheld, hplace⟩ := run_snapshot_frozen steps
  have hentry : (empty.after steps).held = some [entry] := by decide +kernel
  obtain ⟨views, hviews, -, hwhole⟩ := hview 3 rfl
  exact ⟨rfl, ⟨views, hviews, hwhole⟩, hentry, (hheld _ hentry entry List.mem_cons_self).1,
    by decide, (hplace 1 (by decide)).2⟩

end WalletLedger.Ledger
