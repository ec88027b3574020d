import WalletLedger.Intake
import WalletLedger.Proofs.Acceptance

/-!
# What taking in records keeps

`Intake.ofRecords` sorts the results of its records into entries and rejections. The main statement,
`Intake.ofRecords_sorts`, says that nothing is lost, doubled or reordered on the way: the results
can be put together again (`Intake.replay`), the log names each rejection once, the halves of a list
can be taken in one after the other, and the accepted records alone give the same entries.
-/

namespace WalletLedger

namespace Record

/-- The entry that a record makes, if it makes one. -/
def entry? (r : Record) : Option Entry := r.toEntry.toOption

/-- What is wrong with a record, if something is. -/
def refusal? (r : Record) : Option RecordError :=
  match r.toEntry with
  | .ok _ => none
  | .error reason => some reason

/-- Whether a record makes an entry. -/
def isAccepted (r : Record) : Bool := r.toEntry.isOk

theorem entry?_eq_some_iff {r : Record} {e : Entry} : r.entry? = some e ↔ r.toEntry = .ok e := by
  unfold entry?
  cases r.toEntry <;> simp [Except.toOption]

theorem refusal?_eq_some_iff {r : Record} {reason : RecordError} :
    r.refusal? = some reason ↔ r.toEntry = .error reason := by
  unfold refusal?
  cases r.toEntry <;> simp

end Record

namespace Intake

/-- A rejection as it is counted from another beginning. -/
def shift (offset : Nat) (r : Rejection) : Rejection := { r with index := offset + r.index }

/-- The results of so many records from a place on, put together again. A rejection stands for the
record at its place, and the entries stand for the other records in their order. -/
def replay (index : Nat) : Nat → Intake → List (Except RecordError Entry)
  | 0, _ => []
  | count + 1, ⟨entries, rejected⟩ =>
    match rejected.head?.filter fun r => r.index == index, entries with
    | some r, _ => .error r.reason :: replay (index + 1) count ⟨entries, rejected.tail⟩
    | none, entry :: rest => .ok entry :: replay (index + 1) count ⟨rest, rejected⟩
    | none, [] => []

/-! ### The two lists -/

theorem ofRecordsFrom_ok {r : Record} {e : Entry} (h : r.toEntry = .ok e) (index : Nat)
    (rest : List Record) :
    ofRecordsFrom index (r :: rest) =
      ⟨e :: (ofRecordsFrom (index + 1) rest).entries,
        (ofRecordsFrom (index + 1) rest).rejected⟩ := by
  simp only [ofRecordsFrom, h]

theorem ofRecordsFrom_error {r : Record} {reason : RecordError} (h : r.toEntry = .error reason)
    (index : Nat) (rest : List Record) :
    ofRecordsFrom index (r :: rest) =
      ⟨(ofRecordsFrom (index + 1) rest).entries,
        ⟨index, reason⟩ :: (ofRecordsFrom (index + 1) rest).rejected⟩ := by
  simp only [ofRecordsFrom, h]

/-- The entries are those of the accepted records, in their order. -/
theorem entries_ofRecordsFrom (index : Nat) (records : List Record) :
    (ofRecordsFrom index records).entries = records.filterMap Record.entry? := by
  induction records generalizing index with
  | nil => rfl
  | cons r rest ih =>
    cases h : r.toEntry with
    | ok e => simp [ofRecordsFrom_ok h, Record.entry?, h, Except.toOption, ih]
    | error reason => simp [ofRecordsFrom_error h, Record.entry?, h, Except.toOption, ih]

/-- The rejections are those of the other records, each with its place. -/
theorem rejected_ofRecordsFrom (index : Nat) (records : List Record) :
    (ofRecordsFrom index records).rejected =
      (records.zipIdx index).filterMap fun x => x.1.refusal?.map (Rejection.mk x.2) := by
  induction records generalizing index with
  | nil => rfl
  | cons r rest ih =>
    cases h : r.toEntry with
    | ok e => simp [ofRecordsFrom_ok h, Record.refusal?, h, ih]
    | error reason => simp [ofRecordsFrom_error h, Record.refusal?, h, ih]

theorem mem_entries_iff {records : List Record} {e : Entry} :
    e ∈ (ofRecords records).entries ↔ ∃ r ∈ records, r.toEntry = .ok e := by
  rw [ofRecords, entries_ofRecordsFrom, List.mem_filterMap]
  simp only [Record.entry?_eq_some_iff]

/-- A place is rejected for a reason if the record there makes no entry for this reason. -/
theorem mem_rejected_iff {records : List Record} {index : Nat} {reason : RecordError} :
    ⟨index, reason⟩ ∈ (ofRecords records).rejected ↔
      ∃ r, records[index]? = some r ∧ r.toEntry = .error reason := by
  rw [ofRecords, rejected_ofRecordsFrom, List.mem_filterMap]
  constructor
  · rintro ⟨⟨r, i⟩, hmem, h⟩
    obtain ⟨reason, hreason, heq⟩ := Option.map_eq_some_iff.1 h
    cases heq
    exact ⟨r, List.mk_mem_zipIdx_iff_getElem?.1 hmem, Record.refusal?_eq_some_iff.1 hreason⟩
  · rintro ⟨r, hr, hreason⟩
    refine ⟨(r, index), List.mk_mem_zipIdx_iff_getElem?.2 hr, ?_⟩
    rw [Record.refusal?_eq_some_iff.2 hreason]
    rfl

/-- No rejection lies before the place of the first record. -/
theorem le_index_of_mem {index : Nat} {records : List Record} {r : Rejection}
    (h : r ∈ (ofRecordsFrom index records).rejected) : index ≤ r.index := by
  rw [rejected_ofRecordsFrom, List.mem_filterMap] at h
  obtain ⟨⟨record, i⟩, hmem, h⟩ := h
  obtain ⟨reason, -, rfl⟩ := Option.map_eq_some_iff.1 h
  exact List.le_snd_of_mem_zipIdx hmem

/-- Rejections are noted in the order of the records, each place once. -/
theorem rejected_ascending (index : Nat) (records : List Record) :
    ((ofRecordsFrom index records).rejected.map Rejection.index).Pairwise (· < ·) := by
  induction records generalizing index with
  | nil => exact .nil
  | cons r rest ih =>
    cases h : r.toEntry with
    | ok e => simpa only [ofRecordsFrom_ok h] using ih (index + 1)
    | error reason =>
      rw [ofRecordsFrom_error h, List.map_cons, List.pairwise_cons]
      refine ⟨fun i hi => ?_, ih (index + 1)⟩
      obtain ⟨later, hlater, rfl⟩ := List.mem_map.1 hi
      exact le_index_of_mem hlater

/-! ### Putting the results together again -/

/-- Entries and rejections together tell the result of every single record. -/
theorem replay_ofRecordsFrom (index : Nat) (records : List Record) :
    replay index records.length (ofRecordsFrom index records) = records.map Record.toEntry := by
  induction records generalizing index with
  | nil => rfl
  | cons r rest ih =>
    cases h : r.toEntry with
    | ok e =>
      -- the next rejection, if there is one, is of a later place
      have hlater : (ofRecordsFrom (index + 1) rest).rejected.head?.filter
          (fun r => r.index == index) = none := by
        rw [Option.filter_eq_none_iff]
        intro later hmem
        have := le_index_of_mem (List.mem_of_head? hmem)
        simp
        omega
      simp only [ofRecordsFrom_ok h, List.length_cons, replay, hlater, List.map_cons, h]
      rw [← ih (index + 1)]
    | error reason =>
      have hnext : Option.filter (fun r => r.index == index) (some (Rejection.mk index reason)) =
          some (Rejection.mk index reason) := by simp
      simp only [ofRecordsFrom_error h, List.length_cons, replay, List.head?_cons, hnext,
        List.tail_cons, List.map_cons, h]
      rw [← ih (index + 1)]

/-! ### Counts and log -/

theorem length_entries (records : List Record) :
    (ofRecords records).entries.length = records.countP Record.isAccepted := by
  rw [ofRecords, entries_ofRecordsFrom, List.length_filterMap_eq_countP]
  refine List.countP_congr fun r _ => ?_
  unfold Record.entry? Record.isAccepted
  cases r.toEntry <;> simp [Except.toOption, Except.isOk, Except.toBool]

theorem length_rejected (records : List Record) :
    (ofRecords records).rejected.length = records.countP fun r => !r.isAccepted := by
  -- the right side is counted over the records with their places too, which do not matter
  rw [ofRecords, rejected_ofRecordsFrom, List.length_filterMap_eq_countP,
    ← List.zipIdx_map_fst 0 records, List.countP_map, List.zipIdx_map_fst]
  refine List.countP_congr fun x _ => ?_
  simp only [Record.refusal?, Record.isAccepted, Function.comp_apply]
  cases x.1.toEntry <;> simp [Except.isOk, Except.toBool]

/-- The warning that is due for a record at a place, if it is rejected. -/
def warning? (x : Record × Nat) : Option LogLine :=
  x.1.refusal?.map fun reason =>
    ⟨.warning,
      "ledger record " ++ Decimal.text x.2 ++ " rejected: " ++ Enumeration.name reason⟩

theorem log_ofRecords (records : List Record) :
    (ofRecords records).log =
      records.zipIdx.filterMap warning? ++
        [⟨.debug,
          "history snapshot built with " ++ Decimal.text (records.countP Record.isAccepted) ++
            " entries, " ++ Decimal.text (records.countP fun r => !r.isAccepted) ++
            " rejected"⟩] := by
  rw [log, countLine, length_entries, length_rejected, ofRecords, rejected_ofRecordsFrom,
    List.map_filterMap]
  congr 2
  funext x
  rw [Option.map_map]
  rfl

/-! ### Parts of a list -/

/-- Starting to count elsewhere moves the places of the rejections and changes nothing else. -/
theorem rejected_shift (index : Nat) (records : List Record) :
    (ofRecordsFrom index records).rejected = (ofRecords records).rejected.map (shift index) := by
  rw [ofRecords, rejected_ofRecordsFrom, rejected_ofRecordsFrom, List.zipIdx_eq_map_add,
    List.filterMap_map, List.map_filterMap]
  congr 1
  funext x
  rw [Option.map_map]
  rfl

theorem ofRecordsFrom_eq (index : Nat) (records : List Record) :
    ofRecordsFrom index records =
      ⟨records.filterMap Record.entry?,
        (records.zipIdx index).filterMap fun x => x.1.refusal?.map (Rejection.mk x.2)⟩ := by
  rw [← entries_ofRecordsFrom index, ← rejected_ofRecordsFrom]

/-- Two lists are taken in as one, with the places of the second counted on from the first. -/
theorem ofRecords_append (records others : List Record) :
    ofRecords (records ++ others) =
      ⟨(ofRecords records).entries ++ (ofRecords others).entries,
        (ofRecords records).rejected ++
          (ofRecords others).rejected.map (shift records.length)⟩ := by
  rw [← rejected_shift]
  simp only [ofRecords, ofRecordsFrom_eq, List.filterMap_append, List.zipIdx_append, Nat.zero_add]

/-- Of the accepted records alone nothing is rejected. -/
theorem ofRecords_filter (records : List Record) :
    ofRecords (records.filter Record.isAccepted) = ⟨(ofRecords records).entries, []⟩ := by
  have hentries : (records.filter Record.isAccepted).filterMap Record.entry? =
      records.filterMap Record.entry? := by
    rw [List.filterMap_filter]
    congr 1
    funext r
    unfold Record.entry? Record.isAccepted
    cases r.toEntry <;> rfl
  have hrejected : (ofRecords (records.filter Record.isAccepted)).rejected = [] := by
    rw [← List.length_eq_zero_iff, length_rejected, List.countP_eq_zero]
    intro r hr
    simp [(List.mem_filter.1 hr).2]
  rw [← hrejected]
  simp only [ofRecords, ofRecordsFrom_eq, hentries]

/-- **Taking in records sorts their results.** A record that makes no entry is noted once, with its
place and the reason, in the order of the places; the entries are those of the other records in
their order; the two lists together give back all results; the log is one warning for each
rejection and the two counts; and the entries do not depend on how the list is cut, nor on the
rejected records. -/
theorem ofRecords_sorts (records : List Record) :
    (∀ index reason, ⟨index, reason⟩ ∈ (ofRecords records).rejected ↔
      ∃ r, records[index]? = some r ∧ r.toEntry = .error reason) ∧
    ((ofRecords records).rejected.map Rejection.index).Pairwise (· < ·) ∧
    (ofRecords records).entries = records.filterMap Record.entry? ∧
    replay 0 records.length (ofRecords records) = records.map Record.toEntry ∧
    (ofRecords records).log =
      records.zipIdx.filterMap warning? ++
        [⟨.debug,
          "history snapshot built with " ++ Decimal.text (records.countP Record.isAccepted) ++
            " entries, " ++ Decimal.text (records.countP fun r => !r.isAccepted) ++
            " rejected"⟩] ∧
    (∀ others, ofRecords (records ++ others) =
      ⟨(ofRecords records).entries ++ (ofRecords others).entries,
        (ofRecords records).rejected ++
          (ofRecords others).rejected.map (shift records.length)⟩) ∧
    ofRecords (records.filter Record.isAccepted) = ⟨(ofRecords records).entries, []⟩ := by
  refine ⟨fun index reason => mem_rejected_iff, rejected_ascending 0 records,
    entries_ofRecordsFrom 0 records, replay_ofRecordsFrom 0 records, log_ofRecords records,
    ofRecords_append records, ofRecords_filter records⟩

end Intake

end WalletLedger
