import WalletLedger.Catalog
import WalletLedger.Proofs.NameTables
import WalletLedger.Proofs.WriteBack

/-!
# Checks in order

A reader that looks at one thing after another is described by the list of what it looks at: each
`Check` is a condition and the reason given where it does not hold. A reader follows a list of
checks (`Follows`) if it answers exactly when all of them hold and otherwise gives the reason of the
first that does not. `Follows.step` builds the list of a chain from those of its parts; raw records
(`Record.follows_toEntry`) and catalog rows (`Catalog.follows_ofRow`) are read so.
-/

namespace WalletLedger

/-- A condition, and the reason that is given where it does not hold. -/
structure Check (ρ : Type) where
  holds : Bool
  reason : ρ

namespace Check

variable {ρ σ : Type}

/-- The reason of the first check that does not hold. -/
def first (checks : List (Check ρ)) : Option ρ :=
  (checks.find? fun c => !c.holds).map reason

/-- The same condition with another reason. -/
def map (f : ρ → σ) (c : Check ρ) : Check σ := ⟨c.holds, f c.reason⟩

theorem first_cons (c : Check ρ) (checks : List (Check ρ)) :
    first (c :: checks) = if c.holds then first checks else some c.reason := by
  cases h : c.holds <;> simp [first, h]

theorem first_cons_of_holds {c : Check ρ} (h : c.holds) (checks : List (Check ρ)) :
    first (c :: checks) = first checks := by
  rw [first_cons, if_pos h]

theorem first_cons_of_not_holds {c : Check ρ} (h : c.holds = false) (checks : List (Check ρ)) :
    first (c :: checks) = some c.reason := by
  rw [first_cons, h, if_neg Bool.false_ne_true]

/-- Of two lists of checks the first one is heard first. -/
theorem first_append (checks others : List (Check ρ)) :
    first (checks ++ others) = (first checks).or (first others) := by
  rw [first, List.find?_append, Option.map_or]
  rfl

theorem first_map (f : ρ → σ) (checks : List (Check ρ)) :
    first (checks.map (map f)) = (first checks).map f := by
  rw [first, List.find?_map, Option.map_map, first, Option.map_map]
  rfl

/-- There is nothing to give a reason for exactly if all checks hold. -/
theorem first_eq_none_iff {checks : List (Check ρ)} :
    first checks = none ↔ ∀ c ∈ checks, c.holds := by
  simp [first]

/-- Checks that give the same reason are one check. -/
theorem first_map_same {α : Type} (p : α → Bool) (reason : ρ) (xs : List α) :
    first (xs.map fun x => ⟨p x, reason⟩) = first [⟨xs.all p, reason⟩] := by
  induction xs with
  | nil => rfl
  | cons x rest ih =>
    rw [List.map_cons, first_cons, ih, first_cons, first_cons, List.all_cons]
    cases p x <;> rfl

end Check

/-! ### Readers -/

/-- A reader answers if all checks hold, and otherwise gives the reason of the first that does not.
Its own errors are told as reasons by `say`. -/
def Follows {ε ρ α : Type} (say : ε → ρ) (reader : Except ε α) (checks : List (Check ρ)) : Prop :=
  match reader with
  | .ok _ => Check.first checks = none
  | .error e => Check.first checks = some (say e)

namespace Follows

variable {ε δ ρ α β : Type} {say : ε → ρ} {x : Except ε α} {f : α → Except ε β} {c : Check ρ}
  {checks others : List (Check ρ)}

theorem ok_iff {a : α} : Follows say (.ok a) checks ↔ Check.first checks = none := Iff.rfl

theorem error_iff {e : ε} :
    Follows say (.error e : Except ε α) checks ↔ Check.first checks = some (say e) := Iff.rfl

theorem congr (h : Check.first checks = Check.first others) (hx : Follows say x checks) :
    Follows say x others := by
  cases x with
  | error e => rwa [error_iff, ← h]
  | ok a => rwa [ok_iff, ← h]

theorem of_pure (a : α) : Follows say (pure a : Except ε α) [] := rfl

/-- What goes on after a first reader is checked after it. -/
theorem append (hx : Follows say x checks) (hf : ∀ a, x = .ok a → Follows say (f a) others) :
    Follows say (x >>= f) (checks ++ others) := by
  cases x with
  | error e =>
    -- the chain ends here, and the check that failed stands before the others
    rw [error_iff] at hx
    change Follows say (.error e) _
    rw [error_iff, Check.first_append, hx, Option.some_or]
  | ok a =>
    -- all checks so far hold, so the first that does not is one of the others
    rw [ok_iff] at hx
    change Follows say (f a) _
    exact congr (by rw [Check.first_append, hx, Option.none_or]) (hf a rfl)

/-- A reader that makes one check and goes on follows that check and the rest. -/
theorem step (hx : Follows say x [c]) (hf : ∀ a, x = .ok a → Follows say (f a) others) :
    Follows say (x >>= f) (c :: others) := append hx hf

/-- A reader that follows checks reads a value exactly if all of them hold. -/
theorem exists_eq_ok_iff (h : Follows say x checks) :
    (∃ a, x = .ok a) ↔ Check.first checks = none := by
  cases x with
  | error e =>
    rw [error_iff] at h
    simp [h]
  | ok a => exact iff_of_true ⟨a, rfl⟩ h

/-- It fails with the reason of the first check that does not hold. -/
theorem eq_error_iff {x : Except ρ α} (h : Follows id x checks) {reason : ρ} :
    x = .error reason ↔ Check.first checks = some reason := by
  cases x with
  | error e =>
    rw [error_iff] at h
    simp [h]
  | ok a =>
    rw [ok_iff] at h
    simp [h]

/-- A reader whose answer is only put into another form. -/
theorem map (hx : Follows say x checks) (g : α → β) :
    Follows say (x >>= fun a => pure (g a)) checks := by
  cases x <;> exact hx

/-- Other names for the errors do not matter to what is said of them. -/
theorem mapError {g : δ → ε} {y : Except δ α} (h : Follows (fun e => say (g e)) y checks) :
    Follows say (y.mapError g) checks := by
  cases y <;> exact h

/-- The reasons of a reader, told in other words. -/
theorem told {y : Except ρ α} (h : Follows id y checks) {σ : Type} (tell : ρ → σ) :
    Follows tell y (checks.map (Check.map tell)) := by
  cases y with
  | error e =>
    rw [error_iff] at h
    rw [error_iff, Check.first_map, h, Option.map_some, id]
  | ok a =>
    rw [ok_iff] at h
    rw [ok_iff, Check.first_map, h, Option.map_none]

end Follows

/-! ### Amounts, records and catalog rows -/

theorem isSome_unsigned? (n : Int64) : (unsigned? n).isSome = decide (0 ≤ n.toInt) := by
  cases h : unsigned? n with
  | none =>
    have := unsigned?_eq_none_iff.1 h
    simp
    omega
  | some u =>
    have := unsigned?_eq_some_iff.1 h
    simp
    omega

theorem Amount.follows_ofUnits (n : Int64) :
    Follows id (ofUnits n) [⟨0 ≤ n.toInt, .invalidAmount⟩] := by
  rw [← isSome_unsigned?, ofUnits, ofUnits?]
  cases unsigned? n <;> rfl

namespace Record

/-- Nothing is wrong with the number of confirmations of a payment on the chain. -/
def confirmationsFit : Payload LightningRecord OnChainRecord → Bool
  | .onChain r => 0 ≤ r.confirmations.toInt ∧ r.confirmations.toInt ≤ 4294967295
  | _ => true

/-- What a record is looked at for, in this order. -/
def checks (r : Record) : List (Check RecordError) :=
  [⟨r.flow ∈ Flow.table.names, .unknownFlow⟩, ⟨r.status ∈ Status.table.names, .unknownStatus⟩,
    ⟨0 ≤ r.timestamp.toInt, .invalidTimestamp⟩, ⟨0 ≤ r.amount.toInt, .invalidAmount⟩,
    ⟨confirmationsFit r.payload, .invalidConfirmations⟩]

/-- The numbers of confirmations are those that fit in 32 bits. -/
theorem isSome_confirmations? (n : Int64) :
    (confirmations? n).isSome = decide (0 ≤ n.toInt ∧ n.toInt ≤ 4294967295) := by
  unfold confirmations?
  by_cases h : n < 0 ∨ 4294967295 < n
  · rw [if_pos h, decide_eq_false (confirmations_out_of_range_iff.1 h), Option.isSome_none]
  · have hfit := Classical.not_not.1 (mt confirmations_out_of_range_iff.2 h)
    rw [if_neg h, decide_eq_true hfit, Option.isSome_some]

theorem isSome_payload? (raw : Payload LightningRecord OnChainRecord) :
    (payload? raw).isSome = confirmationsFit raw := by
  cases raw with
  | onChain r =>
    rw [payload?, Option.isSome_map, OnChainRecord.toPayment?, Option.isSome_map,
      isSome_confirmations?, confirmationsFit]
  | lightning r => rfl
  | trade orderId => rfl
  | orderMatchingFee orderId paymentHash => rfl
  | jitChannelOpenFee txid => rfl

theorem follows_orReject {α : Type} {reason : RecordError} {o : Option α} {holds : Bool}
    (h : o.isSome = holds) : Follows id (orReject reason o) [⟨holds, reason⟩] := by
  subst h
  cases o <;> rfl

/-- A record is checked in the order in which the checks are listed. -/
theorem follows_toEntry (r : Record) : Follows id r.toEntry r.checks := by
  refine .step (follows_orReject NameTable.isSome_value?_eq) fun flow _ => ?_
  refine .step (follows_orReject NameTable.isSome_value?_eq) fun status _ => ?_
  refine .step (follows_orReject (isSome_unsigned? _)) fun milliseconds _ => ?_
  refine .step (follows_orReject ?_) fun amount _ => ?_
  · rw [Amount.ofUnits?, Option.isSome_map, isSome_unsigned?]
  · exact .step (follows_orReject (isSome_payload? _)) fun payload _ => .of_pure _

end Record

namespace Catalog

/-- The unit counts of a row, in the order in which they are looked at. -/
def unitCounts (row : CatalogRow) : List Int64 :=
  [row.tradeUpTo, row.minDeposit, row.maxDeposit, row.minFee]

theorem follows_ofRow (row : CatalogRow) :
    Follows id (LiquidityOption.ofRow row)
      [⟨(unitCounts row).all fun n => 0 ≤ n.toInt, .invalidAmount⟩] := by
  refine .congr (Check.first_map_same _ _ _) ?_
  refine .step (Amount.follows_ofUnits _) fun tradeUpTo _ => ?_
  refine .step (Amount.follows_ofUnits _) fun minDeposit _ => ?_
  refine .step (Amount.follows_ofUnits _) fun maxDeposit _ => ?_
  exact .step (Amount.follows_ofUnits _) fun minFee _ => .of_pure _

end Catalog

end WalletLedger
