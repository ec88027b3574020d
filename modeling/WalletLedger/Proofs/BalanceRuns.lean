import WalletLedger.Balance
import WalletLedger.Proofs.Amounts
import WalletLedger.Proofs.Runs

/-!
# Runs of a balance

Each step but a comparison asks the balance to become some whole number (`Balance.target?`). A step
is exact (`Balance.Exact`) if it answers that number when it is an amount, is refused when it is
negative and breaks the limit when it is above. `Balance.exact_answer` says that a step from a
balance within the limit is exact; as the balance it leaves is within the limit again, all steps of
a session are (`Balance.session_exact`).
-/

namespace WalletLedger.Balance

/-- The whole number that a step asks the balance to become, reckoned without any limit. Comparing
asks for none. -/
def target? (balance : Amount) : Step → Option Int
  | .set units => some units.toInt
  | .add amount => some (balance.units.toNat + amount.units.toNat)
  | .subtract amount => some (balance.units.toNat - amount.units.toNat)
  | .double => some (balance.units.toNat + balance.units.toNat)
  | .charge schedule => some (balance.units.toNat - (schedule.fee balance).units.toNat)
  | .chargeOnTop schedule => some (balance.units.toNat + (schedule.fee balance).units.toNat)
  | .compare _ => none

/-- Why a step is refused that asks for a negative number. -/
def refusalFor : Step → AmountError
  | .set _ => .invalidAmount
  | _ => .underflow

/-- Why no amount was answered, if a reason was. -/
def Answer.refusal? : Answer → Option AmountError
  | .result (.error e) => some e
  | .charged _ (.error e) => some e
  | _ => none

/-- The amount of an answer, if there is an answer with one. -/
def amountOf (answered : Except Breach Answer) : Option Amount :=
  answered.toOption.bind Answer.amount?

/-- The refusal of an answer, if there is an answer with one. -/
def refusalOf (answered : Except Breach Answer) : Option AmountError :=
  answered.toOption.bind Answer.refusal?

/-- What a step answers on a balance and what it leaves are what whole numbers ask for. -/
structure Exact (balance : Amount) (step : Step) (answered : Except Breach Answer)
    (left : Amount) : Prop where
  /-- The amount answered is the number asked for, and is answered whenever that is an amount. -/
  amount_iff : ∀ a, amountOf answered = some a ↔
    target? balance step = some (a.units.toNat : Int) ∧ a.units.toNat ≤ 9223372036854775807
  /-- A step is refused exactly when the number asked for is negative. -/
  refusal_iff : ∀ e, refusalOf answered = some e ↔
    e = refusalFor step ∧ ∃ n, target? balance step = some n ∧ n < 0
  /-- A step breaks the limit exactly when the number asked for is above it. -/
  breach_iff : ∀ b, answered = .error b ↔
    b = .amountOverflow ∧ ∃ n, target? balance step = some n ∧ 9223372036854775807 < n
  /-- A fee that is answered is the fee on the balance. -/
  fee_eq : ∀ fee result, answered = .ok (.charged fee result) →
    ∃ schedule, (step = .charge schedule ∨ step = .chargeOnTop schedule) ∧
      fee = schedule.fee balance
  /-- An answered amount is the new balance. -/
  left_of_some : ∀ a, amountOf answered = some a → left = a
  /-- Without an answered amount the balance stays as it was. -/
  left_of_none : amountOf answered = none → left = balance

/-! ### Amounts and refusals of answers -/

section Answers

variable {a fee : Amount} {e : AmountError}

theorem amountOf_result {r : Except AmountError Amount} :
    amountOf (.ok (.result r)) = some a ↔ r = .ok a := by
  cases r <;> simp [amountOf, Except.toOption, Answer.amount?]

theorem amountOf_charged {r : Except AmountError Amount} :
    amountOf (.ok (.charged fee r)) = some a ↔ r = .ok a := by
  cases r <;> simp [amountOf, Except.toOption, Answer.amount?]

/-- An answer made of a sum has that sum as its amount. -/
theorem amountOf_map {r : Except Breach Amount} {f : Amount → Answer}
    (hf : ∀ sum, (f sum).amount? = some sum) : amountOf (r.map f) = some a ↔ r = .ok a := by
  cases r <;> simp [amountOf, Except.toOption, Except.map, hf]

theorem refusalOf_result {r : Except AmountError Amount} :
    refusalOf (.ok (.result r)) = some e ↔ r = .error e := by
  cases r <;> simp [refusalOf, Except.toOption, Answer.refusal?]

theorem refusalOf_charged {r : Except AmountError Amount} :
    refusalOf (.ok (.charged fee r)) = some e ↔ r = .error e := by
  cases r <;> simp [refusalOf, Except.toOption, Answer.refusal?]

theorem refusalOf_map {r : Except Breach Amount} {f : Amount → Answer}
    (hf : ∀ sum, (f sum).refusal? = none) : refusalOf (r.map f) = none := by
  cases r <;> simp [refusalOf, Except.toOption, Except.map, hf]

/-- Making an answer of a sum adds no breach and hides none. -/
theorem map_eq_error {r : Except Breach Amount} {f : Amount → Answer} {b : Breach} :
    r.map f = .error b ↔ r = .error b := by
  cases r <;> simp [Except.map]

end Answers

/-! ### One step -/

/-- The next balance is the amount answered, and the old one if there is none. -/
theorem next_eq (balance : Amount) (step : Step) :
    next balance step = (amountOf (answer balance step)).getD balance := by
  unfold next amountOf
  cases answer balance step <;> rfl

theorem fee_of_answer {balance fee : Amount} {step : Step} {result : Except AmountError Amount}
    (h : answer balance step = .ok (.charged fee result)) :
    ∃ schedule, (step = .charge schedule ∨ step = .chargeOnTop schedule) ∧
      fee = schedule.fee balance := by
  cases step with
  | charge schedule =>
    cases h
    exact ⟨schedule, Or.inl rfl, rfl⟩
  | chargeOnTop schedule =>
    rw [answer] at h
    cases hadd : balance.add (schedule.fee balance) with
    | ok sum =>
      rw [hadd] at h
      cases h
      exact ⟨schedule, Or.inr rfl, rfl⟩
    | error b =>
      rw [hadd] at h
      cases h
  | add amount => cases hadd : balance.add amount <;> simp [answer, hadd, Except.map] at h
  | double => cases hadd : balance.add balance <;> simp [answer, hadd, Except.map] at h
  | set units => simp [answer] at h
  | subtract amount => simp [answer] at h
  | compare amount => simp [answer] at h

/-- It is enough to compare the answer with the number asked for: the new balance follows it. -/
theorem exact_of_iff {balance : Amount} {step : Step}
    (hamount : ∀ a, amountOf (answer balance step) = some a ↔
      target? balance step = some (a.units.toNat : Int) ∧
        a.units.toNat ≤ 9223372036854775807)
    (hrefusal : ∀ e, refusalOf (answer balance step) = some e ↔
      e = refusalFor step ∧ ∃ n, target? balance step = some n ∧ n < 0)
    (hbreach : ∀ b, answer balance step = .error b ↔
      b = .amountOverflow ∧ ∃ n, target? balance step = some n ∧ 9223372036854775807 < n) :
    Exact balance step (answer balance step) (next balance step) where
  amount_iff := hamount
  refusal_iff := hrefusal
  breach_iff := hbreach
  fee_eq := fun _ _ h => fee_of_answer h
  left_of_some := fun a h => by rw [next_eq, h, Option.getD_some]
  left_of_none := fun h => by rw [next_eq, h, Option.getD_none]

/-- A step that adds to the balance is exact. -/
theorem exact_of_add {balance other : Amount} {step : Step} {f : Amount → Answer}
    (hanswer : answer balance step = (balance.add other).map f)
    (hf : ∀ sum, (f sum).amount? = some sum ∧ (f sum).refusal? = none)
    (htarget : target? balance step = some (balance.units.toNat + other.units.toNat : Int)) :
    Exact balance step (answer balance step) (next balance step) := by
  have hlimit := Amount.limit_toNat
  refine exact_of_iff (fun a => ?_) (fun e => ?_) fun b => ?_
  · rw [hanswer, htarget, amountOf_map fun sum => (hf sum).1, Amount.add_eq_ok_iff,
      Option.some.injEq]
    omega
  · rw [hanswer, htarget, refusalOf_map fun sum => (hf sum).2]
    refine iff_of_false (by simp) ?_
    rintro ⟨-, n, hn, hneg⟩
    cases hn
    omega
  · rw [hanswer, htarget, map_eq_error, Amount.add_eq_error_iff]
    refine and_congr_right fun _ => ⟨fun h => ⟨_, rfl, by omega⟩, ?_⟩
    rintro ⟨n, hn, hlt⟩
    cases hn
    omega

/-- A step that takes from a balance within the limit is exact. -/
theorem exact_of_subtract {balance other : Amount} {step : Step}
    {f : Except AmountError Amount → Answer} (h : balance.units.toNat ≤ 9223372036854775807)
    (hanswer : answer balance step = .ok (f (balance.subtract other)))
    (hamount : ∀ r a, amountOf (.ok (f r)) = some a ↔ r = .ok a)
    (hrefusal : ∀ r e, refusalOf (.ok (f r)) = some e ↔ r = .error e)
    (hfor : refusalFor step = .underflow)
    (htarget : target? balance step = some (balance.units.toNat - other.units.toNat : Int)) :
    Exact balance step (answer balance step) (next balance step) := by
  refine exact_of_iff (fun a => ?_) (fun e => ?_) fun b => ?_
  · rw [hanswer, htarget, hamount, Amount.subtract_eq_ok_iff, Option.some.injEq]
    omega
  · rw [hanswer, htarget, hrefusal, Amount.subtract_eq_error_iff, hfor]
    refine and_congr_right fun _ => ⟨fun h => ⟨_, rfl, by omega⟩, ?_⟩
    rintro ⟨n, hn, hneg⟩
    cases hn
    omega
  · rw [hanswer, htarget]
    refine iff_of_false (by simp) ?_
    rintro ⟨-, n, hn, hlt⟩
    cases hn
    omega

theorem exact_set (balance : Amount) (units : Int64) :
    Exact balance (.set units) (answer balance (.set units)) (next balance (.set units)) := by
  have hlt := units.toInt_lt
  refine exact_of_iff (fun a => ?_) (fun e => ?_) fun b => ?_
  · rw [answer, amountOf_result, Amount.ofUnits_eq_ok_iff, target?, Option.some.injEq]
    omega
  · rw [answer, refusalOf_result, Amount.ofUnits_eq_error_iff, refusalFor]
    simp [target?]
  · simp only [answer, target?]
    refine iff_of_false (by simp) ?_
    rintro ⟨-, n, hn, hlarge⟩
    cases hn
    omega

theorem exact_compare (balance amount : Amount) :
    Exact balance (.compare amount) (answer balance (.compare amount))
      (next balance (.compare amount)) := by
  refine exact_of_iff (fun a => ?_) (fun e => ?_) fun b => ?_
  · simp [answer, amountOf, Except.toOption, Answer.amount?, target?]
  · simp [answer, refusalOf, Except.toOption, Answer.refusal?, target?]
  · simp [answer, target?]

/-- Every step from a balance within the limit is exact. -/
theorem exact_answer {balance : Amount} (h : balance.units.toNat ≤ 9223372036854775807)
    (step : Step) : Exact balance step (answer balance step) (next balance step) := by
  cases step with
  | set units => exact exact_set balance units
  | add amount => exact exact_of_add rfl (fun _ => ⟨rfl, rfl⟩) rfl
  | double => exact exact_of_add rfl (fun _ => ⟨rfl, rfl⟩) rfl
  | chargeOnTop schedule => exact exact_of_add rfl (fun _ => ⟨rfl, rfl⟩) rfl
  | subtract amount =>
    exact exact_of_subtract (f := .result) h rfl (fun _ _ => amountOf_result)
      (fun _ _ => refusalOf_result) rfl rfl
  | charge schedule =>
    exact exact_of_subtract (f := .charged (schedule.fee balance)) h rfl
      (fun _ _ => amountOf_charged) (fun _ _ => refusalOf_charged) rfl rfl
  | compare amount => exact exact_compare balance amount

/-! ### All steps -/

/-- No step leads from within the limit to above it. -/
theorem next_le {balance : Amount} (h : balance.units.toNat ≤ 9223372036854775807)
    (step : Step) : (next balance step).units.toNat ≤ 9223372036854775807 := by
  have hexact := exact_answer h step
  cases ha : amountOf (answer balance step) with
  | none => rwa [hexact.left_of_none ha]
  | some a =>
    rw [hexact.left_of_some a ha]
    exact ((hexact.amount_iff a).1 ha).2

/-- A balance that starts within the limit stays there. -/
theorem after_le {balance : Amount} (h : balance.units.toNat ≤ 9223372036854775807)
    (steps : List Step) : (after balance steps).units.toNat ≤ 9223372036854775807 := by
  induction steps generalizing balance with
  | nil => exact h
  | cons step rest ih => exact ih (next_le h step)

theorem after_append (balance : Amount) (steps more : List Step) :
    after balance (steps ++ more) = after (after balance steps) more := List.foldl_append

/-- A step in a session is answered on the balance that the steps before it leave. -/
theorem getElem?_answers (balance : Amount) (steps : List Step) (i : Nat) :
    (answers balance steps)[i]? =
      steps[i]?.map (answer (after balance (steps.take i))) :=
  getElem?_session next answer answers (fun _ => rfl) (fun _ _ _ => rfl) balance steps i

/-- **Sessions are exact.** The balance never leaves the limit, and whatever steps are taken, each
of them answers, and leaves, what whole numbers ask for. -/
theorem session_exact (steps : List Step) :
    (∀ i, (after initial (steps.take i)).units.toNat ≤ 9223372036854775807) ∧
    ∀ i step, steps[i]? = some step →
      ∃ answered, (answers initial steps)[i]? = some answered ∧
        Exact (after initial (steps.take i)) step answered
          (after initial (steps.take (i + 1))) := by
  have hinitial : initial.units.toNat ≤ 9223372036854775807 := by decide
  refine ⟨fun i => after_le hinitial _, fun i step hstep => ?_⟩
  refine ⟨_, by rw [getElem?_answers, hstep]; rfl, ?_⟩
  rw [List.take_add_one, hstep, Option.toList_some, after_append]
  exact exact_answer (after_le hinitial _) step

/-- More is taken than there is. -/
theorem session_exact_underflow :
    ([.set 5, .subtract ⟨7⟩] : List Step)[1]? = some (.subtract ⟨7⟩) ∧
    ∃ answered, (answers initial [.set 5, .subtract ⟨7⟩])[1]? = some answered ∧
      Exact ⟨5⟩ (.subtract ⟨7⟩) answered ⟨5⟩ :=
  ⟨rfl, (session_exact [.set 5, .subtract ⟨7⟩]).2 1 (.subtract ⟨7⟩) rfl⟩

end WalletLedger.Balance
