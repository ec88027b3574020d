/-!
# Steps and checks one after the other

Sessions are lists of steps, each of which answers something and leaves a state for the next;
readers are chains of checks, of which the first that fails decides. The lemmas here take such a
list or chain apart, whatever its steps or checks are.
-/

namespace WalletLedger

/-- Each answer of a session is that of its step on the state that the steps before it leave. -/
theorem getElem?_session {σ α β : Type} (next : σ → α → σ) (answer : σ → α → β)
    (answers : σ → List α → List β) (hnil : ∀ s, answers s [] = [])
    (hcons : ∀ s step rest, answers s (step :: rest) = answer s step :: answers (next s step) rest)
    (s : σ) (steps : List α) (i : Nat) :
    (answers s steps)[i]? = steps[i]?.map (answer ((steps.take i).foldl next s)) := by
  -- on the steps, from whatever state: the rest goes on from where the first one leaves off
  induction steps generalizing s i with
  | nil => rw [hnil]; rfl
  | cons step rest ih =>
    rw [hcons]
    cases i with
    | zero => rfl
    | succ i =>
      rw [List.getElem?_cons_succ, List.getElem?_cons_succ, ih, List.take_succ_cons,
        List.foldl_cons]

/-- A chain of checks answers a value when its first check does and the others do with it. -/
theorem bind_eq_ok_iff {ε α β : Type} {x : Except ε α} {f : α → Except ε β} {b : β} :
    (x >>= f) = .ok b ↔ ∃ a, x = .ok a ∧ f a = .ok b := by
  constructor
  · intro h
    cases x with
    | error e => cases h
    | ok a => exact ⟨a, rfl, h⟩
  · rintro ⟨a, rfl, h⟩
    exact h

/-- A reader whose errors are told in other words answers the same values. -/
theorem mapError_eq_ok_iff {ε δ α : Type} {f : ε → δ} {x : Except ε α} {a : α} :
    x.mapError f = .ok a ↔ x = .ok a := by
  cases x with
  | error e => exact ⟨nofun, nofun⟩
  | ok value =>
    constructor
    · rintro ⟨⟩
      rfl
    · rintro ⟨⟩
      rfl

end WalletLedger
