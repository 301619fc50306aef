import Mathlib.Tactic.Common

/-!
# `Lib.Checks` — validations as sequences of checks

A validation is a sequence of checks of which the first that fails ends it. In `Except` a check of a
condition is `ensure`, and the lemmas turn acceptance of a sequence into the conjunction of what its checks
say.
-/

namespace Except

variable {ε α β : Type}

/-- Go on if the condition holds. -/
def ensure (condition : Bool) (e : ε) : Except ε Unit := if condition then .ok () else .error e

@[simp] theorem ensure_eq_ok {condition : Bool} {e : ε} {u : Unit} :
    ensure condition e = .ok u ↔ condition = true := by
  cases condition <;> simp [ensure]

theorem ok_bind (a : α) (f : α → Except ε β) : (.ok a >>= f) = f a := rfl

/-- **Acceptance of a sequence**: both parts accept. -/
theorem bind_eq_ok {x : Except ε α} {f : α → Except ε β} {b : β} :
    (x >>= f) = .ok b ↔ ∃ a, x = .ok a ∧ f a = .ok b := by
  cases x with
  | error e =>
    constructor
    · intro h; cases h
    · rintro ⟨_, h, -⟩; cases h
  | ok a =>
    constructor
    · intro h; exact ⟨a, rfl, h⟩
    · rintro ⟨_, h, hf⟩; cases h; exact hf

/-- A check that returns nothing comes first. -/
theorem check_eq_ok {x : Except ε Unit} {f : Unit → Except ε β} {b : β} :
    (x >>= f) = .ok b ↔ x = .ok () ∧ f () = .ok b := by
  rw [bind_eq_ok]
  constructor
  · rintro ⟨_, hx, hf⟩
    exact ⟨hx, hf⟩
  · rintro ⟨hx, hf⟩
    exact ⟨(), hx, hf⟩

/-- **Acceptance of a list**: every element is accepted. -/
theorem forM_eq_ok {l : List α} {f : α → Except ε Unit} : forM l f = .ok () ↔ ∀ a ∈ l, f a = .ok () := by
  induction l with
  | nil => simp [pure, Except.pure]
  | cons a l ih =>
    rw [List.forM_cons, check_eq_ok, List.forall_mem_cons, ← ih]

end Except
