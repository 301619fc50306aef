import L1xCore.Lib.Fallible

/-!
# `Lib.Drops` — computations that use up no more than an amount

A quantity `q` of the state that a computation may lower, but by no more than a known amount, while an
invariant `I` holds. The amounts of a sequence add up (`Drops.trans`), so this is no transitive relation
except for the amount `0`; the sequence rules are the ones for a single costly step.
-/

variable {σ ε α β : Type} {I : σ → Prop} {q : σ → Nat} {m n : Nat}

/-- From `s` to `s'` the quantity goes down by no more than `n`, and the invariant stays. -/
def Drops (I : σ → Prop) (q : σ → Nat) (n : Nat) (s s' : σ) : Prop := I s → I s' ∧ q s ≤ q s' + n

namespace Drops

variable {s s' s'' : σ}

instance : Std.Refl (Drops I q n) := ⟨fun _ h => ⟨h, Nat.le_add_right _ _⟩⟩

theorem trans (h : Drops I q m s s') (h' : Drops I q n s' s'') : Drops I q (m + n) s s'' := by
  intro hs
  obtain ⟨hs', hle⟩ := h hs
  obtain ⟨hs'', hle'⟩ := h' hs'
  exact ⟨hs'', by omega⟩

instance : IsTrans σ (Drops I q 0) := ⟨fun _ _ _ h h' => h.trans h'⟩

theorem mono (h : Drops I q m s s') (hle : m ≤ n) : Drops I q n s s' := by
  intro hs
  obtain ⟨hs', hq⟩ := h hs
  exact ⟨hs', by omega⟩

/-- A step that leaves the quantity alone. -/
theorem of_eq (hI : I s → I s') (hq : q s' = q s) : Drops I q n s s' := by
  intro hs
  rw [hq]
  exact ⟨hI hs, Nat.le_add_right _ _⟩

end Drops

namespace Fallible

variable {f : α → Fallible σ ε β} {x : Fallible σ ε α}

/-- First nothing is used up, then at most `n`. -/
theorem Moves.bind_drops (hx : Moves (Drops I q 0) x)
    (hf : ∀ a, Moves (Drops I q n) (f a)) : Moves (Drops I q n) (x >>= f) :=
  hx.seq (fun _ => hf _) (fun h => h.mono (Nat.zero_le n)) fun h h' => (h.trans h').mono (le_of_eq (Nat.zero_add n))

/-- First at most `n` is used up, then nothing. -/
theorem Moves.drops_bind (hx : Moves (Drops I q n) x)
    (hf : ∀ a, Moves (Drops I q 0) (f a)) : Moves (Drops I q n) (x >>= f) :=
  hx.seq (fun _ => hf _) id fun h h' => h.trans h'

end Fallible
