import L1xCore.Lib.Fallible

/-!
# `Lib.Related` — two computations side by side

`Related R x y Q`: started in states related by `R`, the computations `x` and `y` return **the same**,
value or error, and the states they end in are related by `Q`. With a relation that forgets a part of the
state this says that the part is not looked at. `Follows R x y Q` is the one-sided form: what `x` returns
without an error, `y` returns as well. `Mirrors x y` is about one state: `x` and `y` do the same but for the
errors they name.
-/

namespace Fallible

variable {σ τ ε α β : Type} {R M Q : σ → τ → Prop} {x : Fallible σ ε α} {y : Fallible τ ε α}
  {f : α → Fallible σ ε β} {g : α → Fallible τ ε β}

def Related (R : σ → τ → Prop) (x : Fallible σ ε α) (y : Fallible τ ε α) (Q : σ → τ → Prop) : Prop :=
  ∀ s t, R s t → (x.run s).1 = (y.run t).1 ∧ Q (x.run s).2 (y.run t).2

theorem Related.pure (a : α) : Related R (pure a : Fallible σ ε α) (pure a : Fallible τ ε α) R :=
  fun _ _ h => ⟨rfl, h⟩

theorem Related.fail (e : ε) : Related R (fail e : Fallible σ ε α) (fail e : Fallible τ ε α) R :=
  fun _ _ h => ⟨rfl, h⟩

theorem Related.update {f : σ → σ} {g : τ → τ} (h : ∀ s t, R s t → Q (f s) (g t)) :
    Related R (update f : Fallible σ ε Unit) (update g : Fallible τ ε Unit) Q :=
  fun s t hst => ⟨rfl, h s t hst⟩

/-- **The sequence rule.** An error may come before the relation has changed, so the new relation must be
    the weaker one. -/
theorem Related.bind (hx : Related R x y M) (hf : ∀ a, Related M (f a) (g a) Q)
    (hweaker : ∀ s t, M s t → Q s t) : Related R (x >>= f) (y >>= g) Q := by
  intro s t hst
  obtain ⟨hresult, hstates⟩ := hx s t hst
  rcases hrunx : x.run s with ⟨r, s'⟩
  rcases hruny : y.run t with ⟨r', t'⟩
  rw [hrunx, hruny] at hresult hstates
  cases hresult
  cases r with
  | error e =>
    rw [run_bind_of_error hrunx, run_bind_of_error hruny]
    exact ⟨rfl, hweaker _ _ hstates⟩
  | ok a =>
    rw [run_bind_of_ok hrunx, run_bind_of_ok hruny]
    exact hf a _ _ hstates

/-- The sequence rule for one relation throughout. -/
theorem Related.seq (hx : Related R x y R)
    (hf : ∀ a, Related R (f a) (g a) R) : Related R (x >>= f) (y >>= g) R :=
  hx.bind hf fun _ _ h => h

theorem Related.bind_state {f : σ → Fallible σ ε β} {g : τ → Fallible τ ε β}
    (h : ∀ s t, R s t → Related R (f s) (g t) Q) : Related R (.state >>= f) (.state >>= g) Q := by
  intro s t hst
  exact h s t hst s t hst

theorem Related.bind_lift {r : Except ε α}
    (h : ∀ a, Related R (f a) (g a) R) : Related R (lift r >>= f) (lift r >>= g) R := by
  cases r with
  | error e => exact fail e
  | ok a => exact h a

theorem Related.outcome (h : Related R x y Q) : Related R x.outcome y.outcome Q := by
  intro s t hst
  obtain ⟨hresult, hstates⟩ := h s t hst
  exact ⟨congrArg Except.ok hresult, hstates⟩

theorem Related.mapError (h : Related R x y Q) (f : ε → ε) : Related R (x.mapError f) (y.mapError f) Q := by
  intro s t hst
  obtain ⟨hresult, hstates⟩ := h s t hst
  refine ⟨?_, hstates⟩
  rw [run_mapError, run_mapError, hresult]

/-! ## Following the computations that succeed -/

def Follows (R : σ → τ → Prop) (x : Fallible σ ε α) (y : Fallible τ ε α) (Q : σ → τ → Prop) : Prop :=
  ∀ s t, R s t → ∀ a s', x.run s = (.ok a, s') → ∃ t', y.run t = (.ok a, t') ∧ Q s' t'

theorem Follows.pure (a : α) : Follows R (pure a : Fallible σ ε α) (pure a : Fallible τ ε α) R := by
  intro s t hst a' s' h
  cases h
  exact ⟨t, rfl, hst⟩

theorem Follows.lift (r : Except ε α) : Follows R (lift r : Fallible σ ε α) (lift r : Fallible τ ε α) R := by
  intro s t hst a s' h
  obtain ⟨rfl, rfl⟩ := run_lift_ok h
  exact ⟨t, rfl, hst⟩

theorem Follows.okOr (o : Option α) (e : ε) :
    Follows R (okOr o e : Fallible σ ε α) (okOr o e : Fallible τ ε α) R :=
  lift _

theorem Follows.bind (hx : Follows R x y M)
    (hf : ∀ a, Follows M (f a) (g a) Q) : Follows R (x >>= f) (y >>= g) Q := by
  intro s t hst b s'' h
  obtain ⟨a, s', hrun, h⟩ := run_bind_ok h
  obtain ⟨t', hrun', hst'⟩ := hx s t hst a s' hrun
  obtain ⟨t'', hrun'', hQ⟩ := hf a s' t' hst' b s'' h
  exact ⟨t'', (run_bind_of_ok hrun').trans hrun'', hQ⟩

/-! ## The same but for the errors -/

def Mirrors (x y : Fallible σ ε α) : Prop :=
  ∀ s, (x.run s).1.toOption = (y.run s).1.toOption ∧ (x.run s).2 = (y.run s).2

theorem Mirrors.refl (x : Fallible σ ε α) : Mirrors x x := fun _ => ⟨rfl, rfl⟩

theorem Mirrors.run {y : Fallible σ ε α} (h : Mirrors x y) (s : σ) :
    (∃ a s', x.run s = (.ok a, s') ∧ y.run s = (.ok a, s')) ∨
      ∃ e e' s', x.run s = (.error e, s') ∧ y.run s = (.error e', s') := by
  obtain ⟨hresult, hstate⟩ := h s
  rcases hx : x.run s with ⟨e | a, s'⟩
  · rcases hy : y.run s with ⟨e' | b, s''⟩
    · rw [hx, hy] at hstate
      cases hstate
      exact .inr ⟨e, e', s', rfl, rfl⟩
    · rw [hx, hy] at hresult
      cases hresult
  · rcases hy : y.run s with ⟨e' | b, s''⟩
    · rw [hx, hy] at hresult
      cases hresult
    · rw [hx, hy] at hresult hstate
      cases hresult
      cases hstate
      exact .inl ⟨a, s', rfl, rfl⟩

theorem Mirrors.run_ok_iff {y : Fallible σ ε α} (h : Mirrors x y) {s s' : σ} {a : α} :
    x.run s = (.ok a, s') ↔ y.run s = (.ok a, s') := by
  rcases h.run s with ⟨b, s₁, hx, hy⟩ | ⟨e, e', s₁, hx, hy⟩
  · rw [hx, hy]
  · rw [hx, hy]
    constructor
    · intro hok
      cases hok
    · intro hok
      cases hok

theorem Mirrors.moves {R : σ → σ → Prop} {y : Fallible σ ε α} (h : Mirrors x y) (hy : Moves R y) :
    Moves R x := by
  intro s
  rw [(h s).2]
  exact hy s

theorem Mirrors.bind {y : Fallible σ ε α} {g : α → Fallible σ ε β} (h : Mirrors x y)
    (hf : ∀ a, Mirrors (f a) (g a)) : Mirrors (x >>= f) (y >>= g) := by
  intro s
  rcases h.run s with ⟨a, s₁, hx, hy⟩ | ⟨e, e', s₁, hx, hy⟩
  · rw [run_bind_of_ok hx, run_bind_of_ok hy]
    exact hf a s₁
  · rw [run_bind_of_error hx, run_bind_of_error hy]
    exact ⟨rfl, rfl⟩

/-- What goes on after a failure must not depend on the error. -/
theorem Mirrors.outcome_bind {y : Fallible σ ε α} {f g : Except ε α → Fallible σ ε β} (h : Mirrors x y)
    (hok : ∀ a, Mirrors (f (.ok a)) (g (.ok a))) (herror : ∀ e e', Mirrors (f (.error e)) (g (.error e'))) :
    Mirrors (x.outcome >>= f) (y.outcome >>= g) := by
  intro s
  have hrunx : x.outcome.run s = (.ok (x.run s).1, (x.run s).2) := run_outcome x s
  have hruny : y.outcome.run s = (.ok (y.run s).1, (y.run s).2) := run_outcome y s
  rw [run_bind_of_ok hrunx, run_bind_of_ok hruny]
  rcases h.run s with ⟨a, s₁, hx, hy⟩ | ⟨e, e', s₁, hx, hy⟩
  · rw [hx, hy]
    exact hok a s₁
  · rw [hx, hy]
    exact herror e e' s₁

end Fallible
