import L1xCore.Lib.Fallible

/-!
# `Lib.Triple` — pre- and postconditions along a relation

`Triple R P x Q`: started in a state with `P`, the computation `x` takes the state along `R` **whatever it
returns**, and if it returns a value `a` the state has `Q a`. A failure keeps what was done before it, so
the relation is what a caller knows after an error, and the postcondition is what a success has gained.

What `R` keeps need not be carried through the postconditions: the frame rule adds it.
-/

namespace Fallible

variable {σ ε α β : Type} {R R' : σ → σ → Prop} {P P' : σ → Prop} {Q Q' : α → σ → Prop} {x : Fallible σ ε α}
  {T : β → σ → Prop} {f : α → Fallible σ ε β}

def Triple (R : σ → σ → Prop) (P : σ → Prop) (x : Fallible σ ε α) (Q : α → σ → Prop) : Prop :=
  ∀ s, P s → R s (x.run s).2 ∧ ∀ a s', x.run s = (.ok a, s') → Q a s'

theorem Triple.moves (h : Triple R (fun _ => True) x Q) : Moves R x :=
  fun s => (h s trivial).1

/-- The rule of consequence. -/
theorem Triple.mono (h : Triple R P x Q) (hR : ∀ s s', R s s' → R' s s') (hP : ∀ s, P' s → P s)
    (hQ : ∀ a s, Q a s → Q' a s) : Triple R' P' x Q' := by
  intro s hs
  obtain ⟨hmove, hpost⟩ := h s (hP s hs)
  exact ⟨hR _ _ hmove, fun a s' hrun => hQ a s' (hpost a s' hrun)⟩

/-- A stronger precondition. -/
theorem Triple.pre (h : Triple R P x Q) (hP : ∀ s, P' s → P s) : Triple R P' x Q :=
  h.mono (fun _ _ h => h) hP (fun _ _ h => h)

/-- A coarser relation. -/
theorem Triple.coarsen (h : Triple R P x Q) (hR : ∀ s s', R s s' → R' s s') : Triple R' P x Q :=
  h.mono hR (fun _ h => h) (fun _ _ h => h)

/-- **The frame rule**: what the relation keeps is still there. -/
theorem Triple.frame {I : σ → Prop} (h : Triple R P x Q)
    (hI : ∀ s s', R s s' → I s → I s') : Triple R (fun s => P s ∧ I s) x (fun a s => Q a s ∧ I s) := by
  rintro s ⟨hs, hinv⟩
  obtain ⟨hmove, hpost⟩ := h s hs
  refine ⟨hmove, fun a s' hrun => ⟨hpost a s' hrun, hI s s' ?_ hinv⟩⟩
  rwa [hrun] at hmove

/-- A computation of which only the relation is known. -/
theorem Moves.triple (h : Moves R x) (hP : ∀ s s', R s s' → P s → P s') : Triple R P x (fun _ => P) := by
  intro s hs
  refine ⟨h s, fun a s' hrun => hP s s' (h.of_run hrun) hs⟩

section

variable [Std.Refl R]

theorem Triple.pure {a : α} (h : ∀ s, P s → Q a s) : Triple R P (pure a : Fallible σ ε α) Q := by
  intro s hs
  refine ⟨refl_of R s, fun a' s' hrun => ?_⟩
  cases hrun
  exact h s hs

theorem Triple.fail (e : ε) : Triple R P (fail e : Fallible σ ε α) Q := by
  intro s _
  refine ⟨refl_of R s, fun a s' hrun => ?_⟩
  cases hrun

end

theorem Triple.update {f : σ → σ} {Q : Unit → σ → Prop} (h : ∀ s, P s → R s (f s) ∧ Q () (f s)) :
    Triple R P (update f : Fallible σ ε Unit) Q := by
  intro s hs
  refine ⟨(h s hs).1, fun a s' hrun => ?_⟩
  cases hrun
  exact (h s hs).2

/-! ## Sequences -/

/-- **The sequence rule.** -/
theorem Triple.bind [IsTrans σ R] (hx : Triple R P x Q)
    (hf : ∀ a, Triple R (Q a) (f a) T) : Triple R P (x >>= f) T := by
  intro s hs
  obtain ⟨hmove, hpost⟩ := hx s hs
  rcases hrun : x.run s with ⟨e | a, s₁⟩
  · rw [hrun] at hmove
    rw [run_bind_of_error hrun]
    refine ⟨hmove, fun b s' hfailed => ?_⟩
    cases hfailed
  · rw [hrun] at hmove
    obtain ⟨hmove', hpost'⟩ := hf a s₁ (hpost a s₁ hrun)
    rw [run_bind_of_ok hrun]
    exact ⟨trans_of R hmove hmove', hpost'⟩

/-- After the state was read it is known. -/
theorem Triple.bind_state {f : σ → Fallible σ ε β}
    (hf : ∀ s, P s → Triple R (· = s) (f s) T) : Triple R P (.state >>= f) T := by
  intro s hs
  exact hf s hs s rfl

theorem Triple.bind_lift [Std.Refl R] {r : Except ε α}
    (hf : ∀ a, r = .ok a → Triple R P (f a) T) : Triple R P (lift r >>= f) T := by
  cases r with
  | error e => exact fail e
  | ok a => exact hf a rfl

theorem Triple.bind_okOr [Std.Refl R] {o : Option α} {e : ε}
    (hf : ∀ a, o = some a → Triple R P (f a) T) : Triple R P (okOr o e >>= f) T := by
  cases o with
  | none => exact fail e
  | some a => exact hf a rfl

/-- The caller goes on after an error as well. -/
theorem Triple.bind_outcome [IsTrans σ R] {f : Except ε α → Fallible σ ε β}
    (hx : Triple R P x Q) (hok : ∀ a, Triple R (Q a) (f (.ok a)) T)
    (herror : ∀ e, Triple R (fun _ => True) (f (.error e)) T) : Triple R P (x.outcome >>= f) T := by
  intro s hs
  obtain ⟨hmove, hpost⟩ := hx s hs
  rw [run_bind_of_ok (run_outcome x s)]
  rcases hrun : x.run s with ⟨e | a, s₁⟩
  · rw [hrun] at hmove
    obtain ⟨hmove', hpost'⟩ := herror e s₁ trivial
    exact ⟨trans_of R hmove hmove', hpost'⟩
  · rw [hrun] at hmove
    obtain ⟨hmove', hpost'⟩ := hok a s₁ (hpost a s₁ hrun)
    exact ⟨trans_of R hmove hmove', hpost'⟩

/-- **The loop rule**, with an invariant about the rounds that are done. -/
theorem Triple.forEach [Std.Refl R] [IsTrans σ R] {J : List α → σ → Prop} {f : α → Fallible σ ε Unit}
    (hround : ∀ done a, Triple R (J done) (f a) (fun _ => J (done ++ [a]))) (l : List α) :
    ∀ done, Triple R (J done) (forEach l f) (fun _ => J (done ++ l)) := by
  induction l with
  | nil =>
    intro done
    rw [List.append_nil]
    exact pure fun s hs => hs
  | cons a l ih =>
    intro done
    have hrest := ih (done ++ [a])
    rw [List.append_assoc, List.singleton_append] at hrest
    exact (hround done a).bind fun _ => hrest

end Fallible
