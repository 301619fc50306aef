import Mathlib.Data.List.Sigma

/-!
# `Lib.Fallible` — fallible computations over a mutable state

A function that takes a mutable reference and returns a `Result` may have changed the state **also when
it returns an error**: there is no roll-back. `Fallible σ ε α` is the monad of such functions. Its bind
is `?`: the first error ends the computation, in the state reached so far.

## Contents

* the monad, with one `run` equation per operation;
* `run_bind_ok` — how a successful sequence splits;
* `forEach` — a loop over a list, and what a loop over **distinct keys** computes when each round only
  touches the part of the state its key names (`run_forEach_keyed`);
* `Moves R x` — whatever happens, `x` moves the state along `R`. For a preorder `R` the rule composes,
  so a property of a whole computation follows from its primitive steps. Keeping an invariant is the
  case `Preserves I`.
-/

/-- A fallible computation over a state `σ`: a value or an error, and the state reached either way. -/
def Fallible (σ ε α : Type) : Type := σ → Except ε α × σ

namespace Fallible

variable {σ ε α β : Type} {x : Fallible σ ε α} {f : α → Fallible σ ε β} {r : Except ε α} {a : α} {τ : Type}
  {set : τ → σ → σ} {s s' : σ} {get : σ → τ} {e : ε}

/-- The outcome and the final state of `x` started in `s`. -/
def run (x : Fallible σ ε α) (s : σ) : Except ε α × σ := x s

/-- Return the error `e`, the state being as it is. -/
def fail (e : ε) : Fallible σ ε α := fun s => (.error e, s)

/-- Go on with the value of a pure result, or return its error. -/
def lift (r : Except ε α) : Fallible σ ε α := fun s => (r, s)

/-- The value of an option, or the error `e`. -/
def okOr (o : Option α) (e : ε) : Fallible σ ε α := lift (o.elim (.error e) .ok)

/-- The current state. -/
def state : Fallible σ ε σ := fun s => (.ok s, s)

/-- Change the state. -/
def update (f : σ → σ) : Fallible σ ε Unit := fun s => (.ok (), f s)

/-- Run `x` and hand its outcome, value or error, to the caller. -/
def outcome (x : Fallible σ ε α) : Fallible σ ε (Except ε α) := fun s => (.ok (x s).1, (x s).2)

/-- Run `x` on a part of the state. -/
def zoom {τ : Type} (get : σ → τ) (set : τ → σ → σ) (x : Fallible τ ε α) : Fallible σ ε α :=
  fun s => ((x.run (get s)).1, set (x.run (get s)).2 s)

/-- Change the error of `x`. -/
def mapError (f : ε → ε) (x : Fallible σ ε α) : Fallible σ ε α :=
  fun s => ((x s).1.mapError f, (x s).2)

instance : Monad (Fallible σ ε) where
  pure a := fun s => (.ok a, s)
  bind x f := fun s =>
    match x s with
    | (.ok a, s') => f a s'
    | (.error e, s') => (.error e, s')

@[simp] theorem run_pure (a : α) (s : σ) : (pure a : Fallible σ ε α).run s = (.ok a, s) := rfl

@[simp] theorem run_fail : (fail e : Fallible σ ε α).run s = (.error e, s) := rfl

@[simp] theorem run_lift (r : Except ε α) (s : σ) : (lift r : Fallible σ ε α).run s = (r, s) := rfl

theorem run_okOr_some :
    (okOr (some a) e : Fallible σ ε α).run s = (.ok a, s) := rfl

@[simp] theorem run_state (s : σ) : (state : Fallible σ ε σ).run s = (.ok s, s) := rfl

@[simp] theorem run_update (f : σ → σ) (s : σ) :
    (update f : Fallible σ ε Unit).run s = (.ok (), f s) := rfl

@[simp] theorem run_outcome (x : Fallible σ ε α) (s : σ) :
    x.outcome.run s = (.ok (x.run s).1, (x.run s).2) := rfl

@[simp] theorem run_zoom (get : σ → τ) (set : τ → σ → σ) (x : Fallible τ ε α) (s : σ) :
    (x.zoom get set).run s = ((x.run (get s)).1, set (x.run (get s)).2 s) := rfl

@[simp] theorem run_mapError (f : ε → ε) (x : Fallible σ ε α) (s : σ) :
    (x.mapError f).run s = ((x.run s).1.mapError f, (x.run s).2) := rfl

theorem run_bind (x : Fallible σ ε α) (f : α → Fallible σ ε β) (s : σ) :
    (x >>= f).run s =
      match x.run s with
      | (.ok a, s') => (f a).run s'
      | (.error e, s') => (.error e, s') := rfl

/-- A step known to succeed is replaced by its value. -/
theorem run_bind_of_ok (h : x.run s = (.ok a, s')) : (x >>= f).run s = (f a).run s' := by
  rw [run_bind, h]

/-- A step known to fail ends the computation. -/
theorem run_bind_of_error (h : x.run s = (.error e, s')) : (x >>= f).run s = (.error e, s') := by
  rw [run_bind, h]

/-- A run with a known outcome. -/
theorem run_eq_of_fst (h : (x.run s).1 = r) : x.run s = (r, (x.run s).2) := by
  rw [← h]

theorem bind_bind {γ : Type} (x : Fallible σ ε α) (f : α → Fallible σ ε β)
    (g : β → Fallible σ ε γ) : x >>= f >>= g = x >>= fun a => f a >>= g := by
  funext s
  show (x >>= f >>= g).run s = (x >>= fun a => f a >>= g).run s
  rw [run_bind, run_bind, run_bind]
  rcases x.run s with ⟨_ | a, s'⟩ <;> rfl

theorem bind_pure_eq : (x >>= fun a => pure a) = x := by
  funext s
  show (x >>= fun a => pure a).run s = x.run s
  rw [run_bind]
  rcases x.run s with ⟨_ | a, s'⟩ <;> rfl

/-- **Inversion of a successful sequence**: both halves succeeded. -/
theorem run_bind_ok {s'' : σ} {b : β}
    (h : (x >>= f).run s = (.ok b, s'')) : ∃ a s', x.run s = (.ok a, s') ∧ (f a).run s' = (.ok b, s'') := by
  rw [run_bind] at h
  rcases hx : x.run s with ⟨_ | a, s'⟩
  · rw [hx] at h; cases h
  · rw [hx] at h; exact ⟨a, s', rfl, h⟩

theorem run_lift_ok (h : (lift r : Fallible σ ε α).run s = (.ok a, s')) : r = .ok a ∧ s' = s :=
  ⟨congrArg Prod.fst h, (congrArg Prod.snd h).symm⟩

theorem run_okOr_ok {o : Option α}
    (h : (okOr o e : Fallible σ ε α).run s = (.ok a, s')) : o = some a ∧ s' = s := by
  obtain ⟨hvalue, hstate⟩ := run_lift_ok h
  cases o with
  | none => cases hvalue
  | some b => cases hvalue; exact ⟨rfl, hstate⟩

theorem run_mapError_ok {f : ε → ε} (h : (x.mapError f).run s = (.ok a, s')) : x.run s = (.ok a, s') := by
  rw [run_mapError] at h
  rcases hx : x.run s with ⟨e | b, s₁⟩
  · rw [hx] at h; cases h
  · rw [hx] at h; cases h; rfl

theorem run_zoom_ok {x : Fallible τ ε α}
    (h : (x.zoom get set).run s = (.ok a, s')) : ∃ t, x.run (get s) = (.ok a, t) ∧ s' = set t s := by
  rw [run_zoom] at h
  rcases hx : x.run (get s) with ⟨r, t⟩
  rw [hx] at h
  cases h
  exact ⟨t, rfl, rfl⟩

/-! ## Loops -/

/-- `for a in l { f a? }`. -/
def forEach (l : List α) (f : α → Fallible σ ε Unit) : Fallible σ ε Unit :=
  match l with
  | [] => pure ()
  | a :: l => do
    f a
    forEach l f

theorem run_forEach_singleton (a : α) (f : α → Fallible σ ε Unit) (s : σ) :
    (forEach [a] f).run s = (f a).run s := by
  rw [forEach, run_bind]
  rcases (f a).run s with ⟨e | ⟨⟩, s'⟩ <;> rfl

section

variable {κ γ ν ρ : Type} [DecidableEq κ] {get : σ → κ → ν} {rest : σ → ρ}
  {step : (Sigma fun _ : κ => γ) → Fallible σ ε Unit} {effect : κ → γ → ν → Option ν}
  {l : List (Sigma fun _ : κ => γ)} {e : Sigma fun _ : κ => γ}

/-- The round of the entry `e` sees and sets the part of the state at its own key only: it turns the part
    `v` into `effect _ _ v`, or fails where that is undefined. -/
def KeyedStep (get : σ → κ → ν) (rest : σ → ρ) (step : (Sigma fun _ : κ => γ) → Fallible σ ε Unit)
    (effect : κ → γ → ν → Option ν) (e : Sigma fun _ : κ => γ) : Prop :=
  ∀ s, match effect e.1 e.2 (get s e.1) with
    | some v => ∃ s', (step e).run s = (.ok (), s') ∧ get s' = Function.update (get s) e.1 v ∧
        rest s' = rest s
    | none => ∃ err s', (step e).run s = (.error err, s')

theorem KeyedStep.ok (h : KeyedStep get rest step effect e) {v : ν}
    (hv : effect e.1 e.2 (get s e.1) = some v) :
    ∃ s', (step e).run s = (.ok (), s') ∧ get s' = Function.update (get s) e.1 v ∧ rest s' = rest s := by
  have hs := h s
  rw [hv] at hs
  exact hs

theorem KeyedStep.error (h : KeyedStep get rest step effect e)
    (hv : effect e.1 e.2 (get s e.1) = none) : ∃ err s', (step e).run s = (.error err, s') := by
  have hs := h s
  rw [hv] at hs
  exact hs

variable (hl : l.NodupKeys) (hstep : ∀ e ∈ l, KeyedStep get rest step effect e) (s : σ)

include hl hstep

/-- **A loop over distinct keys whose rounds all succeed.** Every key ends with its own effect applied to
    what was there before the loop; the order of the rounds plays no part. -/
theorem run_forEach_keyed (hok : ∀ e ∈ l, (effect e.1 e.2 (get s e.1)).isSome) :
    ∃ s', (forEach l step).run s = (.ok (), s') ∧ rest s' = rest s ∧
      ∀ k, get s' k = (l.dlookup k).elim (get s k) fun c => (effect k c (get s k)).getD (get s k) := by
  induction l generalizing s with
  | nil => exact ⟨s, rfl, rfl, fun k => rfl⟩
  | cons e l ih =>
    obtain ⟨he, hl'⟩ := List.nodupKeys_cons.mp hl
    obtain ⟨v, hv⟩ := Option.isSome_iff_exists.mp (hok e List.mem_cons_self)
    obtain ⟨s₁, hrun₁, hget₁, hrest₁⟩ := (hstep e List.mem_cons_self).ok hv
    -- the later rounds have other keys, so for them nothing has changed
    have hsame : ∀ k, k ≠ e.1 → get s₁ k = get s k := fun k hk => by
      rw [hget₁, Function.update_of_ne hk]
    have hok₁ : ∀ e' ∈ l, (effect e'.1 e'.2 (get s₁ e'.1)).isSome := by
      intro e' he'
      have hne : e'.1 ≠ e.1 := fun h => he (h ▸ List.mem_keys_of_mem he')
      rw [hsame e'.1 hne]; exact hok e' (List.mem_cons_of_mem e he')
    obtain ⟨s₂, hrun₂, hrest₂, hget₂⟩ := ih hl' (fun e' he' => hstep e' (List.mem_cons_of_mem e he')) s₁ hok₁
    refine ⟨s₂, ?_, hrest₂.trans hrest₁, fun k => ?_⟩
    · rw [forEach, run_bind_of_ok hrun₁, hrun₂]
    · rw [hget₂]
      by_cases hk : k = e.1
      · subst hk
        have hnone : l.dlookup e.1 = none := List.dlookup_eq_none.mpr he
        have hsome : (e :: l).dlookup e.1 = some e.2 := List.dlookup_cons_eq l e.1 e.2
        rw [hnone, hsome, hget₁]
        simp [hv]
      · have hcons : (e :: l).dlookup k = l.dlookup k := List.dlookup_cons_ne l e hk
        rw [hcons, hsame k hk]

/-- A loop over distinct keys with a round that fails, fails. -/
theorem run_forEach_keyed_error (hbad : ∃ e ∈ l, effect e.1 e.2 (get s e.1) = none) :
    ∃ err s', (forEach l step).run s = (.error err, s') := by
  induction l generalizing s with
  | nil => obtain ⟨e, he, -⟩ := hbad; cases he
  | cons e l ih =>
    obtain ⟨he, hl'⟩ := List.nodupKeys_cons.mp hl
    cases hv : effect e.1 e.2 (get s e.1) with
    | none =>
      obtain ⟨err, s', hrun⟩ := (hstep e List.mem_cons_self).error hv
      exact ⟨err, s', by rw [forEach, run_bind_of_error hrun]⟩
    | some v =>
      obtain ⟨s₁, hrun₁, hget₁, -⟩ := (hstep e List.mem_cons_self).ok hv
      obtain ⟨e', he', hbad'⟩ := hbad
      rcases List.mem_cons.mp he' with rfl | hmem
      · rw [hv] at hbad'; cases hbad'
      · have hne : e'.1 ≠ e.1 := fun h => he (h ▸ List.mem_keys_of_mem hmem)
        have hbad₁ : effect e'.1 e'.2 (get s₁ e'.1) = none := by
          rw [hget₁, Function.update_of_ne hne]; exact hbad'
        obtain ⟨err, s', hrun⟩ :=
          ih hl' (fun x hx => hstep x (List.mem_cons_of_mem e hx)) s₁ ⟨e', hmem, hbad₁⟩
        exact ⟨err, s', by rw [forEach, run_bind_of_ok hrun₁, hrun]⟩

end

/-! ## Moving along a relation -/

/-- Whatever `x` returns, it takes the state along `R`. -/
def Moves (R : σ → σ → Prop) (x : Fallible σ ε α) : Prop := ∀ s, R s (x.run s).2

/-- Keeping the invariant `I`. -/
def Preserves (I : σ → Prop) (s s' : σ) : Prop := I s → I s'

instance (I : σ → Prop) : Std.Refl (Preserves I) := ⟨fun _ h => h⟩

instance (I : σ → Prop) : IsTrans σ (Preserves I) := ⟨fun _ _ _ h₁ h₂ h => h₂ (h₁ h)⟩

variable {R : σ → σ → Prop}

theorem Moves.mono {R' : σ → σ → Prop} (hx : Moves R x) (h : ∀ s s', R s s' → R' s s') : Moves R' x :=
  fun s => h s _ (hx s)

theorem Moves.update {f : σ → σ} (h : ∀ s, R s (f s)) :
    Moves R (update f : Fallible σ ε Unit) := h

section

variable [Std.Refl R]

theorem Moves.pure (a : α) : Moves R (pure a : Fallible σ ε α) :=
  fun s => refl_of R s

theorem Moves.fail (e : ε) : Moves R (fail e : Fallible σ ε α) :=
  fun s => refl_of R s

theorem Moves.lift (r : Except ε α) : Moves R (lift r : Fallible σ ε α) :=
  fun s => refl_of R s

theorem Moves.okOr (o : Option α) (e : ε) : Moves R (okOr o e : Fallible σ ε α) :=
  lift _

theorem Moves.state : Moves R (.state : Fallible σ ε σ) :=
  fun s => refl_of R s

end

theorem Moves.outcome (hx : Moves R x) : Moves R x.outcome := hx

theorem Moves.zoom {R' : τ → τ → Prop} {x : Fallible τ ε α} (hx : Moves R' x)
    (h : ∀ s t, R' (get s) t → R s (set t s)) : Moves R (x.zoom get set) :=
  fun s => h s _ (hx (get s))

theorem Moves.mapError {f : ε → ε} (hx : Moves R x) : Moves R (x.mapError f) :=
  hx

/-- The sequence rule for steps that move along different relations. -/
theorem Moves.seq {S T : σ → σ → Prop} (hx : Moves R x)
    (hf : ∀ {a s s'}, x.run s = (.ok a, s') → Moves S (f a)) (hfirst : ∀ {s s'}, R s s' → T s s')
    (hboth : ∀ {s s' s''}, R s s' → S s' s'' → T s s'') : Moves T (x >>= f) := by
  intro s
  have hs := hx s
  rw [run_bind]
  rcases h : x.run s with ⟨_ | a, s'⟩
  · rw [h] at hs; exact hfirst hs
  · rw [h] at hs; exact hboth hs (hf h s')

/-- **The sequence rule.** The second step may make use of what the first one returns. -/
theorem Moves.bind_run [IsTrans σ R] (hx : Moves R x)
    (hf : ∀ {a s s'}, x.run s = (.ok a, s') → Moves R (f a)) : Moves R (x >>= f) :=
  hx.seq hf id (trans_of R)

theorem Moves.bind [IsTrans σ R] (hx : Moves R x) (hf : ∀ a, Moves R (f a)) : Moves R (x >>= f) :=
  hx.bind_run fun _ => hf _

/-- Under a guard, what is known about the first result may depend on it. -/
theorem Moves.bind_guarded [IsTrans σ R] {I : σ → Prop} (hguard : ∀ {s s'}, (I s → R s s') → R s s')
    (hx : Moves R x) (hf : ∀ {a s s'}, I s → x.run s = (.ok a, s') → Moves R (f a)) : Moves R (x >>= f) := by
  intro s
  refine hguard fun hI => ?_
  have hs := hx s
  rw [run_bind]
  rcases h : x.run s with ⟨_ | a, s'⟩
  · rw [h] at hs; exact hs
  · rw [h] at hs; exact trans_of R hs (hf hI h s')

theorem Moves.of_run (hx : Moves R x) (h : x.run s = (r, s')) : R s s' := by
  have hs := hx s
  rwa [h] at hs

/-- Inversion of a successful sequence whose first step moves along `R`. -/
theorem Moves.bind_ok (hx : Moves R x) {s'' : σ} {b : β}
    (h : (x >>= f).run s = (.ok b, s'')) : ∃ a s', R s s' ∧ (f a).run s' = (.ok b, s'') := by
  obtain ⟨a, s', hrun, h⟩ := run_bind_ok h
  exact ⟨a, s', hx.of_run hrun, h⟩

variable [Std.Refl R] [IsTrans σ R] {f : α → Fallible σ ε Unit}

theorem Moves.forEach_mem {l : List α} (hf : ∀ a ∈ l, Moves R (f a)) : Moves R (forEach l f) := by
  induction l with
  | nil => exact .pure ()
  | cons a l ih =>
    have hothers := ih fun b hb => hf b (List.mem_cons_of_mem a hb)
    exact (hf a List.mem_cons_self).bind fun _ => hothers

theorem Moves.forEach (hf : ∀ a, Moves R (f a)) (l : List α) : Moves R (forEach l f) :=
  .forEach_mem fun a _ => hf a

end Fallible
