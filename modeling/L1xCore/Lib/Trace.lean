import Mathlib.Data.List.Infix

/-!
# `Lib.Trace` — what has to come before an event

A trace lists events in the order in which they happened. `Guarded guard trace` is the "never before"
property: each event of the trace met `guard` together with the events **before** it.

`AllMeet step condition s inputs` is a condition on the inputs of a run: each of them meets it in the state
it arrives in.
-/

namespace Trace

variable {ε : Type} {guard : List ε → ε → Prop} {trace : List ε} {event : ε}

def Guarded (guard : List ε → ε → Prop) (trace : List ε) : Prop :=
  ∀ before event after, trace = before ++ event :: after → guard before event

theorem guarded_nil : Guarded guard [] := by
  intro before event after h
  cases (List.append_eq_nil_iff.mp h.symm).2

/-- **One more event.** The earlier ones have the same past as before. -/
theorem guarded_concat : Guarded guard (trace ++ [event]) ↔ Guarded guard trace ∧ guard trace event := by
  constructor
  · intro h
    refine ⟨fun before e after htrace => h before e (after ++ [event]) ?_, h trace event [] rfl⟩
    rw [htrace, List.append_assoc, List.cons_append]
  · rintro ⟨h, hlast⟩ before e after htrace
    rcases List.eq_nil_or_concat after with rfl | ⟨after, last, rfl⟩
    · obtain ⟨rfl, hevent⟩ := List.append_inj' htrace rfl
      cases hevent
      exact hlast
    · have hsplit : trace ++ [event] = (before ++ e :: after) ++ [last] := by
        rw [htrace, List.concat_eq_append, List.append_assoc, List.cons_append]
      exact h before e after (List.append_inj' hsplit rfl).1

/-- What happened so far was guarded as well. -/
theorem Guarded.of_prefix {earlier : List ε} (h : Guarded guard trace) (hsub : earlier <+: trace) :
    Guarded guard earlier := by
  obtain ⟨later, rfl⟩ := hsub
  intro before event after hearlier
  refine h before event (after ++ later) ?_
  rw [hearlier, List.append_assoc, List.cons_append]

/-! ## Runs -/

section

variable {σ ι : Type} {step : σ → ι → σ} {condition : σ → ι → Prop}

def AllMeet (step : σ → ι → σ) (condition : σ → ι → Prop) : σ → List ι → Prop
  | _, [] => True
  | s, input :: inputs => condition s input ∧ AllMeet step condition (step s input) inputs

/-- **The run rule.** What every step under the condition keeps, holds after all of them. -/
theorem AllMeet.foldl {I : σ → Prop} (hstep : ∀ s input, condition s input → I s → I (step s input))
    {s : σ} {inputs : List ι} (hmeet : AllMeet step condition s inputs) (hs : I s) :
    I (inputs.foldl step s) := by
  induction inputs generalizing s with
  | nil => exact hs
  | cons input inputs ih => exact ih hmeet.2 (hstep s input hmeet.1 hs)

end

end Trace
