import L1xCore.Lib.Fallible

/-!
# `Lib.Interaction` — programs that are known by what they ask their host

A guest program is run by an interpreter that the host does not look into. All the host sees is a
sequence of requests, each of which may depend on the answers to the ones before it. Such a program is a
tree: it is either **done** with a result, or it **asks** the host and goes on with the answer. Every
path of the tree is finite, so a run always ends.

`Interaction.run` runs a program against a host whose answers may change a state and may fail; a failure
ends the program. A relation that every answer keeps is kept by every run (`run_moves`). `trace` lists the
requests that are made in a run, each with the state of the host it is made in.
-/

/-- A program that asks `Op`s of its host; the answer to an `op` is an `Answer op`. -/
inductive Interaction (Op : Type) (Answer : Op → Type) (α : Type) where
  | done (a : α)
  | ask (op : Op) (next : Answer op → Interaction Op Answer α)

namespace Interaction

variable {Op α σ ε : Type} {Answer : Op → Type} {answer : (op : Op) → Fallible σ ε (Answer op)}

/-- Run a program against a host. -/
def run (answer : (op : Op) → Fallible σ ε (Answer op)) :
    Interaction Op Answer α → Fallible σ ε α
  | done a => pure a
  | ask op next => answer op >>= fun r => run answer (next r)

/-- **The rule for programs.** What every answer of the host does to the state, any program does. -/
theorem run_moves {R : σ → σ → Prop} [Std.Refl R] [IsTrans σ R] (h : ∀ op, Fallible.Moves R (answer op))
    (program : Interaction Op Answer α) : Fallible.Moves R (program.run answer) := by
  induction program with
  | done a => exact .pure a
  | ask op next ih => exact (h op).bind ih

/-- Whatever the answers are, every request satisfies `P`. -/
def All (P : Op → Prop) : Interaction Op Answer α → Prop
  | done _ => True
  | ask op next => P op ∧ ∀ r, (next r).All P

/-- The requests of a run, each with the state it is made in. -/
def trace (answer : (op : Op) → Fallible σ ε (Answer op)) : Interaction Op Answer α → σ → List (Op × σ)
  | done _, _ => []
  | ask op next, s =>
    (op, s) ::
      match (answer op).run s with
      | (.ok r, s') => trace answer (next r) s'
      | (.error _, _) => []

theorem All.of_mem_trace {P : Op → Prop} {program : Interaction Op Answer α} (h : program.All P) {s s' : σ}
    {op : Op} (hmem : (op, s') ∈ program.trace answer s) : P op := by
  induction program generalizing s with
  | done a => cases hmem
  | ask first next ih =>
    rw [trace] at hmem
    rcases List.mem_cons.mp hmem with heq | hrest
    · cases heq
      exact h.1
    · cases hrun : (answer first).run s with
      | mk outcome s₁ =>
        rw [hrun] at hrest
        cases outcome with
        | error e => cases hrest
        | ok r => exact ih r (h.2 r) hrest

end Interaction
