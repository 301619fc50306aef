import L1xCore.Consensus.Handlers
import L1xCore.Execute.Growth
import L1xCore.Lib.Trace

/-!
# `Consensus.Gate` — a block is stored and executed only after its vote

The **finality gate**: before a block above genesis is stored or executed, a vote result for its number and
its hash was accepted and was passed by the validators of its epoch. A pending block goes through the gate.
The answer to a query does not: `receive_block` stores a valid block before it looks at the vote result that
came with it, a block may come without one, and whether it is passed is never asked.

`gateKept_iff` says for every run that this is the only way round the gate. What every run does keep: a
block is stored before it is executed, and no mark or row is taken back.
-/

namespace L1xCore

open Fallible World

/-- A block that needs a vote: above genesis, and not a system block. -/
def Block.IsVotedOn (block : Block) : Prop :=
  block.isSystemBlock = false ∧ 0 < block.blockHeader.blockNumber

/-- What must have happened before an event. -/
def gate (before : List NodeEvent) : NodeEvent → Prop
  | .stored block => block.IsVotedOn → Approved before block
  | .executed block => block.IsVotedOn → Approved before block
  | _ => True

def GateKept (log : List NodeEvent) : Prop := Trace.Guarded gate log

namespace Node

variable {n : Node} {s s' : NodeState} {choice : RowChoice}

/-- The answer to a query is not stored, or its block needs no vote, or the node has seen the vote. -/
def KeepsGate (n : Node) (s : NodeState) : NodeInput → Prop
  | .receiveBlock payload _ =>
    s.chain.isBlockExecuted payload.block.blockHeader.blockNumber n.clusterAddress = true ∨
      n.validate.validateBlock s.world payload n.clusterAddress payload.sender ≠ .ok () ∨
      ¬ payload.block.IsVotedOn ∨ Approved s.log payload.block
  | _ => True

/-- The invariant: the gate was kept, and what is stored has had its vote. -/
structure Gated (s : NodeState) : Prop where
  kept : GateKept s.log
  approved : ∀ block, NodeEvent.stored block ∈ s.log → block.IsVotedOn → Approved s.log block

theorem Gated.of_log_eq (h : Gated s) (hlog : s'.log = s.log) : Gated s' := by
  constructor
  · rw [hlog]; exact h.kept
  · rw [hlog]; exact h.approved

/-- One more event that may happen, and is not the store of a block. -/
theorem Gated.concat (h : Gated s) {event : NodeEvent} (hlog : s'.log = s.log ++ [event])
    (hgate : gate s.log event) : Gated s' := by
  constructor
  · rw [hlog]
    exact Trace.guarded_concat.mpr ⟨h.kept, hgate⟩
  · intro block hstored hvoted
    rw [hlog] at hstored ⊢
    rcases List.mem_append.mp hstored with hmem | hmem
    · exact (h.approved block hmem hvoted).mono (List.subset_append_left _ _)
    · -- the block is stored by this event, and the gate asked for the vote
      cases List.mem_singleton.mp hmem
      exact (hgate hvoted).mono (List.subset_append_left _ _)

/-- Every effect keeps the gate; for the answer to a query it is the condition that does. -/
theorem Effect.gated (h : n.Effect n.KeepsGate s s') (hs : Gated s) : Gated s' := by
  cases h with
  | vote | accept | pass | select | finish | propose => exact hs.concat rfl trivial
  | storeApproved happroved => exact hs.concat rfl fun _ => happroved
  | storeReceived hcondition hexecuted hvalid =>
    refine hs.concat rfl fun hvoted => ?_
    rcases hcondition with hdone | hrefused | hfree | happroved
    · rw [hexecuted] at hdone
      cases hdone
    · exact absurd hvalid hrefused
    · exact absurd hvoted hfree
    · exact happroved
  | execute hstored => exact hs.concat rfl fun hvoted => hs.approved _ hstored hvoted
  | storeValidators | announce | storeVoteResult | keepVote | keepVoteResult | keepBlock | remove
  | dropConflicting => exact hs.of_log_eq rfl

/-! ## The way round -/

theorem log_prefix_step (s : NodeState) (call : RowChoice × NodeInput) : s.log <+: (n.step s call).log := by
  have hreach : n.Reach (fun _ _ => True) s (n.step s call) := n.reach_step s call trivial
  exact hreach.log_prefix

theorem log_prefix_runCalls (s : NodeState) (calls : List (RowChoice × NodeInput)) :
    s.log <+: (n.runCalls s calls).log := by
  induction calls generalizing s with
  | nil => exact List.prefix_refl _
  | cons call calls ih => exact (log_prefix_step s call).trans (ih (n.step s call))

/-- An answer that does not meet the condition is stored at once. -/
theorem stored_of_not_keepsGate {input : NodeInput} (h : ¬ n.KeepsGate s input) :
    ∃ block : Block, block.IsVotedOn ∧ ¬ Approved s.log block ∧
      s.log ++ [.stored block] <+: (n.step s (choice, input)).log := by
  cases input with
  | receiveBlock payload voteResult =>
    simp only [KeepsGate, not_or, not_not] at h
    obtain ⟨hexecuted, hvalid, hvoted, hunseen⟩ := h
    refine ⟨payload.block, hvoted, hunseen, ?_⟩
    have hreach : n.Reach (fun _ _ => True) _ _ :=
      (afterReceivedBlock_triple choice payload.block voteResult _ (ready_stored payload.block s)).1
    -- a valid answer is stored before anything else happens
    show _ <+: ((n.receiveBlock choice payload voteResult).run s).2.log
    rw [NodeState.chain] at hexecuted
    rw [receiveBlock, ifReceivable, run_bind_of_ok (run_state s), if_neg hexecuted, hvalid]
    simp only [executeReceivedBlock, bind_bind]
    exact hreach.log_prefix
  | receiveValidateBlock | receiveBlockProposer | receiveVote | receiveVoteResult
  | addAndBroadcastBlock => exact absurd trivial h

/-- If the gate was kept in the end, every call met the condition. -/
theorem allMeet_of_gateKept {calls : List (RowChoice × NodeInput)} :
    ∀ {s : NodeState}, GateKept (n.runCalls s calls).log → n.AllMeet n.KeepsGate s calls := by
  induction calls with
  | nil => exact fun _ => trivial
  | cons call calls ih =>
    intro s hkept
    refine ⟨?_, ih hkept⟩
    by_contra hmeets
    -- the block is stored first, and the log of the whole run starts with that
    obtain ⟨block, hvoted, hunseen, hstored⟩ := stored_of_not_keepsGate hmeets
    have hsofar := hkept.of_prefix (hstored.trans (log_prefix_runCalls _ calls))
    exact hunseen ((Trace.guarded_concat.mp hsofar).2 hvoted)

/-- **The finality gate.** A run from a fresh start keeps it exactly when, at each answer to a query, the
    block is not stored, or needs no vote, or the node has seen its vote before. -/
theorem gateKept_iff (n : Node) (w : World) (calls : List (RowChoice × NodeInput)) :
    GateKept (n.runCalls (start w) calls).log ↔ n.AllMeet n.KeepsGate (start w) calls := by
  constructor
  · exact allMeet_of_gateKept
  · intro hmeet
    have hstart : Gated (start w) := ⟨Trace.guarded_nil, fun block hstored => by cases hstored⟩
    exact (runCalls_preserves Effect.gated calls hmeet hstart).kept

/-- A block without a vote result, sent to a node that has only genesis, is stored and executed. -/
theorem answeredBlock_skips_gate :
    let s := (Small.node 5 fun _ => []).runCalls (start afterGenesis)
      [(.first, .receiveBlock (proposed []) none)]
    (proposed []).block.IsVotedOn ∧
      s.log = [.stored (proposed []).block, .executed (proposed []).block, .finalized (proposed []).block] ∧
      ¬ GateKept s.log := by
  intro s
  have hvoted : (proposed []).block.IsVotedOn := ⟨rfl, by decide⟩
  have hlog : s.log = [.stored (proposed []).block, .executed (proposed []).block,
      .finalized (proposed []).block] := by
    decide +kernel
  refine ⟨hvoted, hlog, fun hkept => ?_⟩
  rw [hlog] at hkept
  obtain ⟨voteResult, _, _, _, hpassed⟩ := hkept [] _ _ rfl hvoted
  cases hpassed

/-- **A block is stored before it is executed or finalised**, in every run. -/
theorem runCalls_storedFirst (n : Node) (w : World) (calls : List (RowChoice × NodeInput)) :
    Trace.Guarded (fun before event => ∀ block, event = .executed block ∨ event = .finalized block →
      .stored block ∈ before) (n.runCalls (start w) calls).log := by
  refine runCalls_preserves (I := fun s => Trace.Guarded _ s.log) ?_ calls (n.allMeet_true _ _)
    Trace.guarded_nil
  intro s s' heffect hs
  cases heffect with
  | execute hstored | finish hstored =>
    refine Trace.guarded_concat.mpr ⟨hs, ?_⟩
    rintro _ (hevent | hevent) <;> cases hevent
    exact hstored
  -- the other events are neither of the two
  | vote | accept | pass | select | storeApproved | storeReceived | propose =>
    refine Trace.guarded_concat.mpr ⟨hs, ?_⟩
    rintro _ (hevent | hevent) <;> cases hevent
  | _ => exact hs

/-! ## What no run takes away -/

/-- **Whatever messages arrive in whatever order**, a mark is not taken back, and the state only grows. -/
theorem runCalls_grows (hengines : n.platform.executor.KeepsAccounts) (s : NodeState)
    (calls : List (RowChoice × NodeInput)) :
    s.world.db.state.GrowsTo (n.runCalls s calls).world.db.state ∧
      ∀ number cluster, s.chain.isBlockExecuted number cluster = true →
        (n.runCalls s calls).chain.isBlockExecuted number cluster = true := by
  have hmeet := n.allMeet_true s calls
  constructor
  · refine runCalls_preserves (I := fun t => s.world.db.state.GrowsTo t.world.db.state) ?_ calls hmeet .refl
    intro t t' heffect hgrows
    cases heffect with
    | execute => exact hgrows.trans (executeBlock_growsTo hengines _)
    | _ => exact hgrows
  · intro number cluster
    exact runCalls_preserves (fun heffect => heffect.executed_mono number cluster) calls hmeet

theorem answeredBlock_grows :
    let s := (Small.node 5 fun _ => []).runCalls (start afterGenesis)
      [(.first, .receiveBlock (proposed []) none)]
    afterGenesis.db.state.GrowsTo s.world.db.state :=
  (runCalls_grows (n := Small.node 5 fun _ => []) Small.platform_keepsAccounts (start afterGenesis) _).1

end Node

end L1xCore
