import L1xCore.Consensus.Effects

/-!
# `Consensus.Handlers` — every call of a handler is a sequence of effects

One triple for each function of the node, along `Reach` or a part of it: the votes and the checks of vote
results leave the world alone, the selection of a proposer leaves the blocks alone. What a function has
established for the next one (a vote result that is accepted, a block that is stored) is its postcondition.
The result is `reach_step`.
-/

namespace L1xCore.Node

open Fallible ChainTables Triple Validate List

variable {w : World} {payload : BlockPayload} {P : NodeState → Prop} {choice : RowChoice}
  {validators : List Validator} {n : Node} {condition : NodeState → NodeInput → Prop} {s s' : NodeState}
  {block : Block} {voteResult : Option VoteResult} {voteResults : List VoteResult} {entry : PendingBlock}
  {header : BlockHeader}

/-! ## Sequences of effects that leave something alone -/

/-- A sequence of effects whose ends are related by `K`. -/
def Along (n : Node) (condition : NodeState → NodeInput → Prop) (K : NodeState → NodeState → Prop)
    (s s' : NodeState) : Prop :=
  n.Reach condition s s' ∧ K s s'

def SameWorld (s s' : NodeState) : Prop := s'.world = s.world

def SameChain (s s' : NodeState) : Prop := SameBlocks s.chain s'.chain

instance : Std.Refl SameWorld := ⟨fun _ => rfl⟩

instance : IsTrans NodeState SameWorld := ⟨fun _ _ _ h₁ h₂ => Eq.trans h₂ h₁⟩

instance : Std.Refl SameChain := ⟨fun _ => refl_of SameBlocks _⟩

instance : IsTrans NodeState SameChain := ⟨fun _ _ _ h₁ h₂ => trans_of SameBlocks h₁ h₂⟩

instance {K : NodeState → NodeState → Prop} [Std.Refl K] : Std.Refl (n.Along condition K) :=
  ⟨fun s => ⟨refl_of (n.Reach condition) s, refl_of K s⟩⟩

instance {K : NodeState → NodeState → Prop} [IsTrans NodeState K] : IsTrans NodeState (n.Along condition K) :=
  ⟨fun _ _ _ h₁ h₂ => ⟨h₁.1.trans h₂.1, trans_of K h₁.2 h₂.2⟩⟩

theorem triple_reach {α : Type} {K : NodeState → NodeState → Prop} {x : Op α} {Q : α → NodeState → Prop}
    (h : Triple (n.Along condition K) P x Q) : Triple (n.Reach condition) P x Q :=
  h.coarsen fun _ _ h => h.1

theorem SameWorld.sameChain (h : SameWorld s s') : SameChain s s' := by
  rw [SameChain, NodeState.chain, NodeState.chain, h]
  exact refl_of SameBlocks _

/-! ## Before the vote -/

/-- Both ways into the chain compare the cluster with the one of the head. -/
theorem validateBlockHeaderAndTransactions_followsHead {eligible : Option (Finset Address)}
    (h : n.validate.validateBlockHeaderAndTransactions w payload n.clusterAddress eligible = .ok ()) :
    n.FollowsHead w.db.chain payload.block.blockHeader := by
  obtain ⟨last, hlast, hsame | hfollows, _⟩ := validateBlockHeaderAndTransactions_ok h
  · exact ⟨last, hlast, by rw [hsame]⟩
  · exact ⟨last, hlast, hfollows.clusterAddress.symm⟩

/-! ## Votes and vote results -/

theorem castVote_triple (hblock : entry.block = some payload) (number : BlockNumber) (votes : Bool) :
    Triple (n.Along condition SameWorld)
      (fun s => s.pendingBlocks.get number = some entry ∧
        s.chain.isBlockExecuted number n.clusterAddress = false)
      (n.castVote payload.block.blockHeader entry votes) (fun _ _ => True) := by
  rintro s ⟨hentry, hexecuted⟩
  refine ⟨?_, fun _ _ _ => trivial⟩
  unfold castVote
  split
  · next hvotes =>
      have hown : entry.votes.any n.isOwn = false := by
        simpa using (Bool.and_eq_true_iff.mp hvotes).2
      exact ⟨(Effect.vote hentry hblock hexecuted hown).reach, rfl⟩
  · exact refl_of (n.Along condition SameWorld) s

/-- The vote result is about the block, and the node has accepted it. -/
def AcceptedFor (block : Block) (voteResult : VoteResult) (s : NodeState) : Prop :=
  subjectOfVoteResult voteResult = subjectOfHeader block.blockHeader ∧
    NodeEvent.accepted voteResult block ∈ s.log

theorem validateVoteResults_triple :
    Triple (n.Along condition SameWorld) (fun _ => True) (n.validateVoteResults block voteResults)
      (fun _ s => ∀ voteResult ∈ voteResults, AcceptedFor block voteResult s) := by
  have hloop := forEach (R := n.Along condition SameWorld)
    (J := fun done s => ∀ voteResult ∈ done, AcceptedFor block voteResult s)
    (f := fun voteResult => do
      let s ← state
      lift (n.validate.validateVoteResult s.world.db.chain voteResult block)
      record (.accepted voteResult block)) ?_ voteResults []
  · exact hloop.pre fun _ _ _ h => by cases h
  · intro done voteResult
    refine bind_state fun s hdone => bind_lift fun _ haccepted => update ?_
    rintro _ rfl
    refine ⟨⟨(Effect.accept haccepted).reach, rfl⟩, fun other hother => ?_⟩
    rcases mem_append.mp hother with hmem | hmem
    · exact ⟨(hdone other hmem).1, mem_append_left _ (hdone other hmem).2⟩
    · cases mem_singleton.mp hmem
      exact ⟨(validateVoteResult_ok haccepted).1, mem_append_right _ (mem_singleton_self _)⟩

/-- A vote result that was accepted and is found passed approves the block. -/
theorem firstPassed_triple :
    Triple (n.Along condition SameWorld)
      (fun s => s.chain.loadAllValidators block.blockHeader.epoch = some validators ∧
        ∀ voteResult ∈ voteResults, AcceptedFor block voteResult s)
      (firstPassed block.blockHeader.epoch validators voteResults)
      (fun passed s => passed.isSome → Approved s.log block) := by
  induction voteResults with
  | nil => exact pure fun s _ h => by cases h
  | cons voteResult voteResults ih =>
    refine bind_state fun s hs => bind_lift fun passed hpassed => ?_
    obtain ⟨hvalidators, haccepted⟩ := hs
    split
    · next hpass =>
        subst hpass
        refine bind (Q := fun _ s => Approved s.log block) (update ?_)
          fun _ => pure fun s happroved _ => happroved
        rintro _ rfl
        obtain ⟨hsubject, hlogged⟩ := haccepted voteResult mem_cons_self
        refine ⟨⟨(Effect.pass hvalidators hpassed).reach, rfl⟩, voteResult, ?_, ?_, ⟨block, ?_⟩, ?_⟩
        · exact congrArg Prod.fst hsubject
        · exact congrArg (·.2.1) hsubject
        · exact mem_append_left _ hlogged
        · exact mem_append_right _ (mem_singleton_self _)
    · refine ih.pre ?_
      rintro _ rfl
      exact ⟨hvalidators, fun other hother => haccepted other (mem_cons_of_mem _ hother)⟩

/-! ## The end of an epoch -/

theorem selectBlockProposers_along {epoch : Epoch} :
    Moves (n.Along condition SameChain) (n.selectBlockProposers epoch header validators) := by
  unfold selectBlockProposers
  dsimp only
  split
  · exact .fail _
  · next validator _ =>
      intro s
      -- the loops over one cluster and one epoch come down to one insert
      have hinsert : ((storeBlockProposers
          [(header.clusterAddress, [(epoch, validator.address)])]).run s.chain).2 =
            insertProposer s.chain ⟨header.clusterAddress, epoch, validator.address⟩ := by
        rw [storeBlockProposers, run_forEach_singleton, run_forEach_singleton]
        rfl
      have heffect : n.Effect condition s _ := .select ⟨header.clusterAddress, epoch, validator.address⟩
      rw [← hinsert] at heffect
      exact ⟨heffect.reach, storeBlockProposers_sameBlocks s.chain⟩

theorem rollover_along : Moves (n.Along condition SameChain) (n.rollover header) := by
  unfold rollover
  dsimp only
  split
  · refine Moves.state.bind fun s => (Moves.lift _).bind fun last => .mapError ?_
    refine Moves.state.bind fun s => (Moves.lift _).bind fun config => (Moves.lift _).bind fun selected => ?_
    refine .bind (fun s => ?_) fun _ => selectBlockProposers_along
    exact ⟨(Effect.storeValidators selected).reach, rfl, rfl, rfl⟩
  · exact .pure ()

theorem storeVoteResult_along {voteResult : VoteResult} :
    Moves (n.Along condition SameChain) (onChain (storeVoteResult voteResult)) := by
  intro s
  exact ⟨(Effect.storeVoteResult voteResult).reach, storeVoteResult_sameBlocks voteResult s.chain⟩

/-! ## Storing and executing -/

/-- The block was stored, and there is a row for its mark. -/
def Ready (block : Block) (s : NodeState) : Prop :=
  NodeEvent.stored block ∈ s.log ∧
    (s.chain.blockMetaInfo.lookup (block.blockHeader.clusterAddress, block.blockHeader.blockNumber)).isSome

theorem Along.ready (h : n.Along condition SameChain s s') (hready : Ready block s) : Ready block s' := by
  refine ⟨h.1.log_subset hready.1, ?_⟩
  rw [h.2.blockMetaInfo]
  exact hready.2

theorem ready_stored (block : Block) (s : NodeState) :
    Ready block ((s.withChain (s.chain.storeBlock block)).logging (.stored block)) := by
  refine ⟨mem_append_right _ (mem_singleton_self _), ?_⟩
  show ((s.chain.storeBlock block).blockMetaInfo.lookup _).isSome
  rw [lookup_blockMetaInfo_storeBlock, if_pos rfl]
  rfl

theorem storeBlock_triple (hmay : ∀ s, P s → n.Effect condition s
      ((s.withChain (s.chain.storeBlock block)).logging (.stored block))) :
    Triple (n.Reach condition) P (storeBlock block) (fun _ => Ready block) := by
  intro s hs
  refine ⟨(hmay s hs).reach, fun _ s' hrun => ?_⟩
  cases hrun
  exact ready_stored block s

/-- The state after the call of `execute_block`, and after its success. -/
theorem run_executeBlock {r : Except Error (List ExecutionEvent)}
    (hrun : (World.executeBlock n.platform block).run s.world = (r, w)) :
    (n.executeBlock block).run s =
      match r with
      | .ok _ => (.ok (), { s.logging (.executed block) with world := w }.logging (.finalized block))
      | .error e => (.error e, { s.logging (.executed block) with world := w }) := by
  have hworld : (onWorld (World.executeBlock n.platform block)).run (s.logging (.executed block)) =
      (r, { s.logging (.executed block) with world := w }) := by
    show (((World.executeBlock n.platform block).run s.world).1,
      { s.logging (.executed block) with world := ((World.executeBlock n.platform block).run s.world).2 }) = _
    rw [hrun]
  have hrecord : (record (.executed block)).run s = (.ok (), s.logging (.executed block)) := rfl
  rw [executeBlock, run_bind_of_ok hrecord, run_bind, hworld]
  cases r <;> rfl

theorem executeBlock_triple :
    Triple (n.Reach condition) (Ready block) (n.executeBlock block)
      (fun _ s => .finalized block ∈ s.log) := by
  intro s hready
  have hexecute : n.Effect condition s _ := .execute hready.1
  rcases hrun : (World.executeBlock n.platform block).run s.world with ⟨e | events, w⟩
  · rw [hrun] at hexecute
    rw [run_executeBlock hrun]
    refine ⟨hexecute.reach, fun _ _ hfailed => ?_⟩
    cases hfailed
  · rw [hrun] at hexecute
    rw [run_executeBlock hrun]
    refine ⟨hexecute.reach.tail (.finish ?_ ?_), fun _ s' hok => ?_⟩
    · exact mem_append_left _ hready.1
    · -- after an execution that succeeds the block has its mark
      show w.db.chain.isBlockExecuted _ _ = true
      rcases World.executeBlock_chain hrun with ⟨hsame, hexecuted⟩ | hmarked
      · rw [hsame]
        exact hexecuted ⟨events, rfl⟩
      · rw [hmarked, isBlockExecuted_setBlockExecuted, if_pos ⟨rfl, hready.2⟩]
    · cases hok
      exact mem_append_right _ (mem_singleton_self _)

/-! ## Finalising pending blocks -/

/-- The block may be stored as an approved one. -/
def Storable (n : Node) (block : Block) (s : NodeState) : Prop :=
  Approved s.log block ∧ n.FollowsHead s.chain block.blockHeader

theorem Along.storable (h : n.Along condition SameChain s s') (hs : n.Storable block s) :
    n.Storable block s' := by
  obtain ⟨happroved, last, hlast, hcluster⟩ := hs
  refine ⟨happroved.mono h.1.log_subset, last, ?_, hcluster⟩
  rw [blockHeadHeader, loadBlockHeader, loadChainState, h.2.blockHeader, h.2.blockHead]
  exact hlast

/-- Once a vote result is passed, the block may be stored. -/
theorem passedVoteResult_triple {number : BlockNumber} (hblock : entry.block = some payload) :
    Triple (n.Reach condition)
      (fun s => s.pendingBlocks.get number = some entry ∧
        s.chain.isBlockExecuted number n.clusterAddress = false)
      (n.passedVoteResult choice entry payload)
      (fun _ s => payload.block.blockHeader.blockNumber = number ∧ n.Storable payload.block s) := by
  refine bind_state fun s hpre => ?_
  obtain ⟨hentry, hexecuted⟩ := hpre
  refine bind_lift fun checked hchecked => ?_
  obtain ⟨validators, votes⟩ := checked
  obtain ⟨hchecks⟩ := proposalChecked hchecked
  obtain ⟨_, hproposed⟩ := validateProposedBlock_ok hchecks.proposed
  have hhead := validateBlockHeaderAndTransactions_followsHead hproposed
  have hvalidators := hchecks.loaded
  have hnumber : payload.block.blockHeader.blockNumber = number := s.pendingBlocks.filed hentry hblock
  -- up to the vote result that passes, the world is the one the proposal was checked in
  have hworld : ∀ s₁ s₂, n.Along condition SameWorld s₁ s₂ → SameWorld s s₁ → SameWorld s s₂ :=
    fun s₁ s₂ h h₁ => trans_of SameWorld h₁ h.2
  refine bind (Q := fun _ s' => True ∧ SameWorld s s') ?_ fun _ => ?_
  · refine (triple_reach ((castVote_triple hblock number votes).frame hworld)).pre ?_
    rintro _ rfl
    exact ⟨⟨hentry, hexecuted⟩, rfl⟩
  refine bind
    (triple_reach (validateVoteResults_triple.frame hworld)) fun _ => ?_
  refine bind
    ((triple_reach (firstPassed_triple.frame hworld)).pre ?_) fun passed => ?_
  · rintro s' ⟨haccepted, hsame⟩
    refine ⟨⟨?_, haccepted⟩, hsame⟩
    rw [NodeState.chain, hsame]
    exact hvalidators
  cases passed with
  | none => exact fail _
  | some voteResult =>
    refine pure fun s' hpassed => ?_
    obtain ⟨happroved, hsame⟩ := hpassed
    refine ⟨hnumber, happroved rfl, ?_⟩
    rw [NodeState.chain, hsame]
    exact hhead

/-- Up to the store, the blocks of the chain stay as they are. -/
theorem finish_triple {voteResult : VoteResult} :
    Triple (n.Reach condition) (n.Storable block) (n.finish block voteResult)
      (fun _ s => .finalized block ∈ s.log) := by
  refine bind (triple_reach (rollover_along.triple fun _ _ => Along.storable)) fun _ => ?_
  refine bind (triple_reach (storeVoteResult_along.triple fun _ _ => Along.storable)) fun _ => ?_
  exact bind (storeBlock_triple fun s' hs' => .storeApproved hs'.1 hs'.2) fun _ => executeBlock_triple

/-- **A pending block that is finalised without an error is done.** -/
theorem tryToFinalizeBlock_triple {number : BlockNumber} :
    Triple (n.Reach condition)
      (fun s => s.pendingBlocks.get number = some entry ∧
        s.chain.isBlockExecuted number n.clusterAddress = false)
      (n.tryToFinalizeBlock choice entry) (fun _ s => n.Done s number) := by
  unfold tryToFinalizeBlock
  split
  · exact fail _
  · next payload hblock =>
      refine bind (passedVoteResult_triple hblock) fun voteResult s hpassed => ?_
      obtain ⟨hnumber, hstorable⟩ := hpassed
      obtain ⟨hreach, hfinalized⟩ := finish_triple s hstorable
      exact ⟨hreach, fun _ s' hrun => .inr ⟨payload.block, hnumber, hfinalized _ s' hrun⟩⟩

theorem finalizeBlocks_triple {numbers : List BlockNumber} :
    Triple (n.Reach condition) (fun _ => True) (n.finalizeBlocks choice numbers)
      (fun finalized s => ∀ number ∈ finalized, n.Done s number) := by
  induction numbers with
  | nil => exact pure fun s _ number hnumber => by cases hnumber
  | cons number numbers ih =>
    -- what is done before the other rounds is done after them
    have hrest : Triple (n.Reach condition) (fun s => n.Done s number)
        (do let finalized ← n.finalizeBlocks choice numbers; pure (number :: finalized))
        (fun finalized s => ∀ number ∈ finalized, n.Done s number) := by
      refine bind ((ih.frame fun _ _ h hdone => h.done hdone).pre
        fun _ hdone => ⟨trivial, hdone⟩) fun finalized => pure ?_
      rintro s ⟨hfinalized, hdone⟩ other hother
      rcases mem_cons.mp hother with rfl | hmem
      · exact hdone
      · exact hfinalized other hmem
    refine bind_state fun s _ => ?_
    split
    · next hexecuted =>
        refine hrest.pre ?_
        rintro _ rfl
        exact .inl hexecuted
    · next hexecuted =>
        split
        · exact pure fun _ _ other hother => by cases hother
        · next entry hentry =>
            refine bind_outcome
              (tryToFinalizeBlock_triple.pre ?_)
              (fun _ => hrest) fun _ => pure fun _ _ other hother => by cases hother
            rintro _ rfl
            exact ⟨hentry, Bool.eq_false_iff.mpr hexecuted⟩

theorem tryToFinalize_reach : Moves (n.Reach condition) (n.tryToFinalize choice) := by
  have htriple : Triple (n.Reach condition) (fun _ => True) (n.tryToFinalize choice)
      (fun _ _ => True) := by
    refine bind_state fun s _ => ?_
    refine bind (finalizeBlocks_triple.pre fun _ _ => trivial) fun finalized => ?_
    exact update fun s' hdone => ⟨(Effect.remove hdone).reach, trivial⟩
  exact htriple.moves

/-! ## The handlers -/

theorem receiveValidateBlock_reach : Moves (n.Reach condition) (n.receiveValidateBlock choice payload) := by
  refine Moves.state.bind fun s => (Moves.lift _).bind fun proposer => (Moves.lift _).bind fun address => ?_
  split
  · exact .fail _
  · split
    · exact .pure ()
    · exact .bind (fun s => (Effect.keepBlock payload).reach) fun _ => tryToFinalize_reach

theorem receiveBlockProposer_reach {payload : BlockProposerPayload} :
    Moves (n.Reach condition) (n.receiveBlockProposer payload) := by
  unfold receiveBlockProposer
  cases hvalid : n.validate.validateBlockProposer payload with
  | error e => exact .fail e
  | ok => exact fun s => (Effect.announce hvalid).reach

theorem collectVote_reach {vote : Vote} : Moves (n.Reach condition) (n.collectVote choice vote) := by
  refine Moves.state.bind fun s => (Moves.lift _).bind fun address => (Moves.lift _).bind fun isProposer => ?_
  split
  · exact .pure _
  · split
    · exact .pure _
    · refine .bind (fun s => (Effect.keepVote vote).reach) fun _ => Moves.state.bind fun s' => ?_
      refine (Moves.okOr _ _).bind fun validators => (Moves.lift _).bind fun voteResult => ?_
      exact .bind (fun s => (Effect.keepVoteResult voteResult).reach) fun _ => .pure _

theorem receiveVote_reach {vote : Vote} : Moves (n.Reach condition) (n.receiveVote choice vote) := by
  refine collectVote_reach.bind fun voteResult => ?_
  split
  · exact tryToFinalize_reach.outcome.bind fun _ => .pure ()
  · exact .pure ()

theorem receiveVoteResult_reach {voteResult : VoteResult} :
    Moves (n.Reach condition) (n.receiveVoteResult choice voteResult) :=
  .bind (fun _ => (Effect.keepVoteResult voteResult).reach) fun _ => tryToFinalize_reach

theorem storeReceivedVoteResult_along :
    Moves (n.Along condition SameChain) (n.storeReceivedVoteResult block voteResult) := by
  cases voteResult with
  | none => exact .pure ()
  | some voteResult =>
    refine .bind ?_ fun _ => storeVoteResult_along
    exact validateVoteResults_triple.moves.mono
      fun _ _ h => ⟨h.1, SameWorld.sameChain h.2⟩

/-- What follows the store of a block that came as an answer: the vote result with it, and its
    execution. -/
theorem afterReceivedBlock_triple (choice : RowChoice) (block : Block) (voteResult : Option VoteResult) :
    Triple (n.Reach condition) (Ready block)
      (do
        n.storeReceivedVoteResult block voteResult
        n.executeBlock block
        n.tryToFinalize choice) (fun _ _ => True) := by
  refine bind
    (triple_reach (storeReceivedVoteResult_along.triple fun _ _ => Along.ready))
    fun _ => ?_
  refine bind executeBlock_triple fun _ => ?_
  exact (tryToFinalize_reach.triple fun _ _ _ _ => trivial).pre fun _ _ => trivial

theorem receiveBlock_triple :
    Triple (n.Reach condition) (condition · (.receiveBlock payload voteResult))
      (n.receiveBlock choice payload voteResult) (fun _ _ => True) := by
  refine bind_state fun s hcondition => ?_
  split
  · exact pure fun _ _ => trivial
  · next hexecuted =>
      split
      · exact pure fun _ _ => trivial
      · next hvalid =>
          simp only [executeReceivedBlock, bind_bind]
          refine bind (storeBlock_triple ?_) fun _ =>
            afterReceivedBlock_triple choice payload.block voteResult
          rintro _ rfl
          exact .storeReceived hcondition (Bool.eq_false_iff.mpr hexecuted) hvalid
            (validateBlockHeaderAndTransactions_followsHead (validateBlock_ok hvalid))

theorem addAndBroadcastBlock_triple :
    Triple (n.Reach condition) (condition · (.addAndBroadcastBlock payload))
      (n.addAndBroadcastBlock choice payload) (fun _ _ => True) := by
  refine bind_state fun s hcondition => bind_lift fun proposer _ => ?_
  split
  · exact fail _
  split
  · exact fail _
  next hstored =>
  have hstored := Bool.eq_false_iff.mpr hstored
  split
  · exact fail _
  split
  · next hentry =>
      rintro _ rfl
      refine ⟨(Effect.propose hcondition hstored fun entry hsome => ?_).reach, fun _ _ _ => trivial⟩
      rw [hentry] at hsome
      cases hsome
  · next entry hentry =>
      refine bind_lift fun address haddress => bind_okOr fun pending hpending => ?_
      refine bind_lift fun previous hprevious => ?_
      split
      · exact fail _
      next haddresses =>
      have hproposer : Account.addressOf n.platform.rt.crypto payload.verifyingKey ≠
          Account.addressOf n.platform.rt.crypto pending.verifyingKey := by
        rw [haddress, hprevious]
        intro hsame
        cases hsame
        exact haddresses rfl
      split
      · next hhash =>
          refine bind (Q := fun _ _ => True) (update ?_) fun _ => fail _
          rintro _ rfl
          exact ⟨(Effect.dropConflicting hcondition hentry hpending hhash hproposer).reach, trivial⟩
      · next hhash =>
          rintro _ rfl
          refine ⟨(Effect.propose hcondition hstored fun other hother => ?_).reach, fun _ _ _ => trivial⟩
          rw [hentry] at hother
          cases hother
          exact ⟨pending, hpending, not_not.mp hhash, hproposer⟩

/-- **Every call is a sequence of effects**, under the condition that the call meets. -/
theorem reach_step (n : Node) (s : NodeState) (call : RowChoice × NodeInput)
    (hcondition : condition s call.2) : n.Reach condition s (n.step s call) := by
  obtain ⟨choice, input⟩ := call
  cases input with
  | receiveValidateBlock payload => exact receiveValidateBlock_reach s
  | receiveBlockProposer payload => exact receiveBlockProposer_reach s
  | receiveVote vote => exact receiveVote_reach s
  | receiveVoteResult voteResult => exact receiveVoteResult_reach s
  | receiveBlock payload voteResult => exact (receiveBlock_triple s hcondition).1
  | addAndBroadcastBlock payload => exact (addAndBroadcastBlock_triple s hcondition).1

/-- **What every effect keeps, every run keeps.** -/
theorem runCalls_preserves {I : NodeState → Prop} (heffect : ∀ {s s'}, n.Effect condition s s' → I s → I s')
    (calls : List (RowChoice × NodeInput)) (hmeet : n.AllMeet condition s calls) (hs : I s) :
    I (n.runCalls s calls) := by
  induction calls generalizing s with
  | nil => exact hs
  | cons call calls ih => exact ih hmeet.2 ((n.reach_step s call hmeet.1).preserves heffect hs)

end L1xCore.Node
