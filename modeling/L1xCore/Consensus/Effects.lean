import L1xCore.Consensus.Consensus
import L1xCore.Lib.Triple

/-!
# `Consensus.Effects` — all that a node can do

The handlers of a node are long, but what they **do** is a short list: sign and keep a vote, note that a vote
result was accepted or passed, select a proposer, store a block, execute it, and change the pending blocks.
`Effect` lists these with what the node has checked when it does them. Every call of a handler is a
sequence of effects (`Consensus.Handlers`), so that whatever each effect keeps is kept by every run.

A condition on calls becomes a condition on the two effects that only one handler has: storing a block that
came as the answer to a query, and working on a block of the node's own.
-/

namespace L1xCore

open VoteResultManager ChainTables NodeEvent List

namespace NodeState

def chain (s : NodeState) : ChainTables := s.world.db.chain

def withChain (s : NodeState) (t : ChainTables) : NodeState := { s with world.db.chain := t }

def logging (s : NodeState) (event : NodeEvent) : NodeState := { s with log := s.log ++ [event] }

end NodeState

/-- A vote result for the number and the hash of the block was accepted, and was passed by the validators of
    the block's epoch. -/
def Approved (log : List NodeEvent) (block : Block) : Prop :=
  ∃ voteResult, voteResult.data.blockNumber = block.blockHeader.blockNumber ∧
    voteResult.data.blockHash = block.blockHeader.blockHash ∧
    (∃ b, accepted voteResult b ∈ log) ∧ passed voteResult block.blockHeader.epoch ∈ log

theorem Approved.mono {log log' : List NodeEvent} {block : Block} (h : Approved log block)
    (hsub : log ⊆ log') : Approved log' block := by
  obtain ⟨voteResult, hnumber, hhash, ⟨b, haccepted⟩, hpassed⟩ := h
  exact ⟨voteResult, hnumber, hhash, ⟨b, hsub haccepted⟩, hsub hpassed⟩

namespace Node

variable (n : Node)

/-- The header belongs to the cluster of the head of the node's chain. -/
def FollowsHead (t : ChainTables) (header : BlockHeader) : Prop :=
  ∃ last, t.blockHeadHeader n.clusterAddress = .ok last ∧ last.clusterAddress = header.clusterAddress

/-- The block of a number is executed, or the node has finalised a block of that number. -/
def Done (s : NodeState) (number : BlockNumber) : Prop :=
  s.chain.isBlockExecuted number n.clusterAddress = true ∨
    ∃ block : Block, block.blockHeader.blockNumber = number ∧ finalized block ∈ s.log

/-- The rows a proposer would stand among. -/
def rivals (t : ChainTables) (proposer : BlockProposer) : List BlockProposer :=
  t.blockProposer.filter fun p =>
    p.clusterAddress = proposer.clusterAddress ∧ p.epoch = proposer.epoch

/-- The table after an insert. -/
def insertProposer (t : ChainTables) (proposer : BlockProposer) : ChainTables :=
  ((storeBlockProposer proposer).run t).2

/-- What a node can do, with what it has checked before. -/
inductive Effect (condition : NodeState → NodeInput → Prop) : NodeState → NodeState → Prop
  /-- A vote as a validator, at most one for each pending block. -/
  | vote {s : NodeState} {number : BlockNumber} {entry : PendingBlock} {payload : BlockPayload}
      (hentry : s.pendingBlocks.get number = some entry) (hblock : entry.block = some payload)
      (hexecuted : s.chain.isBlockExecuted number n.clusterAddress = false)
      (hown : entry.votes.any n.isOwn = false) :
      Effect condition s
        { s.logging (.signed (n.voteFor payload.block.blockHeader)) with
          pendingBlocks := s.pendingBlocks.addVote (n.voteFor payload.block.blockHeader) }
  | accept {s : NodeState} {voteResult : VoteResult} {block : Block}
      (haccepted : n.validate.validateVoteResult s.chain voteResult block = .ok ()) :
      Effect condition s (s.logging (.accepted voteResult block))
  | pass {s : NodeState} {voteResult : VoteResult} {epoch : Epoch} {validators : List Validator}
      (hvalidators : s.chain.loadAllValidators epoch = some validators)
      (hpassed : isVoteResultPassed s.world.caches voteResult validators = .ok true) :
      Effect condition s (s.logging (.passed voteResult epoch))
  | storeValidators {s : NodeState} (validators : List Validator) :
      Effect condition s (s.withChain (s.chain.batchStoreValidators validators))
  | select {s : NodeState} (proposer : BlockProposer) :
      Effect condition s
        ((s.logging (.selected proposer (rivals s.chain proposer))).withChain
          (insertProposer s.chain proposer))
  /-- Rows of an announcement with a valid signature. -/
  | announce {s : NodeState} {payload : BlockProposerPayload}
      (hvalid : n.validate.validateBlockProposer payload = .ok ()) :
      Effect condition s (s.withChain ((storeBlockProposers payload.clusterBlockProposers).run s.chain).2)
  | storeVoteResult {s : NodeState} (voteResult : VoteResult) :
      Effect condition s (s.withChain ((storeVoteResult voteResult).run s.chain).2)
  | storeApproved {s : NodeState} {block : Block} (happroved : Approved s.log block)
      (hhead : n.FollowsHead s.chain block.blockHeader) :
      Effect condition s ((s.withChain (s.chain.storeBlock block)).logging (.stored block))
  | storeReceived {s : NodeState} {payload : BlockPayload} {voteResult : Option VoteResult}
      (hcondition : condition s (.receiveBlock payload voteResult))
      (hexecuted : s.chain.isBlockExecuted payload.block.blockHeader.blockNumber n.clusterAddress = false)
      (hvalid : n.validate.validateBlock s.world payload n.clusterAddress payload.sender = .ok ())
      (hhead : n.FollowsHead s.chain payload.block.blockHeader) :
      Effect condition s
        ((s.withChain (s.chain.storeBlock payload.block)).logging (.stored payload.block))
  /-- Only blocks that were stored are executed. -/
  | execute {s : NodeState} {block : Block} (hstored : stored block ∈ s.log) :
      Effect condition s
        { s.logging (.executed block) with
          world := ((World.executeBlock n.platform block).run s.world).2 }
  | finish {s : NodeState} {block : Block} (hstored : stored block ∈ s.log)
      (hexecuted : s.chain.isBlockExecuted block.blockHeader.blockNumber
        block.blockHeader.clusterAddress = true) :
      Effect condition s (s.logging (.finalized block))
  | keepVote {s : NodeState} (vote : Vote) :
      Effect condition s { s with pendingBlocks := s.pendingBlocks.addVote vote }
  | keepVoteResult {s : NodeState} (voteResult : VoteResult) :
      Effect condition s { s with pendingBlocks := s.pendingBlocks.addVoteResult voteResult }
  | keepBlock {s : NodeState} (payload : BlockPayload) :
      Effect condition s { s with pendingBlocks := s.pendingBlocks.addBlock payload }
  | remove {s : NodeState} {numbers : List BlockNumber} (hdone : ∀ number ∈ numbers, n.Done s number) :
      Effect condition s { s with pendingBlocks := s.pendingBlocks.removeBlocks numbers }
  /-- A vote for a block of the node itself: nothing is pending for its number, or a block with the same
      hash by another proposer. -/
  | propose {s : NodeState} {payload : BlockPayload}
      (hcondition : condition s (.addAndBroadcastBlock payload))
      (hstored : s.chain.isBlockHeaderStored payload.block.blockHeader.blockNumber = false)
      (hentry : ∀ entry, s.pendingBlocks.get payload.block.blockHeader.blockNumber = some entry →
        ∃ pending, entry.block = some pending ∧
          pending.block.blockHeader.blockHash = payload.block.blockHeader.blockHash ∧
          Account.addressOf n.platform.rt.crypto payload.verifyingKey ≠
            Account.addressOf n.platform.rt.crypto pending.verifyingKey) :
      Effect condition s
        { s.logging (.signed (n.voteFor payload.block.blockHeader)) with
          pendingBlocks := (s.pendingBlocks.addVote (n.voteFor payload.block.blockHeader)).addBlock
            payload }
  /-- A pending block of another proposer with another hash makes way. -/
  | dropConflicting {s : NodeState} {payload : BlockPayload} {entry : PendingBlock}
      {pending : BlockPayload} (hcondition : condition s (.addAndBroadcastBlock payload))
      (hentry : s.pendingBlocks.get payload.block.blockHeader.blockNumber = some entry)
      (hpending : entry.block = some pending)
      (hhash : pending.block.blockHeader.blockHash ≠ payload.block.blockHeader.blockHash)
      (hproposer : Account.addressOf n.platform.rt.crypto payload.verifyingKey ≠
        Account.addressOf n.platform.rt.crypto pending.verifyingKey) :
      Effect condition s
        { s with pendingBlocks := s.pendingBlocks.removeBlock payload.block.blockHeader.blockNumber }

/-- A sequence of effects. -/
def Reach (condition : NodeState → NodeInput → Prop) : NodeState → NodeState → Prop :=
  Relation.ReflTransGen (n.Effect condition)

variable {n} {condition : NodeState → NodeInput → Prop} {s s' : NodeState}

instance : Std.Refl (n.Reach condition) := ⟨fun _ => .refl⟩

instance : IsTrans NodeState (n.Reach condition) := ⟨fun _ _ _ h₁ h₂ => h₁.trans h₂⟩

theorem Effect.reach (h : n.Effect condition s s') : n.Reach condition s s' := .single h

/-- **The rule of effects**: what every effect keeps, every sequence of effects keeps. -/
theorem Reach.preserves {I : NodeState → Prop}
    (heffect : ∀ {s s'}, n.Effect condition s s' → I s → I s') (h : n.Reach condition s s') : I s → I s' := by
  intro hs
  induction h with
  | refl => exact hs
  | tail _ hlast ih => exact heffect hlast ih

/-! ## What effects do to the log and to the chain -/

theorem Effect.log_prefix (h : n.Effect condition s s') : s.log <+: s'.log := by
  cases h with
  | vote | accept | pass | select | storeApproved | storeReceived | execute | finish | propose =>
    exact prefix_append _ _
  | storeValidators | announce | storeVoteResult | keepVote | keepVoteResult | keepBlock | remove
  | dropConflicting => exact prefix_refl _

theorem new_of_concat {log : List NodeEvent} {event event' : NodeEvent} (h : event ∈ log ++ [event'])
    (hnew : event ∉ log) : event = event' := by
  rcases mem_append.mp h with hold | hlast
  · exact absurd hold hnew
  · exact mem_singleton.mp hlast

/-- **The tables of blocks change in two ways**: a block on the head of the chain is stored, or a block
    that was stored is marked. -/
theorem Effect.chain_cases (h : n.Effect condition s s') :
    SameBlocks s.chain s'.chain ∨
      (∃ block : Block, n.FollowsHead s.chain block.blockHeader ∧ stored block ∈ s'.log ∧
        s'.chain = s.chain.storeBlock block) ∨
      ∃ block : Block, stored block ∈ s.log ∧
        s'.chain = s.chain.setBlockExecuted block.blockHeader.blockNumber
          block.blockHeader.clusterAddress := by
  cases h with
  | vote | accept | pass | finish | keepVote | keepVoteResult | keepBlock | remove | propose
  | dropConflicting => exact .inl (refl_of SameBlocks _)
  | storeValidators validators => exact .inl ⟨rfl, rfl, rfl⟩
  | select proposer => exact .inl (storeBlockProposer_sameBlocks _)
  | announce hvalid => exact .inl (storeBlockProposers_sameBlocks _)
  | storeVoteResult voteResult => exact .inl (storeVoteResult_sameBlocks voteResult _)
  | storeApproved happroved hhead =>
    exact .inr (.inl ⟨_, hhead, mem_append_right _ (mem_singleton_self _), rfl⟩)
  | storeReceived hcondition hexecuted hvalid hhead =>
    exact .inr (.inl ⟨_, hhead, mem_append_right _ (mem_singleton_self _), rfl⟩)
  | @execute block hstored =>
    rcases World.executeBlock_chain_cases with hsame | hmarked
    · left
      rw [NodeState.chain, NodeState.chain, hsame]
      exact refl_of SameBlocks _
    · exact .inr (.inr ⟨block, hstored, hmarked⟩)

theorem Effect.executed_mono (h : n.Effect condition s s') (number : BlockNumber) (cluster : Address) :
    s.chain.isBlockExecuted number cluster = true → s'.chain.isBlockExecuted number cluster = true := by
  intro hexecuted
  rcases h.chain_cases with hsame | ⟨block, -, -, hstored⟩ | ⟨block, -, hmarked⟩
  · rw [hsame.isBlockExecuted, hexecuted]
  · rw [hstored, isBlockExecuted_storeBlock, hexecuted]
  · rw [hmarked, isBlockExecuted_setBlockExecuted, hexecuted, ite_self]

theorem Reach.log_prefix (h : n.Reach condition s s') : s.log <+: s'.log := by
  induction h with
  | refl => exact prefix_refl _
  | tail _ hlast ih => exact ih.trans hlast.log_prefix

theorem Reach.log_subset (h : n.Reach condition s s') : s.log ⊆ s'.log := h.log_prefix.subset

theorem Reach.done {number : BlockNumber} (h : n.Reach condition s s') (hdone : n.Done s number) :
    n.Done s' number := by
  rcases hdone with hexecuted | ⟨block, hnumber, hfinalized⟩
  · exact .inl (h.preserves (fun heffect => heffect.executed_mono number n.clusterAddress) hexecuted)
  · exact .inr ⟨block, hnumber, h.log_subset hfinalized⟩

end Node

end L1xCore
