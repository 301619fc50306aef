import L1xCore.Consensus.AcceptedChain
import L1xCore.Consensus.VoteResults

/-!
# `Consensus.Successors` — finalising the next block

A block that is valid on the head of the chain, with a vote result that is passed, is finalised as soon as
both are pending. What finalising does to the rest of the node is said once (`finish_finished`): the marks and the
head move on by one block, the proposers of the epoch and the pending blocks stay as they are. A block that
does not come right after the head, or has no vote result yet, stays pending, and nothing changes but the
votes of the node itself.

`Ahead` is a sequence of such blocks: each can be finalised in the world that the one before it has left.
-/

namespace L1xCore

open Fallible VoteResultManager ChainTables NodeEvent Except List

variable {entry : PendingBlock}

namespace ChainTables

/-- The rows from which the proposer of an epoch is picked. -/
def proposersOf (t : ChainTables) (cluster : Address) (epoch : Epoch) : List BlockProposer :=
  t.blockProposer.filter fun p => p.clusterAddress = cluster ∧ p.epoch = epoch

variable {t t' : ChainTables} {cluster : Address} {epoch : Epoch}

theorem loadBlockProposer_congr (h : t'.proposersOf cluster epoch = t.proposersOf cluster epoch)
    (choice : RowChoice) :
    t'.loadBlockProposer choice cluster epoch = t.loadBlockProposer choice cluster epoch := by
  unfold proposersOf at h
  unfold loadBlockProposer
  rw [h]

theorem setBlockExecuted_blockHead {number : BlockNumber} :
    (t.setBlockExecuted number cluster).blockHead = t.blockHead := by
  unfold setBlockExecuted
  split <;> rfl

end ChainTables

namespace PendingBlocks

/-- What is pending of a block, except for the votes. -/
def content (p : PendingBlocks) (number : BlockNumber) : Option (Option BlockPayload × List VoteResult) :=
  (p.get number).map fun entry => (entry.block, entry.voteResults)

variable {p : PendingBlocks}

theorem get_change {changed : BlockNumber} {f : PendingBlock → PendingBlock}
    {hf : ∀ entry payload, (f entry).block = some payload →
      entry.block = some payload ∨ payload.block.blockHeader.blockNumber = changed} (number : BlockNumber) :
    (p.change changed f hf).get number =
      if number = changed then some (f ((p.get changed).getD .new)) else p.get number := by
  unfold change get
  rw [AList.lookup_upsert]
  cases p.blocks.lookup changed <;> rfl

theorem get_eq_none_of_content {number : BlockNumber} (h : p.content number = none) : p.get number = none :=
  Option.map_eq_none_iff.mp h

end PendingBlocks

namespace NodeEvent

/-- A call of `execute_block`, or its success. -/
def isExecution : NodeEvent → Bool
  | .executed _ => true
  | .finalized _ => true
  | _ => false

/-- The calls of `execute_block` and their successes, in order. -/
def executions (log : List NodeEvent) : List NodeEvent := log.filter isExecution

theorem executions_append (log log' : List NodeEvent) :
    executions (log ++ log') = executions log ++ executions log' := filter_append ..

end NodeEvent

namespace Node

variable {n : Node} {s s' : NodeState}

/-- A block with a vote result for it. -/
structure Proposal where
  payload : BlockPayload
  voteResult : VoteResult

namespace Proposal

variable (p : Proposal)

def block : Block := p.payload.block

def header : BlockHeader := p.block.blockHeader

def number : BlockNumber := p.header.blockNumber

/-- What is delivered to a node. -/
def messages : List NodeInput := [.receiveValidateBlock p.payload, .receiveVoteResult p.voteResult]

/-- What a node logs when it executes the block. -/
def executed : List NodeEvent := [.executed p.block, .finalized p.block]

end Proposal

variable {p : Proposal} {head : BlockHeader} {choice : RowChoice} {block : Block} {header : BlockHeader}
  {voteResult : VoteResult} {epoch : Epoch}

/-! ## The next block -/

/-- `validate_proposed_block` accepts the block in this world, whichever row is picked for the proposer. -/
def Accepts (n : Node) (w : World) (p : Proposal) : Prop :=
  ∀ choice, ∃ config voters, w.caches.getConfig = .ok config ∧
    n.getLastBlockVotesValidators w config = .ok voters ∧
    n.validate.validateProposedBlock choice w p.payload n.clusterAddress voters = .ok ()

/-- The vote result is accepted for the block, and is passed by the validators of its epoch. -/
def Passes (n : Node) (w : World) (p : Proposal) : Prop :=
  n.validate.validateVoteResult w.db.chain p.voteResult p.block = .ok () ∧
    ∃ validators, w.db.chain.loadAllValidators p.header.epoch = some validators ∧
      isVoteResultPassed w.caches p.voteResult validators = .ok true

/-- Storing and executing the block do not fail; nor does the selection that the last block of an epoch
    makes. -/
def Finishes (n : Node) (w : World) (p : Proposal) (w' : World) : Prop :=
  ∃ s', (n.finish p.block p.voteResult).run (start w) = (.ok (), s') ∧ s'.world = w'

/-- The block can be finalised next, which leads to the world `w'`. -/
structure Honest (n : Node) (w : World) (p : Proposal) (w' : World) : Prop where
  accepts : n.Accepts w p
  passes : n.Passes w p
  finishes : n.Finishes w p w'

/-- The number of the block is below the height that is configured, if there is one. -/
def BelowMaxBlockHeight (w : World) (p : Proposal) : Prop :=
  ∀ config maxBlockHeight, w.caches.getConfig = .ok config →
    config.maxBlockHeight = some maxBlockHeight → p.number < maxBlockHeight.setWidth 128

/-- The key of the node is one that has an address. -/
def HasAddress (n : Node) : Prop :=
  ∃ address, Account.addressOf n.platform.rt.crypto n.verifyingKey = .ok address

/-- The block is of the proposer of its epoch, whichever row is picked. -/
theorem Accepts.authorized {w : World} (h : n.Accepts w p) (choice : RowChoice) :
    ∃ proposer, w.db.chain.loadBlockProposer choice p.header.clusterAddress p.header.epoch = .ok proposer ∧
      Account.addressOf n.platform.rt.crypto p.payload.verifyingKey = .ok proposer.address := by
  obtain ⟨_, _, _, _, h⟩ := h choice
  obtain ⟨address, haddress, h⟩ := bind_eq_ok.mp h
  obtain ⟨_, h⟩ := check_eq_ok.mp h
  obtain ⟨isProposer, hproposer, h⟩ := bind_eq_ok.mp h
  obtain ⟨htrue, _⟩ := check_eq_ok.mp h
  obtain ⟨proposer, hload, hequal⟩ := bind_eq_ok.mp hproposer
  refine ⟨proposer, hload, ?_⟩
  have hsame : isProposer = true := ensure_eq_ok.mp htrue
  subst hsame
  rw [of_decide_eq_true (ok.inj hequal)]
  exact haddress

theorem checkMaxBlockHeight_of_below {w : World} {config : RuntimeConfig}
    (hconfig : w.caches.getConfig = .ok config) (hbelow : BelowMaxBlockHeight w p) :
    checkMaxBlockHeight config p.number = .ok () := by
  unfold checkMaxBlockHeight
  split
  · next maxBlockHeight hmax =>
      exact ensure_eq_ok.mpr (decide_eq_true (hbelow config maxBlockHeight hconfig hmax))
  · rfl

theorem checkProposal_error {w : World} {payload : BlockPayload}
    (hhead : w.db.chain.HasHead n.clusterAddress head)
    (hlater : head.blockNumber.toNat + 1 < payload.block.blockHeader.blockNumber.toNat) :
    ∃ e, n.checkProposal choice w payload = .error e := by
  rcases hcheck : n.checkProposal choice w payload with e | ⟨validators, votes⟩
  · exact ⟨e, rfl⟩
  exfalso
  obtain ⟨hchecked⟩ := proposalChecked hcheck
  obtain ⟨hnumber, -⟩ := Validate.accepted_step hhead ⟨rfl, rfl⟩ hchecked.proposed
  rcases hnumber with hrepeats | hfollows
  · have hsame : payload.block.blockHeader.blockNumber = head.blockNumber := by rw [hrepeats]; rfl
    rw [hsame] at hlater
    omega
  · have hnext : payload.block.blockHeader.blockNumber.toNat = head.blockNumber.toNat + 1 :=
      hfollows.blockNumber
    omega

/-! ## What stays as it is until a vote result is passed -/

/-- Nothing but votes of the node itself and the log of its checks is new. -/
structure Quiet (s s' : NodeState) : Prop where
  world : s'.world = s.world
  content : ∀ number, s'.pendingBlocks.content number = s.pendingBlocks.content number
  executions : executions s'.log = executions s.log

instance : Std.Refl Quiet := ⟨fun _ => ⟨rfl, fun _ => rfl, rfl⟩⟩

instance : IsTrans NodeState Quiet :=
  ⟨fun _ _ _ h₁ h₂ => ⟨h₂.world.trans h₁.world, fun number => (h₂.content number).trans (h₁.content number),
    h₂.executions.trans h₁.executions⟩⟩

theorem quiet_logging {event : NodeEvent} (hevent : event.isExecution = false) :
    Quiet s (s.logging event) := by
  refine ⟨rfl, fun _ => rfl, ?_⟩
  show executions (s.log ++ [event]) = _
  rw [executions_append, executions, executions,
    filter_cons_of_neg (by rw [hevent]; exact Bool.false_ne_true), filter_nil, append_nil]

/-- The vote goes to the entry of the block, which is there. -/
theorem castVote_quiet (votes : Bool) (hentry : s.pendingBlocks.get header.blockNumber = some entry) :
    ∃ s', (n.castVote header entry votes).run s = (.ok (), s') ∧ Quiet s s' := by
  unfold castVote
  split
  · refine ⟨_, rfl, ?_⟩
    refine ⟨rfl, fun number => ?_, (quiet_logging rfl).executions⟩
    show ((s.pendingBlocks.addVote (n.voteFor header)).get number).map _ = _
    unfold PendingBlocks.addVote PendingBlocks.content
    rw [PendingBlocks.get_change]
    by_cases hnumber : number = (n.voteFor header).data.blockNumber
    · have hsame : number = header.blockNumber := hnumber
      rw [if_pos hnumber, ← hnumber, hsame, hentry]
      rfl
    · rw [if_neg hnumber]
  · exact ⟨s, rfl, refl_of Quiet s⟩

/-- **A pending block that lacks something stays pending**: the block itself, its vote result, or its place
    right after the head. -/
theorem tryToFinalizeBlock_stuck {number : BlockNumber}
    (hentry : s.pendingBlocks.get number = some entry) (hlacks : ∀ payload, entry.block = some payload →
      entry.voteResults = [] ∨ ∃ e, n.checkProposal choice s.world payload = .error e) :
    ∃ e s', (n.tryToFinalizeBlock choice entry).run s = (.error e, s') ∧ Quiet s s' := by
  unfold tryToFinalizeBlock
  cases hblock : entry.block with
  | none => exact ⟨_, s, rfl, refl_of Quiet s⟩
  | some payload =>
    suffices hchecks : ∃ e s', (n.passedVoteResult choice entry payload).run s = (.error e, s') ∧ Quiet s s' by
      obtain ⟨e, s', hrun, hquiet⟩ := hchecks
      exact ⟨e, s', run_bind_of_error hrun, hquiet⟩
    rw [passedVoteResult, run_bind_of_ok (run_state s)]
    rcases hcheck : n.checkProposal choice s.world payload with e | ⟨validators, votes⟩
    · exact ⟨e, s, run_bind_of_error (run_lift _ s), refl_of Quiet s⟩
    have hnone : entry.voteResults = [] := by
      rcases hlacks payload hblock with hnone | ⟨e, herror⟩
      · exact hnone
      · rw [hcheck] at herror
        cases herror
    have hnumber := s.pendingBlocks.filed hentry hblock
    subst hnumber
    obtain ⟨s₁, hcast, hquiet⟩ := castVote_quiet votes hentry
    rw [run_bind_of_ok (run_lift _ s)]
    rw [run_bind_of_ok hcast, hnone]
    exact ⟨_, s₁, rfl, hquiet⟩

/-! ## Finishing -/

/-- Whether and where it ends is a matter of the world alone. -/
theorem finish_sameWorld (block : Block) (voteResult : VoteResult) :
    Related SameWorld (n.finish block voteResult) (n.finish block voteResult) SameWorld := by
  refine (n.rollover_related block.blockHeader).seq fun _ => ?_
  refine onWorld_sameWorld.seq fun _ => .seq ?_ fun _ => ?_
  · exact onWorld_sameWorld.seq fun _ => .update fun _ _ h => h
  · refine .seq (.update fun _ _ h => h) fun _ => ?_
    exact onWorld_sameWorld.seq fun _ => .update fun _ _ h => h

/-- Before the block is stored, the blocks and the proposers of its epoch stay as they are. -/
structure BeforeStore (epoch : Epoch) (s s' : NodeState) : Prop where
  pendingBlocks : s'.pendingBlocks = s.pendingBlocks
  executions : executions s'.log = executions s.log
  blocks : SameBlocks s.chain s'.chain
  proposers : ∀ cluster, s'.chain.proposersOf cluster epoch = s.chain.proposersOf cluster epoch

instance {epoch : Epoch} : Std.Refl (BeforeStore epoch) :=
  ⟨fun _ => ⟨rfl, rfl, refl_of SameBlocks _, fun _ => rfl⟩⟩

instance {epoch : Epoch} : IsTrans NodeState (BeforeStore epoch) :=
  ⟨fun _ _ _ h₁ h₂ => ⟨h₂.pendingBlocks.trans h₁.pendingBlocks, h₂.executions.trans h₁.executions,
    trans_of SameBlocks h₁.blocks h₂.blocks,
    fun cluster => (h₂.proposers cluster).trans (h₁.proposers cluster)⟩⟩

theorem onChain_beforeStore {α : Type} {x : Fallible ChainTables Error α} (hblocks : Moves SameBlocks x)
    (hproposers : ∀ cluster, Moves (fun t t' => t'.proposersOf cluster epoch = t.proposersOf cluster epoch) x) :
    Moves (BeforeStore epoch) (onChain x) :=
  fun s => ⟨rfl, rfl, hblocks s.chain, fun cluster => hproposers cluster s.chain⟩

theorem selectBlockProposers_beforeStore {newEpoch : Epoch} (hepoch : newEpoch ≠ epoch)
    (header : BlockHeader) (validators : List Validator) :
    Moves (BeforeStore epoch) (n.selectBlockProposers newEpoch header validators) := by
  unfold selectBlockProposers
  dsimp only
  split
  · exact .fail _
  · next validator _ =>
      refine Moves.state.bind fun s => .bind (.update fun s => ?_) fun _ => ?_
      · exact ⟨rfl, (quiet_logging rfl).executions, refl_of SameBlocks _, fun _ => rfl⟩
      · refine onChain_beforeStore storeBlockProposers_sameBlocks fun cluster t => ?_
        rw [storeBlockProposers, run_forEach_singleton, run_forEach_singleton]
        -- a row of another epoch makes no difference
        show (t.blockProposer ++ [_]).filter _ = _
        simp [hepoch, proposersOf]

theorem rollover_beforeStore : Moves (BeforeStore header.epoch) (n.rollover header) := by
  unfold rollover
  dsimp only
  split
  · next hless =>
      have hepoch : calculateCurrentEpoch (header.blockNumber + 1) ≠ header.epoch := by
        intro heq
        rw [heq] at hless
        exact BitVec.lt_irrefl _ hless
      refine Moves.state.bind fun s => (Moves.lift _).bind fun last => .mapError ?_
      refine Moves.state.bind fun s => (Moves.lift _).bind fun config => (Moves.lift _).bind fun selected => ?_
      refine .bind ?_ fun _ => selectBlockProposers_beforeStore hepoch _ _
      exact onChain_beforeStore (.update fun _ => ⟨rfl, rfl, rfl⟩)
        fun _ => .update fun _ => rfl
  · exact .pure ()

theorem storeVoteResult_beforeStore : Moves (BeforeStore epoch) (onChain (storeVoteResult voteResult)) := by
  refine onChain_beforeStore (storeVoteResult_sameBlocks voteResult) fun cluster t => ?_
  show filter _ ((storeVoteResult voteResult).run t).2.blockProposer = _
  rw [storeVoteResult_blockProposer voteResult t]
  rfl

/-- The node has stored and executed the block. -/
structure Finished (block : Block) (s s' : NodeState) : Prop where
  pendingBlocks : s'.pendingBlocks = s.pendingBlocks
  executions : executions s'.log = executions s.log ++ [.executed block, .finalized block]
  headers : SameHeaders (s.chain.storeBlock block) s'.chain
  executed : ∀ number cluster, s'.chain.isBlockExecuted number cluster =
    (decide ((cluster, number) = (block.blockHeader.clusterAddress, block.blockHeader.blockNumber)) ||
      s.chain.isBlockExecuted number cluster)
  proposers : ∀ cluster, s'.chain.proposersOf cluster block.blockHeader.epoch =
    s.chain.proposersOf cluster block.blockHeader.epoch

/-- What an execution that succeeds does to the chain. -/
structure Marked (block : Block) (t t' : ChainTables) : Prop where
  headers : SameHeaders t t'
  executed : ∀ number cluster, t'.isBlockExecuted number cluster =
    (decide ((cluster, number) = (block.blockHeader.clusterAddress, block.blockHeader.blockNumber)) ||
      t.isBlockExecuted number cluster)
  blockProposer : t'.blockProposer = t.blockProposer

theorem executeBlock_marked {pf : Platform} {w w' : World} {events : List ExecutionEvent}
    (hrow : (w.db.chain.blockMetaInfo.lookup
      (block.blockHeader.clusterAddress, block.blockHeader.blockNumber)).isSome)
    (h : (World.executeBlock pf block).run w = (.ok events, w')) : Marked block w.db.chain w'.db.chain := by
  rcases World.executeBlock_chain h with ⟨hsame, hexecuted⟩ | hmarked
  · rw [hsame]
    refine ⟨⟨rfl, rfl⟩, fun number cluster => ?_, rfl⟩
    by_cases hkey : (cluster, number) = (block.blockHeader.clusterAddress, block.blockHeader.blockNumber)
    · cases hkey
      rw [hexecuted ⟨events, rfl⟩, Bool.or_true]
    · rw [decide_eq_false hkey, Bool.false_or]
  · rw [hmarked]
    refine ⟨⟨setBlockExecuted_blockHeader _ _, setBlockExecuted_blockHead⟩, fun number cluster => ?_,
      setBlockExecuted_blockProposer _ _⟩
    rw [isBlockExecuted_setBlockExecuted]
    by_cases hkey : (cluster, number) = (block.blockHeader.clusterAddress, block.blockHeader.blockNumber)
    · rw [if_pos ⟨hkey, hrow⟩, decide_eq_true hkey, Bool.true_or]
    · rw [if_neg fun h => hkey h.1, decide_eq_false hkey, Bool.false_or]

theorem finish_finished (h : (n.finish block voteResult).run s = (.ok (), s')) : Finished block s s' := by
  obtain ⟨_, s₁, hrollover, h⟩ := run_bind_ok h
  obtain ⟨_, s₂, hvoteResult, h⟩ := run_bind_ok h
  have hbefore : BeforeStore block.blockHeader.epoch s s₂ :=
    trans_of (BeforeStore _) (rollover_beforeStore.of_run hrollover)
      (storeVoteResult_beforeStore.of_run hvoteResult)
  let stored : NodeState := (s₂.withChain (s₂.chain.storeBlock block)).logging (.stored block)
  have hstored : (storeBlock block).run s₂ = (.ok (), stored) := rfl
  rw [run_bind_of_ok hstored] at h
  rcases hrun : (World.executeBlock n.platform block).run stored.world with ⟨e | events, w⟩
  · rw [run_executeBlock hrun] at h
    cases h
  rw [run_executeBlock hrun] at h
  cases h
  have hmarked : Marked block (s₂.chain.storeBlock block) w.db.chain :=
    executeBlock_marked (ready_stored block s₂).2 hrun
  -- what is stored depends on the blocks alone
  have hheaders : SameHeaders (s.chain.storeBlock block) (s₂.chain.storeBlock block) := by
    unfold ChainTables.storeBlock updateHead storeBlockHeader loadChainState
    rw [hbefore.blocks.blockHead, hbefore.blocks.blockHeader]
    split
    · exact ⟨rfl, rfl⟩
    · exact ⟨rfl, rfl⟩
  refine ⟨hbefore.pendingBlocks, ?_, ?_, fun number cluster => ?_, fun cluster => ?_⟩
  · show executions (((s₂.log ++ [_]) ++ [_]) ++ [_]) = _
    rw [executions_append, executions_append, executions_append,
      hbefore.executions, append_assoc, append_assoc]
    rfl
  · exact ⟨hmarked.headers.blockHeader.trans hheaders.blockHeader,
      hmarked.headers.blockHead.trans hheaders.blockHead⟩
  · show w.db.chain.isBlockExecuted number cluster = _
    rw [hmarked.executed, isBlockExecuted_storeBlock, hbefore.blocks.isBlockExecuted]
  · show w.db.chain.proposersOf cluster _ = _
    rw [← hbefore.proposers cluster, proposersOf, proposersOf, hmarked.blockProposer,
      storeBlock_blockProposer]

/-- **A block with a passed vote result is finalised when both are pending.** -/
theorem tryToFinalizeBlock_finalizes {w' : World} (hkey : n.HasAddress) (choice : RowChoice)
    (hhonest : n.Honest s.world p w') (hbelow : BelowMaxBlockHeight s.world p)
    (hentry : s.pendingBlocks.get p.number = some entry) (hblock : entry.block = some p.payload)
    (hresults : entry.voteResults = [p.voteResult]) :
    ∃ s₁ s', (n.tryToFinalizeBlock choice entry).run s = (.ok (), s') ∧ s'.world = w' ∧ Quiet s s₁ ∧
      Finished p.block s₁ s' := by
  obtain ⟨haccepted, validators, hvalidators, hpassed⟩ := hhonest.passes
  obtain ⟨votes, hcheck⟩ : ∃ votes, n.checkProposal choice s.world p.payload = .ok (validators, votes) := by
    obtain ⟨config, voters, hconfig, hvoters, hvalid⟩ := hhonest.accepts choice
    obtain ⟨address, haddress⟩ := hkey
    obtain ⟨proposer, hload, -⟩ := hhonest.accepts.authorized choice
    have hproposer : s.world.db.chain.isBlockProposer choice
        ⟨p.header.clusterAddress, p.header.epoch, address⟩ =
        .ok (decide (proposer = ⟨p.header.clusterAddress, p.header.epoch, address⟩)) := by
      rw [isBlockProposer, hload]
      rfl
    exact ⟨_, ProposalChecked.accepted ⟨config, voters, address, _, hconfig,
      checkMaxBlockHeight_of_below hconfig hbelow, hvoters, hvalid, hvalidators, haddress, hproposer, rfl⟩⟩
  obtain ⟨s₁, hcast, hquiet₁⟩ := castVote_quiet (n := n) votes hentry
  -- the two checks of the vote result are logged
  let s₂ := s₁.logging (.accepted p.voteResult p.block)
  let s₃ := s₂.logging (.passed p.voteResult p.header.epoch)
  have hquiet : Quiet s s₃ := trans_of Quiet hquiet₁ (trans_of Quiet (quiet_logging rfl) (quiet_logging rfl))
  have hvalidate : (n.validateVoteResults p.block [p.voteResult]).run s₁ = (.ok (), s₂) := by
    rw [validateVoteResults, run_forEach_singleton, run_bind_of_ok (run_state s₁), hquiet₁.world, haccepted]
    rfl
  have hfirst : (firstPassed p.header.epoch validators [p.voteResult]).run s₂ =
      (.ok (some p.voteResult), s₃) := by
    have hpassed₂ : isVoteResultPassed s₂.world.caches p.voteResult validators = .ok true := by
      rw [show s₂.world = s.world from hquiet₁.world]
      exact hpassed
    rw [firstPassed, run_bind_of_ok (run_state s₂), hpassed₂]
    rfl
  -- the rest runs as from a node that has just started
  obtain ⟨ended, hfinish, hworld⟩ := hhonest.finishes
  obtain ⟨hresult, hsame⟩ := n.finish_sameWorld p.block p.voteResult (start s.world) s₃ hquiet.world
  rw [hfinish] at hresult hsame
  have hrun := run_eq_of_fst hresult.symm
  refine ⟨s₃, _, ?_, hsame.trans hworld, hquiet, finish_finished hrun⟩
  have hpasses : (n.passedVoteResult choice entry p.payload).run s = (.ok p.voteResult, s₃) := by
    rw [passedVoteResult, hresults, run_bind_of_ok (run_state s), hcheck, run_bind_of_ok (run_lift _ s)]
    exact (run_bind_of_ok hcast).trans ((run_bind_of_ok hvalidate).trans (run_bind_of_ok hfirst))
  rw [tryToFinalizeBlock, hblock]
  exact (run_bind_of_ok hpasses).trans hrun

/-! ## The blocks ahead -/

/-- Each block in the world that the one before it has left. -/
inductive Successive (next : World → Proposal → World → Prop) : World → List Proposal → World → Prop where
  | nil {w} : Successive next w [] w
  | cons {w w₁ w' p chain} (hnext : next w p w₁) (hrest : Successive next w₁ chain w') :
      Successive next w (p :: chain) w'

/-- The blocks of an epoch that come right after the head, and are not executed. -/
structure Ahead (n : Node) (next : World → Proposal → World → Prop) (epoch : Epoch) (w : World)
    (chain : List Proposal) (w' : World) : Prop where
  numbers : ∃ head, w.db.chain.HasHead n.clusterAddress head ∧
    chain.map (fun p => p.number.toNat) = List.range' (head.blockNumber.toNat + 1) chain.length
  epoch : ∀ p ∈ chain, p.header.epoch = epoch
  notExecuted : ∀ p ∈ chain, w.db.chain.isBlockExecuted p.number n.clusterAddress = false
  successive : Successive next w chain w'

/-- The block can be finalised next, the configured height included. -/
def HonestBelow (n : Node) (w : World) (p : Proposal) (w' : World) : Prop :=
  n.Honest w p w' ∧ BelowMaxBlockHeight w p

variable {w w' : World} {epoch : Epoch} {chain : List Proposal}

theorem Ahead.pairwise {next : World → Proposal → World → Prop}
    (h : n.Ahead next epoch w chain w') : chain.Pairwise fun p q => p.number < q.number := by
  obtain ⟨head, -, hnumbers⟩ := h.numbers
  have hpairwise : (chain.map fun p => p.number.toNat).Pairwise (· < ·) := by
    rw [hnumbers]
    exact pairwise_lt_range'
  have hnats : chain.Pairwise fun p q => p.number.toNat < q.number.toNat := pairwise_map.mp hpairwise
  exact hnats.imp BitVec.lt_def.mpr

/-- The block is of the cluster of the node and becomes its head; of the marks its own is set, and the
    proposers of its epoch stay as they are. -/
theorem Honest.leads (h : n.Honest w p w') (hhead : w.db.chain.HasHead n.clusterAddress head) :
    p.header.clusterAddress = n.clusterAddress ∧ w'.db.chain.HasHead n.clusterAddress p.header ∧
      (∀ number, w'.db.chain.isBlockExecuted number n.clusterAddress =
        (decide (number = p.number) || w.db.chain.isBlockExecuted number n.clusterAddress)) ∧
      w'.db.chain.proposersOf n.clusterAddress p.header.epoch =
        w.db.chain.proposersOf n.clusterAddress p.header.epoch := by
  obtain ⟨_, voters, _, _, hvalid⟩ := h.accepts .first
  obtain ⟨-, -, hstored⟩ := Validate.accepted_step hhead ⟨rfl, rfl⟩ hvalid
  obtain ⟨s', hrun, rfl⟩ := h.finishes
  have hfinished := finish_finished hrun
  have hcluster : p.header.clusterAddress = n.clusterAddress := hstored.clusterAddress
  refine ⟨hcluster, ?_, fun number => ?_, hfinished.proposers n.clusterAddress⟩
  · exact hstored.sameHeaders hfinished.headers
  · have hexecuted := hfinished.executed number n.clusterAddress
    rw [show p.block.blockHeader.clusterAddress = n.clusterAddress from hcluster] at hexecuted
    simp only [Prod.mk.injEq, true_and] at hexecuted
    exact hexecuted

theorem Ahead.cons (h : n.Ahead n.HonestBelow epoch w (p :: chain) w') :
    ∃ w₁, n.HonestBelow w p w₁ ∧ n.Ahead n.HonestBelow epoch w₁ chain w' := by
  obtain ⟨head, hhead, hnumbers⟩ := h.numbers
  have hlater := (pairwise_cons.mp h.pairwise).1
  obtain ⟨hnumber, hrest⟩ := cons.inj hnumbers
  cases h.successive with
  | @cons _ w₁ _ _ _ hnext hsuccessive =>
    obtain ⟨hcluster, hhead₁, hexecuted, -⟩ := hnext.1.leads hhead
    refine ⟨w₁, hnext, ⟨p.header, hhead₁, ?_⟩, ?_, ?_, hsuccessive⟩
    · rw [show p.header.blockNumber.toNat = head.blockNumber.toNat + 1 from hnumber]
      exact hrest
    · exact fun q hq => h.epoch q (mem_cons_of_mem _ hq)
    · intro q hq
      have hne : q.number ≠ p.number := by
        intro heq
        have hless := hlater q hq
        rw [heq] at hless
        exact BitVec.lt_irrefl _ hless
      rw [hexecuted, decide_eq_false hne, Bool.false_or]
      exact h.notExecuted q (mem_cons_of_mem _ hq)

variable (h : n.Ahead n.HonestBelow epoch w chain w')

include h

/-- Every block ahead is of the proposer that `receive_validate_block` asks for, already now. -/
theorem Ahead.authorized (choice : RowChoice) : ∀ p ∈ chain, ∃ proposer,
      w.db.chain.loadBlockProposer choice n.clusterAddress p.header.epoch = .ok proposer ∧
        Account.addressOf n.platform.rt.crypto p.payload.verifyingKey = .ok proposer.address := by
  induction chain generalizing w with
  | nil => exact fun p hp => absurd hp not_mem_nil
  | cons first chain ih =>
    obtain ⟨head, hhead, -⟩ := h.numbers
    obtain ⟨w₁, hnext, hrest⟩ := h.cons
    obtain ⟨hcluster, -, -, hproposers⟩ := hnext.1.leads hhead
    intro p hp
    rcases mem_cons.mp hp with rfl | hp
    · rw [← hcluster]
      exact hnext.1.accepts.authorized choice
    · obtain ⟨proposer, hload, haddress⟩ := ih hrest p hp
      refine ⟨proposer, ?_, haddress⟩
      have hepoch : p.header.epoch = first.header.epoch :=
        (hrest.epoch p hp).trans (h.epoch first mem_cons_self).symm
      rw [← hload, hepoch]
      exact (loadBlockProposer_congr hproposers choice).symm

theorem Ahead.voteResultNumber : ∀ p ∈ chain, p.voteResult.data.blockNumber = p.number := by
  induction chain generalizing w with
  | nil => exact fun p hp => absurd hp not_mem_nil
  | cons first chain ih =>
    obtain ⟨w₁, hnext, hrest⟩ := h.cons
    refine forall_mem_cons.mpr ⟨?_, ih hrest⟩
    exact congrArg Prod.fst (Validate.validateVoteResult_ok hnext.1.passes.1).1

theorem Ahead.executed : (∀ number, w.db.chain.isBlockExecuted number n.clusterAddress = true →
        w'.db.chain.isBlockExecuted number n.clusterAddress = true) ∧
      ∀ p ∈ chain, w'.db.chain.isBlockExecuted p.number n.clusterAddress = true := by
  induction chain generalizing w with
  | nil =>
    cases h.successive
    exact ⟨fun _ hmark => hmark, fun p hp => absurd hp not_mem_nil⟩
  | cons first chain ih =>
    obtain ⟨head, hhead, -⟩ := h.numbers
    obtain ⟨w₁, hnext, hrest⟩ := h.cons
    obtain ⟨-, -, hexecuted, -⟩ := hnext.1.leads hhead
    obtain ⟨hkept, hmarked⟩ := ih hrest
    refine ⟨fun number hmark => hkept number ?_, forall_mem_cons.mpr ⟨hkept _ ?_, hmarked⟩⟩
    · rw [hexecuted, hmark, Bool.or_true]
    · rw [hexecuted, decide_eq_true rfl, Bool.true_or]

end Node

end L1xCore
