import L1xCore.Validate.ValidateVote
import L1xCore.VoteResult.VoteResultManager

/-!
# `Consensus.PendingBlocks` — a node and the blocks it has not finalised yet

`consensus/src/pending_blocks.rs`, and the selection of validators and proposer at the end of an epoch. A
pending block collects the block, its votes and its vote results until one of these passes; the block is
then stored and executed. The number of a pending block is the number of the block in it, which is part of
the type (`PendingBlocks.filed`).

What a node has done is kept in a **log**: no handler reads it, it is there to speak about the past. A
panic is taken as an error of the step it happens in. Messages to the network, the mempool and the event
channels change nothing a handler reads, and are left out.
-/

namespace L1xCore

open Fallible VoteResultManager Except

/-- A member of the network: its identity, and the libraries it is built on. -/
structure Node where
  platform : Platform
  /-- `l1x_ebpf_runtime::verify_ebpf`. -/
  verifyEbpf : ContractCode → Except Error Unit
  nodeAddress : Address
  clusterAddress : Address
  /-- The serialised public key. -/
  verifyingKey : VerifyingKeyBytes
  /-- Signing with the secret key. -/
  sign : Bytes → SignatureBytes
  multinodeMode : Bool
  /-- `select_validators_for_epoch`, from stakes, scores and health reports. -/
  selectValidatorsForEpoch : World → BlockHeader → Epoch → Except Error (List Validator)

/-- What a node has done. -/
inductive NodeEvent where
  /-- It signed a vote with its own key. -/
  | signed (vote : Vote)
  /-- `validate_vote_result` accepted a vote result for a block. -/
  | accepted (voteResult : VoteResult) (block : Block)
  /-- `is_vote_result_passed` passed it with the validators of an epoch. -/
  | passed (voteResult : VoteResult) (epoch : Epoch)
  /-- `store_block`. -/
  | stored (block : Block)
  /-- `execute_block` was called. -/
  | executed (block : Block)
  /-- `execute_block` returned without an error. -/
  | finalized (block : Block)
  /-- `select_block_proposers` chose a proposer, while the table had these rows for its epoch. -/
  | selected (proposer : BlockProposer) (present : List BlockProposer)
  deriving DecidableEq

/-! ## Pending blocks -/

structure PendingBlock where
  votes : List Vote
  voteResults : List VoteResult
  block : Option BlockPayload

namespace PendingBlock

def new : PendingBlock := ⟨[], [], none⟩

def addVote (vote : Vote) (p : PendingBlock) : PendingBlock := { p with votes := p.votes ++ [vote] }

def addVoteResult (voteResult : VoteResult) (p : PendingBlock) : PendingBlock :=
  { p with voteResults := p.voteResults ++ [voteResult] }

def setBlock (block : BlockPayload) (p : PendingBlock) : PendingBlock := { p with block := some block }

end PendingBlock

/-- The pending blocks by their numbers. -/
structure PendingBlocks where
  blocks : Table BlockNumber PendingBlock
  filed : ∀ {number entry payload}, blocks.lookup number = some entry →
    entry.block = some payload → payload.block.blockHeader.blockNumber = number

namespace PendingBlocks

def new : PendingBlocks := ⟨∅, fun h => by cases h⟩

/-- Change the pending block of a number, which is created if there is none. -/
def change (number : BlockNumber) (f : PendingBlock → PendingBlock)
    (hf : ∀ entry payload, (f entry).block = some payload →
      entry.block = some payload ∨ payload.block.blockHeader.blockNumber = number)
    (p : PendingBlocks) : PendingBlocks where
  blocks := p.blocks.upsert number f (f .new)
  filed := by
    intro number' entry payload hlookup hblock
    rw [AList.lookup_upsert] at hlookup
    split at hlookup
    · next hnumber =>
        subst hnumber
        cases hlookup
        cases hold : p.blocks.lookup number' with
        | none =>
          rw [hold] at hblock
          rcases hf _ _ hblock with h | h
          · cases h
          · exact h
        | some old =>
          rw [hold] at hblock
          rcases hf _ _ hblock with h | h
          · exact p.filed hold h
          · exact h
    · exact p.filed hlookup hblock

def addVote (vote : Vote) : PendingBlocks → PendingBlocks :=
  change vote.data.blockNumber (·.addVote vote) fun _ _ h => .inl h

def addVoteResult (voteResult : VoteResult) : PendingBlocks → PendingBlocks :=
  change voteResult.data.blockNumber (·.addVoteResult voteResult) fun _ _ h => .inl h

def addBlock (payload : BlockPayload) : PendingBlocks → PendingBlocks :=
  change payload.block.blockHeader.blockNumber (·.setBlock payload) fun _ _ h => by cases h; exact .inr rfl

def removeBlock (number : BlockNumber) (p : PendingBlocks) : PendingBlocks where
  blocks := p.blocks.erase number
  filed := by
    intro number' entry payload hlookup hblock
    rw [AList.lookup_erase_ite] at hlookup
    split at hlookup
    · cases hlookup
    · exact p.filed hlookup hblock

def removeBlocks (numbers : List BlockNumber) (p : PendingBlocks) : PendingBlocks :=
  numbers.foldl (fun p number => p.removeBlock number) p

/-- The pending block of a number. -/
def get (p : PendingBlocks) (number : BlockNumber) : Option PendingBlock := p.blocks.lookup number

/-- The numbers in order. -/
def blockNumbers (p : PendingBlocks) : List BlockNumber := p.blocks.keys.insertionSort (· ≤ ·)

/-! ### Votes that are kept -/

/-- The vote is among those of the pending block of a number. -/
def Holds (p : PendingBlocks) (number : BlockNumber) (vote : Vote) : Prop :=
  ∃ entry, p.get number = some entry ∧ vote ∈ entry.votes

variable {p : PendingBlocks} {number : BlockNumber} {vote : Vote}

section

variable (h : p.Holds number vote)

include h

theorem Holds.change {changed : BlockNumber} {f : PendingBlock → PendingBlock}
    {hf : ∀ entry payload, (f entry).block = some payload →
      entry.block = some payload ∨ payload.block.blockHeader.blockNumber = changed}
    (hvotes : ∀ entry, entry.votes ⊆ (f entry).votes) : (p.change changed f hf).Holds number vote := by
  obtain ⟨entry, hentry, hvote⟩ := h
  unfold Holds get PendingBlocks.change
  rw [AList.lookup_upsert]
  by_cases hnumber : number = changed
  · subst hnumber
    have hold : p.blocks.lookup number = some entry := hentry
    refine ⟨f entry, ?_, hvotes entry hvote⟩
    rw [if_pos rfl, hold]
    rfl
  · rw [if_neg hnumber]
    exact ⟨entry, hentry, hvote⟩

theorem Holds.addVote (other : Vote) : (p.addVote other).Holds number vote :=
  h.change fun _ => List.subset_append_left _ _

theorem Holds.addVoteResult (voteResult : VoteResult) : (p.addVoteResult voteResult).Holds number vote :=
  h.change fun _ => .refl _

theorem Holds.addBlock (payload : BlockPayload) : (p.addBlock payload).Holds number vote :=
  h.change fun _ => .refl _

end

theorem holds_addVote : (p.addVote vote).Holds vote.data.blockNumber vote := by
  unfold Holds get addVote change
  rw [AList.lookup_upsert, if_pos rfl]
  refine ⟨_, rfl, ?_⟩
  cases p.blocks.lookup vote.data.blockNumber <;>
    exact List.mem_append_right _ (List.mem_singleton_self vote)

theorem Holds.removeBlock (h : p.Holds number vote) {removed : BlockNumber} (hne : number ≠ removed) :
    (p.removeBlock removed).Holds number vote := by
  obtain ⟨entry, hentry, hvote⟩ := h
  refine ⟨entry, ?_, hvote⟩
  unfold get PendingBlocks.removeBlock
  rw [AList.lookup_erase_ite, if_neg hne]
  exact hentry

theorem Holds.removeBlocks (h : p.Holds number vote) {numbers : List BlockNumber}
    (hnot : number ∉ numbers) : (p.removeBlocks numbers).Holds number vote := by
  induction numbers generalizing p with
  | nil => exact h
  | cons removed numbers ih =>
    obtain ⟨hne, hrest⟩ := not_or.mp (mt List.mem_cons.mpr hnot)
    exact ih (h.removeBlock hne) hrest

end PendingBlocks

structure NodeState where
  world : World
  pendingBlocks : PendingBlocks
  log : List NodeEvent

namespace Node

abbrev Op := Fallible NodeState Error

def record (event : NodeEvent) : Op Unit := update fun s => { s with log := s.log ++ [event] }

def onPending (f : PendingBlocks → PendingBlocks) : Op Unit :=
  update fun s => { s with pendingBlocks := f s.pendingBlocks }

def onWorld {α : Type} (x : World.Op α) : Op α := zoom NodeState.world (fun world s => { s with world }) x

def onChain {α : Type} (x : Fallible ChainTables Error α) : Op α := onWorld (World.onChain x)

variable (n : Node)

def validate : Validate := ⟨n.platform.rt, n.verifyEbpf⟩

/-! ## The end of an epoch -/

def SLOTS_PER_EPOCH : BlockNumber := 100

def calculateCurrentEpoch (blockNumber : BlockNumber) : Epoch :=
  if blockNumber = 0 then 0 else (blockNumber / SLOTS_PER_EPOCH).setWidth 64

/-- The first eight bytes of the hash. -/
def calculateSeed (lastBlockHash : BlockHash) (currentEpoch : Epoch) : BitVec 64 :=
  (n.platform.rt.crypto.sha256 (toBytes 32 lastBlockHash ++ toBytes 8 currentEpoch)).extractLsb' 192 64

/-- Without a white list and a black list nobody is eligible. -/
def eligibleBlockProposers (config : RuntimeConfig) (selected : List Validator) : List Validator :=
  match config.whitelistedBlockProposers, config.blacklistedBlockProposers with
  | some whitelisted, _ => selected.filter (·.address ∈ whitelisted)
  | none, some blacklisted => selected.filter (·.address ∉ blacklisted)
  | none, none => []

/-- `select_block_proposers`. -/
def selectBlockProposers (epoch : Epoch) (header : BlockHeader) (validators : List Validator) :
    Op Unit := do
  let seed := n.calculateSeed header.blockHash epoch
  match validators[seed.toNat % validators.length]? with
  | none => fail "attempt to calculate the remainder with a divisor of zero"
  | some validator => do
    let s ← state
    let proposer : BlockProposer := ⟨header.clusterAddress, epoch, validator.address⟩
    record (.selected proposer (s.world.db.chain.blockProposer.filter fun p =>
      p.clusterAddress = proposer.clusterAddress ∧ p.epoch = proposer.epoch))
    onChain (ChainTables.storeBlockProposers [(header.clusterAddress, [(epoch, validator.address)])])

/-- `select_and_store_validators_and_proposer`. -/
def selectAndStoreValidatorsAndProposer (epoch : Epoch) (lastBlockHeader : BlockHeader) : Op Unit := do
  let s ← state
  let config ← lift s.world.caches.getConfig
  let selected ← lift (n.selectValidatorsForEpoch s.world lastBlockHeader epoch)
  onChain (update (·.batchStoreValidators selected))
  n.selectBlockProposers epoch lastBlockHeader (eligibleBlockProposers config selected)

/-- The last block of an epoch selects the proposer of the next one, seeded by the head of the chain. -/
def rollover (header : BlockHeader) : Op Unit := do
  let newEpoch := calculateCurrentEpoch (header.blockNumber + 1)
  if header.epoch < newEpoch then do
    let s ← state
    let lastBlockHeader ← lift (s.world.db.chain.blockHeadHeader header.clusterAddress)
    mapError ("Unable to select new block proposer or validators: " ++ ·)
      (n.selectAndStoreValidatorsAndProposer newEpoch lastBlockHeader)
  else pure ()

/-! ## Finalising a pending block -/

/-- Who voted for the head of the chain, except for the nodes of the organisation. -/
def getLastBlockVotesValidators (w : World) (config : RuntimeConfig) : Except Error (Finset Address) := do
  let header ← w.db.chain.blockHeadHeader n.clusterAddress
  match w.db.chain.loadVoteResult header.blockHash with
  | .error _ => pure ∅
  | .ok voteResult => do
    let addresses ← voteResult.data.votes.mapM fun vote =>
      Account.addressOf n.platform.rt.crypto vote.verifyingKey
    pure (addresses.filter (· ∉ config.orgNodes)).toFinset

def checkMaxBlockHeight (config : RuntimeConfig) (blockNumber : BlockNumber) : Except Error Unit :=
  match config.maxBlockHeight with
  | some maxBlockHeight =>
    ensure (blockNumber < maxBlockHeight.setWidth 128)
      s!"Blockchain has reached the configured stopping block number: {maxBlockHeight.toNat}"
  | none => .ok ()

/-- The checks before the vote. They return the validators of the epoch and whether the node votes: it
    does when it is a validator and not the proposer. -/
def checkProposal (choice : RowChoice) (w : World) (payload : BlockPayload) :
    Except Error (List Validator × Bool) := do
  let header := payload.block.blockHeader
  let config ← w.caches.getConfig
  checkMaxBlockHeight config header.blockNumber
  let lastBlockVotesValidators ← n.getLastBlockVotesValidators w config
  n.validate.validateProposedBlock choice w payload n.clusterAddress lastBlockVotesValidators
  let validators ← (w.db.chain.loadAllValidators header.epoch).elim
    (.error "No validators selected for this epoch") .ok
  let blockProposerAddress ← Account.addressOf n.platform.rt.crypto n.verifyingKey
  let isBlockProposer ← w.db.chain.isBlockProposer choice
    ⟨header.clusterAddress, header.epoch, blockProposerAddress⟩
  pure (validators, w.db.chain.isValidator n.nodeAddress header.epoch && !isBlockProposer)

/-- The node's vote in favour of a block. -/
def voteFor (header : BlockHeader) : Vote :=
  let data : VoteSignPayload :=
    { blockNumber := header.blockNumber, epoch := header.epoch, blockHash := header.blockHash,
      clusterAddress := n.clusterAddress, vote := true }
  { data, validatorAddress := n.nodeAddress,
    signature := n.sign (n.platform.rt.messages.voteSignPayload data), verifyingKey := n.verifyingKey }

/-- The vote carries the node's own key. -/
def isOwn (vote : Vote) : Bool := vote.verifyingKey = n.verifyingKey

/-- Vote once: a vote with the node's key that is there already is sent again. -/
def castVote (header : BlockHeader) (entry : PendingBlock) (votes : Bool) : Op Unit :=
  if votes && !entry.votes.any n.isOwn then do
    record (.signed (n.voteFor header))
    onPending (.addVote (n.voteFor header))
  else pure ()

/-- `validate_vote_results`. -/
def validateVoteResults (block : Block) (voteResults : List VoteResult) : Op Unit :=
  forEach voteResults fun voteResult => do
    let s ← state
    lift (n.validate.validateVoteResult s.world.db.chain voteResult block)
    record (.accepted voteResult block)

/-- The first vote result that is passed by the validators of the epoch. -/
def firstPassed (epoch : Epoch) (validators : List Validator) :
    List VoteResult → Op (Option VoteResult)
  | [] => pure none
  | voteResult :: voteResults => do
    let s ← state
    let passed ← lift (isVoteResultPassed s.world.caches voteResult validators)
    if passed then do
      record (.passed voteResult epoch)
      pure (some voteResult)
    else firstPassed epoch validators voteResults

def storeBlock (block : Block) : Op Unit := do
  onChain (update (·.storeBlock block))
  record (.stored block)

def executeBlock (block : Block) : Op Unit := do
  record (.executed block)
  let _ ← onWorld (World.executeBlock n.platform block)
  record (.finalized block)

/-- `PendingBlock::try_to_finalize` up to the vote result that is passed. -/
def passedVoteResult (choice : RowChoice) (entry : PendingBlock) (payload : BlockPayload) : Op VoteResult := do
  let s ← state
  let (validators, votes) ← lift (n.checkProposal choice s.world payload)
  n.castVote payload.block.blockHeader entry votes
  n.validateVoteResults payload.block entry.voteResults
  let passed ← firstPassed payload.block.blockHeader.epoch validators entry.voteResults
  okOr passed "Noone vote result is passed"

/-- What is left to do then. -/
def finish (block : Block) (voteResult : VoteResult) : Op Unit := do
  n.rollover block.blockHeader
  onChain (ChainTables.storeVoteResult voteResult)
  storeBlock block
  n.executeBlock block

/-- `PendingBlock::try_to_finalize`. -/
def tryToFinalizeBlock (choice : RowChoice) (entry : PendingBlock) : Op Unit :=
  match entry.block with
  | none => fail "Block is not set"
  | some payload => do
    let voteResult ← n.passedVoteResult choice entry payload
    n.finish payload.block voteResult

/-- The loop of `PendingBlocks::try_to_finalize`. It ends at the first block that cannot be finalised, and
    returns the numbers of those that were. -/
def finalizeBlocks (choice : RowChoice) : List BlockNumber → Op (List BlockNumber)
  | [] => pure []
  | number :: numbers => do
    let s ← state
    if s.world.db.chain.isBlockExecuted number n.clusterAddress then do
      let finalized ← finalizeBlocks choice numbers
      pure (number :: finalized)
    else
      match s.pendingBlocks.get number with
      | none => pure []
      | some entry => do
        let result ← (n.tryToFinalizeBlock choice entry).outcome
        match result with
        | .error _ => pure []
        | .ok () => do
          let finalized ← finalizeBlocks choice numbers
          pure (number :: finalized)

/-- `PendingBlocks::try_to_finalize`; the query for missed blocks is left out. -/
def tryToFinalize (choice : RowChoice) : Op Unit := do
  let s ← state
  let finalized ← n.finalizeBlocks choice s.pendingBlocks.blockNumbers
  onPending (.removeBlocks finalized)

/-! ## What the checks have found -/

variable {n} {choice : RowChoice} {w : World} {payload : BlockPayload} {validators : List Validator}
  {votes : Bool}

/-- What the steps of `checkProposal` come to when it succeeds. -/
structure ProposalChecked (n : Node) (choice : RowChoice) (w : World) (payload : BlockPayload)
    (validators : List Validator) (votes : Bool) where
  config : RuntimeConfig
  voters : Finset Address
  address : Address
  isBlockProposer : Bool
  configCached : w.caches.getConfig = .ok config
  height : checkMaxBlockHeight config payload.block.blockHeader.blockNumber = .ok ()
  lastVotes : n.getLastBlockVotesValidators w config = .ok voters
  proposed : n.validate.validateProposedBlock choice w payload n.clusterAddress voters = .ok ()
  loaded : w.db.chain.loadAllValidators payload.block.blockHeader.epoch = some validators
  own : Account.addressOf n.platform.rt.crypto n.verifyingKey = .ok address
  proposer : w.db.chain.isBlockProposer choice
    ⟨payload.block.blockHeader.clusterAddress, payload.block.blockHeader.epoch, address⟩ = .ok isBlockProposer
  isVoter : votes = (w.db.chain.isValidator n.nodeAddress payload.block.blockHeader.epoch && !isBlockProposer)

theorem proposalChecked (h : n.checkProposal choice w payload = .ok (validators, votes)) :
    Nonempty (n.ProposalChecked choice w payload validators votes) := by
  obtain ⟨config, hconfig, h⟩ := bind_eq_ok.mp h
  obtain ⟨hheight, h⟩ := check_eq_ok.mp h
  obtain ⟨voters, hvoters, h⟩ := bind_eq_ok.mp h
  obtain ⟨hproposed, h⟩ := check_eq_ok.mp h
  obtain ⟨loaded, hloaded, h⟩ := bind_eq_ok.mp h
  obtain ⟨address, haddress, h⟩ := bind_eq_ok.mp h
  obtain ⟨isBlockProposer, hproposer, h⟩ := bind_eq_ok.mp h
  cases h
  refine ⟨⟨config, voters, address, isBlockProposer, hconfig, hheight, hvoters, hproposed, ?_, haddress,
    hproposer, rfl⟩⟩
  cases hfound : w.db.chain.loadAllValidators payload.block.blockHeader.epoch with
  | none => rw [hfound] at hloaded; cases hloaded
  | some found => rw [hfound] at hloaded; cases hloaded; rfl

theorem ProposalChecked.accepted (h : n.ProposalChecked choice w payload validators votes) :
    n.checkProposal choice w payload = .ok (validators, votes) := by
  refine bind_eq_ok.mpr ⟨h.config, h.configCached, check_eq_ok.mpr ⟨h.height, ?_⟩⟩
  refine bind_eq_ok.mpr ⟨h.voters, h.lastVotes, check_eq_ok.mpr ⟨h.proposed, ?_⟩⟩
  refine bind_eq_ok.mpr ⟨validators, by rw [h.loaded]; rfl, ?_⟩
  refine bind_eq_ok.mpr ⟨h.address, h.own, bind_eq_ok.mpr ⟨h.isBlockProposer, h.proposer, ?_⟩⟩
  exact congrArg (fun votes => Except.ok (validators, votes)) h.isVoter.symm

end Node

end L1xCore
