import L1xCore.Consensus.PendingBlocks

/-!
# `Consensus.Consensus` — the handlers of a node, and its runs

`consensus/src/consensus.rs`: what a node does with each message, and with the blocks it makes itself. A
**run** is any sequence of calls of the handlers, with any contents, in any order; an error ends a call but
not the run. A query for a proposer may see any of the matching rows, so every call comes with a choice of
its own.
-/

namespace L1xCore

open Fallible VoteResultManager

namespace Node

variable (n : Node) (choice : RowChoice)

/-- `receive_validate_block`: a proposal. It is kept even if its parent is not known yet. -/
def receiveValidateBlock (payload : BlockPayload) : Op Unit := do
  let header := payload.block.blockHeader
  let s ← state
  let authorizedProposer ← lift
    (s.world.db.chain.loadBlockProposer choice n.clusterAddress header.epoch)
  let address ← lift (Account.addressOf n.platform.rt.crypto payload.verifyingKey)
  if address ≠ authorizedProposer.address then
    fail s!"Block #{header.blockNumber.toNat} from unauthorized proposer {hexEncode address}"
  else if s.world.db.chain.isBlockExecuted header.blockNumber n.clusterAddress then pure ()
  else do
    onPending (.addBlock payload)
    n.tryToFinalize choice

/-- `receive_block_proposer`: an announcement of proposers. -/
def receiveBlockProposer (payload : BlockProposerPayload) : Op Unit := do
  lift (n.validate.validateBlockProposer payload)
  onChain (ChainTables.storeBlockProposers payload.clusterBlockProposers)

/-- `try_to_vote_result`, from the votes of a pending block. -/
def tryToVoteResult (s : NodeState) (blockNumber : BlockNumber) (blockProposerAddress : Address)
    (validators : List Validator) : Except Error VoteResult :=
  match s.pendingBlocks.get blockNumber with
  | none => .error s!"Can't find pending Block #{blockNumber.toNat}"
  | some entry =>
    match entry.votes with
    | [] =>
      let number := entry.block.elim "None" fun b => s!"Some({b.block.blockHeader.blockNumber.toNat})"
      .error s!"try_to_vote_result ~ self.get_block().and_then ~ Can't generate VoteResult block #{number}"
    | vote :: _ => do
      let voteResult ← tryToGenerateVoteResult n.platform.rt.messages n.sign n.verifyingKey
        s.world.caches vote.data.blockNumber vote.data.blockHash vote.data.clusterAddress entry.votes
        blockProposerAddress validators
      voteResult.elim
        (.error s!"try_to_vote_result ~ vote_result_manager::VoteResultManager::try_to_generate_vote_result ~ Can't generate VoteResult block #{vote.data.blockNumber.toNat}")
        .ok

/-- `receive_vote` up to the new vote result, which is put into the pending list and broadcast: votes are
    collected by the proposer of the epoch in the vote. -/
def collectVote (vote : Vote) : Op (Option VoteResult) := do
  let s ← state
  let blockProposerAddress ← lift (Account.addressOf n.platform.rt.crypto n.verifyingKey)
  let isBlockProposer ← lift (s.world.db.chain.isBlockProposer choice
    ⟨vote.data.clusterAddress, vote.data.epoch, blockProposerAddress⟩)
  if !isBlockProposer then pure none
  else if (s.pendingBlocks.get vote.data.blockNumber).isNone ∧
      s.world.db.chain.isBlockExecuted vote.data.blockNumber n.clusterAddress then pure none
  else do
    onPending (.addVote vote)
    let s ← state
    let validators ← okOr (s.world.db.chain.loadAllValidators vote.data.epoch)
      "No validators selected for this epoch"
    let voteResult ← lift (n.tryToVoteResult s vote.data.blockNumber blockProposerAddress validators)
    onPending (.addVoteResult voteResult)
    pure (some voteResult)

/-- `receive_vote`. -/
def receiveVote (vote : Vote) : Op Unit := do
  let voteResult ← n.collectVote choice vote
  if voteResult.isSome && n.multinodeMode then do
    let _ ← (n.tryToFinalize choice).outcome
    pure ()
  else pure ()

/-- `receive_vote_result`. -/
def receiveVoteResult (voteResult : VoteResult) : Op Unit := do
  onPending (.addVoteResult voteResult)
  n.tryToFinalize choice

/-- The vote result that comes with a block is checked after the block was stored. -/
def storeReceivedVoteResult (block : Block) : Option VoteResult → Op Unit
  | none => pure ()
  | some voteResult => do
    n.validateVoteResults block [voteResult]
    onChain (ChainTables.storeVoteResult voteResult)

/-- What `receive_block` does with a valid block, up to its execution. -/
def executeReceivedBlock (block : Block) (voteResult : Option VoteResult) : Op Unit := do
  storeBlock block
  n.storeReceivedVoteResult block voteResult
  n.executeBlock block

/-- How `receive_block` begins: it goes on with a block that has not been executed and is valid. -/
def ifReceivable {α : Type} (payload : BlockPayload) (otherwise : α) (goOn : Op α) : Op α := do
  let s ← state
  if s.world.db.chain.isBlockExecuted payload.block.blockHeader.blockNumber n.clusterAddress then
    pure otherwise
  else
    match n.validate.validateBlock s.world payload n.clusterAddress payload.sender with
    -- only a warning
    | .error _ => pure otherwise
    | .ok () => goOn

/-- `receive_block`: the answer to a query for a block. -/
def receiveBlock (payload : BlockPayload) (voteResult : Option VoteResult) : Op Unit :=
  n.ifReceivable payload () do
    n.executeReceivedBlock payload.block voteResult
    n.tryToFinalize choice

/-- The node votes for its own block, which becomes pending. -/
def propose (payload : BlockPayload) : Op Unit := do
  record (.signed (n.voteFor payload.block.blockHeader))
  onPending (.addVote (n.voteFor payload.block.blockHeader))
  onPending (.addBlock payload)

/-- `add_and_broadcast_block`: a block of the node itself. -/
def addAndBroadcastBlock (payload : BlockPayload) : Op Unit := do
  let header := payload.block.blockHeader
  let s ← state
  let authorizedBlockProposer ← lift
    (s.world.db.chain.loadBlockProposer choice n.clusterAddress header.epoch)
  if authorizedBlockProposer.address ≠ n.nodeAddress then
    fail s!"Node is not an authorized block proposer for epoch: {header.epoch.toNat}"
  else if s.world.db.chain.isBlockHeaderStored header.blockNumber then
    fail s!"Block #{header.blockNumber.toNat} is already stored"
  else if s.pendingBlocks.blocks.entries ≠ [] ∧
      (s.pendingBlocks.get (header.blockNumber - 1)).isNone then
    let pending := s.pendingBlocks.blocks.keys.map (·.toNat)
    fail s!"Cannot add block #{header.blockNumber.toNat} because previous block is not yet finalized. Pending blocks: {pending}"
  else
    match s.pendingBlocks.get header.blockNumber with
    | none => n.propose payload
    | some entry => do
      let blockProposerAddress ← lift (Account.addressOf n.platform.rt.crypto payload.verifyingKey)
      let pendingBlockPayload ← okOr entry.block "Failed to get block from the pending block"
      let previousBlockProposer ← lift
        (Account.addressOf n.platform.rt.crypto pendingBlockPayload.verifyingKey)
      if blockProposerAddress = previousBlockProposer then
        fail "Block already present in pending list"
      else if pendingBlockPayload.block.blockHeader.blockHash ≠ header.blockHash then do
        onPending (.removeBlock header.blockNumber)
        fail s!"Conflicting block hash detected for #{header.blockNumber.toNat}"
      else n.propose payload

end Node

/-! ## Runs -/

/-- A call of a handler. -/
inductive NodeInput where
  | receiveValidateBlock (payload : BlockPayload)
  | receiveBlockProposer (payload : BlockProposerPayload)
  | receiveVote (vote : Vote)
  | receiveVoteResult (voteResult : VoteResult)
  | receiveBlock (payload : BlockPayload) (voteResult : Option VoteResult)
  | addAndBroadcastBlock (payload : BlockPayload)

namespace Node

variable (n : Node)

def handle (choice : RowChoice) : NodeInput → Op Unit
  | .receiveValidateBlock payload => n.receiveValidateBlock choice payload
  | .receiveBlockProposer payload => n.receiveBlockProposer payload
  | .receiveVote vote => n.receiveVote choice vote
  | .receiveVoteResult voteResult => n.receiveVoteResult choice voteResult
  | .receiveBlock payload voteResult => n.receiveBlock choice payload voteResult
  | .addAndBroadcastBlock payload => n.addAndBroadcastBlock choice payload

/-- A node that has just started: nothing is pending, and it has done nothing. -/
def start (w : World) : NodeState := ⟨w, .new, []⟩

/-- The state after a call. -/
def step (s : NodeState) (call : RowChoice × NodeInput) : NodeState :=
  ((n.handle call.1 call.2).run s).2

/-- The state after a sequence of calls. -/
def runCalls (s : NodeState) (calls : List (RowChoice × NodeInput)) : NodeState := calls.foldl n.step s

/-- Every call of a sequence meets a condition on the state it starts from. -/
def AllMeet (condition : NodeState → NodeInput → Prop) :
    NodeState → List (RowChoice × NodeInput) → Prop
  | _, [] => True
  | s, call :: calls => condition s call.2 ∧ AllMeet condition (n.step s call) calls

theorem allMeet_true (s : NodeState) (calls : List (RowChoice × NodeInput)) :
    n.AllMeet (fun _ _ => True) s calls := by
  induction calls generalizing s with
  | nil => trivial
  | cons call calls ih => exact ⟨trivial, ih (n.step s call)⟩

end Node

/-! ## A node to run the model with -/

/-- The query that returns the first row. -/
def RowChoice.first : RowChoice where
  pick := List.head?
  mem_of_pick := List.mem_of_mem_head?
  eq_nil_of_pick := List.head?_eq_none_iff.mp

/-- A node of the small runtime in cluster `0`, with the validators to be selected for each epoch. -/
def Small.node (address : UInt8) (selected : Epoch → List Validator) : Node where
  platform := Small.platform
  verifyEbpf := fun _ => .ok ()
  nodeAddress := address.toBitVec.setWidth 160
  clusterAddress := 0
  verifyingKey := Small.key address
  sign := Small.sign (Small.key address)
  multinodeMode := true
  selectValidatorsForEpoch := fun _ _ epoch => .ok (selected epoch)

/-- The block of a number that is stored as the head of cluster `0`, but not executed; the validators are
    nodes of the organisation. -/
def Small.atHead (number : BlockNumber) (validators : List (Address × Epoch))
    (proposers : List BlockProposer) : World where
  db :=
    { state := .empty
      chain :=
        { ChainTables.empty.storeBlock ⟨{ Small.header with blockNumber := number }, []⟩ with
          blockHead := (∅ : Table Address (BlockNumber × BlockHash)).insert 0 (number, 0)
          validator := validators.foldl (fun table key => table.insert key ⟨0, 0, 1⟩) ∅
          blockProposer := proposers } }
  caches :=
    { config := some ⟨[], 10, none, 0, none, some [], none, none, 2, 0⟩
      denyConfig := some ⟨none, none⟩
      stakingInfo := some (.refresh ∅) }

/-- An empty block of a proposer. -/
def Small.proposal (proposer : UInt8) (number : BlockNumber) (epoch : Epoch) (parentHash : BlockHash) :
    BlockPayload :=
  let draft : BlockHeader := { Small.header with blockNumber := number, epoch, parentHash }
  let header : BlockHeader := { draft with blockHash := Small.messages.blockHash ⟨draft, []⟩ }
  { block := ⟨header, []⟩
    signature := Small.sign (Small.key proposer) (toBytes 32 header.blockHash)
    verifyingKey := Small.key proposer
    sender := proposer.toBitVec.setWidth 160 }

end L1xCore
