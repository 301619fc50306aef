import L1xCore.Consensus.NextCommittee
import L1xCore.Consensus.NodeRecords
import L1xCore.Db.BlockTables

/-!
# `Consensus.FaultyFinalize` — a call of `try_to_finalize` in which one statement fails

`PendingBlock::try_to_finalize` reads first and writes then: the committee of the next epoch, the vote result,
the transactions, the header, the head, the mark of the block, and at last what the execution changes. Each
of these is a statement of its own, and a failure leaves behind what was written before it. A `Fault` names
the statement that fails.

Most failures end the call. Three are swallowed:

* a read of the checks may be taken for an empty answer (the votes for the last block, the balance of the
  distributor), so that a failing read makes the checks fail or makes no difference;
* a node whose record cannot be read is left out of the selection;
* a transaction that cannot be written is only logged.

Without a fault the call is `tryToFinalizeBlock` (`call_related`).
-/

namespace L1xCore

open Fallible VoteResultManager ChainTables Node

variable {α : Type} {header : BlockHeader} {d : Disk} (statement : Fault)

/-- The database operation that fails. -/
inductive Fault where
  /-- A read before the first write; the checks fail with an error, or they pass all the same. -/
  | check (outcome : Option Error)
  /-- A read at the end of an epoch that ends the call: the last header, or the health of a node. -/
  | rolloverRead
  /-- The read of a node info, which is only logged. -/
  | nodeInfo (address : Address)
  | validators
  | proposer
  | voteResult
  /-- The insert of a transaction, which is only logged. -/
  | transaction (sequence : Nat)
  | blockHeader
  /-- `load_chain_state`, after the header was stored. -/
  | chainState
  | blockHead
  | blockMetaInfo
  /-- `execute_block`, which is a database transaction. -/
  | execution
  deriving DecidableEq

/-- The world of a node, and the rows of `block_transaction`. -/
structure Disk where
  world : World
  blockTransaction : Table (TransactionHash × BlockNumber) TransactionRow

namespace Disk

abbrev Op := Fallible Disk Error

def chain (d : Disk) : ChainTables := d.world.db.chain

def withChain (d : Disk) (t : ChainTables) : Disk := { d with world.db.chain := t }

def onWorld {α : Type} (x : World.Op α) : Op α := zoom Disk.world (fun world d => { d with world }) x

def onChain {α : Type} (x : Fallible ChainTables Error α) : Op α := zoom Disk.chain (fun t d => d.withChain t) x

@[simp] theorem chain_withChain (d : Disk) (t : ChainTables) : (d.withChain t).chain = t := rfl

theorem run_onChain (x : Fallible ChainTables Error α) (d : Disk) :
    (onChain x).run d = ((x.run d.chain).1, d.withChain (x.run d.chain).2) := rfl

@[simp] theorem run_onChain_update {g : ChainTables → ChainTables} :
    (onChain (update g)).run d = (.ok (), d.withChain (g d.chain)) := rfl

end Disk

/-- A statement of the call. -/
def attempt {α : Type} (fault : Option Fault) (statement : Fault) (x : Disk.Op α) : Disk.Op α :=
  if fault = some statement then fail "connection closed" else x

@[simp] theorem attempt_none (x : Disk.Op α) : attempt none statement x = x := rfl

@[simp] theorem attempt_self (x : Disk.Op α) :
    attempt (some statement) statement x = fail "connection closed" := if_pos rfl

theorem attempt_of_ne {fault : Option Fault} {statement : Fault} (h : fault ≠ some statement) (x : Disk.Op α) :
    attempt fault statement x = x := if_neg h

/-! ## The rows of the transactions -/

namespace BlockTables

/-- The loop over the transactions, except for the one with the sequence number `skipped`. -/
def storeRows (rt : Runtime) (blockNumber : BlockNumber) (skipped : Option Nat) :
    List Transaction → Nat → Table (TransactionHash × BlockNumber) TransactionRow →
      Table (TransactionHash × BlockNumber) TransactionRow
  | [], _, rows => rows
  | tx :: txs, seq, rows =>
    storeRows rt blockNumber skipped txs (seq + 1)
      (if skipped = some seq then rows
      else (rowHash rt tx).elim rows fun transactionHash =>
        rows.upsert (transactionHash, blockNumber) id ⟨tx, BitVec.ofNat 32 seq⟩)

/-- Without a fault this is the loop of `store_block`. -/
theorem storeTransactions_blockTransaction (rt : Runtime) (blockNumber : BlockNumber)
    (txs : List Transaction) (seq : Nat) (t : BlockTables) :
    (storeTransactions rt blockNumber txs seq t).blockTransaction =
      storeRows rt blockNumber none txs seq t.blockTransaction := by
  induction txs generalizing seq t with
  | nil => rfl
  | cons tx txs ih =>
    rw [storeTransactions, ih, storeRows, run_storeTransaction]
    cases rowHash rt tx <;> rfl

end BlockTables

namespace ChainTables

theorem storeBlockProposers_singleton (cluster : Address) (epoch : Epoch) (address : Address) :
    storeBlockProposers [(cluster, [(epoch, address)])] = storeBlockProposer ⟨cluster, epoch, address⟩ := by
  funext t
  show (storeBlockProposers [(cluster, [(epoch, address)])]).run t = _
  rw [storeBlockProposers, run_forEach_singleton, run_forEach_singleton]
  rfl

/-- The row that says that the block was not executed yet, if there is none. -/
def insertMetaInfo (t : ChainTables) (header : BlockHeader) : ChainTables :=
  { t with
    blockMetaInfo := t.blockMetaInfo.upsert (header.clusterAddress, header.blockNumber) id false }

/-- The head of the block's cluster is the block before it. -/
def movesHead (t : ChainTables) (header : BlockHeader) : Bool :=
  (t.loadChainState header.clusterAddress).1 = header.blockNumber - 1

theorem updateHead_of_not_movesHead {t : ChainTables} (h : t.movesHead header = false) :
    t.updateHead header = t :=
  if_neg (of_decide_eq_false h)

end ChainTables

/-- The tables without the node info of an address. -/
def NodeTables.without {F : Type} (t : NodeTables F) (address : Address) : NodeTables F :=
  { t with nodeInfo := t.nodeInfo.erase address }

/-- A node with the tables its selection reads, and the rows that its queries pick. -/
structure Finalizer (F : Type) where
  recording : RecordingNode F
  nodeTables : NodeTables F
  healths : HealthChoice F
  rows : RowChoice

namespace Finalizer

variable {F : Type} (f : Finalizer F) (fault : Option Fault)

def node : Node := f.recording.selecting f.healths f.nodeTables

/-! ## The call -/

/-- A node info that cannot be read is as good as none. -/
def select (w : World) (lastBlockHeader : BlockHeader) (epoch : Epoch) : Except Error (List Validator) :=
  match fault with
  | some (.nodeInfo address) =>
    (f.recording.manager.reading f.healths (f.nodeTables.without address)).selectValidatorsForEpoch w
      lastBlockHeader epoch
  | _ => f.node.selectValidatorsForEpoch w lastBlockHeader epoch

def selectAndStore (epoch : Epoch) (lastBlockHeader : BlockHeader) : Disk.Op Unit := do
  let d ← state
  let config ← lift d.world.caches.getConfig
  let selected ← lift (f.select fault d.world lastBlockHeader epoch)
  attempt fault .validators (Disk.onChain (update (·.batchStoreValidators selected)))
  let proposer ← okOr
    (f.node.chosenProposer epoch lastBlockHeader (eligibleBlockProposers config selected))
    "attempt to calculate the remainder with a divisor of zero"
  attempt fault .proposer (Disk.onChain (storeBlockProposer proposer))

def rollover (header : BlockHeader) : Disk.Op Unit :=
  if header.epoch < newEpoch header then do
    let d ← state
    let lastBlockHeader ← attempt fault .rolloverRead
      (lift (d.chain.blockHeadHeader header.clusterAddress))
    mapError ("Unable to select new block proposer or validators: " ++ ·)
      (f.selectAndStore fault (newEpoch header) lastBlockHeader)
  else pure ()

/-- The sequence number of the transaction that is not written. -/
def skipped : Option Fault → Option Nat
  | some (.transaction sequence) => some sequence
  | _ => none

def moveHead (header : BlockHeader) : Disk.Op Unit := do
  let d ← state
  if d.chain.movesHead header then attempt fault .blockHead (Disk.onChain (update (·.updateHead header)))
  else pure ()

def storeBlock (block : Block) : Disk.Op Unit := do
  let header := block.blockHeader
  update fun d =>
    { d with
      blockTransaction := BlockTables.storeRows f.node.platform.rt header.blockNumber (skipped fault)
        block.transactions 0 d.blockTransaction }
  attempt fault .blockHeader (Disk.onChain (update (·.storeBlockHeader header)))
  attempt fault .chainState (pure ())
  moveHead fault header
  attempt fault .blockMetaInfo (Disk.onChain (update (·.insertMetaInfo header)))

def execute (block : Block) : Disk.Op Unit := do
  let _ ← attempt fault .execution (Disk.onWorld (World.executeBlock f.node.platform block))
  pure ()

/-- What is written after the committee of the next epoch. -/
def write (block : Block) (voteResult : VoteResult) : Disk.Op Unit := do
  attempt fault .voteResult (Disk.onChain (storeVoteResult voteResult))
  f.storeBlock fault block
  f.execute fault block

def finish (block : Block) (voteResult : VoteResult) : Disk.Op Unit := do
  f.rollover fault block.blockHeader
  f.write fault block voteResult

/-- What a failing read does to the checks. -/
def checkOutcome : Option Fault → Except Error Unit
  | some (.check (some e)) => .error e
  | _ => .ok ()

def call (entry : PendingBlock) : Disk.Op Unit :=
  match entry.block with
  | none => fail "Block is not set"
  | some payload => do
    let d ← state
    lift (checkOutcome fault)
    let voteResult ← lift (f.node.decided f.rows d.world entry payload)
    f.finish fault payload.block voteResult

/-! ## The call without a fault -/

/-- The node works on this disk. -/
def OnDisk (s : NodeState) (d : Disk) : Prop := d.world = s.world

theorem onWorld_related (x : World.Op α) : Related OnDisk (onWorld x) (Disk.onWorld x) OnDisk := by
  intro s d h
  have hrun : x.run d.world = x.run s.world := congrArg x.run h
  exact ⟨(congrArg Prod.fst hrun).symm, congrArg Prod.snd hrun⟩

theorem onChain_related {x : Fallible ChainTables Error α} :
    Related OnDisk (onChain x) (Disk.onChain x) OnDisk := onWorld_related (World.onChain x)

/-- There is no log on the disk. -/
theorem record_related {x : Op α} {y : Disk.Op α} (event : NodeEvent) (h : Related OnDisk x y OnDisk) :
    Related OnDisk (record event >>= fun _ => x) y OnDisk :=
  fun s d hdisk => h { s with log := s.log ++ [event] } d hdisk

theorem selectAndStore_related (epoch : Epoch) (lastBlockHeader : BlockHeader) :
    Related OnDisk (f.node.selectAndStoreValidatorsAndProposer epoch lastBlockHeader)
      (f.selectAndStore none epoch lastBlockHeader) OnDisk := by
  refine .bind_state fun s d h => ?_
  rw [show d.world = s.world from h]
  refine .bind_lift fun config => .bind_lift fun selected => ?_
  refine onChain_related.seq fun _ => ?_
  unfold selectBlockProposers chosenProposer
  dsimp only
  cases (eligibleBlockProposers config selected)[
      (f.node.calculateSeed lastBlockHeader.blockHash epoch).toNat %
        (eligibleBlockProposers config selected).length]? with
  | none => exact .fail _
  | some validator =>
    dsimp only
    rw [storeBlockProposers_singleton]
    intro s d h
    -- the selection is logged before the row is written
    exact record_related _ onChain_related s d h

theorem rollover_related (header : BlockHeader) :
    Related OnDisk (f.node.rollover header) (f.rollover none header) OnDisk := by
  unfold Node.rollover rollover newEpoch
  dsimp only
  split
  · refine .bind_state fun s d h => ?_
    rw [Disk.chain, show d.world = s.world from h]
    exact .bind_lift fun last => (f.selectAndStore_related _ last).mapError _
  · exact .pure ()

/-- The write of the block ends with this fault. The head is only written if it moves. -/
def Stops (header : BlockHeader) (t : ChainTables) : Fault → Prop
  | .voteResult | .blockHeader | .chainState | .blockMetaInfo | .execution => True
  | .blockHead => t.movesHead header = true
  | _ => False

theorem not_stopped {t : ChainTables} :
    ∀ statement, Stops header t statement → none ≠ some statement := fun _ _ heq => nomatch heq

variable {fault} in
theorem run_moveHead (h : d.chain.movesHead header = true → fault ≠ some .blockHead) :
    (moveHead fault header).run d = (.ok (), d.withChain (d.chain.updateHead header)) := by
  unfold moveHead
  rw [run_bind_of_ok (run_state d)]
  cases hmoves : d.chain.movesHead header with
  | true =>
    rw [attempt_of_ne (h hmoves)]
    rfl
  | false =>
    rw [updateHead_of_not_movesHead hmoves]
    rfl

/-- What is on the disk when the block is stored. -/
def stored (block : Block) (d : Disk) : Disk :=
  { d.withChain (d.chain.storeBlock block) with
    blockTransaction := BlockTables.storeRows f.node.platform.rt block.blockHeader.blockNumber
      (skipped fault) block.transactions 0 d.blockTransaction }

variable {fault} in
/-- The statements of `store_block`, if none of them fails, do what `store_block` does. -/
theorem run_storeBlock {block : Block}
    (h : ∀ statement, Stops block.blockHeader d.chain statement → fault ≠ some statement) :
    (f.storeBlock fault block).run d = (.ok (), f.stored fault block d) := by
  unfold storeBlock
  dsimp only
  rw [run_bind_of_ok (run_update _ d), attempt_of_ne (h .blockHeader trivial),
    run_bind_of_ok Disk.run_onChain_update, attempt_of_ne (h .chainState trivial),
    run_bind_of_ok (run_pure () _), attempt_of_ne (h .blockMetaInfo trivial)]
  refine (run_bind_of_ok (run_moveHead ?_)).trans rfl
  exact h .blockHead

theorem storeBlock_related (block : Block) :
    Related OnDisk (Node.storeBlock block) (f.storeBlock none block) OnDisk := by
  intro s d h
  rw [f.run_storeBlock not_stopped]
  refine ⟨rfl, ?_⟩
  have hworld : d.world = s.world := h
  show ({ d.world with db.chain := d.world.db.chain.storeBlock block } : World) = _
  rw [hworld]
  rfl

theorem execute_related (block : Block) :
    Related OnDisk (f.node.executeBlock block) (f.execute none block) OnDisk := by
  refine record_related _ ((onWorld_related _).seq fun _ => ?_)
  exact fun s d h => ⟨rfl, h⟩

theorem finish_related (block : Block) (voteResult : VoteResult) :
    Related OnDisk (f.node.finish block voteResult) (f.finish none block voteResult) OnDisk :=
  (f.rollover_related block.blockHeader).seq fun _ => onChain_related.seq fun _ =>
    (f.storeBlock_related block).seq fun _ => f.execute_related block

theorem run_call {entry : PendingBlock} {payload : BlockPayload} (hblock : entry.block = some payload)
    (d : Disk) :
    (f.call fault entry).run d = (do
      lift (checkOutcome fault)
      let voteResult ← lift (f.node.decided f.rows d.world entry payload)
      f.finish fault payload.block voteResult : Disk.Op Unit).run d := by
  rw [call, hblock]
  exact run_bind_of_ok (run_state d)

/-- **Without a fault the call is `try_to_finalize`.** -/
theorem call_related (entry : PendingBlock) :
    Related OnDisk (f.node.tryToFinalizeBlock f.rows entry) (f.call none entry) OnDisk := by
  intro s d h
  cases hblock : entry.block with
  | none =>
    unfold tryToFinalizeBlock call
    rw [hblock]
    exact ⟨rfl, h⟩
  | some payload =>
    obtain ⟨s', hworld, hrun⟩ := run_tryToFinalizeBlock hblock s
    rw [hrun, f.run_call none hblock d, show d.world = s.world from h]
    have hdisk : OnDisk s' d := (show d.world = s.world from h).trans hworld.symm
    exact Related.bind_lift (fun voteResult => f.finish_related payload.block voteResult) s' d hdisk

end Finalizer

end L1xCore
