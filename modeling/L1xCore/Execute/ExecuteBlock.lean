import L1xCore.Db.ChainTables
import L1xCore.Execute.ExecuteTransaction
import L1xCore.State.Commit
import L1xCore.System.RuntimeConfig

/-!
# `Execute.ExecuteBlock` — the execution of a block

`execute/src/execute_block.rs`. The transactions are sorted by nonce and executed one after the other on
the overlay of the block; an error never ends the block, it only ends the round of its transaction. The
overlay is then committed inside a database transaction, which is rolled back when the commit fails.
-/

namespace L1xCore

open Fallible UpdatedState

variable {events : List ExecutionEvent} {updatedState : UpdatedState} {header : BlockHeader} {α : Type}

/-- What execution is built on. -/
structure Platform where
  rt : Runtime
  executor : ContractExecutor
  /-- `apply_system_contracts_changes`: system contracts that were written are read and their answers put
      into the caches. -/
  applySystemContractsChanges :
    RuntimeCaches → StateTables → UpdatedState → BlockHeader → Except Error Unit × RuntimeCaches

/-- What became of a transaction of a block. -/
inductive TransactionOutcome where
  /-- Its round ended before it was executed. -/
  | skipped (e : Error)
  | executed (result : Except TransactionResult TransactionResult)

/-- The report of an execution that failed. -/
def TransactionOutcome.failure : TransactionOutcome → Option TransactionResult
  | .executed (.error result) => some result
  | _ => none

/-- The report of an execution that went through. -/
def TransactionOutcome.success : TransactionOutcome → Option TransactionResult
  | .executed (.ok result) => some result
  | _ => none

theorem TransactionOutcome.success_eq_some {outcome : TransactionOutcome} {result : TransactionResult} :
    outcome.success = some result ↔ outcome = .executed (.ok result) := by
  rcases outcome with e | (e | passed)
  · exact iff_of_false (fun h => by cases h) fun h => by cases h
  · exact iff_of_false (fun h => by cases h) fun h => by cases h
  · constructor
    · intro h
      rw [Option.some.inj h]
    · intro h
      cases h
      rfl

namespace Platform

variable (pf : Platform) (db : StateTables) (header : BlockHeader)

def transactionContext (accountAddress : Address) : TransactionContext :=
  { rt := pf.rt, executor := pf.executor, db, accountAddress,
    clusterAddress := header.clusterAddress, blockNumber := header.blockNumber,
    blockHash := header.blockHash, blockTimestamp := header.timestamp }

/-- What is done before a transaction is executed: the nonce goes up and the fee limit is locked. -/
def lockFee (accountAddress : Address) (tx : Transaction) : StateOp Unit := do
  incrementNonce db accountAddress
  transfer db accountAddress FEE_RECIPIENT_MASTER_ADDRESS tx.feeLimit

/-- The part of the fee limit that was not used goes back. -/
def refundFee (accountAddress : Address) (tx : Transaction) (fee : Balance) : StateOp Unit := do
  let unusedFee ← okOr (tx.feeLimit.checkedSub fee) "Error calculating unused fee"
  transfer db FEE_RECIPIENT_MASTER_ADDRESS accountAddress unusedFee

def metadataOf (transactionHash : TransactionHash) (result : TransactionResult) : TransactionMetadata :=
  ⟨transactionHash, result.fee, result.gasBurnt, result.isSuccess⟩

/-- The end of the round of a transaction that passed: what it did is kept whatever happens next. -/
def settlePassed (accountAddress : Address) (tx : Transaction) (transactionHash : TransactionHash)
    (result : TransactionResult) (blockState txState : UpdatedState) : UpdatedState :=
  let blockState := blockState.merge txState
  match (refundFee db accountAddress tx result.fee).run txState with
  | (.error _, _) => blockState
  | (.ok (), txState) =>
    ((storeTransactionMetadata (metadataOf transactionHash result)).run (blockState.merge txState)).2

/-- The end of the round of a transaction that failed: what it did is gone. -/
def settleFailed (accountAddress : Address) (tx : Transaction) (transactionHash : TransactionHash)
    (result : TransactionResult) (blockState : UpdatedState) : UpdatedState :=
  ((do
    refundFee db accountAddress tx result.fee
    storeTransactionMetadata (metadataOf transactionHash result) : StateOp Unit).run
      blockState).2

/-- One round of the loop of `execute_block_inner`. -/
def processTransaction (tx : Transaction) (blockState : UpdatedState) : TransactionOutcome × UpdatedState :=
  match Account.addressOf pf.rt.crypto tx.verifyingKey with
  | .error e => (.skipped e, blockState)
  | .ok accountAddress =>
    match tx.transactionHash pf.rt.crypto pf.rt.codec with
    | .error e => (.skipped e, blockState)
    | .ok transactionHash =>
      match (lockFee db accountAddress tx).run blockState with
      | (.error e, _) => (.skipped e, blockState)
      | (.ok (), txState) =>
        let blockState := blockState.merge txState
        match executeTransaction (pf.transactionContext db header accountAddress) tx txState with
        | (.ok result, txState) =>
          (.executed (.ok result),
            settlePassed db accountAddress tx transactionHash result blockState txState)
        | (.error result, _) =>
          (.executed (.error result), settleFailed db accountAddress tx transactionHash result blockState)

/-- The loop, with what became of every transaction. -/
def processTransactions : List Transaction → UpdatedState →
    List (Transaction × TransactionOutcome) × UpdatedState
  | [], blockState => ([], blockState)
  | tx :: txs, blockState =>
    let (outcome, blockState) := pf.processTransaction db header tx blockState
    let (outcomes, blockState) := processTransactions txs blockState
    ((tx, outcome) :: outcomes, blockState)

/-- `transactions.sort_by_key(|transaction| transaction.nonce)`: transactions of one nonce stay in their
    order. -/
def sortByNonce (transactions : List Transaction) : List Transaction :=
  transactions.insertionSort fun a b => a.nonce ≤ b.nonce

/-- The transactions of a block in the order of execution with their outcomes, and the overlay to be
    committed. -/
def processBlock (block : Block) : List (Transaction × TransactionOutcome) × UpdatedState :=
  pf.processTransactions db block.blockHeader (sortByNonce block.transactions) .new

/-- The events of the transactions that passed. -/
def eventsOf (outcomes : List (Transaction × TransactionOutcome)) : List ExecutionEvent :=
  outcomes.filterMap fun
    | (_, .executed (.ok result)) => result.event
    | _ => none

/-- One round of the loop of `execute_system_block_inner`: no fee is taken. -/
def processSystemTransaction (tx : Transaction) (blockState : UpdatedState) :
    TransactionOutcome × UpdatedState :=
  match Account.addressOf pf.rt.crypto tx.verifyingKey with
  | .error e => (.skipped e, blockState)
  | .ok accountAddress =>
    match tx.transactionHash pf.rt.crypto pf.rt.codec with
    | .error e => (.skipped e, blockState)
    | .ok transactionHash =>
      match (incrementNonce db accountAddress).run blockState with
      | (.error e, _) => (.skipped e, blockState)
      | (.ok (), txState) =>
        let blockState := blockState.merge txState
        let store (result : TransactionResult) (blockState : UpdatedState) :=
          ((storeTransactionMetadata { metadataOf transactionHash result with fee := 0 }).run blockState).2
        match executeTransaction (pf.transactionContext db header accountAddress) tx txState with
        | (.ok result, txState) =>
          (.executed (.ok result), store result (blockState.merge txState))
        | (.error result, _) => (.executed (.error result), store result blockState)

def processSystemTransactions : List Transaction → UpdatedState →
    List (Transaction × TransactionOutcome) × UpdatedState
  | [], blockState => ([], blockState)
  | tx :: txs, blockState =>
    let (outcome, blockState) := pf.processSystemTransaction db header tx blockState
    let (outcomes, blockState) := processSystemTransactions txs blockState
    ((tx, outcome) :: outcomes, blockState)

end Platform

/-- The database and the caches, which a rolled back database transaction does not restore. -/
structure World where
  db : Database
  caches : RuntimeCaches

namespace World

abbrev Op := Fallible World Error

def onState {α : Type} (x : Fallible StateTables Error α) : Op α :=
  zoom (fun w : World => w.db.state) (fun s w => { w with db.state := s }) x

def onChain {α : Type} (x : Fallible ChainTables Error α) : Op α :=
  zoom (fun w : World => w.db.chain) (fun c w => { w with db.chain := c }) x

/-- Put the writes of system contracts into the caches. -/
def applySystemContractsChanges (pf : Platform) (updatedState : UpdatedState)
    (header : BlockHeader) : Op Unit :=
  fun w =>
    let (result, caches) :=
      pf.applySystemContractsChanges w.caches w.db.state updatedState header
    (result, { w with caches })

/-- The end of both inner functions: commit, and mark the block. -/
def commitBlock (updatedState : UpdatedState) (header : BlockHeader) : Op Unit := do
  mapError ("Could not commit Block state, error: " ++ ·) (onState updatedState.commit)
  onChain (update (·.setBlockExecuted header.blockNumber header.clusterAddress))

def executeBlockInner (pf : Platform) (block : Block) : Op (List ExecutionEvent) := do
  let w ← state
  let (outcomes, updatedState) := pf.processBlock w.db.state block
  -- an error here is only logged
  let _ ← (applySystemContractsChanges pf updatedState block.blockHeader).outcome
  commitBlock updatedState block.blockHeader
  pure (Platform.eventsOf outcomes)

def executeSystemBlockInner (pf : Platform) (block : Block) : Op (List ExecutionEvent) := do
  let w ← state
  let (outcomes, updatedState) := pf.processSystemTransactions w.db.state block.blockHeader
    (Platform.sortByNonce block.transactions) .new
  applySystemContractsChanges pf updatedState block.blockHeader
  commitBlock updatedState block.blockHeader
  pure (Platform.eventsOf outcomes)

/-- A database transaction: after an error the tables are what they were. -/
def transaction {α : Type} (x : Op α) : Op α :=
  fun w =>
    match x.run w with
    | (.ok a, w') => (.ok a, w')
    | (.error e, w') => (.error e, { w' with db := w.db })

/-- `ExecuteBlock::execute_block`. -/
def executeBlock (pf : Platform) (block : Block) : Op (List ExecutionEvent) := do
  let w ← state
  if w.db.chain.isBlockExecuted block.blockHeader.blockNumber block.blockHeader.clusterAddress then
    pure []
  else
    transaction
      (if block.isSystemBlock then executeSystemBlockInner pf block else executeBlockInner pf block)

/-! ## What execution does to the chain -/

variable {pf : Platform} {block : Block} {w w' : World} {x : Op α}

theorem applySystemContractsChanges_db :
    Moves (fun w w' : World => w'.db = w.db) (applySystemContractsChanges pf updatedState header) :=
  fun _ => rfl

/-- What a successful execution returns and leaves behind. -/
structure Finished (outcomes : List (Transaction × TransactionOutcome)) (updatedState : UpdatedState)
    (header : BlockHeader) (w : World) (events : List ExecutionEvent) (w' : World) : Prop where
  events : events = Platform.eventsOf outcomes
  state : updatedState.commit.run w.db.state = (.ok (), w'.db.state)
  chain : w'.db.chain = w.db.chain.setBlockExecuted header.blockNumber header.clusterAddress

/-- The end that both kinds of blocks share: the caches, the commit and the events. -/
theorem run_commitBlock_ok (hx : Moves (fun w w' : World => w'.db = w.db) x)
    {outcomes : List (Transaction × TransactionOutcome)} (h : (do
      let _ ← x
      commitBlock updatedState header
      pure (Platform.eventsOf outcomes) : Op (List ExecutionEvent)).run w = (.ok events, w')) :
    Finished outcomes updatedState header w events w' := by
  obtain ⟨_, w₁, hcaches, h⟩ := run_bind_ok h
  have hdb : w₁.db = w.db := hx.of_run hcaches
  obtain ⟨⟨⟩, w₂, hcommit, h⟩ := run_bind_ok h
  cases h
  -- the commit writes the overlay and marks the block
  obtain ⟨_, w₃, hcommit, hmark⟩ := run_bind_ok hcommit
  obtain ⟨tables, htables, rfl⟩ := run_zoom_ok (run_mapError_ok hcommit)
  cases hmark
  refine ⟨rfl, ?_, ?_⟩
  · rw [← hdb]
    exact htables
  · rw [← hdb]
    rfl

theorem executeBlockInner_ok (h : (executeBlockInner pf block).run w = (.ok events, w')) :
    Finished (pf.processBlock w.db.state block).1 (pf.processBlock w.db.state block).2
      block.blockHeader w events w' := by
  rw [executeBlockInner, run_bind_of_ok (run_state w)] at h
  exact run_commitBlock_ok applySystemContractsChanges_db.outcome h

theorem executeSystemBlockInner_ok (h : (executeSystemBlockInner pf block).run w = (.ok events, w')) :
    let processed := pf.processSystemTransactions w.db.state block.blockHeader
      (Platform.sortByNonce block.transactions) .new
    Finished processed.1 processed.2 block.blockHeader w events w' := by
  exact run_commitBlock_ok applySystemContractsChanges_db h

/-- A database transaction: the successful run of what is inside, or the tables as they were. -/
theorem run_transaction {r : Except Error α} (h : (transaction x).run w = (r, w')) :
    (∃ a, r = .ok a ∧ x.run w = (.ok a, w')) ∨ (∃ e, r = .error e) ∧ w'.db = w.db := by
  rcases hrun : x.run w with ⟨e | a, w₁⟩ <;>
    simp only [transaction, run] at h hrun <;> rw [hrun] at h <;> cases h
  · exact .inr ⟨⟨e, rfl⟩, rfl⟩
  · exact .inl ⟨a, rfl, rfl⟩

/-- **All that `execute_block` does to the chain is to mark the block.** It leaves the chain alone when it
    fails or when the block was executed before. -/
theorem executeBlock_chain {r : Except Error (List ExecutionEvent)}
    (h : (executeBlock pf block).run w = (r, w')) :
    (w'.db.chain = w.db.chain ∧ ((∃ events, r = .ok events) →
        w.db.chain.isBlockExecuted block.blockHeader.blockNumber block.blockHeader.clusterAddress = true)) ∨
      w'.db.chain = w.db.chain.setBlockExecuted block.blockHeader.blockNumber
        block.blockHeader.clusterAddress := by
  rw [executeBlock, run_bind_of_ok (run_state w)] at h
  split at h
  · next hexecuted =>
      cases h
      exact .inl ⟨rfl, fun _ => hexecuted⟩
  · rcases run_transaction h with ⟨events, -, hinner⟩ | ⟨⟨e, rfl⟩, hdb⟩
    · split at hinner
      · exact .inr (executeSystemBlockInner_ok hinner).chain
      · exact .inr (executeBlockInner_ok hinner).chain
    · exact .inl ⟨by rw [hdb], by rintro ⟨events, hok⟩; cases hok⟩

theorem executeBlock_chain_cases :
    ((executeBlock pf block).run w).2.db.chain = w.db.chain ∨ ((executeBlock pf block).run w).2.db.chain =
        w.db.chain.setBlockExecuted block.blockHeader.blockNumber block.blockHeader.clusterAddress := by
  rcases hrun : (executeBlock pf block).run w with ⟨r, w'⟩
  exact (executeBlock_chain hrun).imp_left And.left

end World

/-- The small runtime without system contracts. Nothing can be deployed; a contract that is there counts one
    creation when it is called and pays its caller a token. -/
def Small.platform : Platform where
  rt := Small.runtime
  executor :=
    { executeContractDeployment := fun _ _ _ _ _ _ _ _ => (.error "no engine", [])
      executeContractInit := fun _ _ _ _ _ _ _ => (.error "no engine", [])
      executeContractFunctionCall := fun _ _ cx _ contractInstance _ _ _ _ =>
        ((.exit .succeed [], 0), [.incrementNonce contractInstance.instanceAddress,
          .transfer contractInstance.instanceAddress cx.accountAddress 1]) }
  applySystemContractsChanges := fun caches _ _ _ => (.ok (), caches)

end L1xCore
