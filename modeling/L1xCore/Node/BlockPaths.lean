import L1xCore.Consensus.Handlers
import L1xCore.Execute.Replay

/-!
# `Node.BlockPaths` — the three ways to `execute_block`

A block of a peer is executed by `receive_block`, by the finalisation of a pending block, or by `execute_blocks`
of the sync (`node/src/sync.rs`). All three end in `ExecuteBlock::execute_block`, which goes by the type in
the header: the transactions of a system block are executed without a fee. Only a **proposed** block is asked
for its type. On the other two paths a system block is accepted with anybody's transactions.

Each path is followed up to the call of `execute_block` (`upToExecution`, which `run_follow` relates to the
whole of it).
-/

namespace L1xCore

open Fallible World Platform Except

variable {w : World} {path : BlockPath}

/-! ## Sync -/

/-- `ON CONFLICT DO NOTHING`. -/
def StateTables.createAccount (acc : Account) : Write :=
  Fallible.update fun db =>
    { db with
      account := db.account.upsert acc.address id ⟨acc.accountType, acc.balance, acc.nonce⟩ }

def PROTOCOL_VERSION : BitVec 32 := 3

/-- The owner of the system contracts gets an account before its first block. -/
def StateTables.createOwner (block : Block) : Write := do
  let db ← Fallible.state
  if PROTOCOL_VERSION = 3 ∧ block.isSystemBlock = true ∧ db.isValidAccount SYSTEM_CONTRACTS_OWNER = false then
    createAccount ⟨SYSTEM_CONTRACTS_OWNER, 0, 0, .system⟩
  else pure ()

namespace Node

variable (n : Node)

/-- What `execute_blocks` checks of a transaction of a stored block. -/
def validateStoredTx (w : World) (block : Block) (tx : Transaction) : Except Error Unit := do
  let sender ← Account.addressOf n.platform.rt.crypto tx.verifyingKey
  if (block.isSystemBlock = true ∧ sender = SYSTEM_CONTRACTS_OWNER) ∨ sender = SYSTEM_REWARDS_DISTRIBUTOR
  then pure ()
  else n.validate.validateTx w.db.state w.caches tx sender

/-- A round of `execute_blocks` up to the execution, for the block that `load_block` returned. -/
def prepareStored (blockNumber : BlockNumber) (block : Block) : Op Unit := do
  let s ← state
  lift (block.transactions.forM (n.validateStoredTx s.world block))
  if 1 < blockNumber ∧ s.world.db.chain.isBlockExecuted (blockNumber - 1) n.clusterAddress = false then
    fail s!"The parent block #{(blockNumber - 1).toNat} has not been executed"
  else onWorld (onState (StateTables.createOwner block))

/-- A round of `execute_blocks`. -/
def executeStoredBlock (blockNumber : BlockNumber) (block : Block) : Op Unit := do
  n.prepareStored blockNumber block
  n.executeBlock block

/-- `execute_blocks`, with the blocks that `load_block` finds once they are stored. -/
def executeBlocks (loadBlock : BlockNumber → Block) (startExecuteBlockNumber chainHeight : BlockNumber) :
    Op Unit :=
  let numbers := List.range' startExecuteBlockNumber.toNat
    (chainHeight.toNat + 1 - startExecuteBlockNumber.toNat)
  forEach numbers fun number =>
    n.executeStoredBlock (BitVec.ofNat 128 number) (loadBlock (BitVec.ofNat 128 number))

end Node

/-! ## The paths -/

/-- A path of a block to its execution: the answer to a query, a pending block, or a round of the sync. -/
inductive BlockPath where
  | receiveBlock (payload : BlockPayload) (voteResult : Option VoteResult)
  | tryToFinalize (entry : PendingBlock)
  | executeBlocks (blockNumber : BlockNumber) (block : Block)

namespace Node

variable (n : Node) (choice : RowChoice)

def follow : BlockPath → Op Unit
  | .receiveBlock payload voteResult => n.receiveBlock choice payload voteResult
  | .tryToFinalize entry => n.tryToFinalizeBlock choice entry
  | .executeBlocks blockNumber block => n.executeStoredBlock blockNumber block

/-- `receive_block` up to the call of `execute_block`: the block of that call, or none if there is no call. -/
def receiveUpToExecution (payload : BlockPayload) (voteResult : Option VoteResult) : Op (Option Block) :=
  n.ifReceivable payload none do
    storeBlock payload.block
    n.storeReceivedVoteResult payload.block voteResult
    pure (some payload.block)

/-- `PendingBlock::try_to_finalize` up to that call. -/
def finalizeUpToExecution (entry : PendingBlock) : Op (Option Block) :=
  match entry.block with
  | none => fail "Block is not set"
  | some payload => do
    let voteResult ← n.passedVoteResult choice entry payload
    n.rollover payload.block.blockHeader
    onChain (ChainTables.storeVoteResult voteResult)
    storeBlock payload.block
    pure (some payload.block)

/-- A path up to the call of `execute_block`. -/
def upToExecution : BlockPath → Op (Option Block)
  | .receiveBlock payload voteResult => n.receiveUpToExecution payload voteResult
  | .tryToFinalize entry => n.finalizeUpToExecution choice entry
  | .executeBlocks blockNumber block => do
    n.prepareStored blockNumber block
    pure (some block)

/-- What comes after the call. -/
def afterExecution : BlockPath → Op Unit
  | .receiveBlock .. => n.tryToFinalize choice
  | _ => pure ()

/-- The rest of a path at the call of `execute_block`. -/
def execute (path : BlockPath) : Option Block → Op Unit
  | none => pure ()
  | some block => do
    n.executeBlock block
    n.afterExecution choice path

/-- **A path is what comes before the call of `execute_block`, and the call.** -/
theorem run_follow {s : NodeState} :
    (n.follow choice path).run s = (n.upToExecution choice path >>= n.execute choice path).run s := by
  cases path with
  | receiveBlock payload voteResult =>
    simp only [follow, receiveBlock, ifReceivable, executeReceivedBlock, upToExecution, receiveUpToExecution,
      bind_bind]
    rw [run_bind_of_ok (run_state s), run_bind_of_ok (run_state s)]
    by_cases hexecuted : s.world.db.chain.isBlockExecuted payload.block.blockHeader.blockNumber
        n.clusterAddress = true
    · rw [if_pos hexecuted, if_pos hexecuted]
      rfl
    · rw [if_neg hexecuted, if_neg hexecuted]
      cases n.validate.validateBlock s.world payload n.clusterAddress payload.sender with
      | error e => rfl
      | ok u =>
        simp only [bind_bind]
        rfl
  | tryToFinalize entry =>
    simp only [follow, tryToFinalizeBlock, upToExecution, finalizeUpToExecution]
    cases entry.block with
    | none => rfl
    | some payload =>
      apply congrArg (run · s)
      simp only [finish, bind_bind]
      refine bind_congr fun voteResult => bind_congr fun _ => bind_congr fun _ => bind_congr fun _ => ?_
      exact bind_pure_eq.symm
  | executeBlocks blockNumber block =>
    simp only [follow, executeStoredBlock, upToExecution, bind_bind]
    exact congrArg (run · s) (bind_congr fun _ => bind_pure_eq.symm)

end Node

/-! ## What a system block executes -/

namespace Platform

variable (pf : Platform) (db : StateTables) (header : BlockHeader)

/-- The transaction is one of the owner of the system contracts. -/
def OfOwner (tx : Transaction) : Prop :=
  Account.addressOf pf.rt.crypto tx.verifyingKey = .ok SYSTEM_CONTRACTS_OWNER

instance (tx : Transaction) : Decidable (pf.OfOwner tx) :=
  inferInstanceAs (Decidable (Account.addressOf pf.rt.crypto tx.verifyingKey = .ok SYSTEM_CONTRACTS_OWNER))

/-- The sender has an account in the overlay whose nonce can still go up, and the transaction has a hash. -/
def CanStart (tx : Transaction) (blockState : UpdatedState) : Prop :=
  ∃ sender, Account.addressOf pf.rt.crypto tx.verifyingKey = .ok sender ∧
    (∃ hash, tx.transactionHash pf.rt.crypto pf.rt.codec = .ok hash) ∧
    ((blockState.view db).incrementNonce sender).isSome

/-- Nobody but the owner can start a transaction of the list, even after the owner's transactions before
    it. -/
def OnlyOwnerStarts : List Transaction → UpdatedState → Prop
  | [], _ => True
  | tx :: txs, blockState =>
    if pf.OfOwner tx then OnlyOwnerStarts txs (pf.processSystemTransaction db header tx blockState).2
    else ¬ pf.CanStart db tx blockState ∧ OnlyOwnerStarts txs blockState

variable {pf db header} {tx : Transaction} {blockState : UpdatedState}

/-- A transaction of a system block that can start is executed. -/
theorem executed_of_canStart (h : pf.CanStart db tx blockState) :
    ∃ result, (pf.processSystemTransaction db header tx blockState).1 = .executed result := by
  obtain ⟨sender, hsender, ⟨hash, hhash⟩, hnonce⟩ := h
  obtain ⟨st, hst⟩ := Option.isSome_iff_exists.mp hnonce
  obtain ⟨txState, hrun, -⟩ := UpdatedState.incrementNonce_transacts.defined hst
  unfold processSystemTransaction
  rw [hsender]
  dsimp only
  rw [hhash]
  rw [hrun]
  dsimp only
  rcases executeTransaction (pf.transactionContext db header sender) tx txState with ⟨e | result, s'⟩
  · exact ⟨_, rfl⟩
  · exact ⟨_, rfl⟩

/-- One that cannot is skipped, and leaves nothing behind. -/
theorem skipped_of_not_canStart (h : ¬ pf.CanStart db tx blockState) :
    ∃ e, pf.processSystemTransaction db header tx blockState = (.skipped e, blockState) := by
  unfold processSystemTransaction
  cases hsender : Account.addressOf pf.rt.crypto tx.verifyingKey with
  | error e => exact ⟨e, rfl⟩
  | ok sender =>
    dsimp only
    cases hhash : tx.transactionHash pf.rt.crypto pf.rt.codec with
    | error e => exact ⟨e, rfl⟩
    | ok hash =>
      have hnone : (blockState.view db).incrementNonce sender = none := by
        by_contra hsome
        exact h ⟨sender, hsender, ⟨hash, hhash⟩, Option.isSome_iff_ne_none.mpr hsome⟩
      obtain ⟨e, s', hrun, -⟩ := UpdatedState.incrementNonce_transacts.undefined hnone
      rw [hrun]
      exact ⟨e, rfl⟩

/-- **Only the owner's transactions are executed exactly if nobody else's can start.** -/
theorem onlyOwner_executed_iff (txs : List Transaction) (blockState : UpdatedState) :
    (∀ tx result, (tx, .executed result) ∈
        (pf.processSystemTransactions db header txs blockState).1 → pf.OfOwner tx) ↔
      pf.OnlyOwnerStarts db header txs blockState := by
  induction txs generalizing blockState with
  | nil =>
    refine iff_of_true (fun tx result hmem => ?_) trivial
    cases hmem
  | cons tx txs ih =>
    rw [OnlyOwnerStarts]
    by_cases howner : pf.OfOwner tx
    · rw [if_pos howner, ← ih]
      constructor
      · intro hall other result hmem
        exact hall other result (List.mem_cons_of_mem _ hmem)
      · intro hrest other result hmem
        rcases List.mem_cons.mp hmem with heq | hmem
        · rw [(Prod.mk.inj heq).1]
          exact howner
        · exact hrest other result hmem
    · rw [if_neg howner, ← ih]
      by_cases hstart : pf.CanStart db tx blockState
      · refine iff_of_false (fun hall => ?_) fun h => h.1 hstart
        obtain ⟨result, hexecuted⟩ : ∃ result,
            (pf.processSystemTransaction db header tx blockState).1 = .executed result :=
          executed_of_canStart hstart
        refine howner (hall tx result ?_)
        rw [processSystemTransactions, ← hexecuted]
        exact List.mem_cons_self
      · obtain ⟨e, hskipped⟩ : ∃ e,
            pf.processSystemTransaction db header tx blockState = (.skipped e, blockState) :=
          skipped_of_not_canStart hstart
        rw [processSystemTransactions, hskipped]
        constructor
        · intro hall
          exact ⟨hstart, fun other result hmem => hall other result (List.mem_cons_of_mem _ hmem)⟩
        · rintro ⟨-, hrest⟩ other result hmem
          rcases List.mem_cons.mp hmem with heq | hmem
          · cases heq
          · exact hrest other result hmem

end Platform

/-- The transaction is executed when `execute_block` is called in this world, and no fee is locked for it. -/
def World.AppliedWithoutFee (pf : Platform) (w : World) (block : Block) (tx : Transaction) : Prop :=
  w.db.chain.isBlockExecuted block.blockHeader.blockNumber block.blockHeader.clusterAddress = false ∧
    block.isSystemBlock = true ∧
    ∃ result, (tx, TransactionOutcome.executed result) ∈
      (pf.processSystemTransactions w.db.state block.blockHeader (sortByNonce block.transactions) .new).1

/-! ## What the paths hand over -/

namespace Node

/-- The tables and the execution marks stay. -/
def KeepsTables (s s' : NodeState) : Prop :=
  s'.world.db.state = s.world.db.state ∧
    ∀ number cluster, s'.chain.isBlockExecuted number cluster = s.chain.isBlockExecuted number cluster

instance : Std.Refl KeepsTables := ⟨fun _ => ⟨rfl, fun _ _ => rfl⟩⟩

instance : IsTrans NodeState KeepsTables :=
  ⟨fun _ _ _ h₁ h₂ => ⟨h₂.1.trans h₁.1, fun number cluster => (h₂.2 number cluster).trans (h₁.2 number cluster)⟩⟩

variable {n : Node} {choice : RowChoice} {s s' : NodeState} {block : Block} {voteResult : Option VoteResult}
  {payload : BlockPayload}

theorem storeBlock_keepsTables : Moves KeepsTables (storeBlock block) := by
  intro s
  exact ⟨rfl, fun number cluster => ChainTables.isBlockExecuted_storeBlock block number cluster⟩

theorem storeReceivedVoteResult_keepsTables :
    Moves KeepsTables (n.storeReceivedVoteResult block voteResult) := by
  cases voteResult with
  | none => exact .pure ()
  | some voteResult =>
    refine .bind (.forEach (fun voteResult => ?_) [voteResult]) fun _ => ?_
    · refine Moves.state.bind fun s => (Moves.lift _).bind fun _ => ?_
      exact .update fun s => ⟨rfl, fun _ _ => rfl⟩
    · intro s
      refine ⟨rfl, fun number cluster => ?_⟩
      exact (ChainTables.storeVoteResult_sameBlocks voteResult s.chain).isBlockExecuted number cluster

/-- An answer to a query is executed in the tables the call started with. -/
theorem receiveUpToExecution_keepsTables : Moves KeepsTables (n.receiveUpToExecution payload voteResult) := by
  refine Moves.state.bind fun s => ?_
  split
  · exact .pure none
  · split
    · exact .pure none
    · refine storeBlock_keepsTables.bind fun _ => ?_
      exact storeReceivedVoteResult_keepsTables.bind fun _ => .pure _

/-- **A pending block that is executed is no system block.** -/
theorem not_isSystemBlock_of_tryToFinalize {entry : PendingBlock}
    (h : (n.finalizeUpToExecution choice entry).run s = (.ok (some block), s')) :
    block.isSystemBlock = false := by
  unfold finalizeUpToExecution at h
  cases hblock : entry.block with
  | none =>
    rw [hblock] at h
    cases h
  | some payload =>
    rw [hblock] at h
    obtain ⟨voteResult, _, hpassed, h⟩ := run_bind_ok h
    obtain ⟨_, _, -, h⟩ := run_bind_ok h
    obtain ⟨_, _, -, h⟩ := run_bind_ok h
    cases h
    obtain ⟨s₀, _, hs, hpassed⟩ := run_bind_ok hpassed
    obtain ⟨⟨validators, votes⟩, _, hchecked, -⟩ := run_bind_ok hpassed
    obtain ⟨hchecked, -⟩ := run_lift_ok hchecked
    obtain ⟨config, -, hchecked⟩ := bind_eq_ok.mp hchecked
    obtain ⟨-, hchecked⟩ := check_eq_ok.mp hchecked
    obtain ⟨voters, -, hchecked⟩ := bind_eq_ok.mp hchecked
    obtain ⟨hproposed, -⟩ := check_eq_ok.mp hchecked
    -- a proposed block is asked for its type
    obtain ⟨_, _, hproposed⟩ := bind_eq_ok.mp hproposed
    obtain ⟨htype, _⟩ := check_eq_ok.mp hproposed
    simpa using ensure_eq_ok.mp htype

/-- The tables a path executes its block in. -/
def tablesOf : BlockPath → StateTables → StateTables
  | .executeBlocks _ block, db => ((StateTables.createOwner block).run db).2
  | _, db => db

/-- The path hands the block to `execute_block` when it starts in this state. -/
def HandsOver (n : Node) (choice : RowChoice) (path : BlockPath) (s : NodeState) (block : Block) : Prop :=
  ((n.upToExecution choice path).run s).1 = .ok (some block)

/-- Only the owner can start a transaction of a system block that the path hands over. Of a pending block this
    need not be asked. -/
def OnlyOwnerOn (n : Node) (choice : RowChoice) : BlockPath → NodeState → Prop
  | .tryToFinalize _, _ => True
  | path, s => ∀ block, n.HandsOver choice path s block →
      s.chain.isBlockExecuted block.blockHeader.blockNumber block.blockHeader.clusterAddress = false →
      block.isSystemBlock = true →
      n.platform.OnlyOwnerStarts (tablesOf path s.world.db.state) block.blockHeader
        (sortByNonce block.transactions) .new

/-- On the paths that may hand over a system block, it is executed in the tables of the path. -/
theorem upToExecution_tables (hsystem : block.isSystemBlock = true)
    (h : (n.upToExecution choice path).run s = (.ok (some block), s')) :
    s'.world.db.state = tablesOf path s.world.db.state ∧
      ∀ number cluster, s'.chain.isBlockExecuted number cluster = s.chain.isBlockExecuted number cluster := by
  cases path with
  | receiveBlock payload voteResult => exact receiveUpToExecution_keepsTables.of_run h
  | tryToFinalize entry =>
    rw [not_isSystemBlock_of_tryToFinalize h] at hsystem
    cases hsystem
  | executeBlocks blockNumber stored =>
    obtain ⟨⟨⟩, s₁, hprepared, h⟩ := run_bind_ok h
    cases h
    obtain ⟨_, _, hs, hprepared⟩ := run_bind_ok hprepared
    cases hs
    obtain ⟨⟨⟩, s₂, hvalid, hprepared⟩ := run_bind_ok hprepared
    obtain ⟨-, rfl⟩ := run_lift_ok hvalid
    split at hprepared
    · cases hprepared
    · obtain ⟨w, hw, rfl⟩ := run_zoom_ok hprepared
      obtain ⟨db, hdb, rfl⟩ := run_zoom_ok hw
      exact ⟨(congrArg Prod.snd hdb).symm, fun _ _ => rfl⟩

theorem onlyOwner_at_call_iff (h : (n.upToExecution choice path).run s = (.ok (some block), s')) :
    (∀ tx, s'.world.AppliedWithoutFee n.platform block tx → n.platform.OfOwner tx) ↔
      (s.chain.isBlockExecuted block.blockHeader.blockNumber block.blockHeader.clusterAddress = false →
        block.isSystemBlock = true →
        n.platform.OnlyOwnerStarts (tablesOf path s.world.db.state) block.blockHeader
          (sortByNonce block.transactions) .new) := by
  constructor
  · intro hall hnew hsystem
    obtain ⟨htables, hmarks⟩ := upToExecution_tables hsystem h
    rw [← htables, ← onlyOwner_executed_iff]
    intro tx result hmem
    refine hall tx ⟨?_, hsystem, result, hmem⟩
    exact (hmarks _ _).trans hnew
  · rintro hidle tx ⟨hnew, hsystem, result, hmem⟩
    obtain ⟨htables, hmarks⟩ := upToExecution_tables hsystem h
    have hstarts := hidle ((hmarks _ _).symm.trans hnew) hsystem
    rw [← htables, ← onlyOwner_executed_iff] at hstarts
    exact hstarts tx result hmem

/-- **The paths on which only the owner executes without a fee.** For every node, state and path, with any
    block of any type and signer: all transactions that are executed without a fee are the owner's exactly if
    the path is that of a pending block, or nobody else can start a transaction of the system block it hands
    over. -/
theorem onlyOwner_without_fee_iff (n : Node) (choice : RowChoice) (path : BlockPath) (s : NodeState) :
    (∀ block s', (n.upToExecution choice path).run s = (.ok (some block), s') →
      ∀ tx, s'.world.AppliedWithoutFee n.platform block tx → n.platform.OfOwner tx) ↔
    n.OnlyOwnerOn choice path s := by
  have hcalls : (∀ block s', (n.upToExecution choice path).run s = (.ok (some block), s') →
      ∀ tx, s'.world.AppliedWithoutFee n.platform block tx → n.platform.OfOwner tx) ↔
      ∀ block, n.HandsOver choice path s block →
        s.chain.isBlockExecuted block.blockHeader.blockNumber block.blockHeader.clusterAddress = false →
        block.isSystemBlock = true →
        n.platform.OnlyOwnerStarts (tablesOf path s.world.db.state) block.blockHeader
          (sortByNonce block.transactions) .new := by
    constructor
    · intro hall block hhands
      exact (onlyOwner_at_call_iff (run_eq_of_fst hhands)).mp (hall block _ (run_eq_of_fst hhands))
    · intro hidle block s' hrun
      exact (onlyOwner_at_call_iff hrun).mpr (hidle block (congrArg Prod.fst hrun))
  cases path with
  | receiveBlock | executeBlocks => exact hcalls
  | tryToFinalize entry =>
    refine iff_of_true (fun block s' hrun tx happlied => ?_) trivial
    have hsystem := happlied.2.1
    rw [not_isSystemBlock_of_tryToFinalize hrun] at hsystem
    cases hsystem

/-- The block after genesis with these transactions, as a system block that the account with address 9 has
    signed. -/
def systemPayload (transactions : List Transaction) : BlockPayload :=
  let payload := proposed transactions
  { payload with
    block := { payload.block with
      blockHeader := { payload.block.blockHeader with blockType := .SystemBlock } } }

/-- The payment can start where the account with address 1 has its four nonces. -/
theorem signedPayment_applied (haccount : w.db.state.store.account 1 = some ⟨1, 100, 4, .user⟩)
    (hnew : w.db.chain.isBlockExecuted 1 0 = false) :
    w.AppliedWithoutFee Small.platform (systemPayload [signedPayment 5]).block (signedPayment 5) := by
  have hstart : Small.platform.CanStart w.db.state (signedPayment 5) .new := by
    refine ⟨1, Small.addressOf_key 1, ⟨_, rfl⟩, ?_⟩
    show (Store.incrementNonce w.db.state.store 1).isSome
    rw [Store.incrementNonce, haccount]
    rfl
  obtain ⟨result, hexecuted⟩ : ∃ result, (Small.platform.processSystemTransaction w.db.state
      (systemPayload [signedPayment 5]).block.blockHeader (signedPayment 5) .new).1 =
        .executed result := executed_of_canStart hstart
  refine ⟨hnew, rfl, result, ?_⟩
  show (_, _) ∈ (Small.platform.processSystemTransactions w.db.state _ [signedPayment 5] .new).1
  rw [processSystemTransactions, ← hexecuted]
  exact List.mem_cons_self

/-- Somebody's payment in a system block: `receive_block` takes it, and so does the sync. -/
theorem systemPayment_without_fee :
    let n := Small.node 2 fun _ => []
    let payload := systemPayload [signedPayment 5]
    ¬ n.platform.OfOwner (signedPayment 5) ∧
    (∃ s', (n.upToExecution .first (.receiveBlock payload none)).run (start afterGenesis) =
        (.ok (some payload.block), s') ∧
      s'.world.AppliedWithoutFee n.platform payload.block (signedPayment 5)) ∧
    ∃ s', (n.upToExecution .first (.executeBlocks 1 payload.block)).run (start afterGenesis) =
        (.ok (some payload.block), s') ∧
      s'.world.AppliedWithoutFee n.platform payload.block (signedPayment 5) := by
  intro n payload
  have hreceived : ((n.upToExecution .first (.receiveBlock payload none)).run
      (start afterGenesis)).1 = .ok (some payload.block) := by decide +kernel
  have hstored : ((n.upToExecution .first (.executeBlocks 1 payload.block)).run
      (start afterGenesis)).1 = .ok (some payload.block) := by decide +kernel
  refine ⟨by decide +kernel, ⟨_, run_eq_of_fst hreceived, ?_⟩, _, run_eq_of_fst hstored, ?_⟩
  · obtain ⟨htables, hmarks⟩ := upToExecution_tables rfl (run_eq_of_fst hreceived)
    refine signedPayment_applied ?_ ((hmarks 1 0).trans rfl)
    rw [htables]
    rfl
  · obtain ⟨htables, hmarks⟩ := upToExecution_tables rfl (run_eq_of_fst hstored)
    refine signedPayment_applied ?_ ((hmarks 1 0).trans rfl)
    rw [htables]
    rfl

end Node

end L1xCore
