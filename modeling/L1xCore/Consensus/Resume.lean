import L1xCore.Consensus.ChecksAgain
import L1xCore.Consensus.Reelection

/-!
# `Consensus.Resume` — writing a block over what an earlier attempt has left

Every statement that writes the vote result, the block and its mark leaves a row alone that is there already.
So a write that follows an attempt which was stopped on the way fills in what is missing, and ends with the
block stored and executed as if nothing had happened (`write_again`). This is about the write only: whether a
second attempt gets to it is another question.
-/

namespace L1xCore

open Fallible ChainTables Node BlockTables World

variable {voteResult : VoteResult}

namespace BlockTables

variable {rt : Runtime} {skipped : Option Nat} {txs : List Transaction} {seq : Nat}

/-- The loop over the transactions comes to a row with this hash, not counting the one it skips. -/
def Writes (rt : Runtime) (skipped : Option Nat) (txs : List Transaction) (seq : Nat)
    (transactionHash : TransactionHash) : Prop :=
  ∃ i tx, txs[i]? = some tx ∧ skipped ≠ some (seq + i) ∧ rowHash rt tx = some transactionHash

theorem writes_cons {tx : Transaction} {transactionHash : TransactionHash} :
    Writes rt skipped (tx :: txs) seq transactionHash ↔
      (skipped ≠ some seq ∧ rowHash rt tx = some transactionHash) ∨
        Writes rt skipped txs (seq + 1) transactionHash := by
  constructor
  · rintro ⟨i, tx', hget, hskipped, hhash⟩
    cases i with
    | zero =>
      cases hget
      exact .inl ⟨hskipped, hhash⟩
    | succ i =>
      exact .inr ⟨i, tx', hget, by rwa [add_assoc, add_comm 1], hhash⟩
  · rintro (⟨hskipped, hhash⟩ | ⟨i, tx', hget, hskipped, hhash⟩)
    · exact ⟨0, tx, rfl, hskipped, hhash⟩
    · exact ⟨i + 1, tx', hget, by rwa [add_comm i, ← add_assoc], hhash⟩

/-- **The rows after the loop** are those before it and those it comes to. -/
theorem isSome_lookup_storeRows (number : BlockNumber)
    (rows : Table (TransactionHash × BlockNumber) TransactionRow) (key : TransactionHash × BlockNumber) :
    ((storeRows rt number skipped txs seq rows).lookup key).isSome ↔
      (rows.lookup key).isSome ∨ (key.2 = number ∧ Writes rt skipped txs seq key.1) := by
  induction txs generalizing seq rows with
  | nil =>
    have hnone : ¬ Writes rt skipped [] seq key.1 := by
      rintro ⟨i, tx, hget, -⟩
      cases hget
    simp [storeRows, hnone]
  | cons tx txs ih =>
    rw [storeRows, ih, writes_cons]
    -- the row of the first transaction: skipped, without a hash, or at this key or another one
    by_cases hskipped : skipped = some seq
    · simp [hskipped]
    · rw [if_neg hskipped]
      cases hhash : rowHash rt tx with
      | none => simp
      | some transactionHash =>
        rw [Option.elim_some, AList.lookup_upsert]
        by_cases hkey : key = (transactionHash, number)
        · simp [hkey, hskipped]
        · have hother : key.2 = number → transactionHash ≠ key.1 := by
            intro hnumber heq
            exact hkey (Prod.ext heq.symm hnumber)
          rw [if_neg hkey]
          simp only [ne_eq, hskipped, not_false_eq_true, true_and, Option.some.injEq]
          constructor
          · rintro (hrow | ⟨hnumber, hwrites⟩)
            · exact .inl hrow
            · exact .inr ⟨hnumber, .inr hwrites⟩
          · rintro (hrow | ⟨hnumber, heq | hwrites⟩)
            · exact .inl hrow
            · exact absurd heq (hother hnumber)
            · exact .inr ⟨hnumber, hwrites⟩

end BlockTables

namespace ChainTables

variable {t : ChainTables} (block : Block)

/-- The tables with a vote result; one that is there already stays. -/
def addVoteResult (t : ChainTables) (voteResult : VoteResult) : ChainTables :=
  { t with
    voteResult := t.voteResult.upsert (voteResult.data.blockHash, voteResult.validatorAddress) id voteResult }

/-- What is in the tables when the write of a block ends with a fault. -/
def leftBy (t : ChainTables) (block : Block) (voteResult : VoteResult) : Fault → ChainTables
  | .blockHeader => t.addVoteResult voteResult
  | .chainState | .blockHead => (t.addVoteResult voteResult).storeBlockHeader block.blockHeader
  | .blockMetaInfo =>
    ((t.addVoteResult voteResult).storeBlockHeader block.blockHeader).updateHead block.blockHeader
  | .execution => (t.addVoteResult voteResult).storeBlock block
  | _ => t

theorem leftBy_sameCommittees (voteResult : VoteResult) (fault : Fault) :
    SameCommittees t (t.leftBy block voteResult fault) := by
  have hhead : SameCommittees ((t.addVoteResult voteResult).storeBlockHeader block.blockHeader)
      (((t.addVoteResult voteResult).storeBlockHeader block.blockHeader).updateHead block.blockHeader) :=
    updateHead_sameCommittees
  have hblock : SameCommittees (t.addVoteResult voteResult)
      ((t.addVoteResult voteResult).storeBlock block) := storeBlock_sameCommittees block
  cases fault with
  | blockMetaInfo => exact ⟨hhead.validator, hhead.blockProposer⟩
  | execution => exact ⟨hblock.validator, hblock.blockProposer⟩
  | _ => exact ⟨rfl, rfl⟩

/-! Until the head moves. -/

theorem blockHeadHeader_storeBlockHeader {cluster : Address} {last : BlockHeader}
    (h : t.blockHeadHeader cluster = .ok last) (header : BlockHeader) :
    (t.storeBlockHeader header).blockHeadHeader cluster = .ok last := by
  have hlookup : t.blockHeader.lookup (t.loadChainState cluster).1 = some last := by
    unfold blockHeadHeader loadBlockHeader at h
    split at h
    · next found hfound =>
        cases h
        exact hfound
    · cases h
  have hstored : (t.storeBlockHeader header).blockHeader.lookup (t.loadChainState cluster).1 = some last := by
    rw [storeBlockHeader, AList.lookup_upsert]
    split
    · next hnumber =>
        rw [← hnumber, hlookup]
        rfl
    · exact hlookup
  show (t.storeBlockHeader header).loadBlockHeader (t.loadChainState cluster).1 = .ok last
  rw [loadBlockHeader, hstored]

theorem loadVoteResult_addVoteResult {blockHash : BlockHash} (h : voteResult.data.blockHash ≠ blockHash) :
    (t.addVoteResult voteResult).loadVoteResult blockHash = t.loadVoteResult blockHash := by
  have hrows : (t.addVoteResult voteResult).voteResult.entries.filter (fun row => decide (row.1.1 = blockHash)) =
      t.voteResult.entries.filter (fun row => decide (row.1.1 = blockHash)) :=
    AList.filter_entries_upsert (p := fun key : BlockHash × Address => decide (key.1 = blockHash))
      (decide_eq_false h) _ _ _
  unfold loadVoteResult
  rw [← List.head?_filter, ← List.head?_filter, hrows]

end ChainTables

namespace Finalizer

variable {F : Type} {f : Finalizer F} {fault : Option Fault} {block : Block} {voteResult : VoteResult}
  {d d' done : Disk}

/-! ## The write of a block -/

theorem run_execute (f : Finalizer F) (block : Block) (d : Disk) :
    (f.execute none block).run d =
      (((executeBlock f.node.platform block).run d.world).1.map fun _ => (),
        { d with world := ((executeBlock f.node.platform block).run d.world).2 }) := by
  rcases hrun : (executeBlock f.node.platform block).run d.world with ⟨r, w⟩
  have hworld : (Disk.onWorld (executeBlock f.node.platform block)).run d = (r, { d with world := w }) := by
    unfold Disk.onWorld
    rw [run_zoom, hrun]
  unfold execute
  rw [attempt_none]
  cases r with
  | ok events => rw [run_bind_of_ok hworld]; rfl
  | error e => rw [run_bind_of_error hworld]; rfl

theorem run_onChain_storeVoteResult (hvotes : voteResult.data.votes ≠ []) (d : Disk) :
    (Disk.onChain (storeVoteResult voteResult)).run d =
      (.ok (), d.withChain (d.chain.addVoteResult voteResult)) := by
  rw [Disk.run_onChain]
  unfold storeVoteResult
  split
  · next hnil => exact absurd hnil hvotes
  · rfl

theorem run_write (hvotes : voteResult.data.votes ≠ [])
    (h : ∀ statement, Stops block.blockHeader d.chain statement → fault ≠ some statement) :
    (f.write fault block voteResult).run d = (f.execute none block).run
        (f.stored fault block (d.withChain (d.chain.addVoteResult voteResult))) := by
  have hvoteResult := run_onChain_storeVoteResult hvotes d
  have hexecute : f.execute fault block = f.execute none block := by
    unfold execute
    rw [attempt_of_ne (h .execution trivial), attempt_none]
  unfold write
  rw [attempt_of_ne (h .voteResult trivial), run_bind_of_ok hvoteResult, hexecute]
  exact run_bind_of_ok (f.run_storeBlock h)

/-- What is on the disk when the write ends with a fault. -/
def leaves (f : Finalizer F) (block : Block) (voteResult : VoteResult) (fault : Fault) (d : Disk) : Disk :=
  { d.withChain (d.chain.leftBy block voteResult fault) with
    blockTransaction :=
      if fault = .voteResult then d.blockTransaction
      else storeRows f.node.platform.rt block.blockHeader.blockNumber none block.transactions 0
        d.blockTransaction }

/-- **A write that is stopped** leaves behind what was written before. -/
theorem run_write_stops {fault : Fault} (hvotes : voteResult.data.votes ≠ [])
    (h : Stops block.blockHeader d.chain fault) :
    (f.write (some fault) block voteResult).run d =
      (.error "connection closed", f.leaves block voteResult fault d) := by
  have hvoteResult := run_onChain_storeVoteResult hvotes d
  -- each case runs the statements before the one that fails
  cases fault with
  | voteResult => rfl
  | blockHeader | chainState => exact run_bind_of_ok hvoteResult
  | blockHead =>
    refine (run_bind_of_ok hvoteResult).trans (run_bind_of_error ?_)
    refine (run_bind_of_error (x := moveHead (some .blockHead) block.blockHeader) ?_)
    unfold moveHead
    rw [run_bind_of_ok (run_state _)]
    -- neither the vote result nor the header moves the head
    exact congrArg (fun x : Disk.Op Unit => x.run _) (if_pos h)
  | blockMetaInfo =>
    refine (run_bind_of_ok hvoteResult).trans (run_bind_of_error ?_)
    refine run_bind_of_ok (x := moveHead (some .blockMetaInfo) block.blockHeader) (run_moveHead ?_)
    exact fun _ heq => nomatch heq
  | execution =>
    refine (run_bind_of_ok hvoteResult).trans ?_
    have hsame : f.storeBlock (some .execution) block = f.storeBlock none block := rfl
    rw [hsame]
    exact run_bind_of_ok (f.run_storeBlock not_stopped)
  | check | rolloverRead | nodeInfo | validators | proposer | transaction => cases h

/-! ## Two disks -/

/-- A write of the block finds the same on both disks, or what it would write itself. -/
structure Alike (f : Finalizer F) (block : Block) (d d' : Disk) : Prop where
  state : d'.world.db.state = d.world.db.state
  caches : d'.world.caches = d.world.caches
  header : (d'.chain.blockHeader.lookup block.blockHeader.blockNumber).getD (headerColumns block.blockHeader) =
    (d.chain.blockHeader.lookup block.blockHeader.blockNumber).getD (headerColumns block.blockHeader)
  executed : d'.chain.isBlockExecuted block.blockHeader.blockNumber block.blockHeader.clusterAddress =
    d.chain.isBlockExecuted block.blockHeader.blockNumber block.blockHeader.clusterAddress
  rows : ∀ key, let written := key.2 = block.blockHeader.blockNumber ∧
      BlockTables.Writes f.node.platform.rt none block.transactions 0 key.1
    ((d'.blockTransaction.lookup key).isSome ∨ written) ↔ ((d.blockTransaction.lookup key).isSome ∨ written)

/-- The block is stored and executed on both disks, in the same way. -/
structure SameStored (block : Block) (d d' : Disk) : Prop where
  state : d'.world.db.state = d.world.db.state
  caches : d'.world.caches = d.world.caches
  header : d'.chain.blockHeader.lookup block.blockHeader.blockNumber =
    d.chain.blockHeader.lookup block.blockHeader.blockNumber
  rows : ∀ key, (d'.blockTransaction.lookup key).isSome ↔ (d.blockTransaction.lookup key).isSome
  executed : d'.chain.isBlockExecuted block.blockHeader.blockNumber block.blockHeader.clusterAddress = true

theorem alike_leaves (f : Finalizer F) (block : Block) (voteResult : VoteResult) (fault : Fault) (d : Disk) :
    f.Alike block d (f.leaves block voteResult fault d) := by
  have hexecuted : ∀ number cluster, (d.chain.leftBy block voteResult fault).isBlockExecuted number cluster =
      d.chain.isBlockExecuted number cluster := by
    intro number cluster
    cases fault with
    | blockMetaInfo =>
      rw [leftBy, isBlockExecuted, updateHead_blockMetaInfo]
      rfl
    | execution =>
      rw [leftBy, isBlockExecuted_storeBlock]
      rfl
    | _ => rfl
  refine ⟨rfl, rfl, ?_, hexecuted _ _, ?_⟩
  · -- a header that is stored already is not written again
    have hstored : ((d.chain.storeBlockHeader block.blockHeader).blockHeader.lookup
        block.blockHeader.blockNumber).getD (headerColumns block.blockHeader) =
          (d.chain.blockHeader.lookup block.blockHeader.blockNumber).getD (headerColumns block.blockHeader) := by
      rw [storeBlockHeader, AList.lookup_upsert, if_pos rfl]
      cases d.chain.blockHeader.lookup block.blockHeader.blockNumber <;> rfl
    show ((d.chain.leftBy block voteResult fault).blockHeader.lookup _).getD _ = _
    cases fault with
    | chainState | blockHead => exact hstored
    | blockMetaInfo =>
      rw [leftBy, updateHead_blockHeader]
      exact hstored
    | execution =>
      rw [leftBy, lookup_blockHeader_storeBlock, if_pos rfl]
      rfl
    | _ => rfl
  intro key written
  unfold leaves
  split
  · exact .rfl
  · rw [isSome_lookup_storeRows, or_assoc, or_self]

/-- An execution after the block was stored marks it, and keeps its header. -/
theorem executed_of_stored {w : World} {events : List ExecutionEvent}
    (hrun : (executeBlock f.node.platform block).run (f.stored fault block d).world = (.ok events, w)) :
    w.db.chain.blockHeader.lookup block.blockHeader.blockNumber =
        some ((d.chain.blockHeader.lookup block.blockHeader.blockNumber).getD
          (headerColumns block.blockHeader)) ∧
      w.db.chain.isBlockExecuted block.blockHeader.blockNumber block.blockHeader.clusterAddress = true := by
  have hrow : ((f.stored fault block d).world.db.chain.blockMetaInfo.lookup
      (block.blockHeader.clusterAddress, block.blockHeader.blockNumber)).isSome := by
    show ((d.chain.storeBlock block).blockMetaInfo.lookup _).isSome
    rw [lookup_blockMetaInfo_storeBlock, if_pos rfl]
    rfl
  have hmarked := executeBlock_marked hrow hrun
  constructor
  · rw [hmarked.headers.blockHeader]
    show (d.chain.storeBlock block).blockHeader.lookup _ = _
    rw [lookup_blockHeader_storeBlock, if_pos rfl]
  · rw [hmarked.executed, decide_eq_true rfl, Bool.true_or]

/-- The mark of the block is the same in both chains. -/
def SameMark (block : Block) (t t' : ChainTables) : Prop :=
  t'.blockMetaInfo.lookup (block.blockHeader.clusterAddress, block.blockHeader.blockNumber) =
    t.blockMetaInfo.lookup (block.blockHeader.clusterAddress, block.blockHeader.blockNumber)

theorem executeBlock_sameMark {pf : Platform} :
    Related (SameBut (SameMark block)) (executeBlock pf block) (executeBlock pf block)
      (SameBut (SameMark block)) := by
  apply executeBlock_sameBut
  · intro t t' h
    rw [isBlockExecuted, isBlockExecuted, h]
  · intro t t' h
    unfold SameMark at h ⊢
    unfold setBlockExecuted
    rw [h]
    split
    · rw [AList.lookup_insert, AList.lookup_insert]
    · exact h

section

variable (hvotes : voteResult.data.votes ≠ [])

include hvotes

/-- **A write on a disk that is alike** ends as the first one did. -/
theorem write_again (h : f.Alike block d d') (hrun : (f.write none block voteResult).run d = (.ok (), done)) :
    ∃ done', (f.write none block voteResult).run d' = (.ok (), done') ∧ SameStored block done done' := by
  rw [run_write hvotes not_stopped, run_execute] at hrun ⊢
  have hsame : SameBut (SameMark block)
      (f.stored none block (d.withChain (d.chain.addVoteResult voteResult))).world
      (f.stored none block (d'.withChain (d'.chain.addVoteResult voteResult))).world := by
    refine ⟨h.state, ?_, h.caches⟩
    show ((d'.chain.addVoteResult voteResult).storeBlock block).blockMetaInfo.lookup _ =
      ((d.chain.addVoteResult voteResult).storeBlock block).blockMetaInfo.lookup _
    rw [lookup_blockMetaInfo_storeBlock, lookup_blockMetaInfo_storeBlock, if_pos rfl, if_pos rfl]
    exact congrArg some h.executed
  -- both executions see the same state and the same mark, and so they return the same
  obtain ⟨hresult, hworlds⟩ := executeBlock_sameMark _ _ hsame
  rcases hexecute : (executeBlock f.node.platform block).run
    (f.stored none block (d.withChain (d.chain.addVoteResult voteResult))).world with ⟨r, w⟩
  rcases hexecute' : (executeBlock f.node.platform block).run
    (f.stored none block (d'.withChain (d'.chain.addVoteResult voteResult))).world with ⟨r', w'⟩
  rw [hexecute, hexecute'] at hresult hworlds
  rw [hexecute] at hrun
  cases hresult
  cases r with
  | error e => cases hrun
  | ok events =>
    cases hrun
    obtain ⟨hheader, -⟩ := executed_of_stored hexecute
    obtain ⟨hheader', hexecuted⟩ := executed_of_stored hexecute'
    refine ⟨_, rfl, hworlds.state, hworlds.caches, ?_, ?_, hexecuted⟩
    · exact hheader'.trans ((congrArg some h.header).trans hheader.symm)
    · intro key
      show (storeRows _ _ _ _ _ _ |>.lookup key).isSome ↔ (storeRows _ _ _ _ _ _ |>.lookup key).isSome
      rw [isSome_lookup_storeRows, isSome_lookup_storeRows]
      exact h.rows key

end

/-! ## The committees -/

/-- The tables of validators and proposers are the same on both disks. -/
def KeepsCommittees (d d' : Disk) : Prop := SameCommittees d.chain d'.chain

/-- Once the committee is stored, the write leaves it alone. -/
theorem write_keepsCommittees (hvotes : voteResult.data.votes ≠ [])
    (hrun : (f.write none block voteResult).run d = (.ok (), done)) : KeepsCommittees d done := by
  rw [run_write hvotes not_stopped, run_execute] at hrun
  have hstored : SameCommittees (d.chain.addVoteResult voteResult)
      ((d.chain.addVoteResult voteResult).storeBlock block) := storeBlock_sameCommittees block
  have hexecuted := executeBlock_sameCommittees f.node.platform block
    (f.stored none block (d.withChain (d.chain.addVoteResult voteResult))).world
  obtain ⟨-, rfl⟩ := Prod.mk.inj hrun
  exact ⟨hexecuted.validator.trans hstored.validator, hexecuted.blockProposer.trans hstored.blockProposer⟩

/-- What a write leaves behind has the committees it started with. -/
theorem sameElectors_leaves (f : Finalizer F) (block : Block) (voteResult : VoteResult) (fault : Fault)
    (d : Disk) (cluster : Address) (epoch : Epoch) :
    SameElectors cluster epoch d.world (f.leaves block voteResult fault d).world := by
  have hsame : SameCommittees d.chain (f.leaves block voteResult fault d).chain :=
    leftBy_sameCommittees block voteResult fault
  refine ⟨rfl, rfl, ?_, fun address => ?_, ?_⟩
  · show (f.leaves block voteResult fault d).chain.loadAllValidators epoch = d.chain.loadAllValidators epoch
    rw [loadAllValidators, loadAllValidators, hsame.validator]
  · show (f.leaves block voteResult fault d).chain.isValidator address epoch = d.chain.isValidator address epoch
    rw [isValidator, isValidator, hsame.validator]
  · show (f.leaves block voteResult fault d).chain.proposersOf cluster epoch = d.chain.proposersOf cluster epoch
    rw [proposersOf, proposersOf, hsame.blockProposer]

end Finalizer

end L1xCore
