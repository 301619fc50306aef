import L1xCore.Db.StateTables
import L1xCore.System.Block
import Mathlib.Data.Rat.Defs

/-!
# `Db.ChainTables` — the tables of the chain itself

Headers, the head of each cluster, the execution marks, validators, proposers and vote results, with the
queries of the `state_pg` modules. Most inserts do nothing on a duplicate key; a row of a proposer has no key
and is added again. A query without an order may return **any** of the matching rows (`RowChoice`).
-/

namespace L1xCore

variable {t' : ChainTables}

/-- A member of the validator set of an epoch. The score is a decimal column. -/
structure Validator where
  address : Address
  clusterAddress : Address
  epoch : Epoch
  stake : Balance
  xscore : ℚ
  deriving DecidableEq

/-- What a row keeps of a validator besides its key. -/
structure ValidatorRow where
  clusterAddress : Address
  stake : Balance
  xscore : ℚ
  deriving DecidableEq

structure BlockProposer where
  clusterAddress : Address
  epoch : Epoch
  address : Address
  deriving DecidableEq, Repr

/-- The row a `LIMIT 1` query picks: one of the matching rows, if there is any. -/
structure RowChoice where
  pick : List BlockProposer → Option BlockProposer
  mem_of_pick : ∀ {rows p}, pick rows = some p → p ∈ rows
  eq_nil_of_pick : ∀ {rows}, pick rows = none → rows = []

structure ChainTables where
  blockHeader : Table BlockNumber BlockHeader
  blockHead : Table Address (BlockNumber × BlockHash)
  /-- `block_executed`, by cluster and block number. -/
  blockMetaInfo : Table (Address × BlockNumber) Bool
  validator : Table (Address × Epoch) ValidatorRow
  /-- The migrations create the table with a key and drop it later: a row may be there twice. -/
  blockProposer : List BlockProposer
  /-- By block hash and validator address. -/
  voteResult : Table (BlockHash × Address) VoteResult

namespace ChainTables

open Fallible

def empty : ChainTables := ⟨∅, ∅, ∅, ∅, [], ∅⟩

/-- A write to the tables that may fail. -/
abbrev Write := Fallible ChainTables Error Unit

variable (t : ChainTables)

/-! ## Blocks -/

/-- What is read back from a column: a value that does not fit is stored as `0`. -/
def column {w : Nat} (fits : BitVec w → Bool) (x : BitVec w) : BitVec w := if fits x then x else 0

/-- `i32::MAX` is the largest version. -/
def fitsVersion (blockVersion : BitVec 32) : Bool := blockVersion.toNat < 2 ^ 31

/-- `i64::MAX` is the largest epoch. -/
def fitsEpoch (epoch : Epoch) : Bool := epoch.toNat < 2 ^ 63

/-- The seconds, as an `i64`, of the years -262143 to 262142, which are those of `NaiveDateTime`. -/
def fitsTimestamp (timestamp : BlockTimeStamp) : Bool :=
  -8334601228800 ≤ timestamp.toInt ∧ timestamp.toInt ≤ 8210266876799

/-- What the columns keep of a header. -/
def headerColumns (header : BlockHeader) : BlockHeader :=
  { header with
    timestamp := column fitsTimestamp header.timestamp
    blockVersion := column fitsVersion header.blockVersion
    epoch := column fitsEpoch header.epoch }

def storeBlockHeader (header : BlockHeader) : ChainTables :=
  { t with blockHeader := t.blockHeader.upsert header.blockNumber id (headerColumns header) }

/-- The head of a cluster; block `0` when there is none. -/
def loadChainState (clusterAddress : Address) : BlockNumber × BlockHash :=
  (t.blockHead.lookup clusterAddress).getD (0, 0)

/-- Headers are looked up by number alone. -/
def loadBlockHeader (blockNumber : BlockNumber) : Except Error BlockHeader :=
  match t.blockHeader.lookup blockNumber with
  | some header => .ok header
  | none => .error s!"No matching records found for block #{blockNumber.toNat}"

def blockHeadHeader (clusterAddress : Address) : Except Error BlockHeader :=
  t.loadBlockHeader (t.loadChainState clusterAddress).1

def isBlockHeaderStored (blockNumber : BlockNumber) : Bool :=
  (t.blockHeader.lookup blockNumber).isSome

/-- The head moves on when the block is its successor. -/
def updateHead (header : BlockHeader) : ChainTables :=
  if (t.loadChainState header.clusterAddress).1 = header.blockNumber - 1 then
    { t with
      blockHead := t.blockHead.insert header.clusterAddress (header.blockNumber, header.blockHash) }
  else t

/-- `store_block`. -/
def storeBlock (block : Block) : ChainTables :=
  let t := (t.storeBlockHeader block.blockHeader).updateHead block.blockHeader
  { t with
    blockMetaInfo := t.blockMetaInfo.upsert
      (block.blockHeader.clusterAddress, block.blockHeader.blockNumber) id false }

def isBlockExecuted (blockNumber : BlockNumber) (clusterAddress : Address) : Bool :=
  (t.blockMetaInfo.lookup (clusterAddress, blockNumber)).getD false

/-- `UPDATE block_meta_info`; no row, no effect. -/
def setBlockExecuted (blockNumber : BlockNumber) (clusterAddress : Address) : ChainTables :=
  match t.blockMetaInfo.lookup (clusterAddress, blockNumber) with
  | some _ => { t with blockMetaInfo := t.blockMetaInfo.insert (clusterAddress, blockNumber) true }
  | none => t

/-! ## Validators -/

/-- The validator of a row. -/
def validatorOf (key : Address × Epoch) (row : ValidatorRow) : Validator :=
  { address := key.1, clusterAddress := row.clusterAddress, epoch := key.2, stake := row.stake,
    xscore := row.xscore }

/-- None when no validator is stored for the epoch. -/
def loadAllValidators (epoch : Epoch) : Option (List Validator) :=
  match (t.validator.entries.filter (·.1.2 = epoch)).map (fun row => validatorOf row.1 row.2) with
  | [] => none
  | validators => some validators

def isValidator (address : Address) (epoch : Epoch) : Bool :=
  (t.validator.lookup (address, epoch)).isSome

/-- `ON CONFLICT DO NOTHING`. -/
def batchStoreValidators (validators : List Validator) : ChainTables :=
  { t with
    validator := validators.foldl
      (fun table v => table.upsert (v.address, v.epoch) id ⟨v.clusterAddress, v.stake, v.xscore⟩)
      t.validator }

/-! ## Proposers -/

/-- A plain `INSERT`. -/
def storeBlockProposer (proposer : BlockProposer) : Write :=
  update fun t => { t with blockProposer := t.blockProposer ++ [proposer] }

def storeBlockProposers (blockProposers : List (Address × List (Epoch × Address))) : Write :=
  forEach blockProposers fun cluster =>
    forEach cluster.2 fun row => storeBlockProposer ⟨cluster.1, row.1, row.2⟩

/-- No matching row is an error. -/
def loadBlockProposer (choice : RowChoice) (clusterAddress : Address) (epoch : Epoch) :
    Except Error BlockProposer :=
  match choice.pick
      (t.blockProposer.filter fun p => p.clusterAddress = clusterAddress ∧ p.epoch = epoch) with
  | some proposer => .ok proposer
  | none => .error "Diesel query failed: Record not found"

def isBlockProposer (choice : RowChoice) (proposer : BlockProposer) : Except Error Bool := do
  let loaded ← t.loadBlockProposer choice proposer.clusterAddress proposer.epoch
  pure (decide (loaded = proposer))

/-! ## Vote results -/

/-- A vote result without votes cannot be stored; a second one of the same validator is ignored. -/
def storeVoteResult (voteResult : VoteResult) : Write :=
  match voteResult.data.votes with
  | [] => fail "Unable to fetch epoch in vote"
  | _ :: _ =>
    update fun t =>
      { t with
        voteResult := t.voteResult.upsert
          (voteResult.data.blockHash, voteResult.validatorAddress) id voteResult }

/-- The first vote result of the block. -/
def loadVoteResult (blockHash : BlockHash) : Except Error VoteResult :=
  match t.voteResult.entries.find? (fun row => row.1.1 = blockHash) with
  | some row => .ok row.2
  | none => .error "Diesel query failed: Record not found"

/-! ## What writes keep -/

section

variable {t} (block : Block) (number : BlockNumber) (cluster : Address) (header : BlockHeader)
  (voteResult : VoteResult)

/-- The tables of blocks are the same. -/
structure SameBlocks (t t' : ChainTables) : Prop where
  blockHeader : t'.blockHeader = t.blockHeader
  blockHead : t'.blockHead = t.blockHead
  blockMetaInfo : t'.blockMetaInfo = t.blockMetaInfo

instance : Std.Refl SameBlocks := ⟨fun _ => ⟨rfl, rfl, rfl⟩⟩

instance : IsTrans ChainTables SameBlocks :=
  ⟨fun _ _ _ h₁ h₂ => ⟨h₂.blockHeader.trans h₁.blockHeader, h₂.blockHead.trans h₁.blockHead,
    h₂.blockMetaInfo.trans h₁.blockMetaInfo⟩⟩

theorem storeBlockProposer_sameBlocks {proposer : BlockProposer} :
    Moves SameBlocks (storeBlockProposer proposer) :=
  .update fun _ => ⟨rfl, rfl, rfl⟩

theorem storeBlockProposers_sameBlocks {blockProposers : List (Address × List (Epoch × Address))} :
    Moves SameBlocks (storeBlockProposers blockProposers) :=
  .forEach (fun _ => .forEach (fun _ => storeBlockProposer_sameBlocks) _) _

theorem storeVoteResult_sameBlocks : Moves SameBlocks (storeVoteResult voteResult) := by
  unfold storeVoteResult
  split
  · exact .fail _
  · exact .update fun _ => ⟨rfl, rfl, rfl⟩

theorem SameBlocks.isBlockExecuted (h : SameBlocks t t') (number : BlockNumber) (cluster : Address) :
    t'.isBlockExecuted number cluster = t.isBlockExecuted number cluster := by
  rw [ChainTables.isBlockExecuted, ChainTables.isBlockExecuted, h.blockMetaInfo]

theorem updateHead_blockHeader : (t.updateHead header).blockHeader = t.blockHeader := by
  unfold updateHead
  split <;> rfl

theorem updateHead_blockMetaInfo : (t.updateHead header).blockMetaInfo = t.blockMetaInfo := by
  unfold updateHead
  split <;> rfl

/-- Storing a block gives it a header and a mark; those that are there stay as they are. -/
theorem lookup_blockHeader_storeBlock :
    (t.storeBlock block).blockHeader.lookup number =
      if number = block.blockHeader.blockNumber then
        some ((t.blockHeader.lookup block.blockHeader.blockNumber).getD (headerColumns block.blockHeader))
      else t.blockHeader.lookup number := by
  have hheaders : (t.storeBlock block).blockHeader = (t.storeBlockHeader block.blockHeader).blockHeader :=
    updateHead_blockHeader _
  rw [hheaders, storeBlockHeader, AList.lookup_upsert]
  cases t.blockHeader.lookup block.blockHeader.blockNumber <;> rfl

theorem lookup_blockMetaInfo_storeBlock (key : Address × BlockNumber) :
    (t.storeBlock block).blockMetaInfo.lookup key =
      if key = (block.blockHeader.clusterAddress, block.blockHeader.blockNumber) then
        some ((t.blockMetaInfo.lookup
          (block.blockHeader.clusterAddress, block.blockHeader.blockNumber)).getD false)
      else t.blockMetaInfo.lookup key := by
  have hmarks : ((t.storeBlockHeader block.blockHeader).updateHead block.blockHeader).blockMetaInfo =
      t.blockMetaInfo := updateHead_blockMetaInfo _
  rw [storeBlock, AList.lookup_upsert, hmarks]
  cases t.blockMetaInfo.lookup
    (block.blockHeader.clusterAddress, block.blockHeader.blockNumber) <;> rfl

theorem isBlockExecuted_storeBlock :
    (t.storeBlock block).isBlockExecuted number cluster = t.isBlockExecuted number cluster := by
  rw [isBlockExecuted, lookup_blockMetaInfo_storeBlock]
  split
  · next hkey => rw [← hkey]; rfl
  · rfl

theorem isBlockExecuted_setBlockExecuted (number' : BlockNumber) (cluster' : Address) :
    (t.setBlockExecuted number cluster).isBlockExecuted number' cluster' =
      if (cluster', number') = (cluster, number) ∧ (t.blockMetaInfo.lookup (cluster, number)).isSome then
        true
      else t.isBlockExecuted number' cluster' := by
  unfold setBlockExecuted isBlockExecuted
  cases hmark : t.blockMetaInfo.lookup (cluster, number) with
  | none => simp
  | some mark =>
    simp only [AList.lookup_insert_ite, Option.isSome_some, and_true]
    split <;> rfl

theorem SameBlocks.isBlockHeaderStored (h : SameBlocks t t') (number : BlockNumber) :
    t'.isBlockHeaderStored number = t.isBlockHeaderStored number := by
  rw [ChainTables.isBlockHeaderStored, ChainTables.isBlockHeaderStored, h.blockHeader]

theorem isBlockHeaderStored_storeBlock :
    (t.storeBlock block).isBlockHeaderStored number =
      (decide (number = block.blockHeader.blockNumber) || t.isBlockHeaderStored number) := by
  rw [isBlockHeaderStored, lookup_blockHeader_storeBlock, isBlockHeaderStored]
  split
  · next hnumber => simp [hnumber]
  · next hnumber => simp [hnumber]

theorem isBlockHeaderStored_storeBlock_self :
    (t.storeBlock block).isBlockHeaderStored block.blockHeader.blockNumber = true := by
  rw [isBlockHeaderStored_storeBlock, decide_eq_true rfl, Bool.true_or]

theorem setBlockExecuted_blockHeader : (t.setBlockExecuted number cluster).blockHeader = t.blockHeader := by
  unfold setBlockExecuted
  split <;> rfl

/-! The proposers are not touched by writes to the other tables. -/

theorem storeBlock_blockProposer : (t.storeBlock block).blockProposer = t.blockProposer := by
  unfold storeBlock updateHead
  split <;> rfl

theorem setBlockExecuted_blockProposer :
    (t.setBlockExecuted number cluster).blockProposer = t.blockProposer := by
  unfold setBlockExecuted
  split <;> rfl

theorem storeVoteResult_blockProposer :
    Moves (fun t t' => t'.blockProposer = t.blockProposer) (storeVoteResult voteResult) := by
  intro t
  unfold storeVoteResult
  split <;> rfl

end

end ChainTables

/-- The whole database. -/
structure Database where
  state : StateTables
  chain : ChainTables

end L1xCore
