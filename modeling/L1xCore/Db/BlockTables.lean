import L1xCore.Db.ChainTables

/-!
# `Db.BlockTables` — blocks with their transactions

`block/src/state_pg.rs`: `store_block` writes the transactions to a table of their own, keyed by hash and block
number, before the header goes to the tables of the chain. A transaction that cannot be written is only
logged, and one that is there already is not written again. `load_block` puts the block together from the
rows of its number in the order of their sequence; rows of one sequence come in **any** order (`RowOrder`).
-/

namespace L1xCore

open Fallible List AList

variable {key : TransactionHash × BlockNumber} {old : TransactionRow} {number : BlockNumber}
  {txs : List Transaction}

/-- A row of `block_transaction`: what is read back, without the key. -/
structure TransactionRow where
  transaction : Transaction
  txSequence : BitVec 32
  deriving DecidableEq

structure BlockTables where
  chain : ChainTables
  /-- `block_transaction`, by transaction hash and block number. -/
  blockTransaction : Table (TransactionHash × BlockNumber) TransactionRow

/-- The order of the rows of a query: by the sequence, and any order among rows of one sequence. -/
structure RowOrder where
  order : List TransactionRow → List TransactionRow
  perm : ∀ rows, (order rows).Perm rows
  sorted : ∀ rows, (order rows).Pairwise (·.txSequence ≤ ·.txSequence)

/-- The query that leaves rows of one sequence as they are. -/
def RowOrder.stable : RowOrder where
  order rows := rows.insertionSort (·.txSequence ≤ ·.txSequence)
  perm rows := perm_insertionSort _ rows
  sorted rows := by
    have : Std.Total fun a b : TransactionRow => a.txSequence ≤ b.txSequence :=
      ⟨fun a b => BitVec.le_total a.txSequence b.txSequence⟩
    have : IsTrans TransactionRow fun a b => a.txSequence ≤ b.txSequence := ⟨fun _ _ _ => BitVec.le_trans⟩
    exact pairwise_insertionSort _ rows

namespace BlockTables

/-! ## Storing -/

/-- `INSERT ... ON CONFLICT DO NOTHING`. -/
def insertRow (key : TransactionHash × BlockNumber) (row : TransactionRow) (t : BlockTables) : BlockTables :=
  { t with blockTransaction := t.blockTransaction.upsert key id row }

def storeTransaction (rt : Runtime) (blockNumber : BlockNumber) (tx : Transaction) (txSeq : BitVec 32) :
    Fallible BlockTables Error Unit := do
  let transactionHash ← lift (tx.transactionHash rt.crypto rt.codec)
  let _ ← lift (Account.addressOf rt.crypto tx.verifyingKey)
  update (insertRow (transactionHash, blockNumber) ⟨tx, txSeq⟩)

/-- The loop over the transactions, from a sequence number on. An error is only logged. -/
def storeTransactions (rt : Runtime) (blockNumber : BlockNumber) :
    List Transaction → Nat → BlockTables → BlockTables
  | [], _, t => t
  | tx :: txs, seq, t =>
    storeTransactions rt blockNumber txs (seq + 1)
      ((storeTransaction rt blockNumber tx (BitVec.ofNat 32 seq)).run t).2

/-- `store_block`. -/
def storeBlock (rt : Runtime) (block : Block) (t : BlockTables) : BlockTables :=
  let t := storeTransactions rt block.blockHeader.blockNumber block.transactions 0 t
  { t with chain := t.chain.storeBlock block }

/-! ## Loading -/

variable (t : BlockTables)

/-- The rows of a block number. -/
def rowsOf (blockNumber : BlockNumber) : List TransactionRow :=
  (t.blockTransaction.entries.filter (·.1.2 = blockNumber)).map (·.2)

def loadTransactions (order : RowOrder) (blockNumber : BlockNumber) : List Transaction :=
  (order.order (t.rowsOf blockNumber)).map (·.transaction)

def loadBlock (order : RowOrder) (blockNumber : BlockNumber) : Except Error Block := do
  let blockHeader ← t.chain.loadBlockHeader blockNumber
  pure ⟨blockHeader, t.loadTransactions order blockNumber⟩

/-! ## The rows of a block -/

/-- The hash a transaction is stored under, if it is stored at all. -/
def rowHash (rt : Runtime) (tx : Transaction) : Option TransactionHash :=
  match tx.transactionHash rt.crypto rt.codec, Account.addressOf rt.crypto tx.verifyingKey with
  | .ok transactionHash, .ok _ => some transactionHash
  | _, _ => none

/-- The rows that the loop adds when the hashes in `seen` are there already. -/
def storedRows (rt : Runtime) : List Transaction → Nat → List TransactionHash → List TransactionRow
  | [], _, _ => []
  | tx :: txs, seq, seen =>
    match rowHash rt tx with
    | none => storedRows rt txs (seq + 1) seen
    | some transactionHash =>
      if transactionHash ∈ seen then storedRows rt txs (seq + 1) seen
      else ⟨tx, BitVec.ofNat 32 seq⟩ :: storedRows rt txs (seq + 1) (transactionHash :: seen)

/-- The hashes under which there is a row of the number. -/
def Has (blockNumber : BlockNumber) (seen : List TransactionHash) : Prop :=
  ∀ transactionHash,
    (t.blockTransaction.lookup (transactionHash, blockNumber)).isSome ↔ transactionHash ∈ seen

variable {t} {rt : Runtime} {blockNumber : BlockNumber} {row : TransactionRow}
  {transactionHash : TransactionHash} {seen : List TransactionHash}

theorem run_storeTransaction (tx : Transaction) (txSeq : BitVec 32) :
    ((storeTransaction rt blockNumber tx txSeq).run t).2 =
      (rowHash rt tx).elim t fun transactionHash => t.insertRow (transactionHash, blockNumber) ⟨tx, txSeq⟩ := by
  unfold storeTransaction rowHash
  rw [run_bind, run_lift]
  cases tx.transactionHash rt.crypto rt.codec with
  | error e => rfl
  | ok transactionHash =>
    dsimp only
    cases Account.addressOf rt.crypto tx.verifyingKey with
    | error e => rfl
    | ok address => rfl

theorem insertRow_entries_of_some (h : t.blockTransaction.lookup key = some old) :
    (t.insertRow key row).blockTransaction.entries.Perm t.blockTransaction.entries := by
  refine lookup_ext (nodupKeys _) (nodupKeys _) fun k r => ?_
  show r ∈ (t.insertRow key row).blockTransaction.lookup k ↔ r ∈ t.blockTransaction.lookup k
  rw [insertRow, lookup_upsert]
  by_cases hk : k = key
  · rw [if_pos hk, hk, h]
    rfl
  · rw [if_neg hk]

theorem rowsOf_insertRow_of_none (h : t.blockTransaction.lookup (transactionHash, blockNumber) = none) :
    (t.insertRow (transactionHash, blockNumber) row).rowsOf blockNumber = row :: t.rowsOf blockNumber := by
  rw [rowsOf, insertRow, upsert_of_none h, entries_insert_of_notMem (lookup_eq_none.mp h),
    filter_cons_of_pos (by simp)]
  rfl

theorem has_insertRow (h : t.Has blockNumber seen) :
    (t.insertRow (transactionHash, blockNumber) row).Has blockNumber (transactionHash :: seen) := by
  intro other
  rw [insertRow, lookup_upsert, mem_cons, ← h other]
  by_cases heq : other = transactionHash
  · simp [heq]
  · simp [heq]

/-! ## The loop -/

theorem storeTransactions_chain (txs : List Transaction) (seq : Nat) (t : BlockTables) :
    (storeTransactions rt blockNumber txs seq t).chain = t.chain := by
  induction txs generalizing seq t with
  | nil => rfl
  | cons tx txs ih =>
    rw [storeTransactions, ih, run_storeTransaction]
    cases rowHash rt tx <;> rfl

theorem lookup_storeTransactions_of_ne (hne : number ≠ blockNumber) (other : TransactionHash)
    (txs : List Transaction) (seq : Nat) (t : BlockTables) :
    (storeTransactions rt blockNumber txs seq t).blockTransaction.lookup (other, number) =
      t.blockTransaction.lookup (other, number) := by
  induction txs generalizing seq t with
  | nil => rfl
  | cons tx txs ih =>
    rw [storeTransactions, ih, run_storeTransaction]
    cases rowHash rt tx with
    | none => rfl
    | some transactionHash =>
      exact (lookup_upsert ..).trans (if_neg fun heq => hne (congrArg Prod.snd heq))

/-- **What a block leaves in the table**: its own rows next to those of its number, and all its hashes. -/
theorem rowsOf_storeTransactions (rt : Runtime) (txs : List Transaction) (seq : Nat) (t : BlockTables)
    (seen : List TransactionHash) (h : t.Has blockNumber seen) :
    ((storeTransactions rt blockNumber txs seq t).rowsOf blockNumber).Perm
        (storedRows rt txs seq seen ++ t.rowsOf blockNumber) ∧
      (storeTransactions rt blockNumber txs seq t).Has blockNumber (txs.filterMap (rowHash rt) ++ seen) := by
  -- along the loop, `seen` is what the table has
  induction txs generalizing seq t seen with
  | nil => exact ⟨.refl _, h⟩
  | cons tx txs ih =>
    rw [storeTransactions, run_storeTransaction, storedRows, filterMap_cons]
    cases hhash : rowHash rt tx with
    | none => exact ih (seq + 1) t seen h
    | some transactionHash =>
      dsimp only [Option.elim]
      by_cases hseen : transactionHash ∈ seen
      · obtain ⟨old, hold⟩ := Option.isSome_iff_exists.mp ((h transactionHash).mpr hseen)
        have hhas : (t.insertRow (transactionHash, blockNumber) ⟨tx, .ofNat 32 seq⟩).Has
            blockNumber seen := by
          intro other
          rw [has_insertRow h other, mem_cons]
          exact or_iff_right_of_imp fun heq => heq ▸ hseen
        obtain ⟨hrows, hall⟩ := ih (seq + 1) _ seen hhas
        refine ⟨?_, fun other => ?_⟩
        · rw [if_pos hseen]
          exact hrows.trans ((((insertRow_entries_of_some hold).filter _).map _).append_left _)
        · rw [hall other, cons_append, mem_cons, mem_append]
          exact (or_iff_right_of_imp fun heq => heq ▸ .inr hseen).symm
      · have hnone : t.blockTransaction.lookup (transactionHash, blockNumber) = none := by
          rw [← Option.not_isSome_iff_eq_none, h transactionHash]
          exact hseen
        obtain ⟨hrows, hall⟩ := ih (seq + 1) _ (transactionHash :: seen) (has_insertRow h)
        refine ⟨?_, fun other => ?_⟩
        · rw [if_neg hseen, cons_append]
          rw [rowsOf_insertRow_of_none hnone] at hrows
          exact hrows.trans perm_middle
        · rw [hall other, cons_append, mem_cons, mem_append, mem_append, mem_cons]
          exact or_left_comm

/-! ## Reading the rows of one block -/

/-- The sequence numbers go up as long as they fit. -/
theorem storedRows_sorted (txs : List Transaction) (seq : Nat) (seen : List TransactionHash)
    (hlength : seq + txs.length ≤ 2 ^ 32) :
    (storedRows rt txs seq seen).Pairwise (·.txSequence < ·.txSequence) ∧
      ∀ row ∈ storedRows rt txs seq seen, seq ≤ row.txSequence.toNat := by
  induction txs generalizing seq seen with
  | nil => exact ⟨.nil, fun _ h => absurd h not_mem_nil⟩
  | cons tx txs ih =>
    rw [length_cons] at hlength
    have hskip : ∀ seen, (storedRows rt txs (seq + 1) seen).Pairwise (·.txSequence < ·.txSequence) ∧
        ∀ row ∈ storedRows rt txs (seq + 1) seen, seq ≤ row.txSequence.toNat := by
      intro seen
      obtain ⟨hsorted, hfrom⟩ := ih (seq + 1) seen (by omega)
      exact ⟨hsorted, fun row hrow => Nat.le_of_succ_le (hfrom row hrow)⟩
    rw [storedRows]
    cases rowHash rt tx with
    | none => exact hskip seen
    | some transactionHash =>
      dsimp only
      by_cases hseen : transactionHash ∈ seen
      · rw [if_pos hseen]
        exact hskip seen
      · rw [if_neg hseen]
        obtain ⟨hsorted, hfrom⟩ := ih (seq + 1) (transactionHash :: seen) (by omega)
        have hseq : (BitVec.ofNat 32 seq).toNat = seq := by
          exact Nat.mod_eq_of_lt (by omega)
        refine ⟨pairwise_cons.mpr ⟨fun row hrow => ?_, hsorted⟩, ?_⟩
        · rw [BitVec.lt_def, hseq]
          exact hfrom row hrow
        · intro row hrow
          rcases mem_cons.mp hrow with rfl | hrow
          · exact hseq.ge
          · exact Nat.le_of_succ_le (hfrom row hrow)

/-- **The rows of one block come back in its order**, whichever way the query breaks ties. -/
theorem loadTransactions_eq (hlength : txs.length ≤ 2 ^ 32)
    (hrows : (t.rowsOf blockNumber).Perm (storedRows rt txs 0 [])) (order : RowOrder) :
    t.loadTransactions order blockNumber = (storedRows rt txs 0 []).map (·.transaction) := by
  have hperm := (order.perm (t.rowsOf blockNumber)).trans hrows
  have hstrict : (storedRows rt txs 0 []).Pairwise (·.txSequence < ·.txSequence) :=
    (storedRows_sorted txs 0 [] (by omega)).1
  have hdistinct : ((storedRows rt txs 0 []).map (·.txSequence)).Nodup := by
    refine pairwise_map.mpr (hstrict.imp fun {a b} hlt heq => ?_)
    rw [heq] at hlt
    exact BitVec.lt_irrefl _ hlt
  unfold loadTransactions
  congr 1
  refine Perm.eq_of_pairwise (fun a b ha hb hab hba => ?_) (order.sorted _)
    (hstrict.imp fun h => BitVec.le_of_lt h) hperm
  exact inj_on_of_nodup_map hdistinct (hperm.mem_iff.mp ha) hb (BitVec.le_antisymm hab hba)

/-! ## What is lost -/

theorem length_storedRows_le (txs : List Transaction) (seq : Nat) (seen : List TransactionHash) :
    (storedRows rt txs seq seen).length ≤ txs.length := by
  induction txs generalizing seq seen with
  | nil => exact le_refl _
  | cons tx txs ih =>
    rw [storedRows]
    cases rowHash rt tx with
    | none => exact Nat.le_succ_of_le (ih _ _)
    | some transactionHash =>
      dsimp only
      by_cases hseen : transactionHash ∈ seen
      · rw [if_pos hseen]
        exact Nat.le_succ_of_le (ih _ _)
      · rw [if_neg hseen]
        exact Nat.succ_le_succ (ih _ _)

theorem storedRows_ne_cons {tx : Transaction} {seq : Nat} :
    (storedRows rt txs seq seen).map (·.transaction) ≠ tx :: txs := by
  intro heq
  have hlength := congrArg length heq
  rw [length_map, length_cons] at hlength
  have hle : (storedRows rt txs seq seen).length ≤ txs.length := length_storedRows_le ..
  omega

variable (txs : List Transaction) (seq : Nat) (seen : List TransactionHash)

/-- **When no transaction is lost**: all of them have a hash to be stored under that was not there before, and
    no two of them have the same. -/
theorem storedRows_eq_iff : (storedRows rt txs seq seen).map (·.transaction) = txs ↔
      (∀ tx ∈ txs, ∃ transactionHash, rowHash rt tx = some transactionHash ∧ transactionHash ∉ seen) ∧
        (txs.map (rowHash rt)).Nodup := by
  induction txs generalizing seq seen with
  | nil => exact iff_of_true rfl ⟨fun _ h => absurd h not_mem_nil, nodup_nil⟩
  | cons tx txs ih =>
    rw [storedRows]
    cases hhash : rowHash rt tx with
    | none =>
      refine iff_of_false storedRows_ne_cons fun hall => ?_
      obtain ⟨transactionHash, hsome, -⟩ := hall.1 tx mem_cons_self
      rw [hhash] at hsome
      cases hsome
    | some transactionHash =>
      dsimp only
      by_cases hseen : transactionHash ∈ seen
      · rw [if_pos hseen]
        refine iff_of_false storedRows_ne_cons fun hall => ?_
        obtain ⟨other, hsome, hnew⟩ := hall.1 tx mem_cons_self
        rw [hhash] at hsome
        cases hsome
        exact hnew hseen
      · rw [if_neg hseen, map_cons, cons_inj_right, ih, map_cons, nodup_cons, hhash]
        constructor
        · rintro ⟨hall, hnodup⟩
          refine ⟨forall_mem_cons.mpr ⟨⟨transactionHash, hhash, hseen⟩, fun other hother => ?_⟩,
            fun hmem => ?_, hnodup⟩
          · obtain ⟨h, hsome, hnew⟩ := hall other hother
            exact ⟨h, hsome, fun hmem => hnew (mem_cons_of_mem _ hmem)⟩
          · obtain ⟨other, hother, hsame⟩ := mem_map.mp hmem
            obtain ⟨h, hsome, hnew⟩ := hall other hother
            rw [hsame] at hsome
            cases hsome
            exact hnew mem_cons_self
        · rintro ⟨hall, hfirst, hnodup⟩
          refine ⟨fun other hother => ?_, hnodup⟩
          obtain ⟨h, hsome, hnew⟩ := hall other (mem_cons_of_mem _ hother)
          refine ⟨h, hsome, fun hmem => ?_⟩
          rcases mem_cons.mp hmem with rfl | hmem
          · exact hfirst (mem_map.mpr ⟨other, hother, hsome⟩)
          · exact hnew hmem

theorem storedRows_eq_nil (h : ∀ transactionHash ∈ txs.filterMap (rowHash rt), transactionHash ∈ seen) :
    storedRows rt txs seq seen = [] := by
  induction txs generalizing seq with
  | nil => rfl
  | cons tx txs ih =>
    rw [filterMap_cons] at h
    rw [storedRows]
    cases hhash : rowHash rt tx with
    | none =>
      rw [hhash] at h
      exact ih (seq + 1) h
    | some transactionHash =>
      rw [hhash] at h
      dsimp only
      rw [if_pos (h transactionHash mem_cons_self)]
      exact ih (seq + 1) fun other hother => h other (mem_cons_of_mem _ hother)

end BlockTables

end L1xCore
