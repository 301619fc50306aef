import L1xCore.Consensus.AcceptedChain
import L1xCore.Db.BlockTables
import L1xCore.Execute.Replay

/-!
# `Consensus.StoredBlocks` — what is read back of a block that was accepted

Blocks come into the tables when they are accepted on the head of the chain, by `validate_proposed_block` or by
the `validate_block` of `receive_block`, and are then stored. In every database that is reached this way the
rows of a block number are those of one block (`HoldsHead`): a block comes right after the head, or it is the
head again.

So a block is read back unchanged unless it loses something itself. It does when a field of its header is
larger than the column, or when a transaction of it has no hash or the hash of another one in the block.
-/

namespace L1xCore

open ChainTables World List

variable {rt : Runtime} {number : BlockNumber} {head : Block}

/-- The header fits into its columns. -/
structure BlockHeader.FitsColumns (header : BlockHeader) : Prop where
  timestamp : fitsTimestamp header.timestamp = true
  blockVersion : fitsVersion header.blockVersion = true
  epoch : fitsEpoch header.epoch = true

namespace ChainTables

theorem column_eq_self_iff {w : Nat} {fits : BitVec w → Bool} (hzero : fits 0 = true) {x : BitVec w} :
    column fits x = x ↔ fits x = true := by
  unfold column
  by_cases h : fits x = true
  · simp [h]
  · rw [if_neg h]
    refine iff_of_false (fun heq => ?_) h
    rw [← heq] at h
    exact h hzero

theorem headerColumns_eq_self_iff {header : BlockHeader} :
    headerColumns header = header ↔ header.FitsColumns := by
  have htimestamp : column fitsTimestamp header.timestamp = header.timestamp ↔ _ :=
    column_eq_self_iff (by decide)
  have hversion : column fitsVersion header.blockVersion = header.blockVersion ↔ _ :=
    column_eq_self_iff (by decide)
  have hepoch : column fitsEpoch header.epoch = header.epoch ↔ _ := column_eq_self_iff (by decide)
  constructor
  · intro h
    refine ⟨htimestamp.mp ?_, hversion.mp ?_, hepoch.mp ?_⟩
    · exact congrArg BlockHeader.timestamp h
    · exact congrArg BlockHeader.blockVersion h
    · exact congrArg BlockHeader.epoch h
  · rintro ⟨ht, hv, he⟩
    rw [headerColumns, htimestamp.mpr ht, hversion.mpr hv, hepoch.mpr he]

end ChainTables

namespace BlockTables

/-- The block is the head of the cluster, its rows are those of its number, and there is nothing after it. -/
structure HoldsHead (t : BlockTables) (rt : Runtime) (cluster : Address) (block : Block) : Prop where
  head : t.chain.HasHead cluster block.blockHeader
  rows : (t.rowsOf block.blockHeader.blockNumber).Perm (storedRows rt block.transactions 0 [])
  hashes : t.Has block.blockHeader.blockNumber (block.transactions.filterMap (rowHash rt))
  length : block.transactions.length ≤ 2 ^ 32
  last : ∀ number : BlockNumber, block.blockHeader.blockNumber < number → t.Has number []

variable {t : BlockTables} {rt : Runtime} {cluster : Address} {block : Block}

theorem rowsOf_eq_nil (h : t.Has number []) : t.rowsOf number = [] := by
  unfold rowsOf
  rw [map_eq_nil_iff, filter_eq_nil_iff]
  rintro ⟨⟨transactionHash, number'⟩, row⟩ hmem hnumber
  cases of_decide_eq_true hnumber
  have hsome := AList.mem_entries.mp hmem
  have hin := (h transactionHash).mp (by rw [hsome]; rfl)
  cases hin

theorem has_storeBlock_of_ne (hne : number ≠ block.blockHeader.blockNumber) {seen : List TransactionHash}
    (h : t.Has number seen) : (t.storeBlock rt block).Has number seen := by
  intro transactionHash
  rw [← h transactionHash]
  show ((storeTransactions rt _ _ _ t).blockTransaction.lookup _).isSome ↔ _
  rw [lookup_storeTransactions_of_ne hne]

theorem HoldsHead.storeBlock_self (h : t.HoldsHead rt cluster head)
    (hheader : block.blockHeader = headerColumns head.blockHeader)
    (htransactions : head.transactions = block.transactions) :
    (t.storeBlock rt block).HoldsHead rt cluster block := by
  have hnumber : block.blockHeader.blockNumber = head.blockHeader.blockNumber := by
    rw [hheader]
    rfl
  have hhashes : t.Has block.blockHeader.blockNumber (block.transactions.filterMap (rowHash rt)) := by
    rw [hnumber, ← htransactions]
    exact h.hashes
  have hold : (t.rowsOf block.blockHeader.blockNumber).Perm (storedRows rt block.transactions 0 []) := by
    rw [hnumber, ← htransactions]
    exact h.rows
  obtain ⟨hrows, hhas⟩ := rowsOf_storeTransactions rt block.transactions 0 t _ hhashes
  refine ⟨?_, ?_, fun transactionHash => ?_, ?_, fun number hlater => ?_⟩
  · show ((storeTransactions rt _ _ _ t).chain.storeBlock block).HasHead cluster block.blockHeader
    rw [storeTransactions_chain]
    exact h.head.storeBlock_self hheader
  · rw [storedRows_eq_nil _ _ _ fun _ hmem => hmem, nil_append] at hrows
    exact hrows.trans hold
  · refine (hhas transactionHash).trans ?_
    rw [mem_append, or_self]
  · rw [← htransactions]
    exact h.length
  · have hne : number ≠ block.blockHeader.blockNumber := by bv_omega
    rw [hnumber] at hlater
    exact has_storeBlock_of_ne hne (h.last number hlater)

theorem storedRows_eq_iff_of_senders {txs : List Transaction}
    (hsenders : ∀ tx ∈ txs, ∃ sender, Account.addressOf rt.crypto tx.verifyingKey = .ok sender) :
    (storedRows rt txs 0 []).map (·.transaction) = txs ↔
      (∀ tx ∈ txs, ∃ hash, tx.transactionHash rt.crypto rt.codec = .ok hash) ∧
        (txs.map (Transaction.transactionHash rt.crypto rt.codec)).Nodup := by
  have hhash : ∀ tx ∈ txs, ∀ hash,
      rowHash rt tx = some hash ↔ tx.transactionHash rt.crypto rt.codec = .ok hash := by
    intro tx htx hash
    obtain ⟨sender, hsender⟩ := hsenders tx htx
    unfold rowHash
    rw [hsender]
    cases tx.transactionHash rt.crypto rt.codec with
    | error | ok => simp
  rw [storedRows_eq_iff]
  have hall : (∀ tx ∈ txs, ∃ hash, rowHash rt tx = some hash ∧ hash ∉ []) ↔
      ∀ tx ∈ txs, ∃ hash, tx.transactionHash rt.crypto rt.codec = .ok hash := by
    refine forall₂_congr fun tx htx => exists_congr fun hash => ?_
    rw [hhash tx htx hash, and_iff_left not_mem_nil]
  rw [hall]
  refine and_congr_right fun hexists => ?_
  rw [Nodup, Nodup, pairwise_map, pairwise_map]
  refine Pairwise.iff_of_mem fun {a b} ha hb => not_congr ?_
  obtain ⟨ha', ha''⟩ := hexists a ha
  obtain ⟨hb', hb''⟩ := hexists b hb
  rw [(hhash a ha ha').mpr ha'', (hhash b hb hb').mpr hb'', ha'', hb'']
  simp

end BlockTables

open BlockTables

namespace Validate

variable {v : Validate} {cluster : Address} {payload : BlockPayload} {blocks : List Block} {w : World}

/-- The block is accepted on the head, as a proposal or as the answer to a query. -/
def Accepted (v : Validate) (cluster : Address) (w : World) (payload : BlockPayload) : Prop :=
  (∃ choice voters, v.validateProposedBlock choice w payload cluster voters = .ok ()) ∨
    v.validateBlock w payload cluster payload.sender = .ok ()

/-- No other block of the list has the hash of this one. -/
def HashBinds (blocks : List Block) (block : Block) : Prop :=
  ∀ other ∈ blocks, other.blockHeader.blockHash = block.blockHeader.blockHash →
    other.transactions = block.transactions

/-- The databases that are reached from a stored genesis block by storing accepted blocks, with the blocks that
    were stored. Everything but the headers and the heads may change in between. The length of a vector is an
    `isize`. -/
inductive StoredChain (v : Validate) (cluster : Address) (genesis : Block) : BlockTables → List Block → Prop
  | genesis {t} (hgenesis : t.HoldsHead v.rt cluster genesis) : StoredChain v cluster genesis t [genesis]
  | store {t blocks w payload} (hstored : StoredChain v cluster genesis t blocks)
      (hsame : SameHeaders t.chain w.db.chain) (haccepted : v.Accepted cluster w payload)
      (hvec : payload.block.transactions.length < 2 ^ 63) (hbinds : HashBinds blocks payload.block) :
      StoredChain v cluster genesis (BlockTables.storeBlock v.rt payload.block { t with chain := w.db.chain })
        (blocks ++ [payload.block])

theorem Accepted.checked (h : v.Accepted cluster w payload) :
    ∃ eligible, Nonempty (HeaderAndTransactionsChecked v w payload cluster eligible) := by
  rcases h with ⟨choice, voters, h⟩ | h
  · obtain ⟨eligible, h⟩ := validateProposedBlock_ok h
    exact ⟨_, headerAndTransactionsChecked h⟩
  · exact ⟨_, headerAndTransactionsChecked (validateBlock_ok h)⟩

theorem holdsHead_storeBlock {t : BlockTables} (hhead : t.HoldsHead v.rt cluster head)
    (hmem : head ∈ blocks) (hsame : SameHeaders t.chain w.db.chain)
    (haccepted : v.Accepted cluster w payload) (hvec : payload.block.transactions.length < 2 ^ 63)
    (hbinds : HashBinds blocks payload.block) :
    (storeBlock v.rt payload.block { t with chain := w.db.chain }).HoldsHead v.rt cluster
      payload.block := by
  have hhead : ({ t with chain := w.db.chain } : BlockTables).HoldsHead v.rt cluster head :=
    ⟨hhead.head.sameHeaders hsame, hhead.rows, hhead.hashes, hhead.length, hhead.last⟩
  obtain ⟨eligible, ⟨hchecked⟩⟩ := haccepted.checked
  have hlast : hchecked.last = headerColumns head.blockHeader :=
    Except.ok.inj (hchecked.head.symm.trans hhead.head.blockHeadHeader)
  rcases hchecked.header with hrepeats | hfields
  · rw [hlast] at hrepeats
    refine hhead.storeBlock_self hrepeats.symm (hbinds head hmem ?_)
    rw [← hrepeats]
    rfl
  · have hfollows := validateExpectedBlockFields_follows hfields
    rw [hlast] at hfollows
    -- a block after the head brings its own rows
    have hnumber := hfollows.blockNumber
    have hafter : head.blockHeader.blockNumber < payload.block.blockHeader.blockNumber := by
      dsimp only [headerColumns] at hnumber
      bv_omega
    have hempty := hhead.last _ hafter
    obtain ⟨hrows, hhas⟩ := rowsOf_storeTransactions v.rt payload.block.transactions 0 _ [] hempty
    refine ⟨?_, ?_, ?_, validateExpectedBlockFields_length hfields hvec, fun number hlater => ?_⟩
    · show ((storeTransactions v.rt _ _ _ _).chain.storeBlock payload.block).HasHead cluster _
      rw [storeTransactions_chain]
      exact hhead.head.storeBlock_next hnumber (hfollows.clusterAddress.trans hhead.head.clusterAddress)
    · rw [rowsOf_eq_nil hempty, append_nil] at hrows
      exact hrows
    · rw [append_nil] at hhas
      exact hhas
    · have hne : number ≠ payload.block.blockHeader.blockNumber := by bv_omega
      exact has_storeBlock_of_ne hne (hhead.last number (by bv_omega))

/-- **The tables always hold their head**, which is the block that was stored last. -/
theorem StoredChain.holdsHead {genesis : Block} {t : BlockTables}
    (h : StoredChain v cluster genesis t blocks) : ∃ head ∈ blocks, t.HoldsHead v.rt cluster head := by
  induction h with
  | genesis hgenesis => exact ⟨genesis, mem_singleton_self _, hgenesis⟩
  | store hstored hsame haccepted hvec hbinds ih =>
    obtain ⟨head, hmem, hhead⟩ := ih
    exact ⟨_, mem_append_right _ (mem_singleton_self _),
      holdsHead_storeBlock hhead hmem hsame haccepted hvec hbinds⟩

/-- **The blocks that are read back unchanged.** For every database reached by storing accepted blocks, and
    every proposal accepted on its head: after it was stored, `load_block` of its number returns it exactly if
    its header fits the columns and its transactions have hashes that are all different. No two different blocks
    of one hash are among those stored. -/
theorem loadBlock_storeBlock_iff (v : Validate) (cluster : Address) (genesis : Block) (t : BlockTables)
    (blocks : List Block) (hstored : StoredChain v cluster genesis t blocks) (choice : RowChoice) (w : World)
    (hsame : SameHeaders t.chain w.db.chain) (payload : BlockPayload) (voters : Finset Address)
    (haccepted : v.validateProposedBlock choice w payload cluster voters = .ok ())
    (hvec : payload.block.transactions.length < 2 ^ 63) (hbinds : HashBinds blocks payload.block)
    (order : RowOrder) :
    (BlockTables.storeBlock v.rt payload.block { t with chain := w.db.chain }).loadBlock order
        payload.block.blockHeader.blockNumber = .ok payload.block ↔
      payload.block.blockHeader.FitsColumns ∧
        (∀ tx ∈ payload.block.transactions, ∃ hash, tx.transactionHash v.rt.crypto v.rt.codec = .ok hash) ∧
        (payload.block.transactions.map (Transaction.transactionHash v.rt.crypto v.rt.codec)).Nodup := by
  obtain ⟨head, hmem, hhead⟩ := hstored.holdsHead
  have haccepted : v.Accepted cluster w payload := .inl ⟨choice, voters, haccepted⟩
  have hholds := holdsHead_storeBlock hhead hmem hsame haccepted hvec hbinds
  obtain ⟨eligible, ⟨hchecked⟩⟩ := haccepted.checked
  have hsenders := addressOf_of_validateBlockTxs hchecked.transactions
  rw [BlockTables.loadBlock, loadBlockHeader, hholds.head.stored, loadTransactions_eq hholds.length hholds.rows,
    ← headerColumns_eq_self_iff, ← storedRows_eq_iff_of_senders hsenders]
  constructor
  · intro h
    have hblock := Except.ok.inj h
    exact ⟨congrArg Block.blockHeader hblock, congrArg Block.transactions hblock⟩
  · rintro ⟨hheader, htransactions⟩
    rw [hheader, htransactions]
    rfl

/-! A block after genesis with one payment, and one with the same payment twice. -/

def genesisBlock : Block := ⟨{ Small.header with blockNumber := 0 }, []⟩

/-- The tables with nothing but the genesis block. -/
def genesisTables : BlockTables := ⟨afterGenesis.db.chain, ∅⟩

theorem genesisTables_holdsHead : genesisTables.HoldsHead Small.runtime 0 genesisBlock where
  head := by
    refine ⟨rfl, rfl, rfl, fun number hafter => ?_⟩
    have hne : number ≠ 0 := by bv_omega
    exact (AList.lookup_insert_ne hne).trans rfl
  rows := .refl _
  hashes transactionHash := iff_of_false (by simp [genesisTables]) not_mem_nil
  length := Nat.zero_le _
  last number _ transactionHash := iff_of_false (by simp [genesisTables]) not_mem_nil

/-- The account with address 9 is the proposer. -/
def proposerWorld : World :=
  { afterGenesis with
    db := { afterGenesis.db with
      chain := { afterGenesis.db.chain with blockProposer := [⟨0, 0, 9⟩] } } }

/-- The tables after a block with these transactions was stored. -/
def storedTables (transactions : List Transaction) : BlockTables :=
  BlockTables.storeBlock Small.runtime (proposed transactions).block
    { genesisTables with chain := proposerWorld.db.chain }

theorem genesisBlock_binds {transactions : List Transaction} :
    HashBinds [genesisBlock] (proposed transactions).block := by
  intro other hother hhash
  cases mem_singleton.mp hother
  have hne : genesisBlock.blockHeader.blockHash ≠ Small.messages.blockHash ⟨Small.header, []⟩ := by
    decide +kernel
  exact absurd hhash hne

theorem payment_read_back :
    (storedTables [signedPayment 5]).loadBlock .stable 1 = .ok (proposed [signedPayment 5]).block := by
  refine (loadBlock_storeBlock_iff small 0 genesisBlock genesisTables [genesisBlock]
    (.genesis genesisTables_holdsHead) .first proposerWorld ⟨rfl, rfl⟩
    (proposed [signedPayment 5]) ∅ (by decide +kernel) (by decide) ?_ .stable).mpr
    ⟨⟨by decide, by decide, by decide⟩, ?_, nodup_singleton _⟩
  · exact genesisBlock_binds
  · intro tx htx
    cases mem_singleton.mp htx
    exact ⟨_, rfl⟩

/-- The second payment is gone. -/
theorem doubledPayment_not_read_back :
    StoredChain Validate.small 0 genesisBlock genesisTables [genesisBlock] ∧
      HashBinds [genesisBlock] (proposed [signedPayment 5, signedPayment 5]).block ∧
      Validate.small.validateProposedBlock .first proposerWorld
        (proposed [signedPayment 5, signedPayment 5]) 0 ∅ = .ok () ∧
      (storedTables [signedPayment 5, signedPayment 5]).loadBlock .stable 1 =
        .ok ⟨(proposed [signedPayment 5, signedPayment 5]).block.blockHeader, [signedPayment 5]⟩ := by
  refine ⟨.genesis genesisTables_holdsHead, genesisBlock_binds, by decide +kernel, by decide +kernel⟩

end Validate

end L1xCore
