import L1xCore.Consensus.Consensus

/-!
# `Consensus.AcceptedChain` — the chain that proposals make

Blocks that `validate_proposed_block` accepts, each against the head that storing the one before it has
left. What execution does in between is left open: only the stored headers and the heads are kept.

A proposal is not compared with the head when it **is** the head, so a block may come again; any other
block comes right after the head. Nothing compares the epoch of a header with its number.
-/

namespace L1xCore

namespace ChainTables

/-- The headers and the heads are the same. -/
structure SameHeaders (t t' : ChainTables) : Prop where
  blockHeader : t'.blockHeader = t.blockHeader
  blockHead : t'.blockHead = t.blockHead

/-- The header is stored as the head of the cluster, and there is none after it. -/
structure HasHead (t : ChainTables) (cluster : Address) (header : BlockHeader) : Prop where
  head : (t.loadChainState cluster).1 = header.blockNumber
  stored : t.blockHeader.lookup header.blockNumber = some (headerColumns header)
  clusterAddress : header.clusterAddress = cluster
  last : ∀ number : BlockNumber, header.blockNumber < number → t.blockHeader.lookup number = none

theorem column_column {w : Nat} (fits : BitVec w → Bool) (x : BitVec w) :
    column fits (column fits x) = column fits x := by
  unfold column
  by_cases h : fits x = true
  · simp only [if_pos h]
  · simp only [if_neg h, ite_self]

theorem headerColumns_headerColumns (header : BlockHeader) :
    headerColumns (headerColumns header) = headerColumns header := by
  unfold headerColumns
  rw [column_column, column_column, column_column]

variable {t t' : ChainTables} {cluster : Address} {header : BlockHeader} {block : Block}

theorem HasHead.sameHeaders (h : t.HasHead cluster header) (hsame : SameHeaders t t') :
    t'.HasHead cluster header where
  head := by rw [loadChainState, hsame.blockHead]; exact h.head
  stored := by rw [hsame.blockHeader]; exact h.stored
  clusterAddress := h.clusterAddress
  last := by rw [hsame.blockHeader]; exact h.last

theorem HasHead.blockHeadHeader (h : t.HasHead cluster header) :
    t.blockHeadHeader cluster = .ok (headerColumns header) := by
  rw [ChainTables.blockHeadHeader, loadBlockHeader, h.head, h.stored]

theorem loadChainState_storeBlock (cluster : Address) :
    (t.storeBlock block).loadChainState cluster =
      if (t.loadChainState block.blockHeader.clusterAddress).1 = block.blockHeader.blockNumber - 1 ∧
          cluster = block.blockHeader.clusterAddress then
        (block.blockHeader.blockNumber, block.blockHeader.blockHash)
      else t.loadChainState cluster := by
  unfold storeBlock updateHead storeBlockHeader loadChainState
  split
  · next hnext =>
      rw [AList.lookup_insert_ite]
      by_cases hcluster : cluster = block.blockHeader.clusterAddress
      · rw [if_pos hcluster, if_pos ⟨hnext, hcluster⟩]
        rfl
      · rw [if_neg hcluster, if_neg fun h => hcluster h.2]
  · next hother => rw [if_neg fun h => hother h.1]

theorem HasHead.storeBlock_self (h : t.HasHead cluster header)
    (hblock : block.blockHeader = headerColumns header) :
    (t.storeBlock block).HasHead cluster block.blockHeader := by
  have hnumber : block.blockHeader.blockNumber = header.blockNumber := by rw [hblock]; rfl
  have hcluster : block.blockHeader.clusterAddress = cluster := by
    rw [hblock]
    exact h.clusterAddress
  refine ⟨?_, ?_, hcluster, fun number hafter => ?_⟩
  · rw [loadChainState_storeBlock, if_neg, h.head, hnumber]
    rintro ⟨hhead, -⟩
    rw [hcluster, h.head, hnumber] at hhead
    bv_omega
  · rw [lookup_blockHeader_storeBlock, if_pos rfl, hnumber, h.stored, hblock, headerColumns_headerColumns]
    rfl
  · rw [hnumber] at hafter
    have hne : number ≠ block.blockHeader.blockNumber := by
      bv_omega
    rw [lookup_blockHeader_storeBlock, if_neg hne]
    exact h.last number hafter

theorem HasHead.storeBlock_next (h : t.HasHead cluster header)
    (hnumber : block.blockHeader.blockNumber.toNat = header.blockNumber.toNat + 1)
    (hcluster : block.blockHeader.clusterAddress = cluster) :
    (t.storeBlock block).HasHead cluster block.blockHeader := by
  have hprevious : header.blockNumber = block.blockHeader.blockNumber - 1 := by bv_omega
  have hbefore : header.blockNumber < block.blockHeader.blockNumber := by bv_omega
  refine ⟨?_, ?_, hcluster, fun number hafter => ?_⟩
  · rw [loadChainState_storeBlock, if_pos]
    rw [hcluster, h.head]
    exact ⟨hprevious, rfl⟩
  · rw [lookup_blockHeader_storeBlock, if_pos rfl, h.last _ hbefore]
    rfl
  · have hne : number ≠ block.blockHeader.blockNumber := by bv_omega
    rw [lookup_blockHeader_storeBlock, if_neg hne]
    exact h.last number (by bv_omega)

end ChainTables

open ChainTables

namespace Validate

variable {v : Validate} {cluster : Address}

/-- A sequence of proposals, each accepted against the head left by the one before it and then stored. -/
inductive AcceptedChain (v : Validate) (cluster : Address) : ChainTables → List BlockPayload → Prop where
  | nil {t} : AcceptedChain v cluster t []
  | cons {t choice w payload voters rest} (hsame : SameHeaders t w.db.chain)
      (haccepted : v.validateProposedBlock choice w payload cluster voters = .ok ())
      (hrest : AcceptedChain v cluster (w.db.chain.storeBlock payload.block) rest) :
      AcceptedChain v cluster t (payload :: rest)

/-- The block is the head again, or comes right after it: both times the head is what its columns keep. -/
def RepeatsOrFollows (last header : BlockHeader) : Prop :=
  header = headerColumns last ∨ Follows (headerColumns last) header

theorem accepted_step {t : ChainTables} {head : BlockHeader} {choice : RowChoice} {w : World}
    {payload : BlockPayload} {voters : Finset Address} (hhead : t.HasHead cluster head)
    (hsame : SameHeaders t w.db.chain)
    (haccepted : v.validateProposedBlock choice w payload cluster voters = .ok ()) :
    RepeatsOrFollows head payload.block.blockHeader ∧
      payload.block.blockHeader.blockHash = v.rt.messages.blockHash payload.block ∧
      (w.db.chain.storeBlock payload.block).HasHead cluster payload.block.blockHeader := by
  have hhead := hhead.sameHeaders hsame
  obtain ⟨_, h⟩ := validateProposedBlock_ok haccepted
  obtain ⟨last, hlast, hheader, hhash⟩ := validateBlockHeaderAndTransactions_ok h
  cases hhead.blockHeadHeader.symm.trans hlast
  rcases hheader with hrepeats | hfollows
  · exact ⟨.inl hrepeats.symm, hhash, hhead.storeBlock_self hrepeats.symm⟩
  · refine ⟨.inr hfollows, hhash, hhead.storeBlock_next hfollows.blockNumber ?_⟩
    exact hfollows.clusterAddress.trans hhead.clusterAddress

/-- **Accepted chains are linked.** From a stored head, every accepted block is the head again or has the
    next number, the hash of the head as its parent and no earlier time than the stored one; and every hash is
    the one of the block itself. -/
theorem acceptedChain_linked {t : ChainTables} {genesis : BlockHeader} {payloads : List BlockPayload}
    (hgenesis : t.HasHead cluster genesis) (hchain : AcceptedChain v cluster t payloads) :
    List.IsChain RepeatsOrFollows (genesis :: payloads.map (·.block.blockHeader)) ∧
      ∀ payload ∈ payloads, payload.block.blockHeader.blockHash = v.rt.messages.blockHash payload.block := by
  induction hchain generalizing genesis with
  | nil => exact ⟨List.isChain_singleton _, fun _ h => absurd h List.not_mem_nil⟩
  | cons hsame haccepted _ ih =>
    obtain ⟨hstep, hhash, hhead⟩ := accepted_step hgenesis hsame haccepted
    obtain ⟨hlinked, hhashes⟩ := ih hhead
    exact ⟨List.isChain_cons_cons.mpr ⟨hstep, hlinked⟩, List.forall_mem_cons.mpr ⟨hhash, hhashes⟩⟩

/-! Block 1 with epoch 1 in its header, signed by the proposer of that epoch, after the block 0 of cluster
`0`. -/

theorem atHead_hasHead {number : BlockNumber} {validators : List (Address × Epoch)}
    {proposers : List BlockProposer} :
    (Small.atHead number validators proposers).db.chain.HasHead 0
      { Small.header with blockNumber := number } := by
  have hlookup := lookup_blockHeader_storeBlock (t := .empty)
    ⟨{ Small.header with blockNumber := number }, []⟩
  refine ⟨rfl, (hlookup number).trans (if_pos rfl), rfl, fun later hafter => ?_⟩
  refine (hlookup later).trans (if_neg ?_)
  rintro rfl
  exact BitVec.lt_irrefl _ hafter

def beforeMislabelled : World := Small.atHead 0 [] [⟨0, 1, 9⟩]

def mislabelled : BlockPayload := Small.proposal 9 1 1 0

theorem beforeMislabelled_hasHead :
    beforeMislabelled.db.chain.HasHead 0 { Small.header with blockNumber := 0 } :=
  atHead_hasHead

theorem mislabelled_accepted_twice :
    AcceptedChain small 0 beforeMislabelled.db.chain [mislabelled, mislabelled] := by
  have hfirst : small.validateProposedBlock .first beforeMislabelled mislabelled 0 ∅ = .ok () := by
    decide +kernel
  have hsecond : small.validateProposedBlock .first
      { beforeMislabelled with
        db.chain := beforeMislabelled.db.chain.storeBlock mislabelled.block } mislabelled 0 ∅ = .ok () := by
    decide +kernel
  exact .cons ⟨rfl, rfl⟩ hfirst (.cons ⟨rfl, rfl⟩ hsecond .nil)

theorem mislabelled_linked :
    List.IsChain RepeatsOrFollows [{ Small.header with blockNumber := 0 },
        mislabelled.block.blockHeader, mislabelled.block.blockHeader] ∧
      mislabelled.block.blockHeader.blockHash = Small.runtime.messages.blockHash mislabelled.block := by
  obtain ⟨hlinked, hhashes⟩ := acceptedChain_linked beforeMislabelled_hasHead mislabelled_accepted_twice
  exact ⟨hlinked, hhashes _ List.mem_cons_self⟩

/-- Two accepted blocks of one number, and of an epoch that is not the one of the number. -/
theorem mislabelled_not_wellFormed :
    AcceptedChain small 0 beforeMislabelled.db.chain [mislabelled, mislabelled] ∧
      ¬ Follows mislabelled.block.blockHeader mislabelled.block.blockHeader ∧
      mislabelled.block.blockHeader.epoch ≠
        Node.calculateCurrentEpoch mislabelled.block.blockHeader.blockNumber := by
  refine ⟨mislabelled_accepted_twice, fun h => ?_, by decide +kernel⟩
  have hnumber := h.blockNumber
  omega

end Validate

end L1xCore
