import L1xCore.Validate.ValidateTx

/-!
# `Validate.ValidateBlock` — the validation of blocks

`validate/src/validate_block.rs`. A block comes in two ways: as the answer to a query, checked by
`validate_block`, or as a proposal, checked by `validate_proposed_block`. Both end in the same checks of
the header against the head of the chain and of each transaction against the state **before** the block.
The epoch of the header is not among them.
-/

namespace L1xCore.Validate

open Except (ensure)

variable {last : BlockHeader} {w : World} {payload : BlockPayload} {cluster : Address}
  {eligible : Option (Finset Address)} {choice : RowChoice} {voters : Finset Address} {block : Block}

section

variable (v : Validate)

/-! ## The header -/

/-- `validate_expected_block_fields`. -/
def validateExpectedBlockFields (lastBlockHeader : BlockHeader) (newBlock : Block) :
    Except Error Unit := do
  let header := newBlock.blockHeader
  match lastBlockHeader.blockNumber.checkedAdd 1 with
  | none => .error "Error incrementing block number. Potential overflow"
  | some expectedBlockNumber =>
    ensure (expectedBlockNumber = header.blockNumber)
      s!"Incorrect block number: actual {header.blockNumber.toNat}, expected: {expectedBlockNumber.toNat}"
  ensure (lastBlockHeader.blockHash = header.parentHash)
    s!"Incorrect parent hash: actual {hexEncode header.parentHash}, expected: {hexEncode lastBlockHeader.blockHash}"
  ensure (lastBlockHeader.stateHash = header.stateHash)
    s!"Incorrect state hash: actual {hexEncode header.stateHash}, expected: {hexEncode lastBlockHeader.stateHash}"
  ensure (lastBlockHeader.clusterAddress = header.clusterAddress)
    s!"Incorrect cluster address: actual {hexEncode header.clusterAddress}, expected: {hexEncode lastBlockHeader.clusterAddress}"
  ensure (lastBlockHeader.timestamp ≤ header.timestamp)
    s!"Incorrect timestamp: last_block_timestamp {lastBlockHeader.timestamp.toNat}, new_block_timestamp: {header.timestamp.toNat}"
  -- the count is an `i32`; as a `usize` a negative one is huge
  ensure (newBlock.transactions.length = (header.numTransactions.toBitVec.signExtend 64).toNat)
    s!"Incorrect number of transactions: actual {header.numTransactions.toInt}, expected: {newBlock.transactions.length}"

def validateExpectedBlockHash (blockPayload : BlockPayload) : Except Error Unit :=
  let expectedBlockHash := v.rt.messages.blockHash blockPayload.block
  ensure (expectedBlockHash = blockPayload.block.blockHeader.blockHash)
    s!"Incorrect block hash: actual {hexEncode blockPayload.block.blockHeader.blockHash}, expected: {hexEncode expectedBlockHash}"

/-! ## Rewards -/

/-- A reward is a transfer of the configured amount; its receiver is returned. -/
def validateRewardTx (tx : Transaction) (config : RuntimeConfig) : Except Error Address := do
  let rewardAmount := config.validatedBlockReward
  ensure (rewardAmount ≠ 0)
    "Invalid transaction: No amount configured for reward distribution in RuntimeConfig"
  match tx.transactionType with
  | .nativeTokenTransfer receiver amount => do
    ensure (rewardAmount = amount)
      s!"Incorrect reward amount, actual: {amount.toNat}, expected: {rewardAmount.toNat}"
    pure receiver
  | _ => .error "Invalid transaction type: Expected NativeTokenTransfer"

/-- What a reward costs in fees: a token transfer and its size. -/
def rewardFee : Except Error Balance :=
  let dummyTx := Transaction.newSystem 0 0 (.nativeTokenTransfer 0 0) 0
  match FeeConfig.config.transactionSizeFee dummyTx with
  | some fee => .ok (FeeConfig.config.tokenTransfer + fee)
  | none => .error "Can't get transaction size fee"

/-- The validators to be rewarded: all of them, or none when the distributor cannot pay. -/
def getEligibleValidatorsForReward (w : World) (lastBlockVotesValidators : Finset Address) :
    Except Error (Finset Address) :=
  if lastBlockVotesValidators = ∅ then .ok ∅
  else do
    let config ← w.caches.getConfig
    let feeLimit ← rewardFee
    let totalVotes : Balance := BitVec.ofNat 128 lastBlockVotesValidators.card
    let totalRewards ← checked (config.validatedBlockReward.checkedMul totalVotes) "rewards"
    let totalFees ← checked (feeLimit.checkedMul totalVotes) "fees"
    let totalCost ← checked (totalRewards.checkedAdd totalFees) "cost"
    let balance := (w.db.state.getBalance SYSTEM_REWARDS_DISTRIBUTOR).toOption.getD 0
    pure (if balance < totalCost then ∅ else lastBlockVotesValidators)
where
  checked (value : Option Balance) (what : String) : Except Error Balance :=
    value.elim (.error s!"Overflow while calculating total {what}") .ok

/-! ## Transactions -/

/-- One round of the loop over the transactions. With `none` rewards are not looked at at all; else the
    node behind the receiver has to be waiting for its reward, and is taken off. -/
def validateBlockTx (w : World) (config : RuntimeConfig) (stakingInfo : RuntimeStakingInfo)
    (lastBlockHeader : BlockHeader) (tx : Transaction) (eligible : Option (Finset Address)) :
    Except Error (Option (Finset Address)) := do
  let sender ← Account.addressOf v.rt.crypto tx.verifyingKey
  if sender = SYSTEM_REWARDS_DISTRIBUTOR then
    match eligible with
    | none => pure none
    | some validators => do
      let receiver ← validateRewardTx tx config
      match stakingInfo.rewardNodeMap.lookup receiver with
      | none => .error "Reward receiver is not a validator"
      | some validator => do
        ensure (validator ∈ validators)
          s!"Invalid transaction, unknown validator for reward: block_number: {lastBlockHeader.blockNumber.toNat}"
        pure (some (validators.erase validator))
  else do
    v.validateTx w.db.state w.caches tx sender
    pure eligible

def validateBlockTxs (w : World) (config : RuntimeConfig) (stakingInfo : RuntimeStakingInfo)
    (lastBlockHeader : BlockHeader) :
    List Transaction → Option (Finset Address) → Except Error (Option (Finset Address))
  | [], eligible => pure eligible
  | tx :: txs, eligible => do
    let eligible ← v.validateBlockTx w config stakingInfo lastBlockHeader tx eligible
    validateBlockTxs w config stakingInfo lastBlockHeader txs eligible

/-- `validate_block_header_and_transactions`. -/
def validateBlockHeaderAndTransactions (w : World) (blockPayload : BlockPayload)
    (clusterAddress : Address) (eligible : Option (Finset Address)) : Except Error Unit := do
  let lastBlockHeader ← w.db.chain.blockHeadHeader clusterAddress
  let stakingInfo ← w.caches.getStakingInfo
  let config ← w.caches.getConfig
  -- a block that is the head already is not compared with itself
  if lastBlockHeader = blockPayload.block.blockHeader then pure ()
  else validateExpectedBlockFields lastBlockHeader blockPayload.block
  v.validateExpectedBlockHash blockPayload
  let left ← v.validateBlockTxs w config stakingInfo lastBlockHeader blockPayload.block.transactions
    eligible
  match left with
  | some validators =>
    ensure (validators = ∅)
      s!"Invalid reward distribution: No. of remaining validators: {validators.card}"
  | none => pure ()

/-! ## The two ways in -/

def verifyBlockSignature (blockPayload : BlockPayload) : Except Error Unit :=
  (v.rt.verifyBlockPayload blockPayload).mapError (s!"Signature is invalid: {·}")

/-- `ValidateBlock::validate_block`. -/
def validateBlock (w : World) (blockPayload : BlockPayload) (clusterAddress proposerAddress : Address) :
    Except Error Unit := do
  v.verifyBlockSignature blockPayload
  let proposerAddressFromKey ← Account.addressOf v.rt.crypto blockPayload.verifyingKey
  ensure (proposerAddressFromKey = proposerAddress) "Block proposer address mismatch"
  let _ ← w.db.chain.blockHeadHeader clusterAddress
  v.validateBlockHeaderAndTransactions w blockPayload clusterAddress none

/-- `ValidateBlock::validate_proposed_block`. -/
def validateProposedBlock (choice : RowChoice) (w : World) (blockPayload : BlockPayload)
    (clusterAddress : Address) (lastBlockVotesValidators : Finset Address) : Except Error Unit := do
  let blockProposerAddress ← Account.addressOf v.rt.crypto blockPayload.verifyingKey
  let header := blockPayload.block.blockHeader
  ensure (!blockPayload.block.isSystemBlock)
    s!"System type block #{header.blockNumber.toNat} can't be proposed"
  let isProposer ← w.db.chain.isBlockProposer choice
    ⟨header.clusterAddress, header.epoch, blockProposerAddress⟩
  ensure isProposer
    s!"Block #{header.blockNumber.toNat} is not received from authorized block proposer: {hexEncode blockProposerAddress}"
  v.verifyBlockSignature blockPayload
  let eligible ← getEligibleValidatorsForReward w lastBlockVotesValidators
  v.validateBlockHeaderAndTransactions w blockPayload clusterAddress (some eligible)

end

/-! ## What was checked -/

variable {v : Validate}

/-- What the header of a block is compared with: the block comes right after the head of the chain. -/
structure Follows (last header : BlockHeader) : Prop where
  blockNumber : header.blockNumber.toNat = last.blockNumber.toNat + 1
  parentHash : header.parentHash = last.blockHash
  stateHash : header.stateHash = last.stateHash
  clusterAddress : header.clusterAddress = last.clusterAddress
  timestamp : last.timestamp ≤ header.timestamp

theorem validateExpectedBlockFields_follows (h : validateExpectedBlockFields last block = .ok ()) :
    Follows last block.blockHeader := by
  unfold validateExpectedBlockFields at h
  split at h
  · cases h
  · next expected hexpected =>
      simp only [Except.check_eq_ok, Except.ensure_eq_ok, decide_eq_true_eq] at h
      obtain ⟨hnumber, hparent, hstate, hcluster, htimestamp, -⟩ := h
      refine ⟨?_, hparent.symm, hstate.symm, hcluster.symm, htimestamp⟩
      rw [← hnumber]
      exact BitVec.checkedAdd_eq_some.mp hexpected

/-- The count in the header is that of the transactions, as long as this is the length of a vector. -/
theorem validateExpectedBlockFields_length (h : validateExpectedBlockFields last block = .ok ())
    (hvec : block.transactions.length < 2 ^ 63) : block.transactions.length ≤ 2 ^ 32 := by
  unfold validateExpectedBlockFields at h
  split at h
  · cases h
  · simp only [Except.check_eq_ok, Except.ensure_eq_ok, decide_eq_true_eq] at h
    obtain ⟨-, -, -, -, -, hlength⟩ := h
    rw [BitVec.toNat_signExtend, BitVec.toNat_setWidth] at hlength
    split at hlength <;> omega

/-- Everything that both ways in have checked. -/
structure HeaderAndTransactionsChecked (v : Validate) (w : World) (payload : BlockPayload) (cluster : Address)
    (eligible : Option (Finset Address)) where
  last : BlockHeader
  config : RuntimeConfig
  stakingInfo : RuntimeStakingInfo
  left : Option (Finset Address)
  head : w.db.chain.blockHeadHeader cluster = .ok last
  configCached : w.caches.getConfig = .ok config
  stakingInfoCached : w.caches.getStakingInfo = .ok stakingInfo
  header : last = payload.block.blockHeader ∨ validateExpectedBlockFields last payload.block = .ok ()
  hash : payload.block.blockHeader.blockHash = v.rt.messages.blockHash payload.block
  transactions : v.validateBlockTxs w config stakingInfo last payload.block.transactions eligible = .ok left
  rewarded : ∀ validators, left = some validators → validators = ∅

theorem headerAndTransactionsChecked
    (h : v.validateBlockHeaderAndTransactions w payload cluster eligible = .ok ()) :
    Nonempty (HeaderAndTransactionsChecked v w payload cluster eligible) := by
  obtain ⟨last, hlast, h⟩ := Except.bind_eq_ok.mp h
  obtain ⟨stakingInfo, hstakingInfo, h⟩ := Except.bind_eq_ok.mp h
  obtain ⟨config, hconfig, h⟩ := Except.bind_eq_ok.mp h
  have hchecked : (last = payload.block.blockHeader ∨
        validateExpectedBlockFields last payload.block = .ok ()) ∧
      (do
        v.validateExpectedBlockHash payload
        let left ← v.validateBlockTxs w config stakingInfo last payload.block.transactions eligible
        match left with
        | some validators =>
          ensure (validators = ∅)
            s!"Invalid reward distribution: No. of remaining validators: {validators.card}"
        | none => pure () : Except Error Unit) = .ok () := by
    split at h
    · next hsame => exact ⟨.inl hsame, h⟩
    · obtain ⟨hfields, h⟩ := Except.check_eq_ok.mp h
      exact ⟨.inr hfields, h⟩
  obtain ⟨hheader, h⟩ := hchecked
  obtain ⟨hhash, h⟩ := Except.check_eq_ok.mp h
  obtain ⟨left, hleft, h⟩ := Except.bind_eq_ok.mp h
  refine ⟨⟨last, config, stakingInfo, left, hlast, hconfig, hstakingInfo, hheader,
    (of_decide_eq_true (Except.ensure_eq_ok.mp hhash)).symm, hleft, ?_⟩⟩
  rintro validators rfl
  exact of_decide_eq_true (Except.ensure_eq_ok.mp h)

theorem HeaderAndTransactionsChecked.accepted (h : HeaderAndTransactionsChecked v w payload cluster eligible) :
    v.validateBlockHeaderAndTransactions w payload cluster eligible = .ok () := by
  have hhash : v.validateExpectedBlockHash payload = .ok () :=
    Except.ensure_eq_ok.mpr (decide_eq_true h.hash.symm)
  have hrest : (do
      v.validateExpectedBlockHash payload
      let left ← v.validateBlockTxs w h.config h.stakingInfo h.last payload.block.transactions eligible
      match left with
      | some validators =>
        ensure (validators = ∅)
          s!"Invalid reward distribution: No. of remaining validators: {validators.card}"
      | none => pure () : Except Error Unit) = .ok () := by
    rw [hhash, Except.ok_bind, h.transactions, Except.ok_bind]
    cases hleft : h.left with
    | none => rfl
    | some validators => exact Except.ensure_eq_ok.mpr (decide_eq_true (h.rewarded validators hleft))
  unfold validateBlockHeaderAndTransactions
  rw [h.head, Except.ok_bind, h.stakingInfoCached, Except.ok_bind, h.configCached, Except.ok_bind]
  by_cases hsame : h.last = payload.block.blockHeader
  · dsimp only
    rw [if_pos hsame]
    exact hrest
  · dsimp only
    rw [if_neg hsame, h.header.resolve_left hsame, Except.ok_bind]
    exact hrest

theorem validateBlockHeaderAndTransactions_ok
    (h : v.validateBlockHeaderAndTransactions w payload cluster eligible = .ok ()) :
    ∃ last, w.db.chain.blockHeadHeader cluster = .ok last ∧
      (last = payload.block.blockHeader ∨ Follows last payload.block.blockHeader) ∧
      payload.block.blockHeader.blockHash = v.rt.messages.blockHash payload.block := by
  obtain ⟨hchecked⟩ := headerAndTransactionsChecked h
  exact ⟨hchecked.last, hchecked.head, hchecked.header.imp_right validateExpectedBlockFields_follows,
    hchecked.hash⟩

theorem addressOf_of_validateBlockTxs {config : RuntimeConfig} {stakingInfo : RuntimeStakingInfo}
    {txs : List Transaction} {left : Option (Finset Address)}
    (h : v.validateBlockTxs w config stakingInfo last txs eligible = .ok left) :
    ∀ tx ∈ txs, ∃ sender, Account.addressOf v.rt.crypto tx.verifyingKey = .ok sender := by
  induction txs generalizing eligible with
  | nil => exact fun tx hmem => absurd hmem List.not_mem_nil
  | cons tx txs ih =>
    obtain ⟨eligible', htx, hrest⟩ := Except.bind_eq_ok.mp h
    obtain ⟨sender, hsender, -⟩ := Except.bind_eq_ok.mp htx
    exact List.forall_mem_cons.mpr ⟨⟨sender, hsender⟩, ih hrest⟩

section

variable (h : v.validateProposedBlock choice w payload cluster voters = .ok ())

include h

/-- A proposal is checked with the voters that are to be rewarded. -/
theorem eligible_of_validateProposedBlock :
    ∃ eligible, getEligibleValidatorsForReward w voters = .ok eligible ∧
      v.validateBlockHeaderAndTransactions w payload cluster (some eligible) = .ok () := by
  obtain ⟨_, _, h⟩ := Except.bind_eq_ok.mp h
  obtain ⟨_, h⟩ := Except.check_eq_ok.mp h
  obtain ⟨_, _, h⟩ := Except.bind_eq_ok.mp h
  obtain ⟨_, h⟩ := Except.check_eq_ok.mp h
  obtain ⟨_, h⟩ := Except.check_eq_ok.mp h
  exact Except.bind_eq_ok.mp h

theorem validateProposedBlock_ok :
    ∃ eligible, v.validateBlockHeaderAndTransactions w payload cluster (some eligible) = .ok () := by
  obtain ⟨eligible, -, hvalid⟩ := eligible_of_validateProposedBlock h
  exact ⟨eligible, hvalid⟩

end

theorem validateBlock_ok {proposer : Address} (h : v.validateBlock w payload cluster proposer = .ok ()) :
    v.validateBlockHeaderAndTransactions w payload cluster none = .ok () := by
  obtain ⟨_, h⟩ := Except.check_eq_ok.mp h
  obtain ⟨_, _, h⟩ := Except.bind_eq_ok.mp h
  obtain ⟨_, h⟩ := Except.check_eq_ok.mp h
  obtain ⟨_, _, h⟩ := Except.bind_eq_ok.mp h
  exact h

end L1xCore.Validate
