import L1xCore.Consensus.Consensus
import L1xCore.Execute.Replay

/-!
# `Validate.Rewards` — who is paid by an accepted block

The transactions of `SYSTEM_REWARDS_DISTRIBUTOR` carry no signature, so the checks of a block are all there is
between the distributor's account and a proposer. A proposed block has to pay exactly the voters that
`validate_proposed_block` is given, each of them once. But these are the **keys** of the votes in a vote result,
and a vote of somebody who is no validator is in there without any check. A block that comes as the answer to a
query is checked with `None` for the voters, and then its rewards are not looked at at all.
-/

namespace L1xCore.Validate

open World Except List
open Account (addressOf)

variable {eligible : Finset Address} {left : Option (Finset Address)} {sender : Address}
  {txs : List Transaction} {receiver : Address} (v : Validate) (w : World)

/-! ## Rewards -/

/-- The transactions of the distributor, in their order. -/
def rewardsOf (txs : List Transaction) : List Transaction :=
  txs.filter fun tx => addressOf v.rt.crypto tx.verifyingKey = .ok SYSTEM_REWARDS_DISTRIBUTOR

/-- The transaction transfers the configured reward to the wallet of the node, as the staking information has
    it. A reward of `0` is none. -/
def Pays (config : RuntimeConfig) (stakingInfo : RuntimeStakingInfo) (tx : Transaction) (node : Address) :
    Prop :=
  config.validatedBlockReward ≠ 0 ∧
    ∃ receiver, tx.transactionType = .nativeTokenTransfer receiver config.validatedBlockReward ∧
      stakingInfo.rewardNodeMap.lookup receiver = some node

/-- The node was a validator in the epoch of the block before this one, and its key signed a vote in the vote
    result that is stored for it. -/
def SignedPrevious (block : Block) (node : Address) : Prop :=
  ∃ previous voteResult, w.db.chain.loadBlockHeader (block.blockHeader.blockNumber - 1) = .ok previous ∧
    w.db.chain.isValidator node previous.epoch = true ∧
    w.db.chain.loadVoteResult previous.blockHash = .ok voteResult ∧
    ∃ vote ∈ voteResult.data.votes, addressOf v.rt.crypto vote.verifyingKey = .ok node ∧
      v.rt.verifyVote vote = .ok ()

/-- **The rewards of a block are as configured**: each transaction of the distributor pays the reward of a
    validator that signed the previous block, and none is paid twice. -/
def RewardsAsConfigured (block : Block) : Prop :=
  ∃ config stakingInfo paid, w.caches.getConfig = .ok config ∧ w.caches.getStakingInfo = .ok stakingInfo ∧
    List.Forall₂ (Pays config stakingInfo) (v.rewardsOf block.transactions) paid ∧ paid.Nodup ∧
    ∀ node ∈ paid, v.SignedPrevious w block node

/-- The other transactions are valid. -/
def OthersValid (txs : List Transaction) : Prop :=
  ∀ tx ∈ txs, ∃ sender, addressOf v.rt.crypto tx.verifyingKey = .ok sender ∧
    (sender ≠ SYSTEM_REWARDS_DISTRIBUTOR → v.validateTx w.db.state w.caches tx sender = .ok ())

/-! ## The loop over the transactions -/

variable {v w} {config : RuntimeConfig} {stakingInfo : RuntimeStakingInfo} {last : BlockHeader}
  {tx : Transaction}

theorem Pays.rightUnique : Relator.RightUnique (Pays config stakingInfo) := by
  rintro tx a b ⟨-, receiver, hkind, hnode⟩ ⟨-, receiver', hkind', hnode'⟩
  rw [hkind] at hkind'
  cases hkind'
  rw [hnode] at hnode'
  exact Option.some.inj hnode'

theorem validateRewardTx_eq_ok :
    validateRewardTx tx config = .ok receiver ↔
      config.validatedBlockReward ≠ 0 ∧
        tx.transactionType = .nativeTokenTransfer receiver config.validatedBlockReward := by
  unfold validateRewardTx
  rw [check_eq_ok, ensure_eq_ok, decide_eq_true_eq]
  refine and_congr_right fun _ => ?_
  cases htype : tx.transactionType with
  | nativeTokenTransfer other amount =>
    rw [check_eq_ok, ensure_eq_ok, decide_eq_true_eq]
    constructor
    · rintro ⟨hamount, hreceiver⟩
      cases hreceiver
      rw [hamount]
    · intro h
      cases h
      exact ⟨rfl, rfl⟩
  | smartContractDeployment => simp
  | smartContractInit => simp
  | smartContractFunctionCall | createStakingPool | stake | unStake | stakingPoolContract => simp

theorem validateBlockTx_reward_iff
    (hsender : addressOf v.rt.crypto tx.verifyingKey = .ok SYSTEM_REWARDS_DISTRIBUTOR) :
    v.validateBlockTx w config stakingInfo last tx (some eligible) = .ok left ↔
      ∃ node, Pays config stakingInfo tx node ∧ node ∈ eligible ∧ left = some (eligible.erase node) := by
  unfold validateBlockTx
  rw [hsender, ok_bind, if_pos rfl]
  rw [bind_eq_ok]
  constructor
  · rintro ⟨receiver, hreward, h⟩
    obtain ⟨hamount, hkind⟩ := validateRewardTx_eq_ok.mp hreward
    cases hnode : stakingInfo.rewardNodeMap.lookup receiver with
    | none => rw [hnode] at h; cases h
    | some node =>
      rw [hnode] at h
      obtain ⟨hmem, hleft⟩ := check_eq_ok.mp h
      cases hleft
      exact ⟨node, ⟨hamount, receiver, hkind, hnode⟩, of_decide_eq_true (ensure_eq_ok.mp hmem), rfl⟩
  · rintro ⟨node, ⟨hamount, receiver, hkind, hnode⟩, hmem, rfl⟩
    refine ⟨receiver, validateRewardTx_eq_ok.mpr ⟨hamount, hkind⟩, ?_⟩
    rw [hnode]
    rw [check_eq_ok]
    exact ⟨ensure_eq_ok.mpr (decide_eq_true hmem), rfl⟩

section

variable (hsender : addressOf v.rt.crypto tx.verifyingKey = .ok sender)

include hsender

theorem validateBlockTx_other_iff (hne : sender ≠ SYSTEM_REWARDS_DISTRIBUTOR)
    {eligible : Option (Finset Address)} :
    v.validateBlockTx w config stakingInfo last tx eligible = .ok left ↔
      v.validateTx w.db.state w.caches tx sender = .ok () ∧ left = eligible := by
  unfold validateBlockTx
  rw [hsender, ok_bind, if_neg hne, check_eq_ok]
  refine and_congr_right fun _ => ?_
  constructor
  · intro h
    cases h
    rfl
  · rintro rfl
    rfl

theorem othersValid_cons : v.OthersValid w (tx :: txs) ↔
      (sender ≠ SYSTEM_REWARDS_DISTRIBUTOR → v.validateTx w.db.state w.caches tx sender = .ok ()) ∧
        v.OthersValid w txs := by
  rw [OthersValid, forall_mem_cons]
  refine and_congr_left fun _ => ?_
  constructor
  · rintro ⟨other, hother, hvalid⟩
    rw [hsender] at hother
    cases hother
    exact hvalid
  · intro hvalid
    exact ⟨sender, hsender, hvalid⟩

end

theorem rewardsOf_cons_reward
    (hsender : addressOf v.rt.crypto tx.verifyingKey = .ok SYSTEM_REWARDS_DISTRIBUTOR) :
    v.rewardsOf (tx :: txs) = tx :: v.rewardsOf txs :=
  filter_cons_of_pos (decide_eq_true hsender)

theorem rewardsOf_cons_other (hsender : addressOf v.rt.crypto tx.verifyingKey = .ok sender)
    (hne : sender ≠ SYSTEM_REWARDS_DISTRIBUTOR) : v.rewardsOf (tx :: txs) = v.rewardsOf txs := by
  refine filter_cons_of_neg fun h => hne ?_
  have hsame := of_decide_eq_true h
  rw [hsender] at hsame
  exact ok.inj hsame

/-- The first of the paid nodes, and the others, which are paid from what is left. -/
theorem exists_paid_cons {P : Transaction → Address → Prop} {left : Finset Address} :
    (∃ paid, Forall₂ P (tx :: txs) paid ∧ paid.Nodup ∧ (∀ node ∈ paid, node ∈ eligible) ∧
      left = eligible \ paid.toFinset) ↔
    ∃ node, P tx node ∧ node ∈ eligible ∧ ∃ paid, Forall₂ P txs paid ∧ paid.Nodup ∧
      (∀ a ∈ paid, a ∈ eligible.erase node) ∧ left = eligible.erase node \ paid.toFinset := by
  constructor
  · rintro ⟨paid, hpaid, hnodup, hsubset, rfl⟩
    cases hpaid with
    | cons hpays hpaid =>
      rename_i node paid
      obtain ⟨hfirst, hnodup⟩ := nodup_cons.mp hnodup
      obtain ⟨hnode, hsubset⟩ := forall_mem_cons.mp hsubset
      refine ⟨node, hpays, hnode, paid, hpaid, hnodup, fun a ha => ?_, ?_⟩
      · exact Finset.mem_erase.mpr ⟨fun heq => hfirst (heq ▸ ha), hsubset a ha⟩
      · rw [toFinset_cons, Finset.sdiff_insert, Finset.erase_sdiff_comm]
  · rintro ⟨node, hpays, hnode, paid, hpaid, hnodup, hsubset, rfl⟩
    refine ⟨node :: paid, .cons hpays hpaid, ?_, ?_, ?_⟩
    · refine nodup_cons.mpr ⟨fun hmem => ?_, hnodup⟩
      exact Finset.notMem_erase node eligible (hsubset node hmem)
    · exact forall_mem_cons.mpr ⟨hnode, fun a ha => Finset.mem_of_mem_erase (hsubset a ha)⟩
    · rw [toFinset_cons, Finset.sdiff_insert, Finset.erase_sdiff_comm]

/-- **What the loop accepts with a set of voters**: rewards of different nodes of the set, which are taken
    off. -/
theorem validateBlockTxs_some_iff {left : Finset Address} :
    v.validateBlockTxs w config stakingInfo last txs (some eligible) = .ok (some left) ↔
      v.OthersValid w txs ∧ ∃ paid, Forall₂ (Pays config stakingInfo) (v.rewardsOf txs) paid ∧
        paid.Nodup ∧ (∀ node ∈ paid, node ∈ eligible) ∧ left = eligible \ paid.toFinset := by
  induction txs generalizing eligible with
  | nil =>
    constructor
    · intro h
      cases h
      refine ⟨fun tx htx => absurd htx not_mem_nil, [], .nil, nodup_nil, ?_, ?_⟩
      · exact fun node hnode => absurd hnode not_mem_nil
      · simp
    · rintro ⟨-, paid, hpaid, -, -, rfl⟩
      cases hpaid
      simp [validateBlockTxs, pure, Except.pure]
  | cons tx txs ih =>
    rw [validateBlockTxs, bind_eq_ok]
    cases hsender : addressOf v.rt.crypto tx.verifyingKey with
    | error e =>
      refine iff_of_false ?_ ?_
      · rintro ⟨eligible', h, -⟩
        rw [validateBlockTx, hsender] at h
        cases h
      · rintro ⟨hvalid, -⟩
        obtain ⟨sender, hother, -⟩ := hvalid tx mem_cons_self
        rw [hsender] at hother
        cases hother
    | ok sender =>
      rw [othersValid_cons hsender]
      by_cases hne : sender = SYSTEM_REWARDS_DISTRIBUTOR
      · subst hne
        rw [rewardsOf_cons_reward hsender, exists_paid_cons]
        constructor
        · rintro ⟨eligible', htx, hrest⟩
          obtain ⟨node, hpays, hnode, rfl⟩ := (validateBlockTx_reward_iff hsender).mp htx
          obtain ⟨hvalid, hpaid⟩ := ih.mp hrest
          exact ⟨⟨fun h => absurd rfl h, hvalid⟩, node, hpays, hnode, hpaid⟩
        · rintro ⟨⟨-, hvalid⟩, node, hpays, hnode, hpaid⟩
          exact ⟨some (eligible.erase node),
            (validateBlockTx_reward_iff hsender).mpr ⟨node, hpays, hnode, rfl⟩, ih.mpr ⟨hvalid, hpaid⟩⟩
      · rw [rewardsOf_cons_other hsender hne]
        constructor
        · rintro ⟨eligible', htx, hrest⟩
          obtain ⟨hvalidTx, rfl⟩ := (validateBlockTx_other_iff hsender hne).mp htx
          obtain ⟨hvalid, hpaid⟩ := ih.mp hrest
          exact ⟨⟨fun _ => hvalidTx, hvalid⟩, hpaid⟩
        · rintro ⟨⟨hvalidTx, hvalid⟩, hpaid⟩
          exact ⟨some eligible, (validateBlockTx_other_iff hsender hne).mpr ⟨hvalidTx hne, rfl⟩,
            ih.mpr ⟨hvalid, hpaid⟩⟩

/-- The loop ends with nobody left exactly if the rewards pay the set. -/
theorem validateBlockTxs_paid_iff :
    v.validateBlockTxs w config stakingInfo last txs (some eligible) = .ok (some ∅) ↔
      v.OthersValid w txs ∧ ∃ paid, Forall₂ (Pays config stakingInfo) (v.rewardsOf txs) paid ∧
        paid.Nodup ∧ paid.toFinset = eligible := by
  rw [validateBlockTxs_some_iff]
  refine and_congr_right fun _ => exists_congr fun paid => and_congr_right fun _ => and_congr_right fun _ => ?_
  constructor
  · rintro ⟨hsubset, hempty⟩
    exact Finset.Subset.antisymm (fun node hnode => hsubset node (mem_toFinset.mp hnode))
      (Finset.sdiff_eq_empty_iff_subset.mp hempty.symm)
  · rintro rfl
    exact ⟨fun node => mem_toFinset.mpr, (Finset.sdiff_self _).symm⟩

theorem othersValid_of_validateBlockTxs_none
    (h : v.validateBlockTxs w config stakingInfo last txs none = .ok left) : v.OthersValid w txs := by
  induction txs with
  | nil => exact fun tx htx => absurd htx not_mem_nil
  | cons tx txs ih =>
    obtain ⟨eligible, htx, hrest⟩ := bind_eq_ok.mp h
    obtain ⟨sender, hsender, hchecked⟩ := bind_eq_ok.mp htx
    rw [othersValid_cons hsender]
    by_cases hne : sender = SYSTEM_REWARDS_DISTRIBUTOR
    · rw [if_pos hne] at hchecked
      cases hchecked
      exact ⟨fun h => absurd hne h, ih hrest⟩
    · obtain ⟨hvalidTx, rfl⟩ := (validateBlockTx_other_iff hsender hne).mp htx
      exact ⟨fun _ => hvalidTx, ih hrest⟩

/-! ## The accepted blocks -/

/-- The two ways in, with what they are given besides the block. -/
inductive Way where
  | proposed (choice : RowChoice) (lastBlockVotesValidators : Finset Address)
  | received (proposerAddress : Address)

/-- The block is accepted. -/
def AcceptedOn (v : Validate) (w : World) (cluster : Address) (payload : BlockPayload) : Way → Prop
  | .proposed choice voters => v.validateProposedBlock choice w payload cluster voters = .ok ()
  | .received proposer => v.validateBlock w payload cluster proposer = .ok ()

/-- Of a proposal, everybody to be rewarded signed the previous block. A received block would also be accepted
    with a set of nodes that did. -/
def RewardsSigned (v : Validate) (w : World) (cluster : Address) (payload : BlockPayload) : Way → Prop
  | .proposed _ voters => ∀ eligible, getEligibleValidatorsForReward w voters = .ok eligible →
      ∀ node ∈ eligible, v.SignedPrevious w payload.block node
  | .received _ => ∃ eligible : Finset Address, (∀ node ∈ eligible, v.SignedPrevious w payload.block node) ∧
      v.validateBlockHeaderAndTransactions w payload cluster (some eligible) = .ok ()

variable {cluster : Address} {payload : BlockPayload}

theorem validateBlockTxs_some_left
    (h : v.validateBlockTxs w config stakingInfo last txs (some eligible) = .ok left) :
    ∃ validators, left = some validators := by
  induction txs generalizing eligible with
  | nil =>
    cases h
    exact ⟨eligible, rfl⟩
  | cons tx txs ih =>
    obtain ⟨eligible', htx, hrest⟩ := bind_eq_ok.mp h
    obtain ⟨sender, hsender, -⟩ := bind_eq_ok.mp htx
    by_cases hne : sender = SYSTEM_REWARDS_DISTRIBUTOR
    · subst hne
      obtain ⟨node, -, -, rfl⟩ := (validateBlockTx_reward_iff hsender).mp htx
      exact ih hrest
    · obtain ⟨-, rfl⟩ := (validateBlockTx_other_iff hsender hne).mp htx
      exact ih hrest

theorem HeaderAndTransactionsChecked.paid
    (h : HeaderAndTransactionsChecked v w payload cluster (some eligible)) :
    v.validateBlockTxs w h.config h.stakingInfo h.last payload.block.transactions (some eligible) =
      .ok (some ∅) := by
  obtain ⟨left, hleft⟩ := validateBlockTxs_some_left h.transactions
  have htransactions := h.transactions
  rw [hleft, h.rewarded left hleft] at htransactions
  exact htransactions

/-- With another set only the rewards have to be looked at again. -/
theorem HeaderAndTransactionsChecked.accepts_iff {checked : Option (Finset Address)}
    (h : HeaderAndTransactionsChecked v w payload cluster checked) :
    v.validateBlockHeaderAndTransactions w payload cluster (some eligible) = .ok () ↔
      v.validateBlockTxs w h.config h.stakingInfo h.last payload.block.transactions (some eligible) =
        .ok (some ∅) := by
  constructor
  · intro haccepted
    obtain ⟨h'⟩ := headerAndTransactionsChecked haccepted
    rw [ok.inj (h.head.symm.trans h'.head), ok.inj (h.configCached.symm.trans h'.configCached),
      ok.inj (h.stakingInfoCached.symm.trans h'.stakingInfoCached)]
    exact h'.paid
  · intro htransactions
    exact HeaderAndTransactionsChecked.accepted { h with
      left := some ∅, transactions := htransactions, rewarded := fun _ hleft => (Option.some.inj hleft).symm }

/-- **A block that is accepted with a set of voters pays exactly these.** So its rewards are as configured
    exactly if they all signed the previous block. -/
theorem rewardsAsConfigured_iff_signed
    (h : v.validateBlockHeaderAndTransactions w payload cluster (some eligible) = .ok ()) :
    v.RewardsAsConfigured w payload.block ↔ ∀ node ∈ eligible, v.SignedPrevious w payload.block node := by
  obtain ⟨hchecked⟩ := headerAndTransactionsChecked h
  obtain ⟨-, paid, hpaid, hnodup, rfl⟩ := validateBlockTxs_paid_iff.mp hchecked.paid
  constructor
  · rintro ⟨config, stakingInfo, paid', hconfig, hstakingInfo, hpaid', -, hsigned⟩ node hnode
    cases hconfig.symm.trans hchecked.configCached
    cases hstakingInfo.symm.trans hchecked.stakingInfoCached
    have hsame : paid' = paid := right_unique_forall₂' Pays.rightUnique hpaid' hpaid
    rw [hsame] at hsigned
    exact hsigned node (mem_toFinset.mp hnode)
  · intro hsigned
    exact ⟨_, _, paid, hchecked.configCached, hchecked.stakingInfoCached, hpaid, hnodup,
      fun node hnode => hsigned node (mem_toFinset.mpr hnode)⟩

/-- **When rewards are paid as configured.** For every block that is accepted, on either way: its rewards are as
    configured exactly if, on a proposal, everybody who is to be rewarded is a validator that signed the previous
    block, and, on a received block, it would pass the checks of the other way for some set of such
    validators. -/
theorem rewards_asConfigured_iff (v : Validate) (w : World) (cluster : Address) (payload : BlockPayload)
    (way : Way) (haccepted : v.AcceptedOn w cluster payload way) :
    v.RewardsAsConfigured w payload.block ↔ v.RewardsSigned w cluster payload way := by
  cases way with
  | proposed choice voters =>
    obtain ⟨eligible, heligible, hvalid⟩ := eligible_of_validateProposedBlock haccepted
    rw [rewardsAsConfigured_iff_signed hvalid]
    constructor
    · intro hsigned eligible' heligible'
      cases heligible.symm.trans heligible'
      exact hsigned
    · intro hsigned
      exact hsigned eligible heligible
  | received proposer =>
    constructor
    · intro hrewards
      obtain ⟨hchecked⟩ := headerAndTransactionsChecked (validateBlock_ok haccepted)
      obtain ⟨config, stakingInfo, paid, hconfig, hstakingInfo, hpaid, hnodup, hsigned⟩ := hrewards
      cases hconfig.symm.trans hchecked.configCached
      cases hstakingInfo.symm.trans hchecked.stakingInfoCached
      have hvalid := othersValid_of_validateBlockTxs_none hchecked.transactions
      -- the rewards pass with the set of the nodes they pay
      exact ⟨paid.toFinset, fun node hnode => hsigned node (mem_toFinset.mp hnode),
        hchecked.accepts_iff.mpr (validateBlockTxs_paid_iff.mpr ⟨hvalid, paid, hpaid, hnodup, rfl⟩)⟩
    · rintro ⟨eligible, hsigned, hvalid⟩
      exact (rewardsAsConfigured_iff_signed hvalid).mpr hsigned

/-! Block 0 is the head, and there is one vote for it, with the key of the node 7, whose wallet is 8. The
distributor can pay. -/

/-- The vote for block 0 with the key of node 7 and any signature. -/
def voteOfSeven (signature : SignatureBytes) : Vote :=
  { data := ⟨0, 0, 0, 0, true⟩, validatorAddress := 7, signature, verifyingKey := Small.key 7 }

/-- The vote result of node 9 with that vote. -/
def resultOf (vote : Vote) : VoteResult :=
  let data : VoteResultSignPayload := ⟨0, 0, 0, true, [vote]⟩
  { data, validatorAddress := 9, verifyingKey := Small.key 9
    signature := Small.sign (Small.key 9) (Small.messages.voteResultSignPayload data) }

def rewardConfig : RuntimeConfig := ⟨[], 0, none, 10, none, none, none, none, 2, 0⟩

def rewardWorld (validators : List (Address × Epoch)) (vote : Vote) : World where
  db :=
    { state := { StateTables.empty with
        account := (∅ : Table Address AccountRow).insert SYSTEM_REWARDS_DISTRIBUTOR ⟨.system, 1000, 0⟩ }
      chain := { afterGenesis.db.chain with
        validator := validators.foldl (fun table key => table.insert key ⟨0, 0, 1⟩) ∅
        blockProposer := [⟨0, 0, 9⟩]
        voteResult := (∅ : Table (BlockHash × Address) VoteResult).insert (0, 9) (resultOf vote) } }
  caches :=
    { config := some rewardConfig
      denyConfig := some ⟨none, none⟩
      stakingInfo := some (.refresh ((∅ : Table Address NodePoolInfo).insert 7 ⟨0, 8, 0⟩)) }

/-- The reward of node 7, or somebody else's. -/
def reward (receiver : Address) : Transaction :=
  .newSystem SYSTEM_REWARDS_DISTRIBUTOR 1 (.nativeTokenTransfer receiver 10) 10

/-- The vote with the signature of node 7. -/
def signedVote : Vote :=
  voteOfSeven (Small.sign (Small.key 7) (Small.messages.voteSignPayload ⟨0, 0, 0, 0, true⟩))

/-- Node 7 is a validator, and its vote is signed. -/
theorem reward_asConfigured :
    small.RewardsAsConfigured (rewardWorld [(7, 0)] signedVote) (proposed [reward 8]).block := by
  refine (rewards_asConfigured_iff small (rewardWorld [(7, 0)] signedVote) 0
    (proposed [reward 8]) (.proposed .first {7}) ?_).mpr ?_
  · show small.validateProposedBlock _ _ _ _ _ = _
    decide +kernel
  · intro eligible heligible node hnode
    have hone : getEligibleValidatorsForReward (rewardWorld [(7, 0)] signedVote) {7} = .ok {7} := by
      decide +kernel
    cases hone.symm.trans heligible
    cases mem_singleton.mp hnode
    refine ⟨{ Small.header with blockNumber := 0 }, resultOf signedVote, rfl, by decide +kernel,
      by decide +kernel, signedVote, mem_singleton_self _, by decide +kernel, by decide +kernel⟩

theorem not_rewardsAsConfigured :
    ¬ small.RewardsAsConfigured (rewardWorld [] (voteOfSeven [])) (proposed [reward receiver]).block := by
  rintro ⟨config, stakingInfo, paid, -, -, hpaid, -, hsigned⟩
  have hsender : addressOf Small.crypto (addressBytes SYSTEM_REWARDS_DISTRIBUTOR) =
      .ok SYSTEM_REWARDS_DISTRIBUTOR := by decide +kernel
  have hrewards : small.rewardsOf (proposed [reward receiver]).block.transactions =
      [reward receiver] := rewardsOf_cons_reward hsender
  rw [hrewards] at hpaid
  cases hpaid with
  | cons _ _ =>
    obtain ⟨previous, -, -, hvalidator, -⟩ := hsigned _ mem_cons_self
    cases hvalidator

/-- A received block pays an address of nobody. A proposed block pays a node that is no validator and has signed
    nothing: the vote result with its vote passes `validate_vote_result`, and its key is among the voters. -/
theorem reward_not_asConfigured :
    (small.validateBlock (rewardWorld [] (voteOfSeven [])) (proposed [reward 66]) 0 9 = .ok () ∧
      ¬ small.RewardsAsConfigured (rewardWorld [] (voteOfSeven [])) (proposed [reward 66]).block) ∧
    (small.validateVoteResult (rewardWorld [] (voteOfSeven [])).db.chain (resultOf (voteOfSeven []))
        ⟨{ Small.header with blockNumber := 0 }, []⟩ = .ok () ∧
      (Small.node 9 fun _ => []).getLastBlockVotesValidators (rewardWorld [] (voteOfSeven [])) rewardConfig =
        .ok {7} ∧
      small.validateProposedBlock .first (rewardWorld [] (voteOfSeven []))
        (proposed [reward 8]) 0 {7} = .ok () ∧
      ¬ small.RewardsAsConfigured (rewardWorld [] (voteOfSeven [])) (proposed [reward 8]).block) :=
  ⟨⟨by decide +kernel, not_rewardsAsConfigured⟩, by decide +kernel, by decide +kernel, by decide +kernel,
    not_rewardsAsConfigured⟩

end L1xCore.Validate
