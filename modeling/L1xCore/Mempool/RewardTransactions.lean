import L1xCore.Validate.Rewards

/-!
# `Mempool.RewardTransactions` — rewards, as they are made and as they are checked

`build_reward_transactions` of `mempool/src/mempool.rs`: the proposer of a block adds a transfer for each
vote on the head of the chain. A validator does not run this function. It computes on its own **who** is to
be rewarded, and takes a node off for each transfer it finds. The two sides differ in what they leave out:
the proposer makes no transfer of nothing and none to a node without staking information, and it counts
votes where the validator counts voters. `validateProposedBlock_rewards_iff` says when they agree.
-/

namespace L1xCore

open Transaction List
open Account (addressOf)

open Except (ensure)

variable {voters : List Address} {txs : List Transaction} {head : BlockHeader} {n : Node} {tx : Transaction}
  {left : Option (Finset Address)}

/-- `AccountState::get_nonce`: `0` without an account. -/
def StateTables.getNonce (db : StateTables) (address : Address) : Nonce :=
  (db.account.lookup address).elim 0 (·.nonce)

namespace Mempool

/-! ## The proposer -/

/-- The transfers, by the order of the votes. A vote of a node of the organisation makes none, and neither
    does one of a node without staking information. -/
def rewardTxs (crypto : Crypto) (config : RuntimeConfig) (stakingInfo : RuntimeStakingInfo)
    (feeLimit : Balance) : Nonce → List Vote → Except Error (List Transaction)
  | _, [] => pure []
  | nonce, vote :: votes => do
    let validatorAddress ← addressOf crypto vote.verifyingKey
    if validatorAddress ∈ config.orgNodes then rewardTxs crypto config stakingInfo feeLimit nonce votes
    else
      match stakingInfo.nodes.lookup validatorAddress with
      | none => rewardTxs crypto config stakingInfo feeLimit nonce votes
      | some info => do
        let nonce := nonce + 1
        let transactionType :=
          .nativeTokenTransfer info.rewardWalletAddress config.validatedBlockReward
        let tx := newSystem SYSTEM_REWARDS_DISTRIBUTOR nonce transactionType feeLimit
        let txs ← rewardTxs crypto config stakingInfo feeLimit nonce votes
        pure (tx :: txs)

open Validate.getEligibleValidatorsForReward (checked) in
/-- Rewards and fees for a number of votes. -/
def totalCost (rewardAmount feeLimit : Balance) (count : Nat) : Except Error Balance := do
  let totalVotes : Balance := BitVec.ofNat 128 count
  let totalRewards ← checked (rewardAmount.checkedMul totalVotes) "rewards"
  let totalFees ← checked (feeLimit.checkedMul totalVotes) "fees"
  checked (totalRewards.checkedAdd totalFees) "cost"

/-- What the distributor can spend. -/
def distributorBalance (w : World) : Balance :=
  (w.db.state.getBalance SYSTEM_REWARDS_DISTRIBUTOR).toOption.getD 0

/-- `build_reward_transactions`. -/
def buildRewardTransactions (crypto : Crypto) (w : World) (blockHash : BlockHash) :
    Except Error (List Transaction) := do
  let config ← w.caches.getConfig
  if config.validatedBlockReward = 0 then pure []
  else do
    let stakingInfo ← w.caches.getStakingInfo
    match w.db.chain.loadVoteResult blockHash with
    -- only a warning
    | .error _ => pure []
    | .ok voteResult => do
      let nonce := w.db.state.getNonce SYSTEM_REWARDS_DISTRIBUTOR
      let feeLimit ← Validate.rewardFee
      let txs ← rewardTxs crypto config stakingInfo feeLimit nonce voteResult.data.votes
      if txs.isEmpty then pure txs
      else do
        let cost ← totalCost config.validatedBlockReward feeLimit txs.length
        pure (if distributorBalance w < cost then [] else txs)

end Mempool

/-! ## Who is behind a vote and a wallet -/

namespace RuntimeStakingInfo

variable {stakingInfo : RuntimeStakingInfo}

/-- The node that a reward for a node is taken for: the one its wallet leads to. -/
def nodeBehind (stakingInfo : RuntimeStakingInfo) (a : Address) : Option Address :=
  (stakingInfo.nodes.lookup a).bind fun info => stakingInfo.rewardNodeMap.lookup info.rewardWalletAddress

theorem nodeBehind_isSome (a : Address) :
    (stakingInfo.nodeBehind a).isSome = (stakingInfo.nodes.lookup a).isSome := by
  unfold nodeBehind
  cases hinfo : stakingInfo.nodes.lookup a with
  | none => rfl
  | some info => exact stakingInfo.node_of_wallet hinfo

theorem nodesBehind_of_self (h : ∀ a ∈ voters, stakingInfo.nodeBehind a = some a) :
    voters.filterMap stakingInfo.nodeBehind = voters := by
  rw [filterMap_congr h]
  exact filterMap_some

/-- **When the nodes behind the wallets are the voters.** Each voter is behind its own wallet, and nobody
    voted twice. -/
theorem nodesBehind_eq_iff :
    ((voters.filterMap stakingInfo.nodeBehind).Nodup ∧
        (voters.filterMap stakingInfo.nodeBehind).toFinset = voters.toFinset) ↔
      voters.Nodup ∧ ∀ a ∈ voters, stakingInfo.nodeBehind a = some a := by
  constructor
  · rintro ⟨hnodup, hset⟩
    have hall : ∀ a ∈ voters, stakingInfo.nodeBehind a = some a := by
      intro a ha
      rw [← mem_toFinset, ← hset, mem_toFinset, mem_filterMap] at ha
      obtain ⟨_, _, hbehind⟩ := ha
      -- the node behind a wallet is behind itself
      obtain ⟨info, _, hwallet⟩ := Option.bind_eq_some_iff.mp hbehind
      obtain ⟨info', hinfo', hsame⟩ := stakingInfo.wallet_of_node hwallet
      rw [nodeBehind, hinfo']
      show stakingInfo.rewardNodeMap.lookup info'.rewardWalletAddress = some _
      rw [hsame]
      exact hwallet
    rw [nodesBehind_of_self hall] at hnodup
    exact ⟨hnodup, hall⟩
  · rintro ⟨hnodup, hall⟩
    rw [nodesBehind_of_self hall]
    exact ⟨hnodup, rfl⟩

end RuntimeStakingInfo

/-- Who voted for the head of the chain, vote by vote, except for the nodes of the organisation. -/
def Node.lastBlockVoters (n : Node) (w : World) (config : RuntimeConfig) :
    Except Error (List Address) := do
  let header ← w.db.chain.blockHeadHeader n.clusterAddress
  match w.db.chain.loadVoteResult header.blockHash with
  | .error _ => pure []
  | .ok voteResult => do
    let addresses ← voteResult.data.votes.mapM fun vote =>
      addressOf n.platform.rt.crypto vote.verifyingKey
    pure (addresses.filter (· ∉ config.orgNodes))

theorem Node.getLastBlockVotesValidators_eq (n : Node) (w : World) (config : RuntimeConfig) :
    n.getLastBlockVotesValidators w config = (n.lastBlockVoters w config).map toFinset := by
  unfold getLastBlockVotesValidators lastBlockVoters
  cases w.db.chain.blockHeadHeader n.clusterAddress with
  | error e => rfl
  | ok header =>
    show (match w.db.chain.loadVoteResult header.blockHash with
      | .error _ => _
      | .ok _ => _) = Except.map _ (match w.db.chain.loadVoteResult header.blockHash with
      | .error _ => _
      | .ok _ => _)
    cases w.db.chain.loadVoteResult header.blockHash with
    | error e => rfl
    | ok voteResult =>
      dsimp only
      cases voteResult.data.votes.mapM fun vote =>
        addressOf n.platform.rt.crypto vote.verifyingKey <;> rfl

namespace Mempool

variable {crypto : Crypto} {w : World} {config : RuntimeConfig} {stakingInfo : RuntimeStakingInfo}

/-! ## What the proposer makes -/

/-- A transfer of the reward to a wallet that leads to the node. -/
def IsRewardFor (config : RuntimeConfig) (stakingInfo : RuntimeStakingInfo) (tx : Transaction)
    (node : Address) : Prop :=
  ∃ wallet nonce feeLimit, stakingInfo.rewardNodeMap.lookup wallet = some node ∧
    tx = newSystem SYSTEM_REWARDS_DISTRIBUTOR nonce
      (.nativeTokenTransfer wallet config.validatedBlockReward) feeLimit

/-- The nodes the transfers are for. -/
def rewardedNodes (config : RuntimeConfig) (stakingInfo : RuntimeStakingInfo)
    (addresses : List Address) : List Address :=
  (addresses.filter (· ∉ config.orgNodes)).filterMap stakingInfo.nodeBehind

theorem rewardTxs_ok {feeLimit : Balance} {nonce : Nonce} {votes : List Vote} {addresses : List Address}
    (h : votes.mapM (fun vote => addressOf crypto vote.verifyingKey) = .ok addresses)
    (htxs : rewardTxs crypto config stakingInfo feeLimit nonce votes = .ok txs) :
    Forall₂ (IsRewardFor config stakingInfo) txs (rewardedNodes config stakingInfo addresses) := by
  induction votes generalizing nonce addresses txs with
  | nil =>
    cases h
    cases htxs
    exact .nil
  | cons vote votes ih =>
    rw [mapM_cons] at h
    obtain ⟨address, haddress, h⟩ := Except.bind_eq_ok.mp h
    obtain ⟨others, hothers, h⟩ := Except.bind_eq_ok.mp h
    cases h
    rw [rewardTxs, haddress] at htxs
    change (if address ∈ config.orgNodes then _ else _) = _ at htxs
    split at htxs
    · next horg =>
        rw [rewardedNodes, filter_cons_of_neg (by simpa using horg)]
        exact ih hothers htxs
    next horg =>
    rw [rewardedNodes, filter_cons_of_pos (by simpa using horg)]
    cases hinfo : stakingInfo.nodes.lookup address with
    | none =>
      have hnone : stakingInfo.nodeBehind address = none := by
        rw [RuntimeStakingInfo.nodeBehind, hinfo]
        rfl
      rw [hinfo] at htxs
      rw [filterMap_cons_none hnone]
      exact ih hothers htxs
    | some info =>
      obtain ⟨node, hnode⟩ := Option.isSome_iff_exists.mp (stakingInfo.node_of_wallet hinfo)
      have hbehind : stakingInfo.nodeBehind address = some node := by
        rw [RuntimeStakingInfo.nodeBehind, hinfo]
        exact hnode
      rw [hinfo] at htxs
      obtain ⟨rest, hrest, htxs⟩ := Except.bind_eq_ok.mp htxs
      cases htxs
      rw [filterMap_cons_some hbehind]
      exact .cons ⟨_, _, _, hnode, rfl⟩ (ih hothers hrest)

/-- The cost of the rewards for a number of nodes. -/
def rewardCost (config : RuntimeConfig) (count : Nat) : Except Error Balance := do
  let feeLimit ← Validate.rewardFee
  totalCost config.validatedBlockReward feeLimit count

/-- The proposer makes no transfers: there is nothing to transfer, nobody to transfer it to, or too little
    for all of them. -/
def MakesNone (w : World) (config : RuntimeConfig) (count : Nat) : Prop :=
  config.validatedBlockReward = 0 ∨ count = 0 ∨
    ∃ cost, rewardCost config count = .ok cost ∧ distributorBalance w < cost

theorem not_makesNone {count : Nat} {cost : Balance} (hreward : config.validatedBlockReward ≠ 0)
    (hcount : count ≠ 0) (hcost : rewardCost config count = .ok cost)
    (hrich : cost ≤ distributorBalance w) : ¬ MakesNone w config count := by
  rintro (hzero | hzero | ⟨other, hother, hpoor⟩)
  · exact hreward hzero
  · exact hcount hzero
  · cases hcost.symm.trans hother
    exact BitVec.not_lt.mpr hrich hpoor

/-- **What the proposer makes**: all of the transfers, or none. -/
theorem buildRewardTransactions_ok (hconfig : w.caches.getConfig = .ok config)
    (hstaking : w.caches.getStakingInfo = .ok stakingInfo)
    (hhead : w.db.chain.blockHeadHeader n.clusterAddress = .ok head)
    (hvoters : n.lastBlockVoters w config = .ok voters)
    (h : buildRewardTransactions n.platform.rt.crypto w head.blockHash = .ok txs) :
    let nodes := voters.filterMap stakingInfo.nodeBehind
    (txs = [] ∧ MakesNone w config nodes.length) ∨
      (config.validatedBlockReward ≠ 0 ∧ Forall₂ (IsRewardFor config stakingInfo) txs nodes ∧
        nodes ≠ [] ∧ ∃ cost, rewardCost config nodes.length = .ok cost ∧ cost ≤ distributorBalance w) := by
  intro nodes
  rw [buildRewardTransactions, hconfig] at h
  change (if config.validatedBlockReward = 0 then _ else _) = _ at h
  split at h
  · next hzero =>
      cases h
      exact .inl ⟨rfl, .inl hzero⟩
  next hreward =>
  rw [hstaking] at h
  rw [Node.lastBlockVoters, hhead] at hvoters
  change (match w.db.chain.loadVoteResult head.blockHash with
    | .error _ => _
    | .ok _ => _) = _ at h
  change (match w.db.chain.loadVoteResult head.blockHash with
    | .error _ => _
    | .ok _ => _) = _ at hvoters
  cases hstored : w.db.chain.loadVoteResult head.blockHash with
  | error e =>
    rw [hstored] at h hvoters
    cases h
    cases hvoters
    exact .inl ⟨rfl, .inr (.inl rfl)⟩
  | ok voteResult =>
    rw [hstored] at h hvoters
    obtain ⟨addresses, haddresses, hvoters⟩ := Except.bind_eq_ok.mp hvoters
    cases hvoters
    obtain ⟨feeLimit, hfee, h⟩ := Except.bind_eq_ok.mp h
    obtain ⟨made, hmade, h⟩ := Except.bind_eq_ok.mp h
    have hrewards := rewardTxs_ok haddresses hmade
    have hlength : made.length = nodes.length := hrewards.length_eq
    have hcost : rewardCost config nodes.length =
        totalCost config.validatedBlockReward feeLimit made.length := by
      rw [rewardCost, hfee, hlength]
      rfl
    split at h
    · next hempty =>
        obtain rfl : made = [] := isEmpty_iff.mp hempty
        cases h
        exact .inl ⟨rfl, .inr (.inl hlength.symm)⟩
    next hsome =>
    obtain ⟨cost, hfound, h⟩ := Except.bind_eq_ok.mp h
    rw [← hcost] at hfound
    cases h
    split
    · next hpoor => exact .inl ⟨rfl, .inr (.inr ⟨cost, hfound, hpoor⟩)⟩
    · next hrich =>
        refine .inr ⟨hreward, hrewards, fun hnone => ?_, cost, hfound, BitVec.not_lt.mp hrich⟩
        rw [hnone] at hlength
        exact hsome (isEmpty_iff.mpr (length_eq_zero_iff.mp hlength))

/-! ## What the validator accepts -/

theorem getEligibleValidatorsForReward_eq (hconfig : w.caches.getConfig = .ok config)
    {voters : Finset Address} (hvoters : voters ≠ ∅) :
    Validate.getEligibleValidatorsForReward w voters = (do
      let cost ← rewardCost config voters.card
      pure (if distributorBalance w < cost then ∅ else voters)) := by
  rw [Validate.getEligibleValidatorsForReward, if_neg hvoters, hconfig, rewardCost]
  cases Validate.rewardFee with
  | error e => rfl
  | ok feeLimit =>
    show (_ >>= fun _ => _) = (totalCost config.validatedBlockReward feeLimit voters.card >>= fun _ => _)
    unfold totalCost
    simp only [bind_assoc]
    rfl

end Mempool

namespace Validate

open Mempool

variable {v : Validate} {w : World} {config : RuntimeConfig} {stakingInfo : RuntimeStakingInfo}
  {last : BlockHeader}

section

variable {v : Validate}
  (hdistributor : addressOf v.rt.crypto (addressBytes SYSTEM_REWARDS_DISTRIBUTOR) = .ok SYSTEM_REWARDS_DISTRIBUTOR)

include hdistributor

/-- After transactions of users, the transfers are the rewards of a block. -/
theorem rewardsOf_append {users : List Transaction} {nodes : List Address}
    (husers : ∀ tx ∈ users, addressOf v.rt.crypto tx.verifyingKey ≠ .ok SYSTEM_REWARDS_DISTRIBUTOR)
    (h : Forall₂ (IsRewardFor config stakingInfo) txs nodes) : v.rewardsOf (users ++ txs) = txs := by
  have hnone : v.rewardsOf users = [] :=
    filter_eq_nil_iff.mpr fun tx htx hsender => husers tx htx (of_decide_eq_true hsender)
  have hall : v.rewardsOf txs = txs := by
    induction h with
    | nil => rfl
    | cons htx _ ih =>
      obtain ⟨wallet, nonce, feeLimit, -, rfl⟩ := htx
      rw [rewardsOf_cons_reward hdistributor, ih]
  rw [rewardsOf, filter_append]
  show v.rewardsOf users ++ v.rewardsOf txs = txs
  rw [hnone, hall, nil_append]

end

/-- **One reward for each of them.** The transfers pay a set of nodes when these are the nodes behind the
    transfers, each of them once. -/
theorem exists_paid_iff {nodes : List Address} {eligible : Finset Address}
    (hreward : config.validatedBlockReward ≠ 0) (h : Forall₂ (IsRewardFor config stakingInfo) txs nodes) :
    (∃ paid, Forall₂ (Pays config stakingInfo) txs paid ∧ paid.Nodup ∧ paid.toFinset = eligible) ↔
      nodes.Nodup ∧ nodes.toFinset = eligible := by
  have hpays : Forall₂ (Pays config stakingInfo) txs nodes := by
    refine h.imp fun tx node htx => ?_
    obtain ⟨wallet, nonce, feeLimit, hnode, rfl⟩ := htx
    exact ⟨hreward, wallet, rfl, hnode⟩
  constructor
  · rintro ⟨paid, hpaid, hnodup, hset⟩
    cases right_unique_forall₂' Pays.rightUnique hpaid hpays
    exact ⟨hnodup, hset⟩
  · rintro ⟨hnodup, hset⟩
    exact ⟨nodes, hpays, hnodup, hset⟩

theorem exists_paid_nil_iff {eligible : Finset Address} :
    (∃ paid, Forall₂ (Pays config stakingInfo) [] paid ∧ paid.Nodup ∧ paid.toFinset = eligible) ↔
      eligible = ∅ := by
  simp only [forall₂_nil_left_iff, exists_eq_left, nodup_nil, true_and, toFinset_nil]
  exact eq_comm

/-- When the transfers are those the validator waits for. Nobody voted, or the voters can be counted at
    their price. If the distributor could not pay all of them, the proposer must make no transfer; if it
    could, there is something to pay, nobody voted twice, and each voter is behind its own wallet. -/
def RewardsAgree (w : World) (config : RuntimeConfig) (stakingInfo : RuntimeStakingInfo)
    (voters : List Address) : Prop :=
  voters = [] ∨ ∃ cost, rewardCost config voters.toFinset.card = .ok cost ∧
    if distributorBalance w < cost then
      MakesNone w config (voters.countP fun a => (stakingInfo.nodes.lookup a).isSome)
    else
      config.validatedBlockReward ≠ 0 ∧ voters.Nodup ∧ ∀ a ∈ voters, stakingInfo.nodeBehind a = some a

theorem length_nodesBehind (stakingInfo : RuntimeStakingInfo) (voters : List Address) :
    (voters.filterMap stakingInfo.nodeBehind).length =
      voters.countP fun a => (stakingInfo.nodes.lookup a).isSome := by
  rw [length_filterMap_eq_countP]
  simp only [RuntimeStakingInfo.nodeBehind_isSome]

theorem rewardsAgree_iff (hconfig : w.caches.getConfig = .ok config)
    (hstaking : w.caches.getStakingInfo = .ok stakingInfo)
    (hhead : w.db.chain.blockHeadHeader n.clusterAddress = .ok head)
    (hvoters : n.lastBlockVoters w config = .ok voters)
    (h : buildRewardTransactions n.platform.rt.crypto w head.blockHash = .ok txs) :
    (∃ eligible, getEligibleValidatorsForReward w voters.toFinset = .ok eligible ∧
        ∃ paid, Forall₂ (Pays config stakingInfo) txs paid ∧ paid.Nodup ∧ paid.toFinset = eligible) ↔
      RewardsAgree w config stakingInfo voters := by
  have hmade := buildRewardTransactions_ok hconfig hstaking hhead hvoters h
  have hlength := length_nodesBehind stakingInfo voters
  by_cases hnone : voters = []
  · subst hnone
    refine iff_of_true ⟨∅, rfl, ?_⟩ (.inl rfl)
    rcases hmade with ⟨rfl, _⟩ | ⟨_, _, hnodes, _⟩
    · exact exists_paid_nil_iff.mpr rfl
    · exact absurd rfl hnodes
  have hsome : voters.toFinset ≠ ∅ := fun hempty => hnone ((toFinset_eq_empty_iff _).mp hempty)
  rw [getEligibleValidatorsForReward_eq hconfig hsome, RewardsAgree, or_iff_right hnone]
  cases hcost : rewardCost config voters.toFinset.card with
  | error e =>
    refine iff_of_false ?_ ?_
    · rintro ⟨_, heligible, _⟩
      cases heligible
    · rintro ⟨_, hfound, _⟩
      cases hfound
  | ok cost =>
    change (∃ eligible, (.ok (if distributorBalance w < cost then ∅ else voters.toFinset) :
      Except Error (Finset Address)) = .ok eligible ∧ _) ↔ _
    simp only [Except.ok.injEq, exists_eq_left']
    by_cases hpoor : distributorBalance w < cost
    · rw [if_pos hpoor, if_pos hpoor, ← hlength]
      rcases hmade with ⟨rfl, hmakes⟩ | ⟨hreward, hrewards, hnodes, cost', hcost', hrich⟩
      · exact iff_of_true (exists_paid_nil_iff.mpr rfl) hmakes
      · rw [exists_paid_iff hreward hrewards]
        refine iff_of_false ?_
          (not_makesNone hreward (mt length_eq_zero_iff.mp hnodes) hcost' hrich)
        rintro ⟨_, hset⟩
        exact hnodes ((toFinset_eq_empty_iff _).mp hset)
    · rw [if_neg hpoor, if_neg hpoor]
      rcases hmade with ⟨rfl, hmakes⟩ | ⟨hreward, hrewards, _⟩
      · refine iff_of_false ?_ ?_
        · exact fun h => hsome (exists_paid_nil_iff.mp h)
        · -- everybody could be paid, and the proposer counts as many as the validator
          rintro ⟨hreward, hnodup, hself⟩
          rw [RuntimeStakingInfo.nodesBehind_of_self hself] at hmakes
          rw [toFinset_card_of_nodup hnodup] at hcost
          exact not_makesNone hreward (mt length_eq_zero_iff.mp hnone) hcost
            (BitVec.not_lt.mp hpoor) hmakes
      · rw [exists_paid_iff hreward hrewards, and_iff_right hreward]
        exact RuntimeStakingInfo.nodesBehind_eq_iff

/-- **When the transfers of a proposer are accepted.** A block that is valid apart from its rewards, with
    transactions of users and the transfers that `build_reward_transactions` makes in the same state, is
    accepted as a proposal if and only if the two sides agree. -/
theorem validateProposedBlock_rewards_iff {n : Node} {choice : RowChoice} {payload : BlockPayload}
    {head : BlockHeader} {voters : List Address} {users rewards : List Transaction}
    (hkeys : ∀ address, n.platform.rt.crypto.publicKeyFromSlice (addressBytes address) = none)
    (hconfig : w.caches.getConfig = .ok config) (hstaking : w.caches.getStakingInfo = .ok stakingInfo)
    (hhead : w.db.chain.blockHeadHeader n.clusterAddress = .ok head)
    (hvoters : n.lastBlockVoters w config = .ok voters)
    (hrewards : buildRewardTransactions n.platform.rt.crypto w head.blockHash = .ok rewards)
    (htransactions : payload.block.transactions = users ++ rewards)
    (husers : ∀ tx ∈ users, addressOf n.platform.rt.crypto tx.verifyingKey ≠ .ok SYSTEM_REWARDS_DISTRIBUTOR)
    (hvalid : n.validate.validateBlock w payload n.clusterAddress payload.sender = .ok ())
    (hregular : payload.block.isSystemBlock = false)
    (hproposer : w.db.chain.isBlockProposer choice ⟨payload.block.blockHeader.clusterAddress,
      payload.block.blockHeader.epoch, payload.sender⟩ = .ok true) :
    (do
      let lastBlockVotesValidators ← n.getLastBlockVotesValidators w config
      n.validate.validateProposedBlock choice w payload n.clusterAddress lastBlockVotesValidators) =
        .ok () ↔ RewardsAgree w config stakingInfo voters := by
  have hlast : n.getLastBlockVotesValidators w config = .ok voters.toFinset := by
    rw [n.getLastBlockVotesValidators_eq, hvoters]
    rfl
  obtain ⟨hchecked⟩ := headerAndTransactionsChecked (validateBlock_ok hvalid)
  obtain ⟨hsignature, hvalid⟩ := Except.check_eq_ok.mp hvalid
  obtain ⟨address, haddress, hvalid⟩ := Except.bind_eq_ok.mp hvalid
  obtain ⟨hsender, _⟩ := Except.check_eq_ok.mp hvalid
  obtain rfl : address = payload.sender := of_decide_eq_true (Except.ensure_eq_ok.mp hsender)
  have hproposed : n.validate.validateProposedBlock choice w payload n.clusterAddress voters.toFinset =
      .ok () ↔ ∃ eligible, getEligibleValidatorsForReward w voters.toFinset = .ok eligible ∧
        n.validate.validateBlockHeaderAndTransactions w payload n.clusterAddress (some eligible) =
          .ok () := by
    unfold validateProposedBlock
    rw [haddress, hregular]
    change ((w.db.chain.isBlockProposer choice ⟨payload.block.blockHeader.clusterAddress,
      payload.block.blockHeader.epoch, payload.sender⟩) >>= _) = _ ↔ _
    rw [hproposer]
    change (n.validate.verifyBlockSignature payload >>= _) = _ ↔ _
    rw [hsignature, Except.ok_bind, Except.bind_eq_ok]
  -- an address is too short for a key, so that of the distributor stands for itself
  have hdistributor : addressOf n.platform.rt.crypto (addressBytes SYSTEM_REWARDS_DISTRIBUTOR) =
      .ok SYSTEM_REWARDS_DISTRIBUTOR := by
    rw [addressOf, hkeys]
    rfl
  have hpaid : n.validate.rewardsOf payload.block.transactions = rewards := by
    rw [htransactions]
    rcases buildRewardTransactions_ok hconfig hstaking hhead hvoters hrewards with ⟨rfl, -⟩ | ⟨-, hmade, -⟩
    · have hnone : Forall₂ (IsRewardFor config stakingInfo) [] [] := .nil
      exact rewardsOf_append hdistributor husers hnone
    · exact rewardsOf_append hdistributor husers hmade
  have hchecks : ∀ eligible, n.validate.validateBlockHeaderAndTransactions w payload n.clusterAddress
      (some eligible) = .ok () ↔ ∃ paid, Forall₂ (Pays config stakingInfo) rewards paid ∧ paid.Nodup ∧
        paid.toFinset = eligible := by
    intro eligible
    rw [hchecked.accepts_iff, validateBlockTxs_paid_iff, hpaid,
      and_iff_right (othersValid_of_validateBlockTxs_none hchecked.transactions),
      Except.ok.inj (hconfig.symm.trans hchecked.configCached),
      Except.ok.inj (hstaking.symm.trans hchecked.stakingInfoCached)]
  rw [hlast]
  change n.validate.validateProposedBlock choice w payload n.clusterAddress voters.toFinset = .ok () ↔ _
  simp only [hproposed, hchecks]
  exact rewardsAgree_iff hconfig hstaking hhead hvoters hrewards

/-! ## Rewards of two amounts -/

def paying (amount : Balance) : RuntimeConfig := ⟨[], 10, none, amount, none, some [], none, none, 2, 0⟩

/-- Node 1 with the wallet `7`. -/
def oneNode : RuntimeStakingInfo := .refresh ((∅ : Table Address NodePoolInfo).insert 1 ⟨100, 7, 10⟩)

/-- Node 1 voted for the head, and the distributor has plenty. -/
def rewarding (amount : Balance) : World :=
  let w := Small.atHead 98 [(1, 0)] [⟨0, 0, 9⟩]
  let vote := (Small.node 1 fun _ => []).voteFor { Small.header with blockNumber := 98 }
  let voteResult : VoteResult := ⟨⟨98, 0, 0, true, [vote]⟩, 9, [], Small.key 9⟩
  let distributor : AccountRow := ⟨.system, 1000, 0⟩
  { db :=
      { state := { StateTables.empty with
          account := (∅ : Table Address AccountRow).insert SYSTEM_REWARDS_DISTRIBUTOR distributor }
        chain := ((ChainTables.storeVoteResult voteResult).run w.db.chain).2 }
    caches := { w.caches with
      config := some (paying amount)
      stakingInfo := some oneNode } }

/-- The next block, with the given transactions. -/
def blockWith (txs : List Transaction) : BlockPayload :=
  let payload := Small.proposal 9 99 0 0
  { payload with
    block := { payload.block with
      blockHeader := { payload.block.blockHeader with numTransactions := Int32.ofNat txs.length }
      transactions := txs } }

/-- The node that is asked to vote. -/
def votingNode : Node := Small.node 2 fun _ => []

/-- A reward of 5 is made for the voter, and accepted. -/
theorem validateProposedBlock_rewarded :
    let rewards := [newSystem SYSTEM_REWARDS_DISTRIBUTOR 1 (.nativeTokenTransfer 7 5) 3]
    buildRewardTransactions Small.crypto (rewarding 5) 0 = .ok rewards ∧
      (do
        let lastBlockVotesValidators ← votingNode.getLastBlockVotesValidators (rewarding 5) (paying 5)
        votingNode.validate.validateProposedBlock .first (rewarding 5) (blockWith rewards)
          votingNode.clusterAddress lastBlockVotesValidators) = .ok () := by
  intro rewards
  have hrewards : buildRewardTransactions Small.crypto (rewarding 5) 0 = .ok rewards := by decide +kernel
  have hkeys : ∀ address, Small.crypto.publicKeyFromSlice (addressBytes address) = none := by
    intro address
    have hlength : (addressBytes address).length = 20 := by simp [addressBytes, toBytes]
    show (if (addressBytes address).length = 33 then some (addressBytes address) else none) = none
    rw [hlength]
    rfl
  have hhead : (rewarding 5).db.chain.blockHeadHeader votingNode.clusterAddress =
      .ok { Small.header with blockNumber := 98 } := by decide +kernel
  have hagree : RewardsAgree (rewarding 5) (paying 5) oneNode [1] := by
    refine .inr ⟨8, (by decide +kernel), ?_⟩
    rw [if_neg (by decide +kernel)]
    refine ⟨by decide, nodup_singleton 1, fun a ha => ?_⟩
    rw [mem_singleton.mp ha]
    exact (by decide +kernel)
  refine ⟨hrewards, ?_⟩
  have hiff := @validateProposedBlock_rewards_iff (rewarding 5) (paying 5) _ votingNode .first
    (blockWith rewards) _ [1] [] rewards hkeys rfl rfl hhead (by decide +kernel) hrewards rfl
    (fun _ h => absurd h not_mem_nil) (by decide +kernel) rfl (by decide +kernel)
  exact hiff.mpr hagree

/-- With a reward of nothing no transfer is made, and the block without one is refused. -/
theorem validateProposedBlock_unrewarded :
    buildRewardTransactions Small.crypto (rewarding 0) 0 = .ok [] ∧
      votingNode.validate.validateBlock (rewarding 0) (blockWith []) votingNode.clusterAddress
        (blockWith []).sender = .ok () ∧
      (do
        let lastBlockVotesValidators ← votingNode.getLastBlockVotesValidators (rewarding 0) (paying 0)
        votingNode.validate.validateProposedBlock .first (rewarding 0) (blockWith [])
          votingNode.clusterAddress lastBlockVotesValidators) =
        .error "Invalid reward distribution: No. of remaining validators: 1" := by
  decide +kernel

end Validate

end L1xCore
