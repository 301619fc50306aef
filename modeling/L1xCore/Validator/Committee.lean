import L1xCore.RuntimeConfig.ConfigCache
import L1xCore.Validator.ValidatorManager
import Mathlib.Data.Set.Card

/-!
# `Validator.Committee` — the same committee on every node

`select_validators_for_epoch` goes through the nodes of the staking information in the order of a hash map,
which differs from node to node. The rest of the function takes the order out again: what a round finds
depends on the node of that round only, and the candidates are sorted by their addresses, of which no two are
the same. So the selected validators are the same for every order (`selectFrom_perm`), no address is selected
twice, and their number is the one that the configuration asks for, as far as there are nodes.
-/

namespace L1xCore

open Except List

variable {validator : Validator} {node : Sigma fun _ : Address => NodePoolInfo}
  {nodes : List (Sigma fun _ : Address => NodePoolInfo)} {eligible : List Validator} {address : Address}
  {selected : List Validator}

/-! ## Sorting by a key -/

/-- Sorting by distinct addresses forgets the order. -/
theorem insertionSort_address_eq {l l' : List Validator} (hperm : l'.Perm l)
    (hnodup : (l.map (·.address)).Nodup) :
    l'.insertionSort (·.address ≤ ·.address) = l.insertionSort (·.address ≤ ·.address) := by
  refine Perm.eq_of_pairwise (fun v v' hv hv' hle hge => ?_) (pairwise_insertionSort _ _)
    (pairwise_insertionSort _ _)
    (((perm_insertionSort _ _).trans hperm).trans (perm_insertionSort _ _).symm)
  rw [mem_insertionSort] at hv hv'
  exact inj_on_of_nodup_map hnodup (hperm.mem_iff.mp hv) hv' (BitVec.le_antisymm hle hge)

namespace ValidatorManager

variable {NodeHealth : Type} (m : ValidatorManager NodeHealth) (w : World) (config : RuntimeConfig)
  (lastBlockHeader : BlockHeader) (epoch : Epoch)

/-- The selection when the nodes are visited in this order. -/
def selectFrom (nodes : List (Sigma fun _ : Address => NodePoolInfo)) : Except Error (List Validator) := do
  let eligible ← m.eligibleValidators w config lastBlockHeader epoch nodes
  let selected := withFallback config lastBlockHeader epoch eligible
  pure (m.partialShuffle (m.calculateSeed lastBlockHeader.blockHash epoch) selected (maxValidators config))

/-- **A node that can be selected for what it has**: enough stake, a record with a peer id, a health report for
    the epoch of the head, a score above the threshold, and a place in the lists. -/
def Eligible (stakingInfo : RuntimeStakingInfo) (address : Address) : Prop :=
  ∃ info peerId health xscore, stakingInfo.nodes.lookup address = some info ∧
    address ∉ config.orgNodes ∧ info.minPoolBalance ≤ info.stakedBalance ∧
    m.loadNodeInfo w address = .ok peerId ∧ peerId.isEmpty = false ∧
    m.loadNodeHealth w peerId (Node.calculateCurrentEpoch lastBlockHeader.blockNumber) = .ok (some health) ∧
    m.calculateXscore w address lastBlockHeader health = .ok xscore ∧
    config.xscoreThreshold < xscore ∧ isAllowed config address = true

/-- What one round finds, an error being nothing. -/
def found (node : Sigma fun _ : Address => NodePoolInfo) : Option Validator :=
  (m.candidate w config lastBlockHeader epoch node.1 node.2).toOption.join

variable {m w config lastBlockHeader epoch}

/-! ## The candidates -/

/-- **One round of the loop.** -/
theorem candidate_eq_some {info : NodePoolInfo} :
    m.candidate w config lastBlockHeader epoch address info = .ok (some validator) ↔
      address ∉ config.orgNodes ∧ info.minPoolBalance ≤ info.stakedBalance ∧
        ∃ peerId health xscore, m.loadNodeInfo w address = .ok peerId ∧ peerId.isEmpty = false ∧
          m.loadNodeHealth w peerId (Node.calculateCurrentEpoch lastBlockHeader.blockNumber) =
            .ok (some health) ∧
          m.calculateXscore w address lastBlockHeader health = .ok xscore ∧
          validator = ⟨address, lastBlockHeader.clusterAddress, epoch, info.stakedBalance, xscore⟩ := by
  unfold candidate
  constructor
  · intro h
    split at h
    · cases h
    next hskip =>
    obtain ⟨horg, hstake⟩ := not_or.mp hskip
    refine ⟨horg, BitVec.not_lt.mp hstake, ?_⟩
    split at h
    · cases h
    next peerId hpeer =>
    split at h
    · cases h
    next hempty =>
    obtain ⟨health, hhealth, h⟩ := bind_eq_ok.mp h
    split at h
    · cases h
    next health =>
    obtain ⟨xscore, hxscore, h⟩ := bind_eq_ok.mp h
    cases h
    exact ⟨peerId, health, xscore, hpeer, Bool.eq_false_of_not_eq_true hempty, hhealth, hxscore, rfl⟩
  · rintro ⟨horg, hstake, peerId, health, xscore, hpeer, hempty, hhealth, hxscore, rfl⟩
    rw [if_neg (not_or.mpr ⟨horg, BitVec.not_lt.mpr hstake⟩), hpeer]
    dsimp only
    rw [hempty, hhealth]
    show (m.calculateXscore w address lastBlockHeader health >>= _) = _
    rw [hxscore]
    rfl

theorem found_eq_some :
    m.found w config lastBlockHeader epoch node = some validator ↔
      m.candidate w config lastBlockHeader epoch node.1 node.2 = .ok (some validator) := by
  unfold found
  cases m.candidate w config lastBlockHeader epoch node.1 node.2 with
  | error | ok => simp [Except.toOption]

theorem found_of_candidate {found : Option Validator}
    (h : m.candidate w config lastBlockHeader epoch node.1 node.2 = .ok found) :
    m.found w config lastBlockHeader epoch node = found := by
  unfold ValidatorManager.found
  rw [h]
  rfl

theorem address_of_found (h : m.found w config lastBlockHeader epoch node = some validator) :
    validator.address = node.1 := by
  obtain ⟨-, -, _, _, _, -, -, -, -, rfl⟩ := candidate_eq_some.mp (found_eq_some.mp h)
  rfl

/-- **The loop finds what its rounds find**, if none of them fails. -/
theorem eligibleValidators_eq_ok :
    m.eligibleValidators w config lastBlockHeader epoch nodes = .ok eligible ↔
      (∀ node ∈ nodes, ∃ found, m.candidate w config lastBlockHeader epoch node.1 node.2 = .ok found) ∧
        eligible = nodes.filterMap (m.found w config lastBlockHeader epoch) := by
  induction nodes generalizing eligible with
  | nil =>
    constructor
    · intro h
      cases h
      exact ⟨fun _ hnode => absurd hnode not_mem_nil, rfl⟩
    · rintro ⟨-, rfl⟩
      rfl
  | cons node nodes ih =>
    rw [eligibleValidators, bind_eq_ok]
    constructor
    · rintro ⟨found, hfound, h⟩
      obtain ⟨others, hothers, h⟩ := bind_eq_ok.mp h
      cases h
      obtain ⟨hall, rfl⟩ := ih.mp hothers
      refine ⟨forall_mem_cons.mpr ⟨⟨found, hfound⟩, hall⟩, ?_⟩
      rw [filterMap_cons, found_of_candidate hfound]
      cases found <;> rfl
    · rintro ⟨hall, rfl⟩
      obtain ⟨⟨found, hfound⟩, hall⟩ := forall_mem_cons.mp hall
      refine ⟨found, hfound, bind_eq_ok.mpr ⟨_, ih.mpr ⟨hall, rfl⟩, ?_⟩⟩
      rw [filterMap_cons, found_of_candidate hfound]
      cases found <;> rfl

theorem map_address_found :
    ((nodes.filterMap (m.found w config lastBlockHeader epoch)).map (·.address)).Sublist
      (nodes.map (·.1)) := by
  induction nodes with
  | nil => exact .slnil
  | cons node nodes ih =>
    rw [filterMap_cons, map_cons]
    cases hfound : m.found w config lastBlockHeader epoch node with
    | none => exact ih.cons _
    | some validator =>
      rw [map_cons, address_of_found hfound]
      exact ih.cons_cons _

theorem nodup_found (hkeys : nodes.NodupKeys) :
    ((nodes.filterMap (m.found w config lastBlockHeader epoch)).map (·.address)).Nodup :=
  .sublist map_address_found hkeys

/-! ## The selection -/

theorem selectFrom_eq_ok :
    m.selectFrom w config lastBlockHeader epoch nodes = .ok selected ↔
      (∀ node ∈ nodes, ∃ found, m.candidate w config lastBlockHeader epoch node.1 node.2 = .ok found) ∧
        selected = m.partialShuffle (m.calculateSeed lastBlockHeader.blockHash epoch)
          (withFallback config lastBlockHeader epoch
            (nodes.filterMap (m.found w config lastBlockHeader epoch))) (maxValidators config) := by
  unfold selectFrom
  rw [bind_eq_ok]
  constructor
  · rintro ⟨eligible, heligible, h⟩
    obtain ⟨hall, rfl⟩ := eligibleValidators_eq_ok.mp heligible
    cases h
    exact ⟨hall, rfl⟩
  · rintro ⟨hall, rfl⟩
    exact ⟨_, eligibleValidators_eq_ok.mpr ⟨hall, rfl⟩, rfl⟩

/-- Those of the candidates that are left after the score and the lists. -/
def chosen (config : RuntimeConfig) (eligible : List Validator) : List Validator :=
  eligible.filter fun v => config.xscoreThreshold < v.xscore ∧ isAllowed config v.address

theorem nodup_chosen (hnodup : (eligible.map (·.address)).Nodup) :
    ((chosen config eligible).map (·.address)).Nodup :=
  hnodup.sublist (filter_sublist.map _)

theorem withFallback_eq (eligible : List Validator) :
    withFallback config lastBlockHeader epoch eligible =
      (chosen config eligible).insertionSort (·.address ≤ ·.address) ++
        (config.orgNodes.take (maxValidators config - (chosen config eligible).length)).map
          (orgValidator lastBlockHeader epoch) := by
  have hlength : ((chosen config eligible).insertionSort (·.address ≤ ·.address)).length =
      (chosen config eligible).length := length_insertionSort _ _
  rw [← hlength]
  rfl

/-- **No trace of the order is left.** -/
theorem selectFrom_perm {nodes' : List (Sigma fun _ : Address => NodePoolInfo)} (hperm : nodes'.Perm nodes)
    (hkeys : nodes.NodupKeys) :
    m.selectFrom w config lastBlockHeader epoch nodes' = .ok selected ↔
      m.selectFrom w config lastBlockHeader epoch nodes = .ok selected := by
  have hfound := hperm.filterMap (m.found w config lastBlockHeader epoch)
  have hchosen : (chosen config _).Perm (chosen config _) := hfound.filter _
  rw [selectFrom_eq_ok, selectFrom_eq_ok, withFallback_eq, withFallback_eq, hchosen.length_eq,
    insertionSort_address_eq hchosen (nodup_chosen (nodup_found hkeys))]
  simp only [hperm.mem_iff]

/-! ## Who is selected -/

section

variable {stakingInfo : RuntimeStakingInfo}

theorem mem_map_chosen :
    address ∈ (chosen config (stakingInfo.nodes.entries.filterMap
        (m.found w config lastBlockHeader epoch))).map (·.address) ↔
      m.Eligible w config lastBlockHeader stakingInfo address := by
  unfold chosen Eligible
  simp only [mem_map, mem_filter, mem_filterMap, decide_eq_true_iff]
  constructor
  · rintro ⟨validator, ⟨⟨⟨node, info⟩, hnode, hfound⟩, hscore, hallowed⟩, rfl⟩
    obtain ⟨horg, hstake, peerId, health, xscore, hpeer, hempty, hhealth, hxscore, rfl⟩ :=
      candidate_eq_some.mp (found_eq_some.mp hfound)
    exact ⟨info, peerId, health, xscore, AList.mem_entries.mp hnode, horg, hstake, hpeer, hempty, hhealth,
      hxscore, hscore, hallowed⟩
  · rintro ⟨info, peerId, health, xscore, hnode, horg, hstake, hpeer, hempty, hhealth, hxscore, hscore,
      hallowed⟩
    refine ⟨⟨address, lastBlockHeader.clusterAddress, epoch, info.stakedBalance, xscore⟩,
      ⟨⟨⟨address, info⟩, AList.mem_entries.mpr hnode, ?_⟩, hscore, hallowed⟩, rfl⟩
    exact found_eq_some.mpr (candidate_eq_some.mpr
      ⟨horg, hstake, peerId, health, xscore, hpeer, hempty, hhealth, hxscore, rfl⟩)

/-- The nodes of the organisation come after candidates that are none. -/
theorem nodup_withFallback (hnodup : (eligible.map (·.address)).Nodup)
    (hothers : ∀ validator ∈ eligible, validator.address ∉ config.orgNodes) (horgs : config.orgNodes.Nodup) :
    ((withFallback config lastBlockHeader epoch eligible).map (·.address)).Nodup := by
  have hsorted : (((chosen config eligible).insertionSort (·.address ≤ ·.address)).map (·.address)).Perm
      ((chosen config eligible).map (·.address)) := (perm_insertionSort _ _).map _
  have hfallback : ∀ amount, ((config.orgNodes.take amount).map (orgValidator lastBlockHeader epoch)).map
      (·.address) = config.orgNodes.take amount := by
    intro amount
    rw [map_map]
    exact map_id _
  rw [withFallback_eq, map_append, hfallback]
  refine .append (hsorted.nodup_iff.mpr (nodup_chosen hnodup))
    (horgs.sublist (take_sublist _ _)) ?_
  intro address haddress horg
  obtain ⟨validator, hvalidator, rfl⟩ := mem_map.mp (hsorted.mem_iff.mp haddress)
  exact hothers validator (mem_of_mem_filter hvalidator) (mem_of_mem_take horg)

theorem length_withFallback (eligible : List Validator) :
    min (maxValidators config) (withFallback config lastBlockHeader epoch eligible).length =
      min (maxValidators config) ((chosen config eligible).length + config.orgNodes.length) := by
  rw [withFallback_eq, length_append, length_insertionSort, length_map, length_take]
  omega

/-- **All nodes select the same committee.** The selection is the same for every order of the nodes; it has no
    address twice; it has as many validators as the configuration asks for, two at least, or all there are;
    and they are nodes of the organisation or eligible. -/
structure Selects (m : ValidatorManager NodeHealth) (w : World) (config : RuntimeConfig)
    (stakingInfo : RuntimeStakingInfo) (lastBlockHeader : BlockHeader) (epoch : Epoch) : Prop where
  anyOrder : ∀ nodes, nodes.Perm stakingInfo.nodes.entries → ∀ selected,
    m.selectFrom w config lastBlockHeader epoch nodes = .ok selected ↔
      m.selectValidatorsForEpoch w lastBlockHeader epoch = .ok selected
  distinct : ∀ selected, m.selectValidatorsForEpoch w lastBlockHeader epoch = .ok selected →
    (selected.map (·.address)).Nodup
  size : ∀ selected, m.selectValidatorsForEpoch w lastBlockHeader epoch = .ok selected →
    selected.length = min (max config.maxValidators.toNat DEFAULT_MAX_VALIDATORS.toNat)
      ({address | m.Eligible w config lastBlockHeader stakingInfo address}.ncard + config.orgNodes.length)
  admitted : ∀ selected, m.selectValidatorsForEpoch w lastBlockHeader epoch = .ok selected →
    ∀ validator ∈ selected, validator.address ∈ config.orgNodes ∨
      m.Eligible w config lastBlockHeader stakingInfo validator.address

/-- The eligible nodes are counted by the candidates that are left. -/
theorem ncard_eligible :
    {address | m.Eligible w config lastBlockHeader stakingInfo address}.ncard =
      (chosen config (stakingInfo.nodes.entries.filterMap
        (m.found w config lastBlockHeader epoch))).length := by
  have hset : {address | m.Eligible w config lastBlockHeader stakingInfo address} =
      ((chosen config (stakingInfo.nodes.entries.filterMap
        (m.found w config lastBlockHeader epoch))).map (·.address)).toFinset := by
    ext address
    rw [coe_toFinset, Set.mem_ofPred_eq, Set.mem_ofPred_eq, mem_map_chosen]
  rw [hset, Set.ncard_coe_finset,
    toFinset_card_of_nodup (nodup_chosen (nodup_found stakingInfo.nodes.nodupKeys)), length_map]

/-- For every node health, score and shuffle, every world whose caches are filled, every head and every epoch. -/
theorem selects_committee (m : ValidatorManager NodeHealth) (w : World) (parsed : ConfigVersion1)
    (stakingInfo : RuntimeStakingInfo) (lastBlockHeader : BlockHeader) (epoch : Epoch)
    (hconfig : w.caches.getConfig = .ok (.ofVersion1 parsed))
    (hinfo : w.caches.getStakingInfo = .ok stakingInfo) :
    m.Selects w (.ofVersion1 parsed) stakingInfo lastBlockHeader epoch := by
  have hkeys := stakingInfo.nodes.nodupKeys
  have horgs : (RuntimeConfig.ofVersion1 parsed).orgNodes.Nodup := nodup_btreeSet
  have hselect : m.selectValidatorsForEpoch w lastBlockHeader epoch =
      m.selectFrom w (.ofVersion1 parsed) lastBlockHeader epoch stakingInfo.nodes.entries := by
    unfold selectValidatorsForEpoch
    rw [hconfig, hinfo]
    rfl
  refine ⟨fun nodes hperm selected => ?_, fun selected h => ?_, fun selected h => ?_, fun selected h => ?_⟩
  · rw [hselect]
    exact selectFrom_perm hperm hkeys
  all_goals
    rw [hselect] at h
    obtain ⟨-, rfl⟩ := selectFrom_eq_ok.mp h
  · obtain ⟨part, hperm, hsublist⟩ := m.partialShuffle_subperm _ _ _
    refine (hperm.map _).nodup_iff.mp (.sublist (hsublist.map _) ?_)
    refine nodup_withFallback (nodup_found hkeys) ?_ horgs
    intro validator hvalidator
    obtain ⟨node, -, hfound⟩ := mem_filterMap.mp hvalidator
    rw [address_of_found hfound]
    exact (candidate_eq_some.mp (found_eq_some.mp hfound)).1
  · rw [m.length_partialShuffle, length_withFallback, ncard_eligible]
    rfl
  · intro validator hvalidator
    have hmem := (m.partialShuffle_subperm _ _ _).subset hvalidator
    rw [withFallback_eq] at hmem
    rcases mem_append.mp hmem with hmem | hmem
    · rw [mem_insertionSort] at hmem
      exact .inr (mem_map_chosen.mp (mem_map_of_mem hmem))
    · obtain ⟨address, haddress, rfl⟩ := mem_map.mp hmem
      exact .inl (mem_of_mem_take haddress)

end

/-! ## A committee of two -/

/-- Every node has a record and a health report, and a score of a half. -/
def healthyManager : ValidatorManager Unit where
  crypto := Small.crypto
  loadNodeInfo := fun _ _ => .ok "peer"
  loadNodeHealth := fun _ _ _ => .ok (some ())
  calculateXscore := fun _ _ _ _ => .ok (1 / 2)
  partialShuffle := fun _ validators amount => validators.take amount
  partialShuffle_subperm := fun _ => take_subperm
  length_partialShuffle := fun _ _ _ => length_take

/-- Three nodes of the organisation, room for two validators. -/
def threeNodes : ConfigVersion1 where
  orgNodes := [3, 1, 2]
  whitelistedNodes := none
  whitelistedBlockProposers := none
  blacklistedNodes := some [9]
  blacklistedBlockProposers := none
  maxBlockHeight := none
  maxValidators := 0
  xscoreThreshold := 0
  minBalance := 10
  validatedBlockReward := 0

/-- The nodes 7, 8 and 9, the second of which has too little stake. -/
def threeStakes : RuntimeStakingInfo :=
  .refresh (((AList.insert 7 ⟨20, 107, 10⟩ ∅).insert 8 ⟨5, 108, 10⟩).insert 9 ⟨20, 109, 10⟩)

def staked : World :=
  ⟨⟨StateTables.empty, ChainTables.empty⟩, ⟨some (.ofVersion1 threeNodes), none, some threeStakes⟩⟩

/-- Node 7 is selected, and one node of the organisation. -/
theorem selects_nodeSeven :
    healthyManager.selectValidatorsForEpoch staked Small.header 2 =
      .ok [⟨7, 0, 2, 20, 1 / 2⟩, ⟨1, 0, 2, 0, 1⟩] ∧
    healthyManager.Selects staked (.ofVersion1 threeNodes) threeStakes Small.header 2 :=
  ⟨by decide +kernel, selects_committee healthyManager staked threeNodes threeStakes Small.header 2 rfl rfl⟩

end ValidatorManager

end L1xCore
