import L1xCore.Consensus.PendingBlocks

/-!
# `Validator.ValidatorManager` — the validators of an epoch

`validator/src/validator_manager.rs`: nodes with enough stake, a health report and a good score, filled up
with nodes of the organisation, and a random choice among them. The records of nodes, the floating-point
score and the shuffle of the `rand` crate are parameters.
-/

namespace L1xCore

open Except

def DEFAULT_MAX_VALIDATORS : BitVec 64 := 2

/-- What the selection is built on. -/
structure ValidatorManager (NodeHealth : Type) where
  crypto : Crypto
  /-- The peer id in the record of a node. -/
  loadNodeInfo : World → Address → Except Error String
  loadNodeHealth : World → String → Epoch → Except Error (Option NodeHealth)
  calculateXscore : World → Address → BlockHeader → NodeHealth → Except Error ℚ
  /-- The first part of `partial_shuffle` with a generator of the given seed: that many elements of the
      list, or all of them. -/
  partialShuffle : BitVec 64 → List Validator → Nat → List Validator
  partialShuffle_subperm : ∀ seed validators amount,
    (partialShuffle seed validators amount).Subperm validators
  length_partialShuffle : ∀ seed validators amount,
    (partialShuffle seed validators amount).length = min amount validators.length

namespace ValidatorManager

/-- The first elements as they are will do for a shuffle. -/
theorem take_subperm (validators : List Validator) (amount : Nat) :
    (validators.take amount).Subperm validators :=
  (List.take_sublist amount validators).subperm

variable {NodeHealth : Type} (m : ValidatorManager NodeHealth) (w : World) (config : RuntimeConfig)
  (lastBlockHeader : BlockHeader) (epoch : Epoch)

/-- The first eight bytes of the hash. -/
def calculateSeed (lastBlockHash : BlockHash) (currentEpoch : Epoch) : BitVec 64 :=
  (m.crypto.sha256 (toBytes 32 lastBlockHash ++ toBytes 8 currentEpoch)).extractLsb' 192 64

/-- One round of the loop over the nodes: a candidate, or nobody. -/
def candidate (nodeAddress : Address) (info : NodePoolInfo) : Except Error (Option Validator) :=
  if nodeAddress ∈ config.orgNodes ∨ info.stakedBalance < info.minPoolBalance then .ok none
  else
    match m.loadNodeInfo w nodeAddress with
    -- only a warning
    | .error _ => .ok none
    | .ok peerId =>
      if peerId.isEmpty then .ok none
      else do
        let currentEpoch := Node.calculateCurrentEpoch lastBlockHeader.blockNumber
        let health ← m.loadNodeHealth w peerId currentEpoch
        match health with
        | none => .ok none
        | some health => do
          let xscore ← m.calculateXscore w nodeAddress lastBlockHeader health
          .ok (some ⟨nodeAddress, lastBlockHeader.clusterAddress, epoch, info.stakedBalance, xscore⟩)

def eligibleValidators :
    List (Sigma fun _ : Address => NodePoolInfo) → Except Error (List Validator)
  | [] => pure []
  | node :: nodes => do
    let found ← m.candidate w config lastBlockHeader epoch node.1 node.2
    let others ← eligibleValidators nodes
    pure (found.toList ++ others)

/-- The white list decides if there is one, and the black list otherwise. -/
def isAllowed (address : Address) : Bool :=
  match config.whitelistedNodes, config.blacklistedNodes with
  | some whitelisted, _ => address ∈ whitelisted
  | none, some blacklisted => address ∉ blacklisted
  | none, none => true

/-- A node of the organisation, marked by its stake and score. -/
def orgValidator (address : Address) : Validator :=
  ⟨address, lastBlockHeader.clusterAddress, epoch, 0, 1⟩

def maxValidators : Nat := max config.maxValidators.toNat DEFAULT_MAX_VALIDATORS.toNat

/-- The candidates in the order of their addresses, and nodes of the organisation if there are too few. -/
def withFallback (eligible : List Validator) : List Validator :=
  let selected := (eligible.filter fun v => config.xscoreThreshold < v.xscore ∧ isAllowed config v.address)
    |>.insertionSort (·.address ≤ ·.address)
  selected ++ (config.orgNodes.take (maxValidators config - selected.length)).map
    (orgValidator lastBlockHeader epoch)

/-- `select_validators_for_epoch`. -/
def selectValidatorsForEpoch : Except Error (List Validator) := do
  let config ← w.caches.getConfig
  let stakingInfo ← w.caches.getStakingInfo
  let eligible ← m.eligibleValidators w config lastBlockHeader epoch stakingInfo.nodes.entries
  let selected := withFallback config lastBlockHeader epoch eligible
  let seed := m.calculateSeed lastBlockHeader.blockHash epoch
  pure (m.partialShuffle seed selected (maxValidators config))

/-! ## The epoch of the selected validators -/

variable {m w config lastBlockHeader epoch}

theorem eligibleValidators_epoch {nodes : List (Sigma fun _ : Address => NodePoolInfo)}
    {eligible : List Validator}
    (h : m.eligibleValidators w config lastBlockHeader epoch nodes = .ok eligible) :
    ∀ validator ∈ eligible, validator.epoch = epoch := by
  induction nodes generalizing eligible with
  | nil =>
    cases h
    intro validator hvalidator
    cases hvalidator
  | cons node nodes ih =>
    obtain ⟨found, hfound, h⟩ := bind_eq_ok.mp h
    obtain ⟨others, hothers, h⟩ := bind_eq_ok.mp h
    cases h
    intro validator hvalidator
    rcases List.mem_append.mp hvalidator with hmem | hmem
    · rw [Option.mem_toList] at hmem
      rw [hmem] at hfound
      unfold candidate at hfound
      split at hfound
      · cases hfound
      split at hfound
      · cases hfound
      split at hfound
      · cases hfound
      obtain ⟨health, _, hfound⟩ := bind_eq_ok.mp hfound
      split at hfound
      · cases hfound
      obtain ⟨xscore, _, hfound⟩ := bind_eq_ok.mp hfound
      cases hfound
      rfl
    · exact ih hothers validator hmem

/-- **Every selected validator is of the epoch it was selected for.** -/
theorem selectValidatorsForEpoch_epoch {selected : List Validator}
    (h : m.selectValidatorsForEpoch w lastBlockHeader epoch = .ok selected) :
    ∀ validator ∈ selected, validator.epoch = epoch := by
  obtain ⟨config, _, h⟩ := bind_eq_ok.mp h
  obtain ⟨stakingInfo, _, h⟩ := bind_eq_ok.mp h
  obtain ⟨eligible, heligible, h⟩ := bind_eq_ok.mp h
  cases h
  intro validator hvalidator
  have hmem := (m.partialShuffle_subperm _ _ _).subset hvalidator
  rcases List.mem_append.mp hmem with hmem | hmem
  · have hfiltered := (List.mem_insertionSort _).mp hmem
    exact eligibleValidators_epoch heligible validator (List.mem_of_mem_filter hfiltered)
  · obtain ⟨_, _, rfl⟩ := List.mem_map.mp hmem
    rfl

end ValidatorManager

end L1xCore
