import L1xCore.Lib.Table
import L1xCore.Primitives
import Mathlib.Data.Rat.Defs

/-!
# `System.RuntimeConfig` — the process-wide configuration caches

`runtime_config` keeps three caches, filled from system contracts: the runtime configuration, the deny
lists and the staking information. A cache that has not been filled yet is an error to whoever asks.
Only what the modelled code reads is kept.
-/

namespace L1xCore

structure RuntimeConfig where
  /-- In ascending order. -/
  orgNodes : List Address
  /-- `stake_score.min_balance`. -/
  minBalance : Balance
  maxBlockHeight : Option (BitVec 64)
  /-- `rewards.validated_block_reward`. -/
  validatedBlockReward : Balance
  whitelistedBlockProposers : Option (List Address)
  blacklistedBlockProposers : Option (List Address)
  whitelistedNodes : Option (List Address)
  blacklistedNodes : Option (List Address)
  maxValidators : BitVec 64
  /-- `xscore.xscore_threshold`. -/
  xscoreThreshold : ℚ

structure WBAddresses where
  senderAddresses : List Address
  receiverAddresses : List Address
  deriving DecidableEq

structure RuntimeDenyConfig where
  whitelistedAddresses : Option WBAddresses
  blacklistedAddresses : Option WBAddresses
  deriving DecidableEq

/-- What the staking contract says about a node. -/
structure NodePoolInfo where
  stakedBalance : Balance
  rewardWalletAddress : Address
  minPoolBalance : Balance

/-- The staking information. The map from wallets to nodes is made from the nodes: it leads back to a node
    with that wallet, and no wallet is missing. Of two nodes with one wallet it has one. -/
structure RuntimeStakingInfo where
  nodes : Table Address NodePoolInfo
  /-- The node behind each reward wallet. -/
  rewardNodeMap : Table Address Address
  wallet_of_node : ∀ {wallet node}, rewardNodeMap.lookup wallet = some node →
    ∃ info, nodes.lookup node = some info ∧ info.rewardWalletAddress = wallet
  node_of_wallet : ∀ {node info}, nodes.lookup node = some info →
    (rewardNodeMap.lookup info.rewardWalletAddress).isSome

namespace RuntimeStakingInfo

/-- `refresh`: the nodes are visited in the order of a hash map, which is any order. -/
def refresh (nodes : Table Address NodePoolInfo) : RuntimeStakingInfo where
  nodes
  rewardNodeMap := AList.indexBy (·.2.rewardWalletAddress) (·.1) nodes.entries
  wallet_of_node := by
    intro wallet node h
    obtain ⟨row, hrow, hwallet, hnode⟩ := AList.exists_of_lookup_indexBy h
    subst hnode
    exact ⟨row.2, AList.mem_entries.mp hrow, hwallet⟩
  node_of_wallet := by
    intro node info h
    have hrow : (⟨node, info⟩ : Sigma fun _ : Address => NodePoolInfo) ∈ nodes.entries :=
      AList.mem_entries.mpr h
    exact AList.isSome_lookup_indexBy (·.2.rewardWalletAddress) (·.1) hrow

end RuntimeStakingInfo

structure RuntimeCaches where
  config : Option RuntimeConfig
  denyConfig : Option RuntimeDenyConfig
  stakingInfo : Option RuntimeStakingInfo

namespace RuntimeCaches

def getConfig (caches : RuntimeCaches) : Except Error RuntimeConfig :=
  match caches.config with
  | some config => .ok config
  | none => .error "Runtime Config is not initialized"

def getDenyConfig (caches : RuntimeCaches) : Except Error RuntimeDenyConfig :=
  match caches.denyConfig with
  | some config => .ok config
  | none => .error "Runtime Deny Config is not initialized"

def getStakingInfo (caches : RuntimeCaches) : Except Error RuntimeStakingInfo :=
  match caches.stakingInfo with
  | some info => .ok info
  | none => .error "Runtime Staking is not initialized"

end RuntimeCaches

end L1xCore
