import L1xCore.Lib.Fallible
import L1xCore.System.RuntimeConfig

/-!
# `RuntimeConfig.ConfigCache` — filling the caches

`RuntimeConfigCache::refresh` and `RuntimeDenyConfigCache::refresh` of the `runtime_config` crate: the answer of
a system contract is unquoted, decoded and parsed, and what was parsed is turned into the form in which the
rest of the node reads it. The parsers of the libraries are parameters.

A `HashSet` is the list of its elements as they were parsed, with repetitions that do not count; a `BTreeSet`
is the ascending list of its elements.
-/

namespace L1xCore

open Fallible

/-! ## What is parsed -/

/-- What the modelled code uses of `version_1` of the configuration. -/
structure ConfigVersion1 where
  orgNodes : List Address
  whitelistedNodes : Option (List Address)
  whitelistedBlockProposers : Option (List Address)
  blacklistedNodes : Option (List Address)
  blacklistedBlockProposers : Option (List Address)
  maxBlockHeight : Option (BitVec 64)
  maxValidators : BitVec 64
  /-- `xscore.xscore_threshold`. -/
  xscoreThreshold : ℚ
  /-- `stake_score.min_balance`. -/
  minBalance : Balance
  /-- `rewards.validated_block_reward`. -/
  validatedBlockReward : Balance

structure RoleBasedLists where
  receivers : List Address
  senders : List Address

structure RoleBasedListsOutput where
  denyList : RoleBasedLists
  allowList : RoleBasedLists

/-- The libraries that decode the answers of the contracts. -/
structure ConfigDecoder where
  /-- `String::from_utf8_lossy`, again as bytes. -/
  fromUtf8Lossy : Bytes → Bytes
  /-- `serde_json::from_slice` for a string. -/
  json : Bytes → Except Error Bytes
  base64 : Bytes → Except Error Bytes
  /-- `toml::from_str::<TomlConfig>`, of which `version_1` is used. -/
  toml : Bytes → Except Error ConfigVersion1
  /-- `BorshDeserialize::try_from_slice`. -/
  borsh : Bytes → Except Error RoleBasedListsOutput

/-! ## What is kept -/

/-- `BTreeSet::from_iter`. -/
def btreeSet (addresses : List Address) : List Address := addresses.dedup.insertionSort (· ≤ ·)

variable {addresses : List Address}

theorem nodup_btreeSet : (btreeSet addresses).Nodup :=
  (List.perm_insertionSort _ _).nodup_iff.mpr (List.nodup_dedup addresses)

namespace RuntimeConfig

/-- `From<ConfigVersion1> for RuntimeConfigCache`. -/
def ofVersion1 (c : ConfigVersion1) : RuntimeConfig where
  orgNodes := btreeSet c.orgNodes
  minBalance := c.minBalance
  maxBlockHeight := c.maxBlockHeight
  validatedBlockReward := c.validatedBlockReward
  whitelistedBlockProposers := c.whitelistedBlockProposers.map btreeSet
  blacklistedBlockProposers := c.blacklistedBlockProposers.map btreeSet
  whitelistedNodes := c.whitelistedNodes.map btreeSet
  blacklistedNodes := c.blacklistedNodes.map btreeSet
  maxValidators := c.maxValidators
  xscoreThreshold := c.xscoreThreshold

end RuntimeConfig

/-- `From<RoleBasedLists> for WBAddresses`. -/
def WBAddresses.ofLists (lists : RoleBasedLists) : WBAddresses := ⟨lists.senders, lists.receivers⟩

/-- `From<RoleBasedListsOutput> for RuntimeDenyConfigCache`. The receivers of the allow list are asked for
    twice, its senders not at all. -/
def RuntimeDenyConfig.ofOutput (c : RoleBasedListsOutput) : RuntimeDenyConfig where
  whitelistedAddresses :=
    if c.allowList.receivers.isEmpty && c.allowList.receivers.isEmpty then none
    else some (.ofLists c.allowList)
  blacklistedAddresses :=
    if c.denyList.receivers.isEmpty && c.denyList.senders.isEmpty then none
    else some (.ofLists c.denyList)

/-! ## Refreshing -/

namespace ConfigDecoder

variable (d : ConfigDecoder)

/-- The byte of a quotation mark. -/
def quote : UInt8 := 34

def tryUnquoteStringFast (data : Bytes) : Except Error Bytes :=
  if data.length < 2 then .error "Data is too short"
  else if data.head? = some quote then
    if data.getLast? = some quote then .ok (d.fromUtf8Lossy (data.drop 1).dropLast)
    else .error "Last char is not \"'\""
  else .error "First char is not \"'\""

def decodeBase64 (data : Bytes) : Except Error Bytes := do
  let text ← match d.tryUnquoteStringFast data with
    | .ok text => .ok text
    | .error _ => (d.json data).mapError ("Can't decode Runtime Config from json: " ++ ·)
  (d.base64 text).mapError ("Can't decode Runtime Config from base64: " ++ ·)

/-- `RuntimeConfigCache::refresh`. -/
def refreshConfig (data : Bytes) : Fallible RuntimeCaches Error Unit := do
  let tomlBytes ← lift (d.decodeBase64 data)
  let parsed ← lift ((d.toml tomlBytes).mapError ("Can't decode Runtime Config from toml: " ++ ·))
  if parsed.orgNodes.dedup.length < 2 then
    fail "Org_nodes length should be greater than or equal to 2"
  else update fun caches => { caches with config := some (.ofVersion1 parsed) }

/-- `RuntimeDenyConfigCache::refresh`. -/
def refreshDenyConfig (data : Bytes) : Fallible RuntimeCaches Error Unit := do
  let borshBytes ← lift (d.decodeBase64 data)
  let lists ← lift (d.borsh borshBytes)
  update fun caches => { caches with denyConfig := some (.ofOutput lists) }

end ConfigDecoder

end L1xCore
