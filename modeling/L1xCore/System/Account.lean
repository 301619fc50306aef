import L1xCore.Primitives

/-!
# `System.Account` — accounts, contracts, pools and how their addresses are derived

The record types of the `system` crate that a block changes, and the address derivations of
`system::account`. The cryptographic primitives are parameters (`Crypto`): the curve library decides
which byte strings are public keys, and the hash is any function.
-/

namespace L1xCore

/-- The cryptographic functions the code calls. -/
structure Crypto where
  /-- `keccak256`. -/
  keccak256 : Bytes → BitVec 256
  /-- `Sha256`. -/
  sha256 : Bytes → BitVec 256
  /-- `secp256k1::PublicKey::from_slice`, giving the uncompressed serialisation of the key. -/
  publicKeyFromSlice : Bytes → Option Bytes
  /-- ECDSA verification of a serialised payload: key (uncompressed), payload, signature. -/
  ecdsaVerify : Bytes → Bytes → SignatureBytes → Bool

inductive AccountType where
  | system
  | user
  deriving DecidableEq, Repr

structure Account where
  address : Address
  balance : Balance
  nonce : Nonce
  accountType : AccountType
  deriving DecidableEq, Repr

namespace Account

def new (address : Address) : Account := ⟨address, 0, 0, .user⟩

def newSystem (address : Address) : Account := ⟨address, 0, 0, .system⟩

/-- The last twenty bytes of a hash. -/
def ofHash (hash : BitVec 256) : Address := hash.setWidth 160

/-- The account address of a verifying key: the hash of the uncompressed point without its leading
    byte. The two system addresses, which are not keys, stand for themselves. -/
def addressOf (crypto : Crypto) (verifyingKey : VerifyingKeyBytes) : Except Error Address :=
  match crypto.publicKeyFromSlice verifyingKey with
  | some publicKey => .ok (ofHash (crypto.keccak256 (publicKey.drop 1)))
  | none =>
    if verifyingKey = addressBytes SYSTEM_CONTRACTS_OWNER then .ok SYSTEM_CONTRACTS_OWNER
    else if verifyingKey = addressBytes SYSTEM_REWARDS_DISTRIBUTOR then
      .ok SYSTEM_REWARDS_DISTRIBUTOR
    else .error "Unable to construct public key"

def contractAddress (crypto : Crypto) (accountAddress clusterAddress : Address) (nonce : Nonce) : Address :=
  ofHash (crypto.keccak256
    (addressBytes accountAddress ++ addressBytes clusterAddress ++ u128ToBeBytes nonce))

def contractInstanceAddress (crypto : Crypto)
    (accountAddress contractAddress clusterAddress : Address) (nonce : Nonce) : Address :=
  ofHash (crypto.keccak256
    (addressBytes accountAddress ++ addressBytes contractAddress ++ addressBytes clusterAddress ++
      u128ToBeBytes nonce))

def poolAddress (crypto : Crypto) (accountAddress clusterAddress : Address) (nonce : Nonce) : Address :=
  ofHash (crypto.keccak256
    (addressBytes accountAddress ++ addressBytes clusterAddress ++ u128ToBeBytes nonce))

end Account

inductive AccessType where
  | PRIVATE
  | PUBLIC
  | RESTICTED
  deriving DecidableEq, Repr

/-- The stored access code of a contract (`AccessType as i8`). -/
def AccessType.toInt8 : AccessType → Int8
  | .PRIVATE => 0
  | .PUBLIC => 1
  | .RESTICTED => 2

inductive ContractType where
  | L1XVM
  | EVM
  | XTALK
  deriving DecidableEq, Repr

/-- `TryInto<ContractType> for i8`. -/
def ContractType.ofInt8 (code : Int8) : Except Error ContractType :=
  if code = 0 then .ok .L1XVM
  else if code = 1 then .ok .EVM
  else if code = 2 then .ok .XTALK
  else .error s!"Invalid contract type {code}"

structure Contract where
  address : Address
  access : Int8
  type : Int8
  code : ContractCode
  ownerAddress : Address
  deriving DecidableEq

structure ContractInstance where
  instanceAddress : Address
  contractAddress : Address
  ownerAddress : Address
  deriving DecidableEq, Repr

structure StakingPool where
  poolAddress : Address
  poolOwner : Address
  contractInstanceAddress : Option Address
  clusterAddress : Address
  createdBlockNumber : BlockNumber
  updatedBlockNumber : BlockNumber
  minStake : Option Balance
  maxStake : Option Balance
  minPoolBalance : Option Balance
  maxPoolBalance : Option Balance
  stakingPeriod : Option BlockNumber
  deriving DecidableEq, Repr

/-- A new pool: it was last updated when it was created. -/
def StakingPool.new (poolAddress poolOwner : Address) (contractInstanceAddress : Option Address)
    (clusterAddress : Address) (createdBlockNumber : BlockNumber)
    (minStake maxStake minPoolBalance maxPoolBalance : Option Balance)
    (stakingPeriod : Option BlockNumber) : StakingPool :=
  { poolAddress, poolOwner, contractInstanceAddress, clusterAddress, createdBlockNumber,
    updatedBlockNumber := createdBlockNumber, minStake, maxStake, minPoolBalance, maxPoolBalance,
    stakingPeriod }

structure StakingAccount where
  accountAddress : Address
  poolAddress : Address
  balance : Balance
  deriving DecidableEq, Repr

def StakingAccount.new (accountAddress poolAddress : Address) : StakingAccount :=
  ⟨accountAddress, poolAddress, 0⟩

structure Event where
  transactionHash : TransactionHash
  eventData : EventData
  blockNumber : BlockNumber
  eventType : Int8
  contractAddress : Address
  topics : Option (List (BitVec 256))
  deriving DecidableEq

end L1xCore
