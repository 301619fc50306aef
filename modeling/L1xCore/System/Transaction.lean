import L1xCore.System.Account

/-!
# `System.Transaction` — transactions and what is signed in them

The eight transaction kinds of `system::transaction`, the payloads that the two signing formats make
of a transaction, the sender's authorisation (`Transaction::verify_signature`) and the balance a
transaction needs. The serialisations of what is hashed and signed, and the decoding of Ethereum
transactions, are parameters (`Codec`).
-/

namespace L1xCore

inductive TransactionVersion where
  | V1
  | V2
  | V3
  deriving DecidableEq, Repr

inductive TransactionType where
  | nativeTokenTransfer (address : Address) (amount : Balance)
  | smartContractDeployment (accessType : AccessType) (contractType : ContractType)
      (contractCode : ContractCode) (deposit : Balance) (salt : Salt)
  | smartContractInit (contractCodeAddress : Address) (arguments : ContractArgument)
      (deposit : Balance)
  | smartContractFunctionCall (contractInstanceAddress : Address) (function : ContractFunction)
      (arguments : ContractArgument) (deposit : Balance)
  | createStakingPool (contractInstanceAddress : Option Address)
      (minStake maxStake minPoolBalance maxPoolBalance : Option Balance)
      (stakingPeriod : Option BlockNumber)
  | stake (poolAddress : Address) (amount : Balance)
  | unStake (poolAddress : Address) (amount : Balance)
  | stakingPoolContract (poolAddress contractInstanceAddress : Address)
  deriving DecidableEq

structure Transaction where
  version : TransactionVersion
  nonce : Nonce
  transactionType : TransactionType
  feeLimit : Balance
  signature : SignatureBytes
  verifyingKey : VerifyingKeyBytes
  ethOriginalTransaction : Option Bytes
  deriving DecidableEq

/-- The record kept of an applied transaction. -/
structure TransactionMetadata where
  transactionHash : TransactionHash
  fee : Balance
  burntGas : Gas
  isSuccessful : Bool
  deriving DecidableEq, Repr

/-! ## The signed payloads -/

/-- The kind as versions 1 and 2 sign it: an instantiation and a call are signed without their
    deposit. -/
inductive TransactionTypeV1SignPayload where
  | nativeTokenTransfer (address : Address) (amount : String)
  | smartContractDeployment (accessType : AccessType) (contractType : ContractType)
      (contractCode : ContractCode) (value : Balance) (salt : Salt)
  | smartContractInit (contractCodeAddress : Address) (arguments : ContractArgument)
  | smartContractFunctionCall (contractInstanceAddress : Address) (function : ContractFunction)
      (arguments : ContractArgument)
  | createStakingPool (contractInstanceAddress : Option Address)
      (minStake maxStake minPoolBalance maxPoolBalance : Option Balance)
      (stakingPeriod : Option BlockNumber)
  | stake (poolAddress : Address) (amount : Balance)
  | unStake (poolAddress : Address) (amount : Balance)
  | stakingPoolContract (poolAddress contractInstanceAddress : Address)
  deriving DecidableEq

/-- The kind as version 3 signs it: amounts that a contract or an account receives are written in
    decimal. -/
inductive TransactionTypeV2SignPayload where
  | nativeTokenTransfer (address : Address) (amount : String)
  | smartContractDeployment (accessType : AccessType) (contractType : ContractType)
      (contractCode : ContractCode) (deposit : String) (salt : Salt)
  | smartContractInit (contractCodeAddress : Address) (arguments : ContractArgument)
      (deposit : String)
  | smartContractFunctionCall (contractInstanceAddress : Address) (function : ContractFunction)
      (arguments : ContractArgument) (deposit : String)
  | createStakingPool (contractInstanceAddress : Option Address)
      (minStake maxStake minPoolBalance maxPoolBalance : Option Balance)
      (stakingPeriod : Option BlockNumber)
  | stake (poolAddress : Address) (amount : Balance)
  | unStake (poolAddress : Address) (amount : Balance)
  | stakingPoolContract (poolAddress contractInstanceAddress : Address)
  deriving DecidableEq

/-- `u128::to_string`. -/
def u128ToString (n : BitVec 128) : String := n.toNat.repr

namespace TransactionType

/-- `From<TransactionType> for TransactionTypeV1SignPayload`. -/
def toV1SignPayload : TransactionType → TransactionTypeV1SignPayload
  | nativeTokenTransfer address balance => .nativeTokenTransfer address (u128ToString balance)
  | smartContractDeployment accessType contractType contractCode deposit salt =>
    .smartContractDeployment accessType contractType contractCode deposit salt
  | smartContractInit contractCodeAddress arguments _ =>
    .smartContractInit contractCodeAddress arguments
  | smartContractFunctionCall contractInstanceAddress function arguments _ =>
    .smartContractFunctionCall contractInstanceAddress function arguments
  | createStakingPool contractInstanceAddress minStake maxStake minPool maxPool stakingPeriod =>
    .createStakingPool contractInstanceAddress minStake maxStake minPool maxPool stakingPeriod
  | stake poolAddress amount => .stake poolAddress amount
  | unStake poolAddress amount => .unStake poolAddress amount
  | stakingPoolContract poolAddress contractInstanceAddress =>
    .stakingPoolContract poolAddress contractInstanceAddress

/-- `From<TransactionType> for TransactionTypeV2SignPayload`. -/
def toV2SignPayload : TransactionType → TransactionTypeV2SignPayload
  | nativeTokenTransfer address balance => .nativeTokenTransfer address (u128ToString balance)
  | smartContractDeployment accessType contractType contractCode deposit salt =>
    .smartContractDeployment accessType contractType contractCode (u128ToString deposit) salt
  | smartContractInit contractCodeAddress arguments deposit =>
    .smartContractInit contractCodeAddress arguments (u128ToString deposit)
  | smartContractFunctionCall contractInstanceAddress function arguments deposit =>
    .smartContractFunctionCall contractInstanceAddress function arguments (u128ToString deposit)
  | createStakingPool contractInstanceAddress minStake maxStake minPool maxPool stakingPeriod =>
    .createStakingPool contractInstanceAddress minStake maxStake minPool maxPool stakingPeriod
  | stake poolAddress amount => .stake poolAddress amount
  | unStake poolAddress amount => .unStake poolAddress amount
  | stakingPoolContract poolAddress contractInstanceAddress =>
    .stakingPoolContract poolAddress contractInstanceAddress

end TransactionType

structure TxV1SignPayload where
  nonce : Nonce
  transactionType : TransactionTypeV1SignPayload
  feeLimit : Balance
  deriving DecidableEq

structure TxV3SignPayload where
  nonce : String
  transactionType : TransactionTypeV2SignPayload
  feeLimit : String
  deriving DecidableEq

/-- The serialisations of transactions, and the decoding of Ethereum ones. -/
structure Codec where
  /-- `bincode` of a whole transaction, the input of its hash. -/
  transactionBytes : Transaction → Bytes
  /-- JSON of the payload signed by versions 1 and 2. -/
  v1SignPayload : TxV1SignPayload → Bytes
  /-- JSON of the payload signed by version 3. -/
  v3SignPayload : TxV3SignPayload → Bytes
  /-- `secp256k1` signature parsing (`get_signature_from_bytes`). -/
  signatureFromBytes : SignatureBytes → Option SignatureBytes
  /-- `Transaction::new_from_eth`: decode, recover the key and convert. -/
  newFromEth : Bytes → Except Error Transaction
  /-- The hash of an Ethereum legacy transaction. -/
  ethTransactionHash : Bytes → Except Error TransactionHash

namespace Transaction

/-- A transaction of one of the system addresses; it carries no signature. -/
def newSystem (systemAddress : Address) (nonce : Nonce) (transactionType : TransactionType)
    (feeLimit : Balance) : Transaction :=
  { version := .V3, nonce, transactionType, feeLimit, signature := [],
    verifyingKey := addressBytes systemAddress, ethOriginalTransaction := none }

/-- What a sender of version 1 or 2 signs. -/
def v1SignPayload (tx : Transaction) : TxV1SignPayload :=
  { nonce := tx.nonce, transactionType := tx.transactionType.toV1SignPayload,
    feeLimit := tx.feeLimit }

/-- What a sender of version 3 signs. -/
def v3SignPayload (tx : Transaction) : TxV3SignPayload :=
  { nonce := u128ToString tx.nonce, transactionType := tx.transactionType.toV2SignPayload,
    feeLimit := u128ToString tx.feeLimit }

/-- `verify_signature`: an Ethereum transaction must be the conversion of its original; any other one
    is checked against the payload of its version. -/
def verifySignature (crypto : Crypto) (codec : Codec) (tx : Transaction) : Except Error Bool :=
  match tx.ethOriginalTransaction with
  | some bytes =>
    match codec.newFromEth bytes with
    | .ok transaction => .ok (decide (transaction = tx))
    | .error e => .error e
  | none =>
    match codec.signatureFromBytes tx.signature with
    | none => .error "Failed to get signature from bytes"
    | some signature =>
      match crypto.publicKeyFromSlice tx.verifyingKey with
      | none => .error "Unable to construct public key"
      | some publicKey =>
        match tx.version with
        | .V1 | .V2 =>
          .ok (crypto.ecdsaVerify publicKey (codec.v1SignPayload tx.v1SignPayload) signature)
        | .V3 =>
          .ok (crypto.ecdsaVerify publicKey (codec.v3SignPayload tx.v3SignPayload) signature)

/-- `transaction_hash`. -/
def transactionHash (crypto : Crypto) (codec : Codec) (tx : Transaction) : Except Error TransactionHash :=
  match tx.ethOriginalTransaction with
  | some bytes => codec.ethTransactionHash bytes
  | none => .ok (crypto.keccak256 (codec.transactionBytes tx))

/-- The tokens the kind itself moves away from the sender. -/
def amount (tx : Transaction) : Balance :=
  match tx.transactionType with
  | .smartContractDeployment _ _ _ deposit _ => deposit
  | .smartContractInit _ _ deposit => deposit
  | .smartContractFunctionCall _ _ _ deposit => deposit
  | .nativeTokenTransfer _ amount => amount
  | .stake _ amount => amount
  | .unStake _ amount => amount
  | .createStakingPool .. => 0
  | .stakingPoolContract .. => 0

/-- `required_balance`: the amount and the fee limit. -/
def requiredBalance (tx : Transaction) : Except Error Balance :=
  match tx.amount.checkedAdd tx.feeLimit with
  | some balance => .ok balance
  | none => .error "Balance overflow"

end Transaction

end L1xCore
