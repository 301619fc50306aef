import L1xCore.Lib.Fallible
import L1xCore.Lib.Table
import L1xCore.System.Transaction

/-!
# `Db.StateTables` — the tables a block execution reads and writes

The Postgres tables behind accounts, contracts, contract storage, staking, events and transaction
metadata, with the queries of the `state_pg` modules. A table is keyed by its primary key; an `INSERT`
of a key that is there already is an error unless the statement says otherwise. A lookup either finds a
row or does not; connections do not fail.

Three conversions lose information, and they are kept: `update_account` leaves the account type of an
existing row alone; a staking pool is written with `0` (or an empty text) for every absent limit; and a
pool is read back without its contract address.
-/

namespace L1xCore

structure AccountRow where
  accountType : AccountType
  balance : Balance
  nonce : Nonce
  deriving DecidableEq, Repr

structure ContractRow where
  access : Int8
  type : Int8
  code : ContractCode
  ownerAddress : Address
  deriving DecidableEq

/-- A row of `staking_pool`. The limits are nullable. The period is a nullable text: `some none` stands
    for a text that is not a number, such as the empty one. -/
structure StakingPoolRow where
  poolOwner : Address
  clusterAddress : Address
  contractInstanceAddress : Option Address
  createdBlockNumber : BlockNumber
  updatedBlockNumber : BlockNumber
  minStake : Option Balance
  maxStake : Option Balance
  minPoolBalance : Option Balance
  maxPoolBalance : Option Balance
  stakingPeriod : Option (Option BlockNumber)
  deriving DecidableEq, Repr

/-- The row written for a new pool: absent limits become `0`, an absent period the empty text. -/
def StakingPoolRow.ofPool (pool : StakingPool) : StakingPoolRow :=
  { poolOwner := pool.poolOwner, clusterAddress := pool.clusterAddress,
    contractInstanceAddress := pool.contractInstanceAddress,
    createdBlockNumber := pool.createdBlockNumber, updatedBlockNumber := pool.updatedBlockNumber,
    minStake := some (pool.minStake.getD 0), maxStake := some (pool.maxStake.getD 0),
    minPoolBalance := some (pool.minPoolBalance.getD 0),
    maxPoolBalance := some (pool.maxPoolBalance.getD 0), stakingPeriod := some pool.stakingPeriod }

/-- The pool read from a row. The contract address is not read back; a period text that is not a number
    reads as `0`. -/
def StakingPoolRow.toPool (poolAddress : Address) (row : StakingPoolRow) : StakingPool :=
  { poolAddress, poolOwner := row.poolOwner, contractInstanceAddress := none,
    clusterAddress := row.clusterAddress, createdBlockNumber := row.createdBlockNumber,
    updatedBlockNumber := row.updatedBlockNumber, minStake := row.minStake, maxStake := row.maxStake,
    minPoolBalance := row.minPoolBalance, maxPoolBalance := row.maxPoolBalance,
    stakingPeriod := row.stakingPeriod.map (·.getD 0) }

structure EventRow where
  transactionHash : TransactionHash
  blockNumber : BlockNumber
  contractAddress : Address
  eventData : EventData
  eventType : Int8
  /-- The columns `topic0` to `topic3`. -/
  topics : List (BitVec 256)
  deriving DecidableEq

structure StateTables where
  account : Table Address AccountRow
  contract : Table Address ContractRow
  /-- Keyed by instance and contract address; the column left is the owner. -/
  contractInstanceContractCodeMap : Table (Address × Address) Address
  contractInstance : Table (Address × ContractInstanceKey) ContractInstanceValue
  stakingPool : Table Address StakingPoolRow
  /-- Keyed by pool and account address. -/
  stakingAccount : Table (Address × Address) Balance
  event : List EventRow
  transactionMetadata : Table TransactionHash TransactionMetadata

namespace StateTables

def empty : StateTables := ⟨∅, ∅, ∅, ∅, ∅, ∅, [], ∅⟩

/-- A write to the tables. -/
abbrev Write := Fallible StateTables Error Unit

/-! ## Accounts -/

def getAccount (db : StateTables) (address : Address) : Except Error Account :=
  match db.account.lookup address with
  | some row => .ok ⟨address, row.balance, row.nonce, row.accountType⟩
  | none => .error "account does not exist"

/-- An existing row keeps its account type; a missing one is created. -/
def updateAccount (acc : Account) : Write :=
  Fallible.update fun db =>
    { db with
      account := db.account.upsert acc.address
        (fun row => { row with balance := acc.balance, nonce := acc.nonce })
        ⟨acc.accountType, acc.balance, acc.nonce⟩ }

/-! ## Contracts and contract instances -/

def getContract (db : StateTables) (address : Address) : Except Error Contract :=
  match db.contract.lookup address with
  | some row => .ok ⟨address, row.access, row.type, row.code, row.ownerAddress⟩
  | none => .error "No matching records found for contract address"

/-- A plain `INSERT`. -/
def storeContract (contract : Contract) : Write := do
  let db ← Fallible.state
  match db.contract.lookup contract.address with
  | some _ => Fallible.fail "duplicate key value violates unique constraint"
  | none =>
    Fallible.update fun db =>
      { db with
        contract := db.contract.insert contract.address
          ⟨contract.access, contract.type, contract.code, contract.ownerAddress⟩ }

/-- The first row of the instance, whichever contract it names. -/
def getContractInstance (db : StateTables) (instanceAddress : Address) : Except Error ContractInstance :=
  match db.contractInstanceContractCodeMap.entries.find? (fun row => row.1.1 = instanceAddress) with
  | some row => .ok ⟨row.1.1, row.1.2, row.2⟩
  | none => .error "No matching records found for contract address"

/-- A plain `INSERT` (`dev_mode` off). -/
def storeContractInstance (contractInstance : ContractInstance) : Write := do
  let db ← Fallible.state
  let key := (contractInstance.instanceAddress, contractInstance.contractAddress)
  match db.contractInstanceContractCodeMap.lookup key with
  | some _ => Fallible.fail "duplicate key value violates unique constraint"
  | none =>
    Fallible.update fun db =>
      { db with
        contractInstanceContractCodeMap :=
          db.contractInstanceContractCodeMap.insert key contractInstance.ownerAddress }

def getStateKeyValue (db : StateTables) (instanceAddress : Address) (key : ContractInstanceKey) :
    Option ContractInstanceValue :=
  db.contractInstance.lookup (instanceAddress, key)

def storeStateKeyValue (instanceAddress : Address) (key : ContractInstanceKey)
    (value : ContractInstanceValue) : Write :=
  Fallible.update fun db =>
    { db with contractInstance := db.contractInstance.insert (instanceAddress, key) value }

def deleteStateKeyValue (instanceAddress : Address) (key : ContractInstanceKey) : Write :=
  Fallible.update fun db =>
    { db with contractInstance := db.contractInstance.erase (instanceAddress, key) }

/-! ## Staking -/

def getStakingPool (db : StateTables) (poolAddress : Address) : Except Error StakingPool :=
  match db.stakingPool.lookup poolAddress with
  | some row => .ok (row.toPool poolAddress)
  | none => .error "Failed to get staking_pool: Record not found"

def isStakingPoolExists (db : StateTables) (poolAddress : Address) : Bool :=
  (db.stakingPool.lookup poolAddress).isSome

/-- A plain `INSERT`. -/
def insertStakingPool (pool : StakingPool) : Write := do
  let db ← Fallible.state
  match db.stakingPool.lookup pool.poolAddress with
  | some _ => Fallible.fail "duplicate key value violates unique constraint"
  | none =>
    Fallible.update fun db =>
      { db with stakingPool := db.stakingPool.insert pool.poolAddress (StakingPoolRow.ofPool pool) }

/-- `UPDATE staking_pool` of the row of a pool; no row, no effect. -/
def updateStakingPoolRow (poolAddress : Address) (f : StakingPoolRow → StakingPoolRow) : Write :=
  Fallible.update fun db =>
    match db.stakingPool.lookup poolAddress with
    | some row => { db with stakingPool := db.stakingPool.insert poolAddress (f row) }
    | none => db

def updateStakingPoolBlockNumber (poolAddress : Address) (blockNumber : BlockNumber) : Write :=
  updateStakingPoolRow poolAddress fun row => { row with updatedBlockNumber := blockNumber }

def updateContract (contractInstanceAddress poolAddress : Address) (blockNumber : BlockNumber) : Write :=
  updateStakingPoolRow poolAddress fun row =>
    { row with updatedBlockNumber := blockNumber,
               contractInstanceAddress := some contractInstanceAddress }

def getStakingAccount (db : StateTables) (accountAddress poolAddress : Address) :
    Except Error StakingAccount :=
  match db.stakingAccount.lookup (poolAddress, accountAddress) with
  | some balance => .ok ⟨accountAddress, poolAddress, balance⟩
  | none => .error "Failed to insert new node info: Record not found"

def isStakingAccountExists (db : StateTables) (accountAddress poolAddress : Address) : Bool :=
  (db.stakingAccount.lookup (poolAddress, accountAddress)).isSome

/-- A plain `INSERT`. -/
def insertStakingAccount (accountAddress poolAddress : Address) (balance : Balance) : Write := do
  let db ← Fallible.state
  match db.stakingAccount.lookup (poolAddress, accountAddress) with
  | some _ => Fallible.fail "duplicate key value violates unique constraint"
  | none =>
    Fallible.update fun db =>
      { db with stakingAccount := db.stakingAccount.insert (poolAddress, accountAddress) balance }

/-- `UPDATE staking_account`; no row, no effect. -/
def updateStakingAccount (stakingAccount : StakingAccount) : Write :=
  Fallible.update fun db =>
    let key := (stakingAccount.poolAddress, stakingAccount.accountAddress)
    match db.stakingAccount.lookup key with
    | some _ => { db with stakingAccount := db.stakingAccount.insert key stakingAccount.balance }
    | none => db

/-! ## Events and metadata -/

def createEvent (event : Event) : Write :=
  Fallible.update fun db =>
    { db with
      event := db.event ++
        [⟨event.transactionHash, event.blockNumber, event.contractAddress, event.eventData,
          event.eventType, (event.topics.getD []).take 4⟩] }

/-- `ON CONFLICT DO NOTHING`. -/
def storeTransactionMetadata (metadata : TransactionMetadata) : Write :=
  Fallible.update fun db =>
    { db with
      transactionMetadata := db.transactionMetadata.upsert metadata.transactionHash id metadata }

end StateTables

end L1xCore
