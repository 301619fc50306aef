import L1xCore.Db.StateTables

/-!
# `State.UpdatedState` — the write-back overlay a block is executed on

`UpdatedState` keeps, for every kind of record, a map from keys to a `CachedStatus`: either a value read
from the database (`cached`) or a pending write (`updated`, with `none` for a pending removal). Reads go
to the map first and fill it from the database. A transaction runs on a **clone**; its effects are taken
over with `merge`, or dropped with the clone. `commit` writes the pending values to the database.

The operations are those of `state/src/updated_state.rs`, in the `Fallible` monad: an operation that
returns an error keeps what it did to the maps before. The tables are not written while an overlay is in
use, so they are a parameter.
-/

namespace L1xCore

/-- The status of a record in the overlay. -/
inductive CachedStatus (α : Type) where
  | updated (v : Option α)
  | cached (v : α)
  deriving DecidableEq

namespace CachedStatus

variable {α : Type}

/-- `update` on a pending write: a value replaces it, none removes it. -/
def updateUpdated (pending v : Option α) : CachedStatus α :=
  match pending, v with
  | some _, some v => .updated (some v)
  | some _, none => .updated none
  | none, v => .updated v

/-- `CachedStatus::update`. On a cached value the source builds a pending write of `v` and then calls
    `update` on it with the **cached** value. -/
def update : CachedStatus α → Option α → CachedStatus α
  | .cached old, some v => updateUpdated (some v) (some old)
  | .cached _, none => .updated none
  | .updated pending, v => updateUpdated pending v

/-- `CachedStatus::update_cached`. It panics on a pending removal; its callers have just seen that there
    is no entry at all. -/
def updateCached : CachedStatus α → α → CachedStatus α
  | .cached _, v => .cached v
  | .updated (some _), v => .updated (some v)
  | .updated none, _ => .updated none

/-- The value to read: none for a pending removal. -/
def getInner : CachedStatus α → Option α
  | .cached v => some v
  | .updated v => v

/-- The value waiting to be written, if there is one. -/
def pending : CachedStatus α → Option α
  | .updated v => v
  | .cached _ => none

/-- Whether there is something to commit. -/
def isUpdated : CachedStatus α → Bool
  | .updated _ => true
  | .cached _ => false

end CachedStatus

structure UpdatedState where
  accounts : Table Address (CachedStatus Account)
  contracts : Table Address (CachedStatus Contract)
  contractInstances : Table Address (CachedStatus ContractInstance)
  /-- The storage of each instance; a value that is known to be absent is cached as `none`. -/
  contractStates :
    Table Address (Table ContractInstanceKey (CachedStatus (Option ContractInstanceValue)))
  contractEvents : List (CachedStatus Event)
  stakingPools : Table Address (CachedStatus StakingPool)
  /-- The staking accounts of each pool. -/
  stakingAccounts : Table Address (Table Address (CachedStatus StakingAccount))
  transactionMetadatas : List (CachedStatus TransactionMetadata)

/-- An operation on the overlay. -/
abbrev StateOp := Fallible UpdatedState Error

namespace UpdatedState

open Fallible

def new : UpdatedState := ⟨∅, ∅, ∅, ∅, [], ∅, ∅, []⟩

/-- `merge`: the entries of the other state win, one by one in the nested maps; the lists are replaced. -/
def merge (self anotherState : UpdatedState) : UpdatedState where
  accounts := self.accounts.extend anotherState.accounts
  contracts := self.contracts.extend anotherState.contracts
  contractInstances := self.contractInstances.extend anotherState.contractInstances
  contractStates := self.contractStates.extend₂ anotherState.contractStates
  contractEvents := anotherState.contractEvents
  stakingPools := self.stakingPools.extend anotherState.stakingPools
  stakingAccounts := self.stakingAccounts.extend₂ anotherState.stakingAccounts
  transactionMetadatas := anotherState.transactionMetadatas

/-- `is_contract_state_updated`: a write to the storage of the instance is pending. -/
def isContractStateUpdated (self : UpdatedState) (contractInstanceAddress : Address) : Bool :=
  match self.contractStates.lookup contractInstanceAddress with
  | some map => map.entries.any fun e => e.2.isUpdated
  | none => false

/-! ## Reading through the cache -/

/-- Where accounts, pools and stakes are looked up that an overlay does not have. -/
class Lookups (D : Type) where
  getAccount : D → Address → Except Error Account
  getStakingPool : D → Address → Except Error StakingPool
  getStakingAccount : D → Address → Address → Except Error StakingAccount

instance : Lookups StateTables :=
  ⟨StateTables.getAccount, StateTables.getStakingPool, StateTables.getStakingAccount⟩

/-- The way every record is read: the entry of the overlay if there is one, or else the database, whose
    answer is remembered. -/
def readThrough {α : Type} (entry : UpdatedState → Option (CachedStatus α)) (removed : Error)
    (fetch : Except Error α) (remember : α → UpdatedState → UpdatedState) : StateOp α := do
  let self ← state
  match entry self with
  | some cached =>
    match cached.getInner with
    | some v => pure v
    | none => fail removed
  | none =>
    match fetch with
    | .ok v => do
      update (remember v)
      pure v
    | .error e => fail e

variable (db : StateTables)

def getAccount {D : Type} [Lookups D] (db : D) (address : Address) : StateOp Account :=
  readThrough (·.accounts.lookup address) s!"Account is removed, account: {hexEncode address}"
    (Lookups.getAccount db address)
    fun account self => { self with accounts := self.accounts.insert address (.cached account) }

def getContract (address : Address) : StateOp Contract :=
  readThrough (·.contracts.lookup address) s!"Contract is removed, address: {hexEncode address}"
    (db.getContract address)
    fun contract self =>
      { self with
        contracts := self.contracts.upsert address (·.updateCached contract) (.cached contract) }

def getContractInstance (instanceAddress : Address) : StateOp ContractInstance :=
  readThrough (·.contractInstances.lookup instanceAddress)
    s!"Contract instance is removed, address: {hexEncode instanceAddress}"
    (db.getContractInstance instanceAddress)
    fun contractInstance self =>
      { self with
        contractInstances := self.contractInstances.upsert instanceAddress
          (·.updateCached contractInstance) (.cached contractInstance) }

/-- Storage differs: an absent or removed value is not an error, and its absence is remembered too. -/
def getStateKeyValue (instanceAddress : Address) (key : ContractInstanceKey) :
    StateOp (Option ContractInstanceValue) := do
  let self ← state
  match self.contractStates.lookup₂ instanceAddress key with
  | some cachedValue => pure (cachedValue.getInner.join)
  | none =>
    let value := db.getStateKeyValue instanceAddress key
    update fun self =>
      { self with
        contractStates := self.contractStates.upsert₂ instanceAddress key
          (·.updateCached value) (.cached value) }
    pure value

def getStakingPool {D : Type} [Lookups D] (db : D) (poolAddress : Address) : StateOp StakingPool :=
  readThrough (·.stakingPools.lookup poolAddress)
    s!"Staking Pool is removed, address: {hexEncode poolAddress}"
    (Lookups.getStakingPool db poolAddress)
    fun pool self =>
      { self with
        stakingPools := self.stakingPools.upsert poolAddress (·.updateCached pool) (.cached pool) }

def getStakingAccount {D : Type} [Lookups D] (db : D) (accountAddress poolAddress : Address) :
    StateOp StakingAccount :=
  readThrough (·.stakingAccounts.lookup₂ poolAddress accountAddress)
    s!"Staking Pool is removed, address: {hexEncode poolAddress}"
    (Lookups.getStakingAccount db accountAddress poolAddress)
    fun stakingAccount self =>
      { self with
        stakingAccounts := self.stakingAccounts.upsert₂ poolAddress accountAddress
          (·.updateCached stakingAccount) (.cached stakingAccount) }

/-! ## Writing -/

def updateAccount (account : Account) : StateOp Unit :=
  update fun self =>
    { self with accounts := self.accounts.insert account.address (.updated (some account)) }

/-- A contract is written with `CachedStatus::update` when there is an entry for it. -/
def storeContract (contract : Contract) : StateOp Unit :=
  update fun self =>
    { self with
      contracts := self.contracts.upsert contract.address (·.update (some contract))
        (.updated (some contract)) }

def storeContractInstance (contractInstance : ContractInstance) : StateOp Unit :=
  update fun self =>
    { self with
      contractInstances := self.contractInstances.upsert contractInstance.instanceAddress
        (·.update (some contractInstance)) (.updated (some contractInstance)) }

def storeStateKeyValue (instanceAddress : Address) (key : ContractInstanceKey)
    (value : ContractInstanceValue) : StateOp Unit :=
  update fun self =>
    { self with
      contractStates := self.contractStates.insert₂ instanceAddress key
        (.updated (some (some value))) }

def deleteStateKeyValue (instanceAddress : Address) (key : ContractInstanceKey) : StateOp Unit :=
  update fun self =>
    { self with
      contractStates := self.contractStates.insert₂ instanceAddress key (.updated none) }

def insertStakingPool (pool : StakingPool) : StateOp Unit :=
  update fun self =>
    { self with stakingPools := self.stakingPools.insert pool.poolAddress (.updated (some pool)) }

def updateStakingAccount (stakingAccount : StakingAccount) : StateOp Unit :=
  update fun self =>
    { self with
      stakingAccounts := self.stakingAccounts.insert₂ stakingAccount.poolAddress
        stakingAccount.accountAddress (.updated (some stakingAccount)) }

def insertStakingAccount (accountAddress poolAddress : Address) (balance : Balance) : StateOp Unit :=
  updateStakingAccount ⟨accountAddress, poolAddress, balance⟩

def createEvent (event : Event) : StateOp Unit :=
  update fun self =>
    { self with contractEvents := self.contractEvents ++ [.updated (some event)] }

def storeTransactionMetadata (metadata : TransactionMetadata) : StateOp Unit :=
  update fun self =>
    { self with
      transactionMetadatas := self.transactionMetadatas ++ [.updated (some metadata)] }

/-! ## Accounts and tokens -/

def getNonce (address : Address) : StateOp Nonce := do
  let account ← getAccount db address
  pure account.nonce

def incrementNonce (address : Address) : StateOp Unit := do
  let account ← getAccount db address
  let nonce ← okOr (account.nonce.checkedAdd 1)
    s!"Nonce overflow, address: {hexEncode address}, nonce: {account.nonce.toNat}"
  updateAccount { account with nonce }

def getBalance {D : Type} [Lookups D] (db : D) (address : Address) : StateOp Balance := do
  let account ← getAccount db address
  pure account.balance

def mint {D : Type} [Lookups D] (db : D) (amount : Balance) (toAddress : Address) : StateOp Unit := do
  let toAccount ← getAccount db toAddress
  let balance ← okOr (toAccount.balance.checkedAdd amount)
    s!"Mint: balance owerflow, account: {hexEncode toAddress}, balance: {toAccount.balance.toNat}, amount: {amount.toNat}"
  updateAccount { toAccount with balance }

/-- The receiving account of a transfer: one whose lookup fails is created on the spot, whatever the error, and
    a transfer to oneself goes on from the account that was just debited. -/
def receiver {D : Type} [Lookups D] (db : D) (fromAccount : Account) (fromAddress toAddress : Address) :
    StateOp Account := do
  match ← (getAccount db toAddress).outcome with
  | .ok account => pure (if fromAddress = toAddress then fromAccount else account)
  | .error _ => do
    let account := Account.new toAddress
    updateAccount account
    pure account

def transfer {D : Type} [Lookups D] (db : D) (fromAddress toAddress : Address) (amount : Balance) :
    StateOp Unit := do
  let fromAccount ← getAccount db fromAddress
  let fromBalance ← okOr (fromAccount.balance.checkedSub amount)
    s!"Transfer: Can't decrease balance, account: {hexEncode fromAddress}, balance: {fromAccount.balance.toNat}, required balance: {amount.toNat}"
  let fromAccount := { fromAccount with balance := fromBalance }
  let toAccount ← receiver db fromAccount fromAddress toAddress
  let toBalance ← okOr (toAccount.balance.checkedAdd amount)
    s!"Transfer: balance overflow, account: {hexEncode toAddress}, balance: {toAccount.balance.toNat}, amount: {amount.toNat}"
  updateAccount fromAccount
  updateAccount { toAccount with balance := toBalance }

def isValidAccount (address : Address) : StateOp Bool := do
  let account ← (getAccount db address).outcome
  pure account.isOk

def createAccount (account : Account) : StateOp Unit := do
  let valid ← isValidAccount db account.address
  if valid then fail s!"Account address collision, address: {hexEncode account.address}"
  else updateAccount account

def createSystemAccount (address : Address) : StateOp Unit :=
  createAccount db (Account.newSystem address)

def getContractOwner (address : Address) : StateOp (Int8 × Address) := do
  let contract ← getContract db address
  pure (contract.access, contract.ownerAddress)

def isValidContractInstance (instanceAddress : Address) : StateOp Bool := do
  let contractInstance ← (getContractInstance db instanceAddress).outcome
  pure contractInstance.isOk

/-! ## Staking -/

def createPool (crypto : Crypto) (accountAddress clusterAddress : Address) (nonce : Nonce)
    (createdBlockNumber : BlockNumber) (contractInstanceAddress : Option Address)
    (minStake maxStake minPoolBalance maxPoolBalance : Option Balance)
    (stakingPeriod : Option BlockNumber) : StateOp Address := do
  let poolAddress := Account.poolAddress crypto accountAddress clusterAddress nonce
  createSystemAccount db poolAddress
  insertStakingPool (StakingPool.new poolAddress accountAddress contractInstanceAddress
    clusterAddress createdBlockNumber minStake maxStake minPoolBalance maxPoolBalance stakingPeriod)
  pure poolAddress

def isStakingAccountExists (accountAddress poolAddress : Address) : StateOp Bool := do
  let stakingAccount ← (getStakingAccount db accountAddress poolAddress).outcome
  pure stakingAccount.isOk

/-- Read a pool, change it and write it back under the address it was asked for. -/
def modifyStakingPool {D : Type} [Lookups D] (db : D) (poolAddress : Address)
    (f : StakingPool → StakingPool) : StateOp Unit := do
  let pool ← getStakingPool db poolAddress
  update fun self =>
    { self with stakingPools := self.stakingPools.insert poolAddress (.updated (some (f pool))) }

def updateStakingPoolBlockNumber {D : Type} [Lookups D] (db : D) (poolAddress : Address)
    (updatedBlockNumber : BlockNumber) : StateOp Unit :=
  modifyStakingPool db poolAddress fun pool => { pool with updatedBlockNumber }

def updateContract (contractInstanceAddress poolAddress : Address) (blockNumber : BlockNumber) :
    StateOp Unit :=
  modifyStakingPool db poolAddress fun pool =>
    { pool with contractInstanceAddress := some contractInstanceAddress,
                updatedBlockNumber := blockNumber }

/-- The limits of a pool on one stake. -/
def checkStakeLimits (pool : StakingPool) (amount : Balance) : Except Error Unit :=
  match pool.minStake with
  | some minStake =>
    if minStake > amount then
      .error s!"Stake: amount ({amount.toNat}) is less than min stake ({minStake.toNat})"
    else checkMax
  | none => checkMax
where
  checkMax : Except Error Unit :=
    match pool.maxStake with
    | some maxStake =>
      if maxStake < amount then
        .error s!"Stake: amount ({amount.toNat}) is greater than max stake ({maxStake.toNat})"
      else .ok ()
    | none => .ok ()

/-- What the limit of a pool on its balance leaves without the stake is compared with the balance. -/
def checkPoolRoom (maxPoolBalance poolBalance amount : Balance) : Except Error Unit :=
  if maxPoolBalance.saturatingSub amount < poolBalance then
    .error s!"Stake: reached maximal pool balance ({maxPoolBalance.toNat}), balance: {poolBalance.toNat}, amount: {amount.toNat}"
  else .ok ()

/-- The limit of a pool on its balance. -/
def checkPoolBalance {D : Type} [Lookups D] (db : D) (pool : StakingPool) (poolAddress : Address)
    (amount : Balance) : StateOp Unit := do
  match pool.maxPoolBalance with
  | some maxPoolBalance => do
    let poolBalance ← getBalance db poolAddress
    lift (checkPoolRoom maxPoolBalance poolBalance amount)
  | none => pure ()

/-- A staking account whose lookup fails is taken for a new one, whatever the error. -/
def stake {D : Type} [Lookups D] (db : D) (poolAddress accountAddress : Address) (blockNumber : BlockNumber)
    (amount : Balance) : StateOp Unit := do
  let pool ← getStakingPool db poolAddress
  lift (checkStakeLimits pool amount)
  checkPoolBalance db pool poolAddress amount
  transfer db accountAddress poolAddress amount
  let found ← (getStakingAccount db accountAddress poolAddress).outcome
  let stakingAccount := found.toOption.getD (StakingAccount.new accountAddress poolAddress)
  let balance ← okOr (stakingAccount.balance.checkedAdd amount)
    s!"Stake: balance overflow, staking account: {hexEncode stakingAccount.accountAddress}, balance: {stakingAccount.balance.toNat}, amount: {amount.toNat}"
  updateStakingAccount { stakingAccount with balance }
  updateStakingPoolBlockNumber db poolAddress blockNumber

/-- What an unstake withdraws and leaves: everything when the rest would fall below the minimum. -/
def unStakeAmounts (pool : StakingPool) (balance amount remainingBalance : Balance) : Balance × Balance :=
  let (adjustedAmount, newBalance) :=
    match pool.minStake with
    | some minStake =>
      if remainingBalance > 0 ∧ remainingBalance < minStake then (balance, 0) else (amount, balance)
    | none => (amount, balance)
  (adjustedAmount, if adjustedAmount = amount then remainingBalance else newBalance)

def unStake (poolAddress accountAddress : Address) (blockNumber : BlockNumber) (amount : Balance) :
    StateOp Unit := do
  let pool ← getStakingPool db poolAddress
  let stakingAccount ← getStakingAccount db accountAddress poolAddress
  let remainingBalance ← okOr (stakingAccount.balance.checkedSub amount)
    s!"Unstake: no enough fund to unstake, account: {hexEncode accountAddress}, staked amount: {stakingAccount.balance.toNat}, amount: {amount.toNat}"
  let (adjustedAmount, balance) :=
    unStakeAmounts pool stakingAccount.balance amount remainingBalance
  updateStakingAccount { stakingAccount with balance }
  updateStakingPoolBlockNumber db poolAddress blockNumber
  transfer db poolAddress accountAddress adjustedAmount

end UpdatedState

end L1xCore
