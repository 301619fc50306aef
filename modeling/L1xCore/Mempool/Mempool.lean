import L1xCore.Validate.ValidateTx

/-!
# `Mempool.Mempool` — transactions that wait for a block

`mempool/src/mempool.rs`. A transaction that passed validation waits in two queues: by sender and time of
arrival, and in a list by fee limit. A proposer takes from the second one what it believes can be executed:
it sorts the list by nonce and simulates the accounts of the senders (`buildNewBlockTransactionsList`).

The clock is read by every call and is an argument here. Differences of times are unchecked and wrap.
-/

namespace L1xCore

open Fallible

abbrev TimeStamp := BitVec 128

structure Mempool where
  transactions : Table Address (Table TimeStamp (List Transaction))
  transactionsPriority : List (Transaction × TimeStamp)
  maxSize : Nat
  feeLimit : Balance
  rateLimit : Nat
  timeFrameSeconds : TimeStamp
  expirationSeconds : TimeStamp

namespace Mempool

abbrev Op := Fallible Mempool Error

def new (maxSize : Nat) (feeLimit : Balance) (rateLimit : Nat)
    (timeFrameSeconds expirationSeconds : TimeStamp) : Mempool :=
  ⟨∅, [], maxSize, feeLimit, rateLimit, timeFrameSeconds, expirationSeconds⟩

def secondsToMilliseconds (seconds : TimeStamp) : TimeStamp := seconds * 1000

variable (self : Mempool) (crypto : Crypto)

/-! ## Adding -/

/-- How many transactions of the sender arrived within the time frame. -/
def recentCount (sender : Address) (currentTime : TimeStamp) : Nat :=
  let since := currentTime - secondsToMilliseconds self.timeFrameSeconds
  match self.transactions.lookup sender with
  | some byTime => ((byTime.entries.filter (since ≤ ·.1)).map (·.2.length)).sum
  | none => 0

/-- The checks of `add_transaction`; the sender is returned. -/
def checkTransaction (v : Validate) (w : World) (currentTime : TimeStamp) (tx : Transaction) :
    Except Error Address := do
  Except.ensure (self.transactionsPriority.length < self.maxSize) "Mempool is full"
  let transactionHash ← tx.transactionHash v.rt.crypto v.rt.codec
  Except.ensure (tx.feeLimit ≤ self.feeLimit)
    s!"Transaction ({hexEncode transactionHash}) fee exceeds fee limit: {tx.feeLimit.toNat} > {self.feeLimit.toNat}"
  let sender ← Account.addressOf v.rt.crypto tx.verifyingKey
  v.validateTx w.db.state w.caches tx sender
  Except.ensure (self.recentCount sender currentTime < self.rateLimit)
    s!"Rate limit exceeded for the sender: {hexEncode sender}, tx hash: {hexEncode transactionHash}"
  pure sender

/-- One sender and one nonce. -/
def hasConflict (existingTx newTx : Transaction) : Bool :=
  match Account.addressOf crypto existingTx.verifyingKey, Account.addressOf crypto newTx.verifyingKey with
  | .ok existingSender, .ok newSender => existingSender = newSender ∧ existingTx.nonce = newTx.nonce
  | _, _ => false

/-- `get_conflicts`: they leave the list. -/
def getConflicts (tx : Transaction) : Op (List (Transaction × TimeStamp)) := do
  let self ← state
  update fun self => { self with
    transactionsPriority := self.transactionsPriority.filter fun e => !hasConflict crypto e.1 tx }
  pure (self.transactionsPriority.filter fun e => hasConflict crypto e.1 tx)

/-- A conflicting transaction leaves the queue of its sender; its time stays, even without one. -/
def removeConflict (conflict : Transaction × TimeStamp) : Op Unit := do
  let conflictSender ← lift (Account.addressOf crypto conflict.1.verifyingKey)
  update fun self =>
    match self.transactions.lookup₂ conflictSender conflict.2 with
    | some txs => { self with
        transactions := self.transactions.insert₂ conflictSender conflict.2
          (txs.filter (·.nonce ≠ conflict.1.nonce)) }
    | none => self

/-- The new transaction, unless one of those it is in conflict with has a higher fee limit. -/
def handleConflicts (conflicts : List (Transaction × TimeStamp)) (newTx : Transaction × TimeStamp) :
    Transaction × TimeStamp :=
  conflicts.foldl (fun kept conflict => if newTx.1.feeLimit < conflict.1.feeLimit then conflict else kept)
    newTx

/-- The transaction that goes into the queues, and its time. -/
def resolveConflicts (currentTime : TimeStamp) (tx : Transaction) : Op (Transaction × TimeStamp) := do
  let conflicts ← getConflicts crypto tx
  if conflicts.isEmpty then pure (tx, currentTime)
  else do
    forEach conflicts (removeConflict crypto)
    pure (handleConflicts conflicts (tx, currentTime))

/-- Before the first transaction with a lower fee limit. Without one the position is taken from the number
    of **senders**. -/
def insertionPos (tx : Transaction) : Nat :=
  (self.transactionsPriority.findIdx? (·.1.feeLimit < tx.feeLimit)).getD (self.transactions.keys.length - 1)

/-- `Vec::insert` panics beyond the end of the list. -/
def insertTransaction (sender : Address) (entry : Transaction × TimeStamp) : Op Unit := do
  update fun self => { self with
    transactions := self.transactions.upsert₂ sender entry.2 (· ++ [entry.1]) [entry.1] }
  let self ← state
  let pos := self.insertionPos entry.1
  let len := self.transactionsPriority.length
  if pos ≤ len then
    update fun self => { self with
      transactionsPriority := self.transactionsPriority.insertIdx pos entry }
  else fail s!"insertion index (is {pos}) should be <= len (is {len})"

/-- `add_transaction`. -/
def addTransaction (v : Validate) (w : World) (currentTime : TimeStamp) (tx : Transaction) : Op Unit := do
  let self ← state
  let sender ← lift (self.checkTransaction v w currentTime tx)
  let entry ← resolveConflicts v.rt.crypto currentTime tx
  insertTransaction sender entry

/-! ## Removing -/

/-- Transactions are told apart by their signatures. -/
def removeTransaction (tx : Transaction) : Op Unit := do
  let sender ← lift (Account.addressOf crypto tx.verifyingKey)
  update fun self => { self with
    transactions :=
      match self.transactions.lookup sender with
      | none => self.transactions
      | some byTime =>
        let left := byTime.retain fun _ txs =>
          let txs := txs.filter (·.signature ≠ tx.signature)
          if txs.isEmpty then none else some txs
        if left.entries.isEmpty then self.transactions.erase sender
        else self.transactions.insert sender left
    transactionsPriority := self.transactionsPriority.filter (·.1.signature ≠ tx.signature) }

/-- The transactions that arrived before the given time. -/
def arrivedBefore (since : TimeStamp) : List Transaction :=
  self.transactions.entries.flatMap fun bySender =>
    bySender.2.entries.flatMap fun byTime => if since ≤ byTime.1 then [] else byTime.2

/-- `remove_expired_transactions`. -/
def removeExpiredTransactions (currentTime : TimeStamp) : Op (List Transaction) := do
  let self ← state
  let since := currentTime - secondsToMilliseconds self.expirationSeconds
  let expiredTransactions := self.arrivedBefore since
  update fun self => { self with
    transactions := self.transactions.retain fun _ byTime =>
      let left := byTime.retain fun timestamp txs => if since ≤ timestamp then some txs else none
      if left.entries.isEmpty then none else some left
    transactionsPriority := self.transactionsPriority.filter (·.1 ∉ expiredTransactions) }
  pure expiredTransactions

/-- `remove_transaction_by_sender`. -/
def removeTransactionBySender (sender : Address) : Op Unit :=
  update fun self => { self with transactions := self.transactions.erase sender }

/-- `clear_transactions`. -/
def clearTransactions : Op Unit :=
  update fun self => { self with transactions := ∅, transactionsPriority := [] }

/-! ## Building a block -/

/-- What a transaction is taken to need besides its fee: only a token transfer needs something. -/
def requiredDeposit (tx : Transaction) : Balance :=
  match tx.transactionType with
  | .nativeTokenTransfer _ amount => amount
  | _ => 0

/-- The account after a transaction that is included; none if it is dropped. -/
def accountAfter (account : Account) (tx : Transaction) : Option Account := do
  let expectedNonce ← account.nonce.checkedAdd 1
  if expectedNonce = tx.nonce then do
    let requiredAmount ← (requiredDeposit tx).checkedAdd tx.feeLimit
    let balance ← account.balance.checkedSub requiredAmount
    some { account with balance, nonce := expectedNonce }
  else none

/-- The loop over the sorted transactions, with the accounts seen so far. -/
def includeTransactions (db : StateTables) :
    Table Address Account → List Transaction → Except Error (List Transaction)
  | _, [] => pure []
  | accounts, tx :: txs => do
    let sender ← Account.addressOf crypto tx.verifyingKey
    let account ← (accounts.lookup sender).elim (db.getAccount sender) .ok
    match accountAfter account tx with
    | some account => do
      let included ← includeTransactions db (accounts.insert sender account) txs
      pure (tx :: included)
    | none => includeTransactions db (accounts.insert sender account) txs

/-- `build_new_block_transactions_list`. -/
def buildNewBlockTransactionsList (db : StateTables) : Except Error (List Transaction) :=
  includeTransactions crypto db ∅ (Platform.sortByNonce (self.transactionsPriority.map Prod.fst))

end Mempool

end L1xCore
