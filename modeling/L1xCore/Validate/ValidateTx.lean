import L1xCore.Execute.ExecuteBlock
import L1xCore.Lib.Checks

/-!
# `Validate.ValidateTx` — the validation of one transaction

`ValidateCommon::validate_tx` of the `validate` crate, with the validators of each transaction kind. All
of them look at the database and the caches as they are **before** a block; nothing is changed. Debug
logging is off, so the arguments of `debug!` are not evaluated.

Each kind goes through its own chain of checks. `validate_common` and `validate_common_native_token_tx` are
the two chains that look at the signature and at the nonce, and not every kind goes through one of them.
The main result says exactly when acceptance means that the sender has authorised the transaction.
-/

namespace L1xCore

open StateTables BitVec

open Except (ensure)

variable {amount : Balance} {poolAddress : Address} {contractType : ContractType} {account : Account}
  {arguments : ContractArgument}

/-- What validation is built on. -/
structure Validate where
  rt : Runtime
  /-- `l1x_ebpf_runtime::verify_ebpf`. -/
  verifyEbpf : ContractCode → Except Error Unit

/-- The checks of one contract type (`trait ContractValidator`), which by default refuse. -/
structure ContractValidator where
  validateContractDeployment : Transaction → ContractCode → Address → Except Error Unit :=
    fun _ _ _ => .error "Deployment is not implemented"
  validateContractInit : Transaction → Address → ContractArgument → Address → Except Error Unit :=
    fun _ _ _ _ => .error "Initialization is not implemented"
  validateContractFunctionCall : Transaction → Address → ContractFunction → ContractArgument →
      Address → Except Error Unit :=
    fun _ _ _ _ _ => .error "Smart contract function call is not implemented"

/-! ## The deny lists -/

/-- A blacklisted receiver is never allowed, a blacklisted sender only to whitelisted receivers. -/
def isTransferAllowed (config : RuntimeDenyConfig) (fromAddress toAddress : Address) : Bool :=
  let isBlacklistedSender := config.blacklistedAddresses.elim false (fromAddress ∈ ·.senderAddresses)
  let isWhitelistedReceiver := config.whitelistedAddresses.elim true (toAddress ∈ ·.receiverAddresses)
  let isBlacklistedReceiver := config.blacklistedAddresses.elim false (toAddress ∈ ·.receiverAddresses)
  !(isBlacklistedReceiver || (isBlacklistedSender && !isWhitelistedReceiver))

def wbListCheck (caches : RuntimeCaches) (fromAddress toAddress : Address) : Except Error Unit := do
  let config ← caches.getDenyConfig
  ensure (isTransferAllowed config fromAddress toAddress)
    s!"\n\t\t\t❌❌❌❌❌❌❌❌❌❌❌❌❌❌❌\n\t\t\t👮👮Insufficient privileges 👮👮\n\t\t\t❌❌❌❌❌❌❌❌❌❌❌❌❌❌❌\n\t\t\tFrom {hexEncode fromAddress} to {hexEncode toAddress}\n\t\t\t"

namespace StateTables

variable (db : StateTables)

def isValidAccount (address : Address) : Bool := (db.account.lookup address).isSome

def getBalance (address : Address) : Except Error Balance :=
  match db.account.lookup address with
  | some row => .ok row.balance
  | none => .error "Account not found"

def getContractOwner (address : Address) : Except Error (Int8 × Address) :=
  match db.contract.lookup address with
  | some row => .ok (row.access, row.ownerAddress)
  | none => .error "Diesel query failed: Record not found"

def isValidContractInstance (instanceAddress : Address) : Bool :=
  db.contractInstanceContractCodeMap.entries.any fun row => row.1.1 = instanceAddress

end StateTables

namespace Validate

variable (v : Validate) (db : StateTables)

/-! ## The common chains -/

def validateCommon (tx : Transaction) (sender : Address) : Except Error Unit := do
  let _ ← tx.transactionHash v.rt.crypto v.rt.codec
  let valid ← tx.verifySignature v.rt.crypto v.rt.codec
  ensure valid "Invalid transaction signature"
  ensure (db.isValidAccount sender) "Invalid transaction sender"
  let account ← db.getAccount sender
  -- unchecked, so after the largest nonce `0` is expected
  let expectedNonce := account.nonce + 1
  ensure (tx.nonce = expectedNonce) "Invalid nonce"
  let requiredBalance ← tx.requiredBalance
  ensure (requiredBalance ≤ account.balance) "Not enough balance"

def validateCommonNativeTokenTx (tx : Transaction) (sender : Address) : Except Error Account := do
  let _ ← tx.transactionHash v.rt.crypto v.rt.codec
  let valid ← tx.verifySignature v.rt.crypto v.rt.codec
  ensure valid "Invalid transaction signature"
  ensure (db.isValidAccount sender) "Invalid transaction sender"
  let account ← db.getAccount sender
  ensure (account.nonce < tx.nonce) "Invalid nonce"
  pure account

/-! ## Tokens -/

/-- The cost is computed in unbounded integers. -/
def validateNativeToken (tx : Transaction) (amount : Balance) (sender : Address) :
    Except Error Unit := do
  let account ← v.validateCommonNativeTokenTx db tx sender
  ensure (amount ≠ 0) "Amount should be greater than 0"
  if isMintTx sender tx then pure ()
  else
    ensure (amount.toNat + tx.feeLimit.toNat ≤ account.balance.toNat)
      "Insufficient balance to cover the transaction"

/-! ## Contracts -/

/-- `validate_contract_l1xvm`. -/
def validateContractL1xvm : ContractValidator where
  validateContractDeployment tx contractCode sender := do
    v.validateCommon db tx sender
    v.verifyEbpf contractCode
  validateContractInit tx contractAddress _ sender := do
    v.validateCommon db tx sender
    let (access, contractOwner) ← db.getContractOwner contractAddress
    ensure (!(access = AccessType.PRIVATE.toInt8 ∧ contractOwner ≠ sender))
      "Only owner can instantiate the PRIVATE contract code"
  validateContractFunctionCall tx contractInstanceAddress _ _ sender := do
    v.validateCommon db tx sender
    ensure (db.isValidContractInstance contractInstanceAddress)
      s!"Can't find the contract address: {hexEncode contractInstanceAddress}"

/-- `validate_contract_evm`. The code of a deployment is not looked at. -/
def validateContractEvm : ContractValidator where
  validateContractDeployment tx _ sender := v.validateCommon db tx sender
  validateContractInit _ _ _ _ := .error "Not supported"
  validateContractFunctionCall tx contractInstanceAddress _ arguments sender := do
    v.validateCommon db tx sender
    match tx.transactionType with
    | .smartContractFunctionCall _ _ _ deposit => do
      let isValidContractAddress := db.isValidContractInstance contractInstanceAddress
      -- without a contract and arguments it is a token transfer
      let isNativeTokenTransfer := !isValidContractAddress && arguments.isEmpty
      ensure (!(isNativeTokenTransfer && deposit = 0)) "Deposit should be greater than 0"
      ensure (!(!isNativeTokenTransfer && !isValidContractAddress))
        s!"Can't find the contract address: {hexEncode contractInstanceAddress}"
    | _ => .error "Invalid transaction type"

/-- `validate_contract_xtalk`: everything is refused. -/
def validateContractXtalk : ContractValidator where

def contractValidator : ContractType → ContractValidator
  | .L1XVM => v.validateContractL1xvm db
  | .EVM => v.validateContractEvm db
  | .XTALK => validateContractXtalk

/-! ## Staking

No signature and no nonce is looked at here. -/

/-- The limits of a pool on one stake. -/
def ensureStakeLimits (stakingPool : StakingPool) (amount : Balance) : Except Error Unit := do
  ensure (stakingPool.minStake.elim true (· ≤ amount))
    s!"Stake amount is less than the pools minimum required stake of {(stakingPool.minStake.getD 0).toNat}"
  ensure (stakingPool.maxStake.elim true (amount ≤ ·))
    s!"Stake amount is greater than the pools maximal required stake of {(stakingPool.maxStake.getD 0).toNat}"

/-- The limit of a pool on its balance after the stake. -/
def ensurePoolRoom (maxPoolBalance poolBalance amount : Balance) : Except Error Unit :=
  match poolBalance.checkedAdd amount with
  | none => .error "Pool balance overflow"
  | some poolBalanceAfterStake =>
    ensure (poolBalanceAfterStake ≤ maxPoolBalance)
      s!"Reached max pool balance, balance: {poolBalance.toNat}, max: {maxPoolBalance.toNat}, amount: {amount.toNat}"

def validateStake (sender poolAddress : Address) (amount : Balance) : Except Error Unit := do
  let stakingPool ← db.getStakingPool poolAddress
  ensureStakeLimits stakingPool amount
  match stakingPool.maxPoolBalance with
  | some maxPoolBalance => do
    let poolBalance ← db.getBalance poolAddress
    ensurePoolRoom maxPoolBalance poolBalance amount
  | none => pure ()
  let accountBalance ← db.getBalance sender
  -- the account may not drain itself to zero
  ensure (amount < accountBalance) s!"Insufficient balance to stake {amount.toNat} tokens"

def validateUnstake (sender poolAddress : Address) (amount : Balance) : Except Error Unit := do
  let _ ← db.getStakingPool poolAddress
  let stakingAccount ← db.getStakingAccount sender poolAddress
  ensure (amount ≤ stakingAccount.balance)
    s!"Insufficient staked balance in the pool to un-stake {amount.toNat} tokens"

/-! ## All kinds -/

/-- `ValidateCommon::validate_tx`. A deployment is checked by the type it names, the other contract kinds
    by whether the transaction comes from Ethereum. -/
def validateTx (caches : RuntimeCaches) (tx : Transaction) (sender : Address) : Except Error Unit :=
  let contractType : ContractType := if tx.ethOriginalTransaction.isSome then .EVM else .L1XVM
  match tx.transactionType with
  | .nativeTokenTransfer recipient amount => do
    wbListCheck caches sender recipient
    v.validateNativeToken db tx amount sender
  | .smartContractDeployment _ contractType contractCode _ _ =>
    (v.contractValidator db contractType).validateContractDeployment tx contractCode sender
  | .smartContractInit contractCodeAddress arguments _ =>
    (v.contractValidator db contractType).validateContractInit tx contractCodeAddress arguments
      sender
  | .smartContractFunctionCall contractInstanceAddress function arguments _ =>
    (v.contractValidator db contractType).validateContractFunctionCall tx contractInstanceAddress
      function arguments sender
  | .createStakingPool .. => pure ()
  | .stake poolAddress amount => validateStake db sender poolAddress amount
  | .unStake poolAddress amount => validateUnstake db sender poolAddress amount
  | .stakingPoolContract .. => pure ()

/-! ## What acceptance says -/

/-- The sender has authorised the transaction: the signature under its key verifies, and its nonce has
    not been used. -/
structure Authorised (tx : Transaction) (sender : Address) : Prop where
  signature : tx.verifySignature v.rt.crypto v.rt.codec = .ok true
  nonce : ∃ account, db.getAccount sender = .ok account ∧ account.nonce < tx.nonce

variable {v db} {tx : Transaction} {sender : Address}

theorem validateCommonNativeTokenTx_ok (h : v.validateCommonNativeTokenTx db tx sender = .ok account) :
    v.Authorised db tx sender := by
  unfold validateCommonNativeTokenTx at h
  simp only [Except.bind_eq_ok, Except.ensure_eq_ok] at h
  obtain ⟨_, -, valid, hsignature, _, hvalid, _, -, stored, hstored, _, hnonce, -⟩ := h
  rw [hvalid] at hsignature
  exact ⟨hsignature, stored, hstored, of_decide_eq_true hnonce⟩

theorem isValidAccount_of_getAccount (h : db.getAccount sender = .ok account) :
    db.isValidAccount sender = true := by
  unfold getAccount at h
  unfold isValidAccount
  split at h
  · next hrow =>
      rw [hrow]
      rfl
  · cases h

theorem validateCommon_eq_ok :
    v.validateCommon db tx sender = .ok () ↔ (∃ hash, tx.transactionHash v.rt.crypto v.rt.codec = .ok hash) ∧
      tx.verifySignature v.rt.crypto v.rt.codec = .ok true ∧
      ∃ account required, db.getAccount sender = .ok account ∧ tx.nonce = account.nonce + 1 ∧
        tx.requiredBalance = .ok required ∧ required ≤ account.balance := by
  unfold validateCommon
  simp only [Except.bind_eq_ok, Except.ensure_eq_ok]
  constructor
  · rintro ⟨hash, hhash, valid, hsignature, _, rfl, _, -, account, haccount, _, hnonce, required,
      hrequired, hbalance⟩
    exact ⟨⟨hash, hhash⟩, hsignature, account, required, haccount, of_decide_eq_true hnonce, hrequired,
      of_decide_eq_true hbalance⟩
  · rintro ⟨⟨hash, hhash⟩, hsignature, account, required, haccount, hnonce, hrequired, hbalance⟩
    exact ⟨hash, hhash, true, hsignature, (), rfl, (), isValidAccount_of_getAccount haccount, account,
      haccount, (), decide_eq_true hnonce, required, hrequired, decide_eq_true hbalance⟩

theorem validateNativeToken_eq_ok :
    v.validateNativeToken db tx amount sender = .ok () ↔
      (∃ hash, tx.transactionHash v.rt.crypto v.rt.codec = .ok hash) ∧
      tx.verifySignature v.rt.crypto v.rt.codec = .ok true ∧ amount ≠ 0 ∧
      ∃ account, db.getAccount sender = .ok account ∧ account.nonce < tx.nonce ∧
        (isMintTx sender tx = false → amount.toNat + tx.feeLimit.toNat ≤ account.balance.toNat) := by
  have hlast : ∀ account : Account,
      (if isMintTx sender tx then pure () else ensure (amount.toNat + tx.feeLimit.toNat ≤ account.balance.toNat)
          "Insufficient balance to cover the transaction" : Except Error Unit) = .ok () ↔
        (isMintTx sender tx = false → amount.toNat + tx.feeLimit.toNat ≤ account.balance.toNat) := by
    intro account
    cases isMintTx sender tx with
    | true => exact ⟨fun _ h => Bool.noConfusion h, fun _ => rfl⟩
    | false =>
      rw [if_neg Bool.false_ne_true, Except.ensure_eq_ok, decide_eq_true_iff]
      exact ⟨fun h _ => h, fun h => h rfl⟩
  unfold validateNativeToken validateCommonNativeTokenTx
  simp only [Except.bind_eq_ok, Except.ensure_eq_ok, hlast]
  constructor
  · rintro ⟨account, ⟨hash, hhash, valid, hsignature, _, rfl, _, -, stored, hstored, _, hnonce, h⟩, _,
      hamount, hbalance⟩
    cases h
    exact ⟨⟨hash, hhash⟩, hsignature, of_decide_eq_true hamount, account, hstored,
      of_decide_eq_true hnonce, hbalance⟩
  · rintro ⟨⟨hash, hhash⟩, hsignature, hamount, account, haccount, hnonce, hbalance⟩
    exact ⟨account, ⟨hash, hhash, true, hsignature, (), rfl, (), isValidAccount_of_getAccount haccount,
      account, haccount, (), decide_eq_true hnonce, rfl⟩, (), decide_eq_true hamount, hbalance⟩

/-- The pool has room for a stake. -/
def PoolHasRoom (db : StateTables) (poolAddress : Address) (row : StakingPoolRow) (amount : Balance) : Prop :=
  ∀ maxPoolBalance, row.maxPoolBalance = some maxPoolBalance →
    ∃ balance, db.getBalance poolAddress = .ok balance ∧ balance.toNat + amount.toNat ≤ maxPoolBalance.toNat

theorem exists_pool_of_validateStake (h : validateStake db sender poolAddress amount = .ok ()) :
    ∃ row, db.stakingPool.lookup poolAddress = some row := by
  obtain ⟨stakingPool, hpool, -⟩ := Except.bind_eq_ok.mp h
  unfold getStakingPool at hpool
  split at hpool
  · next row hrow => exact ⟨row, hrow⟩
  · cases hpool

theorem ensureStakeLimits_eq_ok {pool : StakingPool} :
    ensureStakeLimits pool amount = .ok () ↔
      pool.minStake.elim true (· ≤ amount) = true ∧ pool.maxStake.elim true (amount ≤ ·) = true := by
  rw [ensureStakeLimits, Except.check_eq_ok, Except.ensure_eq_ok, Except.ensure_eq_ok]

theorem ensurePoolRoom_eq_ok {maxPoolBalance poolBalance : Balance} :
    ensurePoolRoom maxPoolBalance poolBalance amount = .ok () ↔
      poolBalance.toNat + amount.toNat ≤ maxPoolBalance.toNat := by
  unfold ensurePoolRoom
  cases hadd : poolBalance.checkedAdd amount with
  | none =>
    have hover := checkedAdd_eq_none.mp hadd
    refine iff_of_false (fun h => ?_) (by omega)
    cases h
  | some after =>
    have hafter := checkedAdd_eq_some.mp hadd
    rw [Except.ensure_eq_ok, decide_eq_true_iff, le_def, hafter]

/-- What the check of a stake accepts: the limits of the pool, and a balance that is not drained. -/
theorem validateStake_eq_ok {row : StakingPoolRow} (hrow : db.stakingPool.lookup poolAddress = some row) :
    validateStake db sender poolAddress amount = .ok () ↔
      row.minStake.elim true (· ≤ amount) = true ∧ row.maxStake.elim true (amount ≤ ·) = true ∧
        PoolHasRoom db poolAddress row amount ∧
        ∃ balance, db.getBalance sender = .ok balance ∧ amount < balance := by
  have hlast : (do
      let accountBalance ← db.getBalance sender
      ensure (amount < accountBalance) s!"Insufficient balance to stake {amount.toNat} tokens" :
        Except Error Unit) = .ok () ↔ ∃ balance, db.getBalance sender = .ok balance ∧ amount < balance := by
    simp only [Except.bind_eq_ok, Except.ensure_eq_ok, decide_eq_true_iff]
  have hpool : db.getStakingPool poolAddress = .ok (row.toPool poolAddress) := by
    rw [getStakingPool, hrow]
  rw [validateStake, hpool, Except.ok_bind, Except.check_eq_ok, ensureStakeLimits_eq_ok]
  refine Iff.trans and_assoc (and_congr_right fun _ => and_congr_right fun _ => ?_)
  unfold PoolHasRoom
  show (match row.maxPoolBalance with | some _ => _ | none => _) = Except.ok () ↔ _
  cases row.maxPoolBalance with
  | none =>
    rw [hlast]
    exact ⟨fun h => ⟨(by rintro _ ⟨⟩), h⟩, fun h => h.2⟩
  | some maxPoolBalance =>
    rw [Except.bind_eq_ok]
    constructor
    · rintro ⟨balance, hbalance, h⟩
      rw [Except.check_eq_ok, ensurePoolRoom_eq_ok, hlast] at h
      refine ⟨?_, h.2⟩
      rintro _ ⟨⟩
      exact ⟨balance, hbalance, h.1⟩
    · rintro ⟨hroom, h⟩
      obtain ⟨balance, hbalance, hle⟩ := hroom maxPoolBalance rfl
      refine ⟨balance, hbalance, ?_⟩
      rw [Except.check_eq_ok, ensurePoolRoom_eq_ok, hlast]
      exact ⟨hle, h⟩

theorem validateUnstake_eq_ok :
    validateUnstake db sender poolAddress amount = .ok () ↔
      (∃ row, db.stakingPool.lookup poolAddress = some row) ∧
      ∃ staked, db.stakingAccount.lookup (poolAddress, sender) = some staked ∧ amount ≤ staked := by
  unfold validateUnstake getStakingPool getStakingAccount
  cases db.stakingPool.lookup poolAddress with
  | none =>
    refine ⟨fun h => ?_, ?_⟩
    · cases h
    · rintro ⟨⟨_, h⟩, -⟩
      cases h
  | some row =>
    cases db.stakingAccount.lookup (poolAddress, sender) with
    | none =>
      refine ⟨fun h => ?_, ?_⟩
      · cases h
      · rintro ⟨-, _, h, -⟩
        cases h
    | some staked =>
      rw [Except.ok_bind, Except.ok_bind, Except.ensure_eq_ok, decide_eq_true_iff]
      constructor
      · intro h
        exact ⟨⟨row, rfl⟩, staked, rfl, h⟩
      · rintro ⟨-, _, ⟨⟩, h⟩
        exact h

variable (v db)

/-- The sender's stored nonce is the largest there is, so that the next one wraps to `0`. -/
def NonceExhausted (sender : Address) : Prop :=
  ∃ account, db.getAccount sender = .ok account ∧ account.nonce = BitVec.allOnes 128

/-- When the checks of a kind cover the authorisation: always for a token transfer, for the contract kinds as
    long as the nonce does not wrap, and never for the staking kinds. -/
def AuthorisationCovered (sender : Address) : TransactionType → Prop
  | .nativeTokenTransfer .. => True
  | .smartContractDeployment .. | .smartContractInit .. | .smartContractFunctionCall .. =>
    ¬ NonceExhausted db sender
  | .createStakingPool .. | .stake .. | .unStake .. | .stakingPoolContract .. => False

variable {v db}

/-- A contract kind, given that its check went through the common chain. -/
theorem authorised_of_validateCommon (h : v.validateCommon db tx sender = .ok ()) :
    v.Authorised db tx sender ↔ ¬ NonceExhausted db sender := by
  -- the chain of the contract kinds fixes the nonce
  obtain ⟨-, hsignature, account, _, haccount, hnonce, -⟩ := validateCommon_eq_ok.mp h
  constructor
  · rintro ⟨-, account', haccount', hlt⟩ ⟨stored, hstored, hmax⟩
    cases hstored.symm.trans haccount'
    rw [hmax, lt_def, toNat_allOnes] at hlt
    omega
  · intro hleft
    refine ⟨hsignature, account, haccount, ?_⟩
    have hne : account.nonce ≠ allOnes 128 := fun hmax => hleft ⟨account, haccount, hmax⟩
    have hne : account.nonce.toNat ≠ 2 ^ 128 - 1 := by
      intro hmax
      apply hne
      apply eq_of_toNat_eq
      rw [hmax, toNat_allOnes]
    rw [hnonce, lt_def, toNat_add]
    have hone : (1 : BitVec 128).toNat = 1 := rfl
    omega

/-- The same request, with another signature and another nonce. -/
def sentWith (tx : Transaction) (signature : SignatureBytes) (nonce : Nonce) : Transaction :=
  { tx with signature, nonce }

theorem transactionType_sentWith (signature : SignatureBytes) (nonce : Nonce) :
    (sentWith tx signature nonce).transactionType = tx.transactionType := rfl

section

variable {caches : RuntimeCaches}

/-- A contract kind: its check goes through the common chain, so only a nonce that wraps matters. -/
theorem accepted_authorised_iff (hcommon : ∀ signature nonce,
      v.validateTx db caches (sentWith tx signature nonce) sender = .ok () →
        v.validateCommon db (sentWith tx signature nonce) sender = .ok ()) :
    (∀ signature nonce, v.validateTx db caches (sentWith tx signature nonce) sender = .ok () →
        v.Authorised db (sentWith tx signature nonce) sender) ↔
      (∀ signature nonce, v.validateTx db caches (sentWith tx signature nonce) sender ≠ .ok ()) ∨
        ¬ NonceExhausted db sender := by
  constructor
  · intro hall
    by_cases hex : NonceExhausted db sender
    · refine .inl fun signature nonce h => ?_
      exact (authorised_of_validateCommon (hcommon signature nonce h)).mp (hall signature nonce h) hex
    · exact .inr hex
  · rintro (hnever | hleft) signature nonce h
    · exact absurd h (hnever signature nonce)
    · exact (authorised_of_validateCommon (hcommon signature nonce h)).mpr hleft

/-- A staking kind: its check does not look at the nonce, and nobody has authorised the nonce `0`. -/
theorem accepted_regardless_iff (hsame : ∀ signature nonce,
      v.validateTx db caches (sentWith tx signature nonce) sender =
        v.validateTx db caches (sentWith tx signature 0) sender) :
    (∀ signature nonce, v.validateTx db caches (sentWith tx signature nonce) sender = .ok () →
        v.Authorised db (sentWith tx signature nonce) sender) ↔
      (∀ signature nonce, v.validateTx db caches (sentWith tx signature nonce) sender ≠ .ok ()) ∨ False := by
  rw [or_false]
  refine ⟨fun hall signature nonce h => ?_, fun hnever signature nonce h => absurd h (hnever _ _)⟩
  rw [hsame] at h
  obtain ⟨-, account, -, hlt⟩ := hall signature 0 h
  exact Nat.not_lt_zero _ (lt_def.mp hlt)

end

/-- **When acceptance means authorisation.** For every database, cache and sender, and for what a transaction
    of any kind asks for: whatever the signature and the nonce are, it is authorised if it is accepted, exactly
    when it is never accepted, or the checks of its kind cover that. -/
theorem validateTx_authorised_iff (v : Validate) (db : StateTables) (caches : RuntimeCaches)
    (tx : Transaction) (sender : Address) :
    (∀ signature nonce, v.validateTx db caches (sentWith tx signature nonce) sender = .ok () →
        v.Authorised db (sentWith tx signature nonce) sender) ↔
      (∀ signature nonce, v.validateTx db caches (sentWith tx signature nonce) sender ≠ .ok ()) ∨
        AuthorisationCovered db sender tx.transactionType := by
  cases hkind : tx.transactionType with
  | nativeTokenTransfer recipient amount =>
    refine iff_of_true (fun signature nonce h => ?_) (.inr trivial)
    rw [validateTx, transactionType_sentWith, hkind] at h
    obtain ⟨_, -, htoken⟩ := Except.bind_eq_ok.mp h
    obtain ⟨account, hcommon, -⟩ := Except.bind_eq_ok.mp htoken
    exact validateCommonNativeTokenTx_ok hcommon
  | smartContractDeployment accessType contractType =>
    refine accepted_authorised_iff fun signature nonce h => ?_
    rw [validateTx, transactionType_sentWith, hkind] at h
    cases contractType with
    | L1XVM => exact (Except.check_eq_ok.mp h).1
    | EVM => exact h
    | XTALK => cases h
  | smartContractInit =>
    refine accepted_authorised_iff fun signature nonce h => ?_
    rw [validateTx, transactionType_sentWith, hkind] at h
    dsimp only at h
    split at h
    · cases h
    · exact (Except.check_eq_ok.mp h).1
  | smartContractFunctionCall =>
    refine accepted_authorised_iff fun signature nonce h => ?_
    rw [validateTx, transactionType_sentWith, hkind] at h
    dsimp only at h
    split at h <;> exact (Except.check_eq_ok.mp h).1
  | createStakingPool | stake | unStake | stakingPoolContract =>
    refine accepted_regardless_iff fun signature nonce => ?_
    simp only [validateTx, sentWith, hkind]

/-- The small runtime, with every program verified. -/
def small : Validate := ⟨Small.runtime, fun _ => .ok ()⟩

/-- The account with address 1 has used four nonces. -/
def usedAccount : StateTables :=
  { StateTables.empty with
    account := (∅ : Table Address AccountRow).insert 1 ⟨.user, 100, 4⟩ }

/-- Somebody asks for a pool in the name of that account, without a signature and with an old nonce. -/
def unsignedPool : Transaction :=
  { version := .V3, nonce := 2, transactionType := .createStakingPool none none none none none none,
    feeLimit := 10, signature := [], verifyingKey := Small.key 1, ethOriginalTransaction := none }

theorem unsignedPool_not_authorised :
    Account.addressOf small.rt.crypto unsignedPool.verifyingKey = .ok 1 ∧
    small.validateTx usedAccount ⟨none, none, none⟩ unsignedPool 1 = .ok () ∧
    ¬ small.Authorised usedAccount unsignedPool 1 := by
  refine ⟨Small.addressOf_key 1, rfl, ?_⟩
  rintro ⟨hsignature, -⟩
  cases hsignature

end Validate

end L1xCore
