import L1xCore.RuntimeConfig.ConfigCache
import L1xCore.State.Ledger
import L1xCore.Validate.ValidateTx

/-!
# `Validate.DenyList` — transfers that the deny lists do not see

`validate_tx` asks the deny lists about a `NativeTokenTransfer`. But whether a transaction **is** a token
transfer is decided again when it is executed: a call of an address that is no contract instance becomes one.
For calls in the native form validation demands an instance, so this never happens to them. The Ethereum form
of a plain transfer is such a call, it is accepted as one, and nobody asks the lists.

The execution is followed up to the call of `execute_native_token_transfer` (`upToTransfer`, which
`run_executeBody_transfer` relates to the whole of it).
-/

namespace L1xCore

open Fallible ExecutionOp UpdatedState FeeManager Except

variable {receiver address : Address} {amount fee deposit : Balance} {e : Execution}
  {function : ContractFunction} {arguments : ContractArgument} {tx : Transaction} {m : FeeManager}
  {hash : TransactionHash}

namespace TransactionContext

variable (cx : TransactionContext)

/-- The part of a kind up to the call of `execute_native_token_transfer`: the receiver and the amount of that
    call, or none if the kind does something else. -/
def kindUpToTransfer (tx : Transaction) : ExecutionOp (Option (Address × Balance)) :=
  match tx.transactionType with
  | .nativeTokenTransfer recipient amount => do
    chargeFee FeeConfig.config.tokenTransfer
    pure (some (recipient, amount))
  | .smartContractFunctionCall contractInstanceAddress _ _ deposit => do
    let valid ← onState (isValidContractInstance cx.db contractInstanceAddress)
    if valid then pure none
    else do
      chargeFee FeeConfig.config.tokenTransfer
      pure (some (contractInstanceAddress, deposit))
  | _ => pure none

/-- `execute_transaction` up to the call of `execute_native_token_transfer`. -/
def upToTransfer (tx : Transaction) : ExecutionOp (Option (Address × Balance)) := do
  let _ ← cx.opening tx
  cx.kindUpToTransfer tx

/-- `execute_transaction` in the state `s` calls `execute_native_token_transfer` with its sender, this receiver
    and this amount. -/
def CallsTransfer (tx : Transaction) (s : UpdatedState) (receiver : Address) (amount : Balance) : Prop :=
  ((cx.upToTransfer tx).run ⟨s, .new tx.feeLimit⟩).1 = .ok (some (receiver, amount))

/-- **What is left to do at the call is the transfer.** -/
theorem run_executeBody_transfer {e' : Execution}
    (h : (cx.upToTransfer tx).run e = (.ok (some (receiver, amount)), e')) :
    (cx.executeBody tx).run e =
      (do
        mapError ("Error executing NativeTokenTransfer - " ++ ·)
          (onState (executeNativeTokenTransfer cx.db cx.accountAddress receiver amount))
        pure (.ok (), some (.nativeTokenTransferred cx.accountAddress receiver amount)) :
          ExecutionOp Executed).run e' := by
  obtain ⟨found, e₁, hbefore, h⟩ := run_bind_ok h
  rw [run_executeBody_opening, run_bind_of_ok hbefore, executeKind]
  unfold kindUpToTransfer at h
  cases hkind : tx.transactionType with
  | nativeTokenTransfer recipient value =>
    rw [hkind] at h
    obtain ⟨⟨⟩, e₂, hfee, h⟩ := run_bind_ok h
    cases h
    exact run_bind_of_ok hfee
  | smartContractFunctionCall address function arguments deposit =>
    rw [hkind] at h
    obtain ⟨valid, e₂, hvalid, h⟩ := run_bind_ok h
    cases valid with
    | true => cases h
    | false =>
      obtain ⟨⟨⟩, e₃, hfee, h⟩ := run_bind_ok h
      cases h
      show (onState (isValidContractInstance cx.db _) >>= _).run e₁ = _
      rw [run_bind_of_ok hvalid]
      exact run_bind_of_ok hfee
  | smartContractDeployment | smartContractInit | createStakingPool | stake | unStake | stakingPoolContract =>
    rw [hkind] at h; cases h

/-! ## When the call is reached -/

theorem run_chargeFee_ok (h : e.feeManager.charge fee = some m) :
    (chargeFee fee).run e = (.ok (), { e with feeManager := m }) := by
  rw [chargeFee, onFees, run_zoom, run_updateFee_ok h]

theorem run_chargeFee_error (h : e.feeManager.charge fee = none) :
    ∃ e', (chargeFee fee).run e = (.error "Update fee: Insufficient fee limit", e') := by
  rw [chargeFee, onFees, run_zoom, run_updateFee_error h]
  exact ⟨_, rfl⟩

/-- The overlay shows the contract instances of the tables, and the sender's account if there is one. An
    overlay with nothing pending does so, and locking the fee leaves one that does. -/
structure Shows (s : UpdatedState) : Prop where
  contractInstance : ∀ a, (s.view cx.db).contractInstance a = cx.db.store.contractInstance a
  account : (cx.db.store.account cx.accountAddress).isSome → ((s.view cx.db).account cx.accountAddress).isSome

variable {cx} {tx : Transaction} {s : UpdatedState}

theorem run_opening_ok (haccount : ((s.view cx.db).account cx.accountAddress).isSome)
    (hhash : tx.transactionHash cx.rt.crypto cx.rt.codec = .ok hash)
    (hsize : FeeConfig.config.transactionSizeFee tx = some fee)
    (hcharge : (FeeManager.new tx.feeLimit).charge fee = some m) :
    ∃ nonce s', (cx.opening tx).run ⟨s, .new tx.feeLimit⟩ = (.ok (hash, nonce), ⟨s', m⟩) ∧
      s'.view cx.db = s.view cx.db := by
  obtain ⟨account, hfound⟩ := Option.isSome_iff_exists.mp haccount
  have hread : Reads cx.db (getNonce cx.db cx.accountAddress)
      (fun v => (v.account cx.accountAddress).map (·.nonce)) := (getAccount_reads cx.accountAddress).map _
  have hsome : ((s.view cx.db).account cx.accountAddress).map (·.nonce) = some account.nonce := by
    rw [hfound]
    rfl
  obtain ⟨s', hrun, hview⟩ := hread.found hsome
  have hnonce : (onState (getNonce cx.db cx.accountAddress)).run ⟨s, m⟩ = (.ok account.nonce, ⟨s', m⟩) := by
    rw [onState, run_zoom, hrun]
  have hfees : (chargeFee fee).run ⟨s, .new tx.feeLimit⟩ = (.ok (), ⟨s, m⟩) := run_chargeFee_ok hcharge
  refine ⟨account.nonce, s', ?_, hview⟩
  rw [opening, hsize]
  show (chargeFee fee >>= _).run _ = _
  rw [run_bind_of_ok hfees, hhash]
  show (onState (getNonce cx.db cx.accountAddress) >>= _).run _ = _
  rw [run_bind_of_ok hnonce]
  rfl

/-- The fee limit covers the fee of the size and that of a token transfer. -/
def FeesCovered (tx : Transaction) : Prop :=
  ∃ fee, FeeConfig.config.transactionSizeFee tx = some fee ∧
    fee.toNat + FeeConfig.config.tokenTransfer.toNat ≤ tx.feeLimit.toNat

theorem run_isValidContractInstance (address : Address) (e : Execution) :
    ∃ s', (onState (isValidContractInstance cx.db address)).run e =
      (.ok ((e.updatedState.view cx.db).contractInstance address).isSome, { e with updatedState := s' }) := by
  rw [onState, run_zoom, isValidContractInstance]
  cases hfound : (e.updatedState.view cx.db).contractInstance address with
  | some i =>
    obtain ⟨s', hrun, -⟩ := (getContractInstance_reads address).found hfound
    refine ⟨s', ?_⟩
    rw [run_bind, run_outcome, hrun]
    rfl
  | none =>
    obtain ⟨error, s', hrun, -⟩ := (getContractInstance_reads address).missing hfound
    refine ⟨s', ?_⟩
    rw [run_bind, run_outcome, hrun]
    rfl

theorem kindUpToTransfer_functionCall_iff
    (hkind : tx.transactionType = .smartContractFunctionCall address function arguments deposit) :
    ((cx.kindUpToTransfer tx).run e).1 = .ok (some (receiver, amount)) ↔
      (e.updatedState.view cx.db).contractInstance address = none ∧ receiver = address ∧ amount = deposit ∧
        FeeConfig.config.tokenTransfer.toNat ≤ e.feeManager.leftLimit.toNat := by
  obtain ⟨s', hvalid⟩ := @run_isValidContractInstance cx address e
  rw [kindUpToTransfer, hkind]
  show ((onState (isValidContractInstance cx.db address) >>= _).run e).1 = _ ↔ _
  rw [run_bind_of_ok hvalid]
  cases (e.updatedState.view cx.db).contractInstance address with
  | some i =>
    show (.ok none : Except Error (Option (Address × Balance))) = _ ↔ _
    simp
  | none =>
    show ((chargeFee FeeConfig.config.tokenTransfer >>= _).run _).1 = _ ↔ _
    rcases charge_cases e.feeManager FeeConfig.config.tokenTransfer with
      ⟨m, hcharge, hleft⟩ | ⟨hcharge, hshort⟩
    · have hfees : (chargeFee FeeConfig.config.tokenTransfer).run { e with updatedState := s' } =
          (.ok (), ⟨s', m⟩) := run_chargeFee_ok hcharge
      rw [run_bind_of_ok hfees]
      have hcovered : FeeConfig.config.tokenTransfer.toNat ≤ e.feeManager.leftLimit.toNat := by omega
      show (.ok (some (address, deposit)) : Except Error _) = .ok (some (receiver, amount)) ↔ _
      simp [hcovered, eq_comm]
    · obtain ⟨e', herror⟩ := run_chargeFee_error (e := { e with updatedState := s' }) hcharge
      rw [run_bind_of_error herror]
      have huncovered : ¬ FeeConfig.config.tokenTransfer.toNat ≤ e.feeManager.leftLimit.toNat := by omega
      simp [huncovered]

/-- **When a call becomes a token transfer**: the address is no instance, and the fees are covered. -/
theorem callsTransfer_functionCall_iff (hs : cx.Shows s)
    (haccount : (cx.db.store.account cx.accountAddress).isSome)
    (hhash : tx.transactionHash cx.rt.crypto cx.rt.codec = .ok hash)
    (hkind : tx.transactionType = .smartContractFunctionCall address function arguments deposit) :
    cx.CallsTransfer tx s receiver amount ↔
      cx.db.store.contractInstance address = none ∧ receiver = address ∧ amount = deposit ∧
        FeesCovered tx := by
  unfold CallsTransfer FeesCovered
  cases hsize : FeeConfig.config.transactionSizeFee tx with
  | none =>
    have hrun : ((cx.upToTransfer tx).run ⟨s, .new tx.feeLimit⟩).1 =
        .error "Can't get transaction size fee" := by
      rw [upToTransfer, opening, hsize]
      rfl
    rw [hrun]
    simp
  | some fee =>
    rcases charge_cases (.new tx.feeLimit) fee with ⟨m, hcharge, hleft⟩ | ⟨hcharge, hshort⟩
    · obtain ⟨nonce, s₁, hbefore, hview⟩ := run_opening_ok (hs.account haccount) hhash hsize hcharge
      have hseen : (s₁.view cx.db).contractInstance address = cx.db.store.contractInstance address := by
        rw [hview]
        exact hs.contractInstance address
      have hlimit : m.leftLimit.toNat + fee.toNat = tx.feeLimit.toNat := hleft
      have hcovered : FeeConfig.config.tokenTransfer.toNat ≤ m.leftLimit.toNat ↔
          fee.toNat + FeeConfig.config.tokenTransfer.toNat ≤ tx.feeLimit.toNat := by omega
      rw [upToTransfer, run_bind_of_ok hbefore, kindUpToTransfer_functionCall_iff hkind, hseen, hcovered]
      simp
    · obtain ⟨e', herror⟩ := run_chargeFee_error (e := ⟨s, .new tx.feeLimit⟩) hcharge
      have hrun : ((cx.upToTransfer tx).run ⟨s, .new tx.feeLimit⟩).1 =
          .error "Update fee: Insufficient fee limit" := by
        rw [upToTransfer, opening, hsize, bind_bind]
        show ((chargeFee fee >>= _ >>= _).run _).1 = _
        rw [bind_bind, run_bind_of_error herror]
      have hlimit : (FeeManager.new tx.feeLimit).leftLimit = tx.feeLimit := rfl
      rw [hlimit] at hshort
      have huncovered : ¬ fee.toNat + FeeConfig.config.tokenTransfer.toNat ≤ tx.feeLimit.toNat := by
        omega
      rw [hrun]
      simp [huncovered]

theorem not_callsTransfer (hkind : cx.kindUpToTransfer tx = pure none) :
    ¬ cx.CallsTransfer tx s receiver amount := by
  intro h
  obtain ⟨found, e₁, -, hrun⟩ := run_bind_ok (run_eq_of_fst h)
  rw [hkind] at hrun
  cases hrun

end TransactionContext

/-! ## Against validation -/

theorem StateTables.isValidContractInstance_eq (db : StateTables) (a : Address) :
    db.isValidContractInstance a = (db.store.contractInstance a).isSome := by
  show (db.contractInstanceContractCodeMap.entries.any fun row => row.1.1 = a) =
    (db.getContractInstance a).toOption.isSome
  rw [Bool.eq_iff_iff, List.any_eq_true, ← List.find?_isSome, getContractInstance]
  cases db.contractInstanceContractCodeMap.entries.find? (fun row => row.1.1 = a) with
  | some | none => exact .rfl

namespace Validate

open TransactionContext

/-- The receiver of a plain transfer in Ethereum form: a call without arguments of an address that is no
    contract instance. -/
def ethTransferReceiver (db : StateTables) (tx : Transaction) : Option Address :=
  match tx.transactionType with
  | .smartContractFunctionCall address _ arguments _ =>
    if tx.ethOriginalTransaction.isSome ∧ arguments = [] ∧ db.isValidContractInstance address = false
    then some address
    else none
  | _ => none

theorem functionCall_of_validateTx {v : Validate} {db : StateTables} {caches : RuntimeCaches}
    {sender : Address}
    (hkind : tx.transactionType = .smartContractFunctionCall address function arguments deposit)
    (h : v.validateTx db caches tx sender = .ok ()) :
    v.validateCommon db tx sender = .ok () ∧
      (db.isValidContractInstance address = true ∨ tx.ethOriginalTransaction.isSome ∧ arguments = []) := by
  rw [validateTx, hkind] at h
  cases heth : tx.ethOriginalTransaction with
  | none =>
    rw [heth] at h
    obtain ⟨hcommon, hinstance⟩ := check_eq_ok.mp h
    exact ⟨hcommon, .inl (ensure_eq_ok.mp hinstance)⟩
  | some original =>
    rw [heth] at h
    obtain ⟨hcommon, hrest⟩ := check_eq_ok.mp h
    refine ⟨hcommon, ?_⟩
    rw [hkind] at hrest
    obtain ⟨-, hfound⟩ := check_eq_ok.mp hrest
    cases hinstance : db.isValidContractInstance address with
    | true => exact .inl rfl
    | false =>
      rw [hinstance] at hfound
      cases arguments with
      | nil => exact .inr ⟨rfl, rfl⟩
      | cons _ _ => cases hfound

/-- **When the deny lists are kept.** For every database, deny configuration and transaction of any kind that
    `validate_tx` accepts, executed in a state that shows the same: every token transfer that is called is
    allowed, exactly if the transaction is no transfer in Ethereum form that the lists refuse and whose fee
    limit covers the fees before it. -/
theorem denyList_kept_iff (v : Validate) (cx : TransactionContext) (hrt : cx.rt = v.rt)
    (caches : RuntimeCaches) (tx : Transaction) (s : UpdatedState) (hs : cx.Shows s)
    (hvalid : v.validateTx cx.db caches tx cx.accountAddress = .ok ()) :
    (∀ receiver amount, cx.CallsTransfer tx s receiver amount →
      wbListCheck caches cx.accountAddress receiver = .ok ()) ↔
    ∀ receiver, ethTransferReceiver cx.db tx = some receiver → FeesCovered tx →
      wbListCheck caches cx.accountAddress receiver = .ok () := by
  -- a kind that never calls for a transfer is not a transfer in Ethereum form either
  have hnever : cx.kindUpToTransfer tx = pure none → ethTransferReceiver cx.db tx = none →
      ((∀ receiver amount, cx.CallsTransfer tx s receiver amount →
        wbListCheck caches cx.accountAddress receiver = .ok ()) ↔
      ∀ receiver, ethTransferReceiver cx.db tx = some receiver → FeesCovered tx →
        wbListCheck caches cx.accountAddress receiver = .ok ()) := by
    intro hother hnone
    refine iff_of_true (fun receiver amount hcalls => absurd hcalls (not_callsTransfer hother)) ?_
    intro receiver hreceiver
    rw [hnone] at hreceiver
    cases hreceiver
  cases hkind : tx.transactionType with
  | nativeTokenTransfer recipient value =>
    refine iff_of_true (fun receiver amount hcalls => ?_) fun receiver hreceiver => ?_
    · rw [validateTx, hkind] at hvalid
      -- a token transfer calls for its own receiver
      have hrun := run_eq_of_fst hcalls
      obtain ⟨found, e₁, -, hrun⟩ := run_bind_ok hrun
      rw [kindUpToTransfer, hkind] at hrun
      obtain ⟨⟨⟩, e₂, -, hrun⟩ := run_bind_ok hrun
      cases hrun
      exact (check_eq_ok.mp hvalid).1
    · rw [ethTransferReceiver, hkind] at hreceiver
      cases hreceiver
  | smartContractFunctionCall address function arguments deposit =>
    obtain ⟨hcommon, hform⟩ := functionCall_of_validateTx hkind hvalid
    obtain ⟨⟨hash, hhash⟩, -, account, -, haccount, -⟩ := validateCommon_eq_ok.mp hcommon
    have hstored : (cx.db.store.account cx.accountAddress).isSome := by
      show (cx.db.getAccount cx.accountAddress).toOption.isSome
      rw [haccount]
      rfl
    rw [← hrt] at hhash
    have hnone : cx.db.isValidContractInstance address = false ↔
        cx.db.store.contractInstance address = none := by
      rw [StateTables.isValidContractInstance_eq, Option.isSome_eq_false_iff, Option.isNone_iff_eq_none]
    constructor
    · intro hallowed receiver hreceiver hfees
      rw [ethTransferReceiver, hkind] at hreceiver
      dsimp only at hreceiver
      split at hreceiver
      · next hplain =>
          cases hreceiver
          exact hallowed address deposit ((callsTransfer_functionCall_iff hs hstored hhash hkind).mpr
            ⟨hnone.mp hplain.2.2, rfl, rfl, hfees⟩)
      · cases hreceiver
    · intro hallowed receiver amount hcalls
      obtain ⟨hinstance, rfl, rfl, hfees⟩ := (callsTransfer_functionCall_iff hs hstored hhash hkind).mp hcalls
      -- without an instance only the Ethereum form without arguments has been accepted
      rcases hform with hinstance' | ⟨heth, hempty⟩
      · rw [hnone.mpr hinstance] at hinstance'
        cases hinstance'
      · refine hallowed receiver ?_ hfees
        rw [ethTransferReceiver, hkind]
        exact if_pos ⟨heth, hempty, hnone.mpr hinstance⟩
  | smartContractDeployment | smartContractInit | createStakingPool | stake | unStake | stakingPoolContract =>
    exact hnever (by rw [kindUpToTransfer, hkind]) (by rw [ethTransferReceiver, hkind])

/-- Ethereum transactions whose first byte is the nonce, all of them a payment of five tokens of the account
    with address 1 to the address 2. -/
def ethPayment (bytes : Bytes) : Transaction :=
  { version := .V3, nonce := (bytes.headD 0).toBitVec.setWidth 128,
    transactionType := .smartContractFunctionCall 2 [] [] 5, feeLimit := 10, signature := [],
    verifyingKey := Small.key 1, ethOriginalTransaction := some bytes }

/-- The small runtime with these Ethereum transactions. -/
def ethRuntime : Runtime :=
  { Small.runtime with
    codec :=
      { Small.codec with
        newFromEth := fun bytes => .ok (ethPayment bytes)
        ethTransactionHash := fun bytes => .ok (Small.hash bytes) } }

/-- A transaction of the account with address 1, which has used four nonces. -/
def usedContext : TransactionContext where
  rt := ethRuntime
  executor := Small.platform.executor
  db := usedAccount
  accountAddress := 1
  clusterAddress := 0
  blockNumber := 1
  blockHash := 0
  blockTimestamp := 0

/-- Nobody may send to this address. -/
def denying (receiver : Address) : RuntimeCaches :=
  ⟨none, some ⟨none, some ⟨[], [receiver]⟩⟩, none⟩

theorem usedContext_shows : usedContext.Shows .new where
  contractInstance _ := rfl
  account h := h

/-- The Ethereum payment is accepted and called for with its receiver denied. -/
theorem ethPayment_bypasses :
    (1 : Address) ≠ SYSTEM_REWARDS_DISTRIBUTOR ∧
      (⟨ethRuntime, fun _ => .ok ()⟩ : Validate).validateTx usedAccount (denying 2) (ethPayment [5]) 1 =
        .ok () ∧
      usedContext.CallsTransfer (ethPayment [5]) .new 2 5 ∧ wbListCheck (denying 2) 1 2 ≠ .ok () := by
  refine ⟨by decide, by decide +kernel, ?_, ?_⟩
  · show ((usedContext.upToTransfer (ethPayment [5])).run ⟨.new, .new 10⟩).1 = .ok (some (2, 5))
    decide +kernel
  · intro h
    cases h

/-- With another receiver denied it is allowed. -/
theorem ethPayment_allowed :
    (⟨ethRuntime, fun _ => .ok ()⟩ : Validate).validateTx usedAccount (denying 3) (ethPayment [5]) 1 =
        .ok () ∧
      ∀ receiver amount, usedContext.CallsTransfer (ethPayment [5]) .new receiver amount →
        wbListCheck (denying 3) 1 receiver = .ok () := by
  have hvalid : (⟨ethRuntime, fun _ => .ok ()⟩ : Validate).validateTx usedAccount (denying 3)
      (ethPayment [5]) 1 = .ok () := by
    decide +kernel
  refine ⟨hvalid, (denyList_kept_iff ⟨ethRuntime, fun _ => .ok ()⟩ usedContext rfl (denying 3)
    (ethPayment [5]) .new usedContext_shows hvalid).mpr ?_⟩
  intro receiver hreceiver _
  cases hreceiver
  rfl

end Validate

/-! ## The lists of the contract -/

namespace RoleBasedListsOutput

variable (lists : RoleBasedListsOutput) (sender receiver : Address)

/-- What the lists say about a transfer. -/
def Allows : Prop :=
  receiver ∉ lists.denyList.receivers ∧
    (sender ∉ lists.denyList.senders ∨ receiver ∈ lists.allowList.receivers)

/-- A deny list without entries is dropped, which no question about its entries can tell. -/
theorem blacklisted_ofOutput {p : WBAddresses → Bool} (hp : p ⟨[], []⟩ = false) :
    (RuntimeDenyConfig.ofOutput lists).blacklistedAddresses.elim false p = p (.ofLists lists.denyList) := by
  obtain ⟨⟨receivers, senders⟩, allow⟩ := lists
  cases receivers with
  | nil =>
    cases senders with
    | nil => exact hp.symm
    | cons => rfl
  | cons => rfl

theorem whitelisted_ofOutput :
    (RuntimeDenyConfig.ofOutput lists).whitelistedAddresses.elim true
        (fun l => decide (receiver ∈ l.receiverAddresses)) =
      decide (receiver ∈ lists.allowList.receivers ∨ lists.allowList.receivers = []) := by
  obtain ⟨deny, receivers, senders⟩ := lists
  cases receivers with
  | nil => simp [RuntimeDenyConfig.ofOutput]
  | cons => simp [RuntimeDenyConfig.ofOutput, WBAddresses.ofLists]

/-- What is asked of the loaded lists. An allow list that names no receiver is dropped, and then every receiver
    counts as one it names. -/
theorem loaded_eq_ok_iff {lists : RoleBasedListsOutput} (d : ConfigDecoder) {data borshBytes : Bytes}
    (caches : RuntimeCaches) (hdecoded : d.decodeBase64 data = .ok borshBytes)
    (hparsed : d.borsh borshBytes = .ok lists) :
    wbListCheck ((d.refreshDenyConfig data).run caches).2 sender receiver = .ok () ↔
      receiver ∉ lists.denyList.receivers ∧ (sender ∉ lists.denyList.senders ∨
        receiver ∈ lists.allowList.receivers ∨ lists.allowList.receivers = []) := by
  have hsender : (RuntimeDenyConfig.ofOutput lists).blacklistedAddresses.elim false (sender ∈ ·.senderAddresses) =
      decide (sender ∈ lists.denyList.senders) := lists.blacklisted_ofOutput rfl
  have hreceiver : (RuntimeDenyConfig.ofOutput lists).blacklistedAddresses.elim false
      (receiver ∈ ·.receiverAddresses) = decide (receiver ∈ lists.denyList.receivers) :=
    lists.blacklisted_ofOutput rfl
  unfold ConfigDecoder.refreshDenyConfig
  rw [hdecoded, run_bind_of_ok (run_lift _ caches), hparsed, run_bind_of_ok (run_lift _ caches)]
  calc wbListCheck { caches with denyConfig := some (.ofOutput lists) } sender receiver = .ok ()
      ↔ isTransferAllowed (.ofOutput lists) sender receiver = true := ensure_eq_ok
    -- the senders of the allow list play no part
    _ ↔ _ := by
      unfold isTransferAllowed
      simp [hsender, hreceiver, whitelisted_ofOutput]

/-- **When the loaded lists mean what the contract says**, for every answer that can be decoded and whatever was
    cached before: the allow list names a receiver, or the sender is not denied, or the receiver is. -/
theorem loaded_allows_iff {lists : RoleBasedListsOutput} (d : ConfigDecoder) {data borshBytes : Bytes}
    (caches : RuntimeCaches) (hdecoded : d.decodeBase64 data = .ok borshBytes)
    (hparsed : d.borsh borshBytes = .ok lists) :
    (wbListCheck ((d.refreshDenyConfig data).run caches).2 sender receiver = .ok () ↔
        lists.Allows sender receiver) ↔
      lists.allowList.receivers ≠ [] ∨ sender ∉ lists.denyList.senders ∨
        receiver ∈ lists.denyList.receivers := by
  rw [loaded_eq_ok_iff sender receiver d caches hdecoded hparsed, Allows]
  by_cases hnamed : lists.allowList.receivers = []
  · simp only [hnamed, List.not_mem_nil, or_false, or_true, and_true, ne_eq, not_true_eq_false, false_or]
    by_cases hreceiver : receiver ∈ lists.denyList.receivers
    · simp [hreceiver]
    · simp [hreceiver]
  · simp [hnamed]

/-- A decoder that reads these lists from any answer. -/
def decoder : ConfigDecoder := ⟨id, .ok, .ok, fun _ => .error "", fun _ => .ok lists⟩

/-- The denied sender 1 may pay the allowed receiver 2. -/
theorem denied_pays_allowed :
    let lists : RoleBasedListsOutput := ⟨⟨[3], [1]⟩, ⟨[2], []⟩⟩
    wbListCheck ((lists.decoder.refreshDenyConfig []).run ⟨none, none, none⟩).2 1 2 = .ok () := by
  have hallows : Allows ⟨⟨[3], [1]⟩, ⟨[2], []⟩⟩ 1 2 := ⟨by decide, .inr (by decide)⟩
  exact ((loaded_allows_iff 1 2 _ _ rfl rfl).mpr (.inl (by decide))).mpr hallows

/-- Without an allow list a denied sender may pay everybody. -/
theorem denied_pays_anybody :
    let lists : RoleBasedListsOutput := ⟨⟨[], [1]⟩, ⟨[], []⟩⟩
    ¬ lists.Allows 1 2 ∧
      wbListCheck ((lists.decoder.refreshDenyConfig []).run ⟨none, none, none⟩).2 1 2 = .ok () := by
  refine ⟨?_, by decide +kernel⟩
  rintro ⟨-, hsender | hreceiver⟩
  · exact hsender (by decide)
  · cases hreceiver

end RoleBasedListsOutput

end L1xCore
