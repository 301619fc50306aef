import L1xCore.Execute.ContractExecutor
import L1xCore.Lib.Related
import L1xCore.State.Ledger

/-!
# `Execute.EstimateFee` — the estimate of a fee against the fee that is charged

`execute_estimate_fee` is a second copy of `execute_transaction`: it goes through the same eight kinds, on an
overlay of its own, and returns the fee it has come to. It raises the sender's nonce itself, moves no tokens
for a transfer, gives contracts a fixed gas limit, and sells the gas they burn as a plain fee.

Both copies begin alike (`opening`), and a contract transaction of either asks an executor for the same
request but for its gas limit. `estimate_eq_fee` says that **an estimate is the fee that is then charged**,
whatever the balances have become, if the executor gives the same answer.
-/

namespace L1xCore

open Fallible ExecutionOp UpdatedState FeeManager

variable {e e' e₁ : Execution} {α : Type} {request : ContractRequest} {m m' : FeeManager} {burntGas : Gas}

def READONLY_CALL_DEFAULT_GAS_LIMIT : Gas := 30000000

/-! ## The estimate -/

namespace TransactionContext

variable (cx : TransactionContext)

def estimateDeployment (tx : Transaction) (transactionHash : TransactionHash) (nonce : Nonce)
    (accessType : AccessType) (contractType : ContractType) (contractCode : ContractCode)
    (deposit : Balance) (salt : Salt) : ExecutionOp Unit := do
  if salt.length ≠ 32 then fail "Incorrect salt"
  else
    chargeContractFee tx contractType
    let (_, burntGas) ←
      cx.perform (cx.executor.executeContractDeployment contractType cx.db
        (cx.callContext nonce transactionHash READONLY_CALL_DEFAULT_GAS_LIMIT) accessType contractCode
        salt deposit)
    chargeFee (sellGas burntGas)

def estimateInit (tx : Transaction) (transactionHash : TransactionHash) (nonce : Nonce)
    (contractCodeAddress : Address) (arguments : ContractArgument) (deposit : Balance) :
    ExecutionOp Unit := do
  let contract ← onState (getContract cx.db contractCodeAddress)
  let contractType ← lift (ContractType.ofInt8 contract.type)
  chargeContractFee tx contractType
  let (_, burntGas) ←
    cx.perform (cx.executor.executeContractInit contractType cx.db
      (cx.callContext nonce transactionHash READONLY_CALL_DEFAULT_GAS_LIMIT) contract arguments deposit)
  chargeFee (sellGas burntGas)

/-- How the call ends does not matter. -/
def estimateFunctionCall (tx : Transaction) (transactionHash : TransactionHash) (nonce : Nonce)
    (contractInstanceAddress : Address) (function : ContractFunction)
    (arguments : ContractArgument) (deposit : Balance) : ExecutionOp Unit := do
  let valid ← onState (isValidContractInstance cx.db contractInstanceAddress)
  if valid then
    let contractInstance ←
      onState (getContractInstance cx.db contractInstanceAddress)
    let contract ← onState (getContract cx.db contractInstance.contractAddress)
    let contractType ← lift (ContractType.ofInt8 contract.type)
    chargeContractFee tx contractType
    let (_, burntGas) ←
      cx.perform (cx.executor.executeContractFunctionCall contractType cx.db
        (cx.callContext nonce transactionHash READONLY_CALL_DEFAULT_GAS_LIMIT) contract
        contractInstance function arguments deposit).total
    chargeFee (sellGas burntGas)
  else chargeFee FeeConfig.config.tokenTransfer

/-- The kinds that charge a fixed fee and do one operation on the overlay. -/
def estimateStaking {α : Type} (fee : Balance) (x : StateOp α) : ExecutionOp Unit := do
  chargeFee fee
  let _ ← onState x
  pure ()

def estimateKind (tx : Transaction) (transactionHash : TransactionHash) (nonce : Nonce) : ExecutionOp Unit :=
  match tx.transactionType with
  | .nativeTokenTransfer _ _ => chargeFee FeeConfig.config.tokenTransfer
  | .smartContractDeployment accessType contractType contractCode deposit salt =>
    cx.estimateDeployment tx transactionHash nonce accessType contractType contractCode deposit salt
  | .smartContractInit contractCodeAddress arguments deposit =>
    cx.estimateInit tx transactionHash nonce contractCodeAddress arguments deposit
  | .smartContractFunctionCall contractInstanceAddress function arguments deposit =>
    cx.estimateFunctionCall tx transactionHash nonce contractInstanceAddress function arguments
      deposit
  | .createStakingPool contractInstanceAddress minStake maxStake minPoolBalance maxPoolBalance
      stakingPeriod =>
      estimateStaking FeeConfig.config.createStakingPool
        (createPool cx.db cx.rt.crypto cx.accountAddress cx.clusterAddress nonce
          cx.blockNumber contractInstanceAddress minStake maxStake minPoolBalance maxPoolBalance
          stakingPeriod)
  | .stake poolAddress amount =>
    estimateStaking FeeConfig.config.stake
      (stake cx.db poolAddress cx.accountAddress cx.blockNumber amount)
  | .unStake poolAddress amount =>
    estimateStaking FeeConfig.config.unstake
      (unStake cx.db poolAddress cx.accountAddress cx.blockNumber amount)
  | .stakingPoolContract poolAddress contractInstanceAddress =>
    estimateStaking FeeConfig.config.stakingPoolContract
      (updateContract cx.db contractInstanceAddress poolAddress cx.blockNumber)

def estimateBody (tx : Transaction) : ExecutionOp Unit := do
  onState (incrementNonce cx.db cx.accountAddress)
  let fee ← okOr (FeeConfig.config.transactionSizeFee tx) "Can't get transaction size fee"
  chargeFee fee
  let transactionHash ← lift (tx.transactionHash cx.rt.crypto cx.rt.codec)
  let accountNonce ← onState (getNonce cx.db cx.accountAddress)
  cx.estimateKind tx transactionHash accountNonce

/-- `ExecuteTransaction::execute_estimate_fee`: the fee that has been charged, whether it gets to the end or
    not. -/
def executeEstimateFee (tx : Transaction) (updatedState : UpdatedState) :
    Except Balance Balance × UpdatedState :=
  match (cx.estimateBody tx).run ⟨updatedState, .new tx.feeLimit⟩ with
  | (.ok _, e) => (.ok e.feeManager.getFeeUsed, e.updatedState)
  | (.error _, e) => (.error e.feeManager.getFeeUsed, e.updatedState)

end TransactionContext

/-! ## What the executors are asked for -/

namespace ContractRequest

def withGasLimit (gasLimit : Gas) : ContractRequest → ContractRequest
  | deployment contractType call accessType contractCode salt deposit =>
    deployment contractType { call with gasLimit } accessType contractCode salt deposit
  | init contractType call contract arguments deposit =>
    init contractType { call with gasLimit } contract arguments deposit
  | functionCall contractType call contract contractInstance function arguments deposit =>
    functionCall contractType { call with gasLimit } contract contractInstance function arguments
      deposit

end ContractRequest

namespace TransactionContext

variable (cx : TransactionContext)

/-- What an estimate asks an executor for, and the execution as it is then. -/
def estimateRequestOf (tx : Transaction) (s : UpdatedState) : Option (ContractRequest × Execution) :=
  match (onState (incrementNonce cx.db cx.accountAddress) >>= fun _ =>
      cx.prepareBody tx).run ⟨s, .new tx.feeLimit⟩ with
  | (.ok (some request), e) => some (request.withGasLimit READONLY_CALL_DEFAULT_GAS_LIMIT, e)
  | _ => none

/-- The executor is asked, and what the gas is sold for is charged. -/
def estimateRequest : ContractRequest → ExecutionOp Unit
  | .deployment contractType call accessType contractCode salt deposit => do
    let (_, burntGas) ← cx.perform (cx.executor.executeContractDeployment contractType cx.db call
      accessType contractCode salt deposit)
    chargeFee (sellGas burntGas)
  | .init contractType call contract arguments deposit => do
    let (_, burntGas) ← cx.perform (cx.executor.executeContractInit contractType cx.db call contract
      arguments deposit)
    chargeFee (sellGas burntGas)
  | .functionCall contractType call contract contractInstance function arguments deposit => do
    let (_, burntGas) ← cx.perform (cx.executor.executeContractFunctionCall contractType cx.db call
      contract contractInstance function arguments deposit).total
    chargeFee (sellGas burntGas)

/-- The fee of a transaction that asks no executor. -/
def plainFee (tx : Transaction) : Balance :=
  match tx.transactionType with
  | .createStakingPool .. => FeeConfig.config.createStakingPool
  | .stake .. => FeeConfig.config.stake
  | .unStake .. => FeeConfig.config.unstake
  | .stakingPoolContract .. => FeeConfig.config.stakingPoolContract
  | _ => FeeConfig.config.tokenTransfer

/-! ### Both copies go on from their request -/

variable {cx} {tx : Transaction} {transactionHash : TransactionHash} {nonce : Nonce} (fee : Balance)
  (x : StateOp α)

/-- The estimate of a transaction that asks no executor. -/
def plainEstimate (cx : TransactionContext) (tx : Transaction) (nonce : Nonce) : ExecutionOp Unit :=
  match tx.transactionType with
  | .smartContractFunctionCall _ _ _ _ => chargeFee FeeConfig.config.tokenTransfer
  | _ => cx.estimateKind tx 0 nonce

/-- An estimate goes on from the request that the transaction would make. -/
theorem estimateKind_eq :
    cx.estimateKind tx transactionHash nonce = cx.prepareKind tx transactionHash nonce >>= fun request =>
      match request with
      | some request => cx.estimateRequest (request.withGasLimit READONLY_CALL_DEFAULT_GAS_LIMIT)
      | none => cx.plainEstimate tx nonce := by
  rw [prepareKind_bind]
  unfold estimateKind plainEstimate
  cases htype : tx.transactionType with
  | smartContractDeployment | smartContractInit | smartContractFunctionCall => rfl
  | nativeTokenTransfer | createStakingPool | stake | unStake | stakingPoolContract =>
    rw [estimateKind, htype]

/-! ### Transactions without a request -/

/-- The fees are left as they are. -/
def KeepsFees (e e' : Execution) : Prop := e'.feeManager = e.feeManager

instance : Std.Refl KeepsFees := ⟨fun _ => rfl⟩

instance : IsTrans Execution KeepsFees := ⟨fun _ _ _ h₁ h₂ => h₂.trans h₁⟩

theorem onState_keepsFees : Moves KeepsFees (onState x) := fun _ => rfl

/-- What is done after a fee was charged does not change what was charged. -/
theorem feeManager_charge_bind {f : Unit → ExecutionOp α} (hf : ∀ u, Moves KeepsFees (f u))
    (e : Execution) : ((chargeFee fee >>= f).run e).2.feeManager = ((chargeFee fee).run e).2.feeManager := by
  rcases hrun : (chargeFee fee).run e with ⟨error | u, e₁⟩
  · rw [run_bind_of_error hrun]
  · rw [run_bind_of_ok hrun]
    exact hf u e₁

variable (h : (cx.prepareKind tx transactionHash nonce).run e = (.ok none, e'))

include h

/-- A transaction that asks no executor is charged its plain fee. -/
theorem executeKind_fees : ((cx.executeKind tx transactionHash nonce).run e).2.feeManager =
      ((chargeFee (plainFee tx)).run e').2.feeManager := by
  rw [executeKind_eq, run_bind_of_ok h]
  unfold plainKind executeKind plainFee
  cases htype : tx.transactionType with
  | smartContractDeployment | smartContractInit =>
    exact absurd h (prepareKind_ne_none (by rw [creates, htype]))
  | nativeTokenTransfer | smartContractFunctionCall | createStakingPool | stake | unStake
  | stakingPoolContract =>
    exact feeManager_charge_bind _ (fun _ => (onState_keepsFees _).mapError.bind fun _ => .pure _) e'

theorem estimateKind_fees : ((cx.estimateKind tx transactionHash nonce).run e).2.feeManager =
      ((chargeFee (plainFee tx)).run e').2.feeManager := by
  rw [estimateKind_eq, run_bind_of_ok h]
  unfold plainEstimate estimateKind plainFee
  cases htype : tx.transactionType with
  | nativeTokenTransfer => rfl
  | smartContractDeployment | smartContractInit =>
    exact absurd h (prepareKind_ne_none (by rw [creates, htype]))
  | smartContractFunctionCall => rfl
  | createStakingPool | stake | unStake | stakingPoolContract =>
    exact feeManager_charge_bind _ (fun _ => (onState_keepsFees _).bind fun _ => .pure _) e'

end TransactionContext

/-! ## The same fee for the same answer -/

/-- Two managers that have taken the same out of the same limit. -/
structure FeeManager.SameFee (m m' : FeeManager) : Prop where
  feeLimit : m'.feeLimit = m.feeLimit
  leftLimit : m'.leftLimit = m.leftLimit

theorem FeeManager.SameFee.getFeeUsed (h : m.SameFee m') : m'.getFeeUsed = m.getFeeUsed := by
  unfold FeeManager.getFeeUsed
  rw [h.feeLimit, h.leftLimit]

theorem FeeManager.sameFee_of_updateFee (h : (updateFee (sellGas burntGas)).run m = (.ok (), m')) :
    ∃ m'', (updateGasAndFeeUsed burntGas).run m = (.ok (), m'') ∧ m'.SameFee m'' := by
  rcases m.charge_cases (sellGas burntGas) with ⟨charged, hcharge, -⟩ | ⟨hcharge, -⟩
  · rw [run_updateFee_ok hcharge] at h
    cases h
    refine ⟨m'.addGas burntGas, ?_, ⟨rfl, rfl⟩⟩
    rw [updateGasAndFeeUsed, run_bind_of_ok (run_state m), hcharge]
    rfl
  · rw [run_updateFee_error hcharge] at h
    cases h

namespace TransactionContext

variable {cx : TransactionContext}

/-- What is charged for the gas of an answer, in two executions that have come to the same fees. -/
theorem sameFee_of_chargeFee (hfees : e'.feeManager = e.feeManager)
    (h : (chargeFee (sellGas burntGas)).run e = (.ok (), e₁)) {f : Unit → ExecutionOp α}
    (hf : ∀ u, Moves KeepsFees (f u)) :
    e₁.feeManager.SameFee ((onFees (updateGasAndFeeUsed burntGas) >>= f).run e').2.feeManager := by
  unfold chargeFee onFees at h
  obtain ⟨manager, hrun, rfl⟩ := run_zoom_ok h
  obtain ⟨manager', hrun', hsame⟩ := sameFee_of_updateFee hrun
  have hcharge : (onFees (updateGasAndFeeUsed burntGas)).run e' =
      (.ok (), { e' with feeManager := manager' }) := by
    unfold onFees
    rw [run_zoom, hfees, hrun']
  rw [run_bind_of_ok hcharge]
  have hkept := hf () { e' with feeManager := manager' }
  rw [hkept]
  exact hsame

theorem estimateRequest_ok (h : (cx.estimateRequest request).run e = (.ok (), e₁)) :
    ∃ burntGas e₀, (cx.executor.answer cx.db e.updatedState request).gas = some burntGas ∧
      e₀.feeManager = e.feeManager ∧ (chargeFee (sellGas burntGas)).run e₀ = (.ok (), e₁) := by
  unfold ContractExecutor.answer
  cases request with
  | deployment | init =>
    obtain ⟨⟨made, burntGas⟩, e₀, hperform, hcharge⟩ := run_bind_ok h
    rw [run_perform] at hperform
    obtain ⟨hmade, hkept⟩ := Prod.mk.inj hperform
    refine ⟨burntGas, e₀, ?_, by rw [← hkept], hcharge⟩
    dsimp only
    rw [hmade]
    rfl
  | functionCall =>
    obtain ⟨⟨capture, burntGas⟩, e₀, hperform, hcharge⟩ := run_bind_ok h
    obtain ⟨hmade, hkept⟩ := Prod.mk.inj hperform
    refine ⟨burntGas, e₀, ?_, by rw [← hkept], hcharge⟩
    dsimp only
    rw [Except.ok.inj hmade]
    rfl

end TransactionContext

/-! ## The same request from both -/

/-- What the fees of a transaction depend on: the contracts, their instances and the sender's nonce. -/
structure Store.SameForFees (a : Address) (st st' : Store) : Prop where
  contract : st'.contract = st.contract
  contractInstance : st'.contractInstance = st.contractInstance
  nonce : (st'.account a).map (·.nonce) = (st.account a).map (·.nonce)

namespace TransactionContext

variable {cx : TransactionContext} {tx : Transaction} (a : Address)

/-- Two executions that have come to the same fees on such overlays. -/
structure Alike (cx : TransactionContext) (e e' : Execution) : Prop where
  fees : e'.feeManager = e.feeManager
  store : Store.SameForFees cx.accountAddress (view cx.db e.updatedState).toStore
    (view cx.db e'.updatedState).toStore

theorem follows_chargeFee {fee : Balance} : Follows (Alike cx) (chargeFee fee) (chargeFee fee) (Alike cx) := by
  intro e e' halike _ e₁ h
  unfold chargeFee onFees at h ⊢
  obtain ⟨manager, hrun, rfl⟩ := run_zoom_ok h
  refine ⟨{ e' with feeManager := manager }, ?_, rfl, halike.store⟩
  rw [run_zoom, halike.fees, hrun]

theorem follows_chargeContractFee {contractType : ContractType} :
    Follows (Alike cx) (chargeContractFee tx contractType) (chargeContractFee tx contractType) (Alike cx) :=
  (Follows.okOr _ _).bind fun _ => follows_chargeFee

theorem follows_onState {x : StateOp α} {f : StateView → Option α} (hx : Reads cx.db x f)
    (hf : ∀ v v' : StateView, Store.SameForFees cx.accountAddress v.toStore v'.toStore → f v' = f v) :
    Follows (Alike cx) (onState x) (onState x) (Alike cx) := by
  intro e e' halike a e₁ h
  unfold onState at h ⊢
  obtain ⟨s₁, hrun, rfl⟩ := run_zoom_ok h
  obtain ⟨hfound, hv₁⟩ := hx e.updatedState
  rw [hrun] at hfound hv₁
  obtain ⟨s₁', hrun', hv₁'⟩ := hx.found (s := e'.updatedState) (a := a) (by
    rw [hf _ _ halike.store, ← hfound]
    rfl)
  refine ⟨{ e' with updatedState := s₁' }, ?_, halike.fees, ?_⟩
  · rw [run_zoom, hrun']
  · show Store.SameForFees cx.accountAddress (view cx.db s₁).toStore
      (view cx.db s₁').toStore
    rw [hv₁', hv₁]
    exact halike.store

theorem isValidContractInstance_reads (db : StateTables) (a : Address) :
    Reads db (isValidContractInstance db a) (fun v => some (v.contractInstance a).isSome) := by
  intro s
  have hread : Reads db (getContractInstance db a) (·.contractInstance a) := getContractInstance_reads a
  obtain ⟨hfound, hview⟩ := hread s
  rcases hrun : (getContractInstance db a).run s with ⟨result, s₁⟩
  rw [hrun] at hfound hview
  dsimp only at hfound
  have hvalid : (isValidContractInstance db a).run s = (.ok result.isOk, s₁) := by
    unfold isValidContractInstance
    rw [run_bind_of_ok (by rw [run_outcome, hrun])]
    rfl
  rw [hvalid]
  dsimp only
  rw [← hfound]
  refine ⟨?_, hview⟩
  cases result <;> rfl

theorem follows_getContract :
    Follows (Alike cx) (onState (getContract cx.db a)) (onState (getContract cx.db a)) (Alike cx) :=
  follows_onState (getContract_reads a) fun _ _ h => congrFun h.contract a

/-- A request is made with the gas limit that the fees leave. -/
theorem follows_request {f : Execution → α} (hf : ∀ e e', Alike cx e e' → f e' = f e) :
    Follows (Alike cx) (state >>= fun e => pure (f e) : ExecutionOp α)
      (state >>= fun e => pure (f e)) (Alike cx) := by
  intro e e' halike a e₁ h
  cases h
  refine ⟨e', ?_, halike⟩
  rw [run_bind_of_ok (run_state e'), hf e e' halike]
  rfl

theorem follows_prepareKind {transactionHash : TransactionHash} {nonce : Nonce} :
    Follows (Alike cx) (cx.prepareKind tx transactionHash nonce) (cx.prepareKind tx transactionHash nonce)
      (Alike cx) := by
  unfold prepareKind
  cases tx.transactionType with
  | smartContractDeployment accessType contractType contractCode deposit salt =>
    refine .bind ?_ fun request => .pure _
    unfold prepareDeployment
    split
    · intro _ _ _ _ _ h
      cases h
    · exact follows_chargeContractFee.bind fun _ => follows_request fun _ _ h => by rw [h.fees]
  | smartContractInit contractCodeAddress arguments deposit =>
    refine .bind ?_ fun request => .pure _
    exact (follows_getContract _).bind fun contract => (Follows.lift _).bind fun contractType =>
      follows_chargeContractFee.bind fun _ => follows_request fun _ _ h => by rw [h.fees]
  | smartContractFunctionCall contractInstanceAddress function arguments deposit =>
    refine (follows_onState (isValidContractInstance_reads cx.db _) ?_).bind fun valid => ?_
    · intro v v' h
      rw [h.contractInstance]
    · cases valid with
      | false => exact .pure _
      | true =>
        refine (follows_onState (getContractInstance_reads _) fun _ _ h => congrFun h.contractInstance _).bind ?_
        exact fun contractInstance => (follows_getContract _).bind fun contract =>
          (Follows.lift _).bind fun contractType =>
            follows_chargeContractFee.bind fun _ => follows_request fun _ _ h => by rw [h.fees]
  | nativeTokenTransfer | createStakingPool | stake | unStake | stakingPoolContract => exact .pure _

theorem follows_opening : Follows (Alike cx) (cx.opening tx) (cx.opening tx) (Alike cx) := by
  have hnonce : Reads cx.db (getNonce cx.db cx.accountAddress)
      (fun v => (v.account cx.accountAddress).map (·.nonce)) :=
    (getAccount_reads cx.accountAddress).map (·.nonce)
  exact (Follows.okOr _ _).bind fun fee => follows_chargeFee.bind fun _ =>
    (Follows.lift _).bind fun transactionHash => (follows_onState hnonce fun _ _ h => h.nonce).bind
      fun accountNonce => .pure _

end TransactionContext

/-- The fee that is reported is what the fee manager has come to. -/
theorem fee_reportOf (cx : TransactionContext) (tx : Transaction) (s : UpdatedState) :
    (reportOf (executeTransaction cx tx s).1).fee =
      ((cx.executeBody tx).run ⟨s, .new tx.feeLimit⟩).2.feeManager.getFeeUsed := by
  unfold executeTransaction
  rcases (cx.executeBody tx).run ⟨s, .new tx.feeLimit⟩ with ⟨error | ⟨error | ⟨⟩, event⟩, e⟩ <;> rfl

/-- The executors give the same answer, with the same burnt gas, to what the estimate on `s` and the
    execution on `s'` ask them for. -/
def SameAnswers (cx : TransactionContext) (executor : ContractExecutor) (tx : Transaction)
    (s s' : UpdatedState) : Prop :=
  ∀ request e request' e', cx.estimateRequestOf tx s = some (request, e) →
    TransactionContext.requestOf { cx with executor } tx s' = some (request', e') →
    cx.executor.answer cx.db e.updatedState request = executor.answer cx.db e'.updatedState request'

open TransactionContext in
/-- **The fee estimate is the charged fee.** For every transaction and every overlay: what is estimated
    without an error is charged, on every overlay with the same contracts and instances and with the
    sender's nonce raised, whatever the balances are there, if the executors give the same answer. -/
theorem estimate_eq_fee (cx : TransactionContext) (executor : ContractExecutor) (tx : Transaction)
    (s s' : UpdatedState) (fee : Balance)
    (hraised : ∀ st, (view cx.db s).incrementNonce cx.accountAddress = some st →
      Store.SameForFees cx.accountAddress st (view cx.db s').toStore)
    (hanswers : SameAnswers cx executor tx s s') (h : (cx.executeEstimateFee tx s).1 = .ok fee) :
    (reportOf (executeTransaction { cx with executor } tx s').1).fee = fee := by
  rw [fee_reportOf]
  unfold executeEstimateFee at h
  rcases hbody : (cx.estimateBody tx).run ⟨s, .new tx.feeLimit⟩ with ⟨error | ⟨⟩, final⟩
  · rw [hbody] at h
    cases h
  rw [hbody] at h
  cases h
  -- the nonce is raised, and both begin in the same way
  obtain ⟨_, e₁, hnonce, hrest⟩ := run_bind_ok hbody
  obtain ⟨s₁, hrun₁, rfl⟩ := run_zoom_ok hnonce
  obtain ⟨st, hst, hv₁⟩ := incrementNonce_transacts.ok hrun₁
  have halike : Alike cx ⟨s₁, .new tx.feeLimit⟩ ⟨s', .new tx.feeLimit⟩ := by
    refine ⟨rfl, ?_⟩
    dsimp only
    rw [hv₁]
    exact hraised st hst
  have hestimate := hrest
  rw [← opening_bind] at hestimate
  obtain ⟨⟨transactionHash, nonce⟩, e₂, hopening, hkind⟩ := run_bind_ok hestimate
  obtain ⟨e₂', hopening', halike₂⟩ := follows_opening _ _ halike _ _ hopening
  have hopens : TransactionContext.opening { cx with executor } tx = cx.opening tx := rfl
  have hexecute : ((TransactionContext.executeBody { cx with executor } tx).run
      ⟨s', .new tx.feeLimit⟩) = (TransactionContext.executeKind { cx with executor } tx transactionHash
        nonce).run e₂' := by
    unfold executeBody
    rw [← opening_bind, hopens, run_bind_of_ok hopening']
  -- and so they come to the same request
  have hestimated := hkind
  rw [estimateKind_eq] at hestimated
  obtain ⟨prepared, e₃, hprepare, -⟩ := run_bind_ok hestimated
  obtain ⟨e₃', hprepare', halike₃⟩ := follows_prepareKind _ _ halike₂ _ _ hprepare
  cases prepared with
  | none =>
    have hcharged := estimateKind_fees hprepare
    rw [hkind] at hcharged
    have hcharged' : ((TransactionContext.executeKind { cx with executor } tx transactionHash nonce).run
        e₂').2.feeManager = _ := executeKind_fees hprepare'
    rw [hexecute, hcharged', chargeFee, onFees, run_zoom, halike₃.fees]
    exact congrArg getFeeUsed hcharged.symm
  | some request =>
    have hasked : cx.estimateRequestOf tx s =
        some (request.withGasLimit READONLY_CALL_DEFAULT_GAS_LIMIT, e₃) := by
      unfold estimateRequestOf
      rw [run_bind_of_ok hnonce]
      unfold prepareBody
      rw [← opening_bind, run_bind_of_ok hopening]
      dsimp only
      rw [hprepare]
    have hasked' : TransactionContext.requestOf { cx with executor } tx s' = some (request, e₃') := by
      have hbody' : (TransactionContext.prepareBody { cx with executor } tx).run
          ⟨s', .new tx.feeLimit⟩ = (.ok (some request), e₃') := by
        unfold prepareBody
        rw [← opening_bind]
        exact (run_bind_of_ok hopening').trans hprepare'
      unfold requestOf
      rw [hbody']
    have hanswer := hanswers _ _ _ _ hasked hasked'
    rw [estimateKind_eq, run_bind_of_ok hprepare] at hkind
    -- the same answer costs the same, estimated and executed
    obtain ⟨burntGas, e₀, hgas, hkept, hcharge⟩ := estimateRequest_ok hkind
    obtain ⟨executed, text, -, hrun⟩ := run_finishRequest { cx with executor } request e₃'
    have hgas' := hanswer ▸ hgas
    rw [run_executeBody_of_requestOf hasked', hrun, hgas']
    refine (sameFee_of_chargeFee ?_ hcharge fun _ => .pure _).getFeeUsed
    exact halike₃.fees.trans hkept.symm

namespace Small

/-- Executors that burn a fixed amount of gas in every function call. -/
def burning (gas : Gas) : ContractExecutor where
  executeContractDeployment _ _ _ _ _ _ _ _ := (.error "not deployed", [])
  executeContractInit _ _ _ _ _ _ _ := (.error "not initialized", [])
  executeContractFunctionCall _ _ _ _ _ _ _ _ _ := ((.exit .succeed [], gas), [])

/-- A call that burns 9000 gas is estimated at four tokens. It then costs four tokens, although the sender
    has given all tokens but 100 away in the meantime. -/
theorem callTransaction_estimated :
    ((senderContext (burning 9000)).executeEstimateFee (callTransaction 10) .new).1 = .ok 4 ∧
      (reportOf (executeTransaction (senderContext (burning 9000)) (callTransaction 10)
        (runOps runtime.crypto (senderContext (burning 9000)).db
          [.incrementNonce 0x77, .transfer 0x77 0x78 900] .new)).1).fee = 4 := by
  have hestimate : ((senderContext (burning 9000)).executeEstimateFee (callTransaction 10) .new).1 =
      .ok 4 := by decide +kernel
  refine ⟨hestimate, ?_⟩
  refine estimate_eq_fee (senderContext (burning 9000)) (burning 9000) (callTransaction 10) .new _ 4 ?_ ?_
    hestimate
  · intro st hst
    cases hst
    exact ⟨rfl, rfl, rfl⟩
  · intro request e request' e' hrequest hrequest'
    cases hrequest
    cases hrequest'
    rfl

end Small

end L1xCore
