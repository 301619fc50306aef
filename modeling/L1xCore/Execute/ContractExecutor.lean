import L1xCore.Execute.ExecuteTransaction
import L1xCore.Execute.ReadOnlyCalls

/-!
# `Execute.ContractExecutor` — the contracts that a transaction runs

What `execute_transaction` passes to the executors of `execute_common.rs`, and what they do with it. An L1XVM
contract is deployed without being run, and its initialization calls its function `new`. An EVM contract is
run when it is deployed, and has no initialization. For a contract of type `XTALK` there is only the function
call, which does nothing.

A contract transaction charges its fixed fees, asks an executor, and charges the gas that the executor
reports (`executeKind_eq`). `ContractRequest.root` is the contract that is then run, if one is, and the
overlay it is run on.
-/

namespace L1xCore

open Fallible ExecutionOp UpdatedState FeeManager

variable {e e' : Execution} {request : ContractRequest} {s : UpdatedState} {deposit : Balance}

/-! ## The calls of a transaction -/

def CONTRACT_INIT_FUNCTION_NAME : ContractFunction := Error.intoBytes "new"

namespace CallContext

variable (cx : CallContext)

def env : CallEnv :=
  ⟨cx.clusterAddress, cx.nonce, cx.transactionHash, cx.blockNumber, cx.blockHash, cx.blockTimestamp⟩

/-- The deployment of an EVM contract. The salt is not used for it. -/
def deployment (accessType : AccessType) (contractCode : ContractCode) (deposit : Balance) : Deployment where
  accountAddress := cx.accountAddress
  scheme := .legacy cx.accountAddress
  gasLimit := cx.gasLimit
  deposit := deposit
  accessType := accessType.toInt8
  contractCode := contractCode
  env := cx.env
  currentCallDepth := 0

def functionCall (contract : Contract) (contractInstance : ContractInstance)
    (function : ContractFunction) (arguments : ContractArgument) (deposit : Balance) : FunctionCall where
  accountAddress := cx.accountAddress
  context := ⟨contractInstance.instanceAddress, cx.accountAddress, deposit.setWidth 256⟩
  gasLimit := cx.gasLimit
  deposit := deposit
  contract := contract
  contractInstance := contractInstance
  function := function
  arguments := arguments
  readonly := false
  env := cx.env
  currentCallDepth := 0

/-- The instance that an initialization creates. -/
def initInstance (crypto : Crypto) (contract : Contract) : ContractInstance where
  instanceAddress :=
    Account.contractInstanceAddress crypto cx.accountAddress contract.address cx.clusterAddress cx.nonce
  contractAddress := contract.address
  ownerAddress := cx.accountAddress

/-- The call that initializes an instance. Its context has the sender for the address as well. -/
def initCall (crypto : Crypto) (contract : Contract) (arguments : ContractArgument) (deposit : Balance) :
    FunctionCall :=
  { cx.functionCall contract (cx.initInstance crypto contract) CONTRACT_INIT_FUNCTION_NAME arguments
      deposit with
    context := ⟨cx.accountAddress, cx.accountAddress, deposit.setWidth 256⟩ }

end CallContext

/-! ## The executors -/

/-- How an exit reason is printed. -/
def ExitReason.toError : ExitReason → Error
  | succeed => "Succeed(Returned)"
  | error e => s!"Error({e})"
  | revert e => s!"Revert({e})"
  | fatal e => s!"Fatal({e})"

/-- What an initialization makes of the call of the function. -/
def initOutcome (contractInstance : ContractInstance) :
    Capture × Gas → Except Error (ContractInstance × Gas)
  | (.exit .succeed _, burntGas) => .ok (contractInstance, burntGas)
  | (.exit reason _, _) => .error reason.toError
  | (.trap, _) => .error "Error: trap"

namespace ExecuteContractL1xvm

/-- `execute_contract_deployment`: the code is stored, and nothing is run. -/
def executeContractDeployment (crypto : Crypto) (db : StateTables) (cx : CallContext)
    (accessType : AccessType) (contractCode : ContractCode) : StateOp (Address × Gas) := do
  let contractAddress := Account.contractAddress crypto cx.accountAddress cx.clusterAddress cx.nonce
  createSystemAccount db contractAddress
  storeContract
    { address := contractAddress, access := accessType.toInt8, type := 0, code := contractCode,
      ownerAddress := cx.accountAddress }
  createEvent ⟨cx.transactionHash, Error.intoBytes "Contract deployment succeeded",
    cx.blockNumber, VMContractTrait.EVENT_TYPE_L1XVM, contractAddress, none⟩
  pure (contractAddress, 0)

/-- What an initialization does before it calls the contract. -/
def createInstance (crypto : Crypto) (db : StateTables) (cx : CallContext) (contract : Contract) :
    StateOp Unit := do
  createSystemAccount db (cx.initInstance crypto contract).instanceAddress
  storeContractInstance (cx.initInstance crypto contract)

/-- `execute_contract_init`. -/
def executeContractInit (crypto : Crypto) (db : StateTables) (engines : Engines) (cx : CallContext)
    (contract : Contract) (arguments : ContractArgument) (deposit : Balance) (s : UpdatedState) :
    Performed (Except Error (ContractInstance × Gas)) :=
  match (createInstance crypto db cx contract).run s with
  | (.error e, s) => ⟨.error e, s, []⟩
  | (.ok _, s) =>
    let called := engines.l1xvm (cx.initCall crypto contract arguments deposit) s
    ⟨initOutcome (cx.initInstance crypto contract) called.outcome, called.updatedState, called.log⟩

end ExecuteContractL1xvm

namespace VirtualMachines

variable (vms : VirtualMachines) (db : StateTables)

/-- The executor of each contract type, for a deployment. -/
def executeContractDeployment (contractType : ContractType) (cx : CallContext) (accessType : AccessType)
    (contractCode : ContractCode) (deposit : Balance) (s : UpdatedState) :
    Performed (Except Error (Address × Gas)) :=
  match contractType with
  | .L1XVM =>
    let deployed :=
      (ExecuteContractL1xvm.executeContractDeployment vms.crypto db cx accessType contractCode).run s
    ⟨deployed.1, deployed.2, []⟩
  | .EVM => (contractEngines vms db).evmDeployment (cx.deployment accessType contractCode deposit) s
  | .XTALK => ⟨.error "execute_contract_deployment not implemented", s, []⟩

def executeContractInit (contractType : ContractType) (cx : CallContext) (contract : Contract)
    (arguments : ContractArgument) (deposit : Balance) (s : UpdatedState) :
    Performed (Except Error (ContractInstance × Gas)) :=
  match contractType with
  | .L1XVM =>
    ExecuteContractL1xvm.executeContractInit vms.crypto db (contractEngines vms db) cx contract
      arguments deposit s
  | .EVM | .XTALK => ⟨.error "execute_contract_init not implemented", s, []⟩

def executeContractFunctionCall (contractType : ContractType) (cx : CallContext) (contract : Contract)
    (contractInstance : ContractInstance) (function : ContractFunction) (arguments : ContractArgument)
    (deposit : Balance) : UpdatedState → Performed (Capture × Gas) :=
  (contractEngines vms db).run contractType
    (cx.functionCall contract contractInstance function arguments deposit)

end VirtualMachines

/-- The executors report what the engines come to. Which operations they perform on the overlay is left
    open. -/
structure ContractExecutor.Reports (executor : ContractExecutor) (vms : VirtualMachines) : Prop where
  deployment : ∀ contractType db cx accessType contractCode salt deposit s,
    (executor.executeContractDeployment contractType db cx accessType contractCode salt deposit s).1 =
      (vms.executeContractDeployment db contractType cx accessType contractCode deposit s).outcome
  init : ∀ contractType db cx contract arguments deposit s,
    (executor.executeContractInit contractType db cx contract arguments deposit s).1 =
      (vms.executeContractInit db contractType cx contract arguments deposit s).outcome
  functionCall : ∀ contractType db cx contract contractInstance function arguments deposit s,
    (executor.executeContractFunctionCall contractType db cx contract contractInstance function arguments
      deposit s).1 =
      (vms.executeContractFunctionCall db contractType cx contract contractInstance function arguments
        deposit s).outcome

/-! ## What a transaction asks an executor for -/

inductive ContractRequest where
  | deployment (contractType : ContractType) (cx : CallContext) (accessType : AccessType)
      (contractCode : ContractCode) (salt : Salt) (deposit : Balance)
  | init (contractType : ContractType) (cx : CallContext) (contract : Contract)
      (arguments : ContractArgument) (deposit : Balance)
  | functionCall (contractType : ContractType) (cx : CallContext) (contract : Contract)
      (contractInstance : ContractInstance) (function : ContractFunction) (arguments : ContractArgument)
      (deposit : Balance)

namespace ContractRequest

def contractType : ContractRequest → ContractType
  | deployment contractType _ _ _ _ _ => contractType
  | init contractType _ _ _ _ => contractType
  | functionCall contractType _ _ _ _ _ _ => contractType

def callContext : ContractRequest → CallContext
  | deployment _ cx _ _ _ _ => cx
  | init _ cx _ _ _ => cx
  | functionCall _ cx _ _ _ _ _ => cx

/-- The contract that a request runs, and the overlay it is run on. -/
def root (vms : VirtualMachines) (db : StateTables) (request : ContractRequest) (s : UpdatedState) :
    Option (Invocation × UpdatedState) :=
  match request with
  | deployment .EVM cx accessType contractCode _ deposit =>
    some (.create (cx.deployment accessType contractCode deposit), s)
  | deployment _ _ _ _ _ _ => none
  | init .L1XVM cx contract arguments deposit =>
    match (ExecuteContractL1xvm.createInstance vms.crypto db cx contract).run s with
    | (.error _, _) => none
    | (.ok _, s) => some (.call .L1XVM (cx.initCall vms.crypto contract arguments deposit), s)
  | init _ _ _ _ _ => none
  | functionCall contractType cx contract contractInstance function arguments deposit =>
    some (.call contractType (cx.functionCall contract contractInstance function arguments deposit), s)

end ContractRequest

namespace TransactionContext

variable (cx : TransactionContext)

/-- What a deployment does before it asks the executor. -/
def prepareDeployment (tx : Transaction) (transactionHash : TransactionHash) (nonce : Nonce)
    (accessType : AccessType) (contractType : ContractType) (contractCode : ContractCode)
    (deposit : Balance) (salt : Salt) : ExecutionOp ContractRequest :=
  if salt.length ≠ 32 then fail "Incorrect salt"
  else do
    chargeContractFee tx contractType
    let e ← state
    pure (.deployment contractType (cx.callContext nonce transactionHash e.feeManager.getGasLimit)
      accessType contractCode salt deposit)

def prepareInit (tx : Transaction) (transactionHash : TransactionHash) (nonce : Nonce)
    (contractCodeAddress : Address) (arguments : ContractArgument) (deposit : Balance) :
    ExecutionOp ContractRequest := do
  let contract ← onState (getContract cx.db contractCodeAddress)
  let contractType ← lift (ContractType.ofInt8 contract.type)
  chargeContractFee tx contractType
  let e ← state
  pure (.init contractType (cx.callContext nonce transactionHash e.feeManager.getGasLimit) contract
    arguments deposit)

/-- A call of an address that is no contract instance asks no executor. -/
def prepareFunctionCall (tx : Transaction) (transactionHash : TransactionHash) (nonce : Nonce)
    (contractInstanceAddress : Address) (function : ContractFunction)
    (arguments : ContractArgument) (deposit : Balance) : ExecutionOp (Option ContractRequest) := do
  let valid ← onState (isValidContractInstance cx.db contractInstanceAddress)
  if valid then
    let contractInstance ←
      onState (getContractInstance cx.db contractInstanceAddress)
    let contract ← onState (getContract cx.db contractInstance.contractAddress)
    let contractType ← lift (ContractType.ofInt8 contract.type)
    chargeContractFee tx contractType
    let e ← state
    pure (some (.functionCall contractType
      (cx.callContext nonce transactionHash e.feeManager.getGasLimit) contract contractInstance function
      arguments deposit))
  else pure none

/-- The executor is asked, and the gas it reports is charged. -/
def finishRequest : ContractRequest → ExecutionOp Executed
  | .deployment contractType call accessType contractCode salt deposit => do
    let (contractAddress, burntGas) ←
      mapError ("Error executing SmartContractDeployment - " ++ ·)
        (cx.perform (cx.executor.executeContractDeployment contractType cx.db call accessType
          contractCode salt deposit))
    onFees (updateGasAndFeeUsed burntGas)
    pure (.ok (), some (.smartContractDeployed contractType contractAddress))
  | .init contractType call contract arguments deposit => do
    let (contractInstance, burntGas) ←
      mapError ("Error executing SmartContractInit - " ++ ·)
        (cx.perform (cx.executor.executeContractInit contractType cx.db call contract arguments deposit))
    onFees (updateGasAndFeeUsed burntGas)
    pure (.ok (), some (.smartContractInitialized contractInstance))
  | .functionCall contractType call contract contractInstance function arguments deposit => do
    let (capture, burntGas) ←
      cx.perform (cx.executor.executeContractFunctionCall contractType cx.db call contract
        contractInstance function arguments deposit).total
    onFees (updateGasAndFeeUsed burntGas)
    match capture with
    | .exit reason result => pure (analyzeReason reason result)
    | .trap => pure (analyzeReason (.error "execute_transaction: Capture::Trap(resolve)") [])

/-- What a kind does before it asks an executor; most kinds ask none. -/
def prepareKind (tx : Transaction) (transactionHash : TransactionHash) (nonce : Nonce) :
    ExecutionOp (Option ContractRequest) :=
  match tx.transactionType with
  | .smartContractDeployment accessType contractType contractCode deposit salt => do
    let request ← cx.prepareDeployment tx transactionHash nonce accessType contractType contractCode
      deposit salt
    pure (some request)
  | .smartContractInit contractCodeAddress arguments deposit => do
    let request ← cx.prepareInit tx transactionHash nonce contractCodeAddress arguments deposit
    pure (some request)
  | .smartContractFunctionCall contractInstanceAddress function arguments deposit =>
    cx.prepareFunctionCall tx transactionHash nonce contractInstanceAddress function arguments deposit
  | _ => pure none

def prepareBody (tx : Transaction) : ExecutionOp (Option ContractRequest) := do
  let fee ← okOr (FeeConfig.config.transactionSizeFee tx) "Can't get transaction size fee"
  chargeFee fee
  let transactionHash ← lift (tx.transactionHash cx.rt.crypto cx.rt.codec)
  let accountNonce ← onState (getNonce cx.db cx.accountAddress)
  cx.prepareKind tx transactionHash accountNonce

/-- What a transaction asks an executor for, and the execution as it is then. -/
def requestOf (tx : Transaction) (s : UpdatedState) : Option (ContractRequest × Execution) :=
  match (cx.prepareBody tx).run ⟨s, .new tx.feeLimit⟩ with
  | (.ok (some request), e) => some (request, e)
  | _ => none

/-- The contract that a transaction runs, and the overlay it is run on. -/
def runs (vms : VirtualMachines) (tx : Transaction) (s : UpdatedState) : Option (Invocation × UpdatedState) :=
  match cx.requestOf tx s with
  | some (request, e) => request.root vms cx.db e.updatedState
  | none => none

/-! ### A transaction prepares its request and finishes it -/

variable {cx} {tx : Transaction} {transactionHash : TransactionHash} {nonce : Nonce}

theorem prepareKind_bind {α : Type} (f : Option ContractRequest → ExecutionOp α) :
    cx.prepareKind tx transactionHash nonce >>= f =
      match tx.transactionType with
      | .smartContractDeployment accessType contractType contractCode deposit salt =>
        if salt.length ≠ 32 then fail "Incorrect salt"
        else do
          chargeContractFee tx contractType
          let e ← state
          f (some (.deployment contractType (cx.callContext nonce transactionHash e.feeManager.getGasLimit)
            accessType contractCode salt deposit))
      | .smartContractInit contractCodeAddress arguments deposit => do
        let contract ← onState (getContract cx.db contractCodeAddress)
        let contractType ← lift (ContractType.ofInt8 contract.type)
        chargeContractFee tx contractType
        let e ← state
        f (some (.init contractType (cx.callContext nonce transactionHash e.feeManager.getGasLimit) contract
          arguments deposit))
      | .smartContractFunctionCall contractInstanceAddress function arguments deposit => do
        let valid ← onState (isValidContractInstance cx.db contractInstanceAddress)
        if valid then
          let contractInstance ← onState (getContractInstance cx.db contractInstanceAddress)
          let contract ← onState (getContract cx.db contractInstance.contractAddress)
          let contractType ← lift (ContractType.ofInt8 contract.type)
          chargeContractFee tx contractType
          let e ← state
          f (some (.functionCall contractType (cx.callContext nonce transactionHash e.feeManager.getGasLimit)
            contract contractInstance function arguments deposit))
        else f none
      | _ => f none := by
  unfold prepareKind
  cases tx.transactionType with
  | smartContractDeployment accessType contractType contractCode deposit salt =>
    dsimp only
    unfold prepareDeployment
    by_cases hsalt : salt.length ≠ 32
    · rw [if_pos hsalt, if_pos hsalt]
      rfl
    · rw [if_neg hsalt, if_neg hsalt]
      simp only [bind_bind]
      rfl
  | smartContractInit =>
    unfold prepareInit
    simp only [bind_bind]
    rfl
  | smartContractFunctionCall =>
    unfold prepareFunctionCall
    rw [bind_bind]
    refine bind_congr fun valid => ?_
    cases valid with
    | false => rfl
    | true =>
      simp only [if_true, bind_bind]
      rfl
  | _ => rfl

/-- The work of a transaction that asks no executor. -/
def plainKind (cx : TransactionContext) (tx : Transaction) (nonce : Nonce) : ExecutionOp Executed :=
  match tx.transactionType with
  | .smartContractFunctionCall contractInstanceAddress _ _ deposit =>
    cx.executeTokenTransfer contractInstanceAddress deposit
  | _ => cx.executeKind tx 0 nonce

/-- **A transaction prepares its request and finishes it**, or does its plain work if it has none. -/
theorem executeKind_eq :
    cx.executeKind tx transactionHash nonce = cx.prepareKind tx transactionHash nonce >>= fun request =>
      match request with
      | some request => cx.finishRequest request
      | none => cx.plainKind tx nonce := by
  rw [prepareKind_bind]
  unfold executeKind plainKind
  cases htype : tx.transactionType with
  | smartContractDeployment | smartContractInit | smartContractFunctionCall => rfl
  | nativeTokenTransfer | createStakingPool | stake | unStake | stakingPoolContract =>
    rw [executeKind, htype]

/-- The transaction makes a contract or an instance of one. -/
def creates (tx : Transaction) : Bool :=
  match tx.transactionType with
  | .smartContractDeployment _ _ _ _ _ | .smartContractInit _ _ _ => true
  | _ => false

theorem prepareKind_ne_none (hcreates : creates tx = true) :
    (cx.prepareKind tx transactionHash nonce).run e ≠ (.ok none, e') := by
  intro h
  unfold prepareKind at h
  unfold creates at hcreates
  cases htype : tx.transactionType with
  | smartContractDeployment | smartContractInit =>
    rw [htype] at h
    obtain ⟨made, e₁, -, hmade⟩ := run_bind_ok h
    cases hmade
  | _ =>
    rw [htype] at hcreates
    cases hcreates

theorem prepareBody_of_requestOf (h : cx.requestOf tx s = some (request, e)) :
    (cx.prepareBody tx).run ⟨s, .new tx.feeLimit⟩ = (.ok (some request), e) := by
  unfold requestOf at h
  rcases hrun : (cx.prepareBody tx).run ⟨s, .new tx.feeLimit⟩ with ⟨_ | _ | made, e₁⟩
  · rw [hrun] at h
    cases h
  · rw [hrun] at h
    cases h
  · rw [hrun] at h
    cases h
    rfl

/-- **A contract transaction goes on with its request**, from where it has come to with it. -/
theorem run_executeBody_of_requestOf (h : cx.requestOf tx s = some (request, e)) :
    (cx.executeBody tx).run ⟨s, .new tx.feeLimit⟩ = (cx.finishRequest request).run e := by
  have hprepare := prepareBody_of_requestOf h
  obtain ⟨fee, e₁, hfee, hprepare⟩ := run_bind_ok hprepare
  obtain ⟨_, e₂, hcharge, hprepare⟩ := run_bind_ok hprepare
  obtain ⟨transactionHash, e₃, hhash, hprepare⟩ := run_bind_ok hprepare
  obtain ⟨nonce, e₄, hnonce, hprepare⟩ := run_bind_ok hprepare
  unfold executeBody
  rw [run_bind_of_ok hfee, run_bind_of_ok hcharge, run_bind_of_ok hhash, run_bind_of_ok hnonce,
    executeKind_eq, run_bind_of_ok hprepare]

end TransactionContext

/-! ## What is made of an answer -/

/-- What an executor answers: its result with the gas that was burnt. -/
inductive ContractAnswer where
  | deployed (answer : Except Error (Address × Gas))
  | initialized (answer : Except Error (ContractInstance × Gas))
  | called (answer : Capture × Gas)

def ContractExecutor.answer (executor : ContractExecutor) (db : StateTables) (s : UpdatedState) :
    ContractRequest → ContractAnswer
  | .deployment contractType call accessType contractCode salt deposit =>
    .deployed (executor.executeContractDeployment contractType db call accessType contractCode salt
      deposit s).1
  | .init contractType call contract arguments deposit =>
    .initialized (executor.executeContractInit contractType db call contract arguments deposit s).1
  | .functionCall contractType call contract contractInstance function arguments deposit =>
    .called (executor.executeContractFunctionCall contractType db call contract contractInstance
      function arguments deposit s).1

/-- The gas of an answer with which a transaction passes. -/
def ContractAnswer.passes : ContractAnswer → Option Gas
  | .deployed (.ok (_, burntGas)) => some burntGas
  | .initialized (.ok (_, burntGas)) => some burntGas
  | .called (.exit .succeed _, burntGas) => some burntGas
  | _ => none

/-- The gas that is charged for an answer. -/
def ContractAnswer.gas : ContractAnswer → Option Gas
  | .deployed (.ok (_, burntGas)) => some burntGas
  | .initialized (.ok (_, burntGas)) => some burntGas
  | .called (_, burntGas) => some burntGas
  | _ => none

/-- The operations that an executor performs on the overlay. -/
def ContractExecutor.operations (executor : ContractExecutor) (db : StateTables) (s : UpdatedState) :
    ContractRequest → List Op
  | .deployment contractType call accessType contractCode salt deposit =>
    (executor.executeContractDeployment contractType db call accessType contractCode salt deposit s).2
  | .init contractType call contract arguments deposit =>
    (executor.executeContractInit contractType db call contract arguments deposit s).2
  | .functionCall contractType call contract contractInstance function arguments deposit =>
    (executor.executeContractFunctionCall contractType db call contract contractInstance function
      arguments deposit s).2

namespace TransactionContext

variable (cx : TransactionContext)

theorem run_perform {α : Type} (call : Call (Except Error α)) (e : Execution) :
    (cx.perform call).run e = ((call e.updatedState).1,
      ⟨runOps cx.rt.crypto cx.db (call e.updatedState).2 e.updatedState, e.feeManager⟩) := rfl

/-- The overlay after an executor has worked on it. -/
def performed (cx : TransactionContext) (request : ContractRequest) (s : UpdatedState) : UpdatedState :=
  runOps cx.rt.crypto cx.db (cx.executor.operations cx.db s request) s

/-- **A request is finished with its answer**: the gas is charged on the overlay that the executor leaves. -/
theorem run_finishRequest (request : ContractRequest) (e : Execution) :
    ∃ executed text, (∀ burntGas, (cx.executor.answer cx.db e.updatedState request).passes = some burntGas ↔
          (cx.executor.answer cx.db e.updatedState request).gas = some burntGas ∧ executed.1 = .ok ()) ∧
      (cx.finishRequest request).run e =
        ((cx.executor.answer cx.db e.updatedState request).gas.elim (fail text) fun burntGas => do
          onFees (updateGasAndFeeUsed burntGas)
          pure executed).run ⟨cx.performed request e.updatedState, e.feeManager⟩ := by
  unfold ContractExecutor.answer
  cases request with
  | deployment contractType call accessType contractCode salt deposit =>
    dsimp only
    unfold finishRequest
    rw [run_bind, run_mapError, run_perform]
    rcases (cx.executor.executeContractDeployment contractType cx.db call accessType contractCode salt
      deposit e.updatedState).1 with text | ⟨address, burntGas⟩
    · exact ⟨(.ok (), none), "Error executing SmartContractDeployment - " ++ text,
        by simp [ContractAnswer.passes, ContractAnswer.gas], rfl⟩
    · exact ⟨(.ok (), some (.smartContractDeployed contractType address)), "",
        by simp [ContractAnswer.passes, ContractAnswer.gas], rfl⟩
  | init contractType call contract arguments deposit =>
    dsimp only
    unfold finishRequest
    rw [run_bind, run_mapError, run_perform]
    rcases (cx.executor.executeContractInit contractType cx.db call contract arguments deposit
      e.updatedState).1 with text | ⟨contractInstance, burntGas⟩
    · exact ⟨(.ok (), none), "Error executing SmartContractInit - " ++ text,
        by simp [ContractAnswer.passes, ContractAnswer.gas], rfl⟩
    · exact ⟨(.ok (), some (.smartContractInitialized contractInstance)), "",
        by simp [ContractAnswer.passes, ContractAnswer.gas], rfl⟩
  | functionCall contractType call contract contractInstance function arguments deposit =>
    dsimp only
    rcases hmade : (cx.executor.executeContractFunctionCall contractType cx.db call contract contractInstance
      function arguments deposit e.updatedState).1 with ⟨capture, burntGas⟩
    unfold finishRequest
    rw [run_bind, run_perform]
    unfold Call.total
    rw [hmade]
    cases capture with
    | trap => exact ⟨_, "", by simp [ContractAnswer.passes, ContractAnswer.gas, analyzeReason], rfl⟩
    | exit reason result =>
      refine ⟨analyzeReason reason result, "", ?_, rfl⟩
      -- only an exit that succeeds passes
      cases reason <;> simp [ContractAnswer.passes, ContractAnswer.gas, analyzeReason]

end TransactionContext

/-! ## What is left of the fee limit -/

/-- The fixed fees of a contract transaction. -/
def fixedFees (tx : Transaction) (contractType : ContractType) : Nat :=
  ((FeeConfig.config.transactionSizeFee tx).getD 0).toNat +
    ((FeeConfig.config.contractFee tx contractType).getD 0).toNat

/-- Fees have been taken out of the limit, and no gas has been charged. -/
structure Execution.Charged (fees : Nat) (e e' : Execution) : Prop where
  feeLimit : e'.feeManager.feeLimit = e.feeManager.feeLimit
  gasUsed : e'.feeManager.gasUsed = e.feeManager.gasUsed
  leftLimit : e'.feeManager.leftLimit.toNat + fees = e.feeManager.leftLimit.toNat

namespace Execution.Charged

theorem trans {m n : Nat} {e'' : Execution} (h : Charged m e e') (h' : Charged n e' e'') :
    Charged (m + n) e e'' where
  feeLimit := h'.feeLimit.trans h.feeLimit
  gasUsed := h'.gasUsed.trans h.gasUsed
  leftLimit := by
    have hleft := h.leftLimit
    have hleft' := h'.leftLimit
    omega

theorem of_onState {α : Type} {x : StateOp α} {a : α} (h : (onState x).run e = (.ok a, e')) :
    Charged 0 e e' := by
  obtain ⟨s, -, rfl⟩ := run_zoom_ok h
  exact ⟨rfl, rfl, rfl⟩

theorem of_lift {α : Type} {r : Except Error α} {a : α} (h : (lift r : ExecutionOp α).run e = (.ok a, e')) :
    Charged 0 e e' := by
  obtain ⟨-, rfl⟩ := run_lift_ok h
  exact ⟨rfl, rfl, rfl⟩

theorem of_chargeFee {fee : Balance} (h : (TransactionContext.chargeFee fee).run e = (.ok (), e')) :
    Charged fee.toNat e e' := by
  unfold TransactionContext.chargeFee onFees at h
  obtain ⟨manager, hrun, rfl⟩ := run_zoom_ok h
  rcases e.feeManager.charge_cases fee with ⟨charged, hcharge, hleft⟩ | ⟨hcharge, -⟩
  · rw [run_updateFee_ok hcharge] at hrun
    cases hrun
    refine ⟨feeLimit_charge hcharge, ?_, hleft⟩
    exact gasUsed_charge hcharge
  · rw [run_updateFee_error hcharge] at hrun
    cases hrun

theorem of_chargeContractFee {tx : Transaction} {contractType : ContractType}
    (h : (TransactionContext.chargeContractFee tx contractType).run e = (.ok (), e')) :
    Charged ((FeeConfig.config.contractFee tx contractType).getD 0).toNat e e' := by
  obtain ⟨fee, e₁, hokOr, hcharge⟩ := run_bind_ok h
  obtain ⟨hfee, he⟩ := run_okOr_ok hokOr
  rw [he] at hcharge
  rw [hfee]
  exact of_chargeFee hcharge

end Execution.Charged

namespace TransactionContext

open Execution (Charged)

variable {cx : TransactionContext} {tx : Transaction} {transactionHash : TransactionHash} {nonce : Nonce}

/-- A request that has been prepared in an execution that had come to `e`. -/
structure Prepared (cx : TransactionContext) (tx : Transaction) (e : Execution) (request : ContractRequest)
    (e' : Execution) : Prop where
  sender : request.callContext.accountAddress = cx.accountAddress
  charged : Charged ((FeeConfig.config.contractFee tx request.contractType).getD 0).toNat e e'

theorem prepareKind_prepared (h : (cx.prepareKind tx transactionHash nonce).run e = (.ok (some request), e')) :
    Prepared cx tx e request e' := by
  rw [← bind_pure_eq (x := cx.prepareKind tx transactionHash nonce), prepareKind_bind] at h
  split at h
  · split at h
    · cases h
    · obtain ⟨_, e₁, hcharge, h⟩ := run_bind_ok h
      cases h
      exact ⟨rfl, .of_chargeContractFee hcharge⟩
  · obtain ⟨contract, e₁, hcontract, h⟩ := run_bind_ok h
    obtain ⟨contractType, e₂, htype, h⟩ := run_bind_ok h
    obtain ⟨_, e₃, hcharge, h⟩ := run_bind_ok h
    cases h
    have hread := (Charged.of_onState hcontract).trans (.of_lift htype)
    have hcharged := hread.trans (.of_chargeContractFee hcharge)
    rw [Nat.zero_add] at hcharged
    exact ⟨rfl, hcharged⟩
  · obtain ⟨valid, e₁, hvalid, h⟩ := run_bind_ok h
    cases valid with
    | false => cases h
    | true =>
      obtain ⟨contractInstance, e₂, hinstance, h⟩ := run_bind_ok h
      obtain ⟨contract, e₃, hcontract, h⟩ := run_bind_ok h
      obtain ⟨contractType, e₄, htype, h⟩ := run_bind_ok h
      obtain ⟨_, e₅, hcharge, h⟩ := run_bind_ok h
      cases h
      have hread := (((Charged.of_onState hvalid).trans (.of_onState hinstance)).trans
        (.of_onState hcontract)).trans (.of_lift htype)
      have hcharged := hread.trans (.of_chargeContractFee hcharge)
      rw [Nat.zero_add] at hcharged
      exact ⟨rfl, hcharged⟩
  · cases h

/-- **A request is the sender's, and the fixed fees have been paid** when it is made. -/
theorem requestOf_prepared (h : cx.requestOf tx s = some (request, e)) :
    request.callContext.accountAddress = cx.accountAddress ∧
      Charged (fixedFees tx request.contractType) ⟨s, .new tx.feeLimit⟩ e := by
  have hprepare := prepareBody_of_requestOf h
  obtain ⟨fee, e₁, hfee, hprepare⟩ := run_bind_ok hprepare
  obtain ⟨_, e₂, hcharge, hprepare⟩ := run_bind_ok hprepare
  obtain ⟨transactionHash, e₃, hhash, hprepare⟩ := run_bind_ok hprepare
  obtain ⟨nonce, e₄, hnonce, hprepare⟩ := run_bind_ok hprepare
  obtain ⟨hsize, he⟩ := run_okOr_ok hfee
  rw [he] at hcharge
  have hprepared := prepareKind_prepared hprepare
  have hsender := ((Charged.of_chargeFee hcharge).trans (.of_lift hhash)).trans (.of_onState hnonce)
  refine ⟨hprepared.sender, ?_⟩
  rw [fixedFees, hsize]
  exact hsender.trans hprepared.charged

end TransactionContext

/-! ## A transaction to run the model with -/

/-- Executors that report what the engines come to, and perform no operations. -/
def VirtualMachines.executor (vms : VirtualMachines) : ContractExecutor where
  executeContractDeployment contractType db cx accessType contractCode _ deposit s :=
    ((vms.executeContractDeployment db contractType cx accessType contractCode deposit s).outcome, [])
  executeContractInit contractType db cx contract arguments deposit s :=
    ((vms.executeContractInit db contractType cx contract arguments deposit s).outcome, [])
  executeContractFunctionCall contractType db cx contract contractInstance function arguments deposit s :=
    ((vms.executeContractFunctionCall db contractType cx contract contractInstance function arguments deposit
      s).outcome, [])

theorem VirtualMachines.executor_reports (vms : VirtualMachines) : vms.executor.Reports vms :=
  ⟨fun _ _ _ _ _ _ _ _ => rfl, fun _ _ _ _ _ _ _ => rfl, fun _ _ _ _ _ _ _ _ _ => rfl⟩

namespace Small

/-- The account 0x77 has 1000 tokens and sends a transaction. -/
def senderContext (executor : ContractExecutor) : TransactionContext where
  rt := runtime
  executor := executor
  db := { contractTables with account := contractTables.account.insert 0x77 ⟨.user, 1000, 0⟩ }
  accountAddress := 0x77
  clusterAddress := 0
  blockNumber := 1
  blockHash := 0
  blockTimestamp := 0

/-- It calls the contract with a code, with a fee limit of 100 tokens. -/
def callTransaction (code : UInt8) : Transaction :=
  { version := .V3, nonce := 1,
    transactionType := .smartContractFunctionCall (instanceOf code).instanceAddress [] [] 0, feeLimit := 100,
    signature := [], verifyingKey := key 0x77, ethOriginalTransaction := none }

end Small

end L1xCore
