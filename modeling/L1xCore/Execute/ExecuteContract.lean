import L1xCore.ContractInstanceManager.ContractInstanceEvm
import L1xCore.Vm.VMLogic

/-!
# `Execute.ExecuteContract` — the execution of L1XVM and EVM contracts

`execute/src/execute_contract_l1xvm.rs` and `execute/src/execute_contract_evm.rs`. Both start a frame on a
clone of the overlay they are given, run the program, and merge the clone back if the program succeeded.
A frame that is not read-only then leaves an event with its result. The interpreters and the object
format are parameters (`VirtualMachines`): any code may be any program.

A program may call contracts of either engine, which may call others in turn. The recursion is bounded by
the call depth, which every function checks before it runs any code: `engines n` are the engines whose
calls nest at most `n` times, and beyond the limit more makes no difference (`contractEngines_eq`).
-/

namespace L1xCore

open Fallible ContractInstanceManager UpdatedState Handler VMContractTrait

def MAX_CROSS_CONTRACT_CALL_DEPTH : Nat := 15

/-- The object format of L1XVM contracts: the version of an object, its memory and the program that
    starts at a function of it, and the encoding of the calls it makes. -/
structure EbpfRuntime where
  findVersion : ContractCode → Except Error EbpfObjectVersion
  link : ContractCode → ContractFunction → Except Error (Memory × EbpfProgram)
  borsh : BorshCalls

/-- The EVM interpreter: the program of a code with its input and context. -/
structure EvmRuntime where
  program : ContractCode → ContractArgument → Context → EvmProgram
  precompiles : Precompiles

structure VirtualMachines where
  crypto : Crypto
  ebpf : EbpfRuntime
  evm : EvmRuntime

/-- What a call beyond the depth limit returns. -/
def maxDepthReached : Capture × Gas :=
  (.exit (.error s!"Max cross-contarct call depth reached: limit={MAX_CROSS_CONTRACT_CALL_DEPTH}") [],
    0)

namespace FunctionCall

variable (call : FunctionCall)

/-- The deposit goes to the instance, unless the call is read-only. -/
def transferDeposit (db : StateTables) : StateOp Unit :=
  if !call.readonly && 0 < call.deposit then
    transfer db call.accountAddress call.contractInstance.instanceAddress call.deposit
  else pure ()

def frame : Frame where
  contractInstance := some call.contractInstance
  accountAddress := call.accountAddress
  env := call.env
  context := call.context
  readonly := call.readonly
  currentCallDepth := call.currentCallDepth

def vmContext (ebpfObjectVersion : EbpfObjectVersion) : VMContext where
  callerAddress := call.accountAddress
  contractCodeAddress := call.contractInstance.contractAddress
  contractInstanceAddress := call.contractInstance.instanceAddress
  contractOwnerAddress := call.contractInstance.ownerAddress
  input := call.arguments
  readonly := call.readonly
  ebpfObjectVersion := ebpfObjectVersion
  blockNumber := call.env.blockNumber
  blockHash := call.env.blockHash
  blockTimestamp := call.env.blockTimestamp
  deposit := call.deposit

end FunctionCall

/-! ## L1XVM -/

namespace ExecuteContractL1xvm

def verifyVersion (version : EbpfObjectVersion) : Except Error Unit :=
  if version.objectVersion ≠ CURRENT_OBJECT_VERSION then
    .error s!"Unsupported version of the object '{version.objectVersion.toNat}', the expected version is '{CURRENT_OBJECT_VERSION.toNat}'"
  else if version.expectedRuntimeVersion = 0 ∨
      CURRENT_RUNTIME_VERSION < version.expectedRuntimeVersion then
    .error s!"Unsupported version of the runtime '{version.expectedRuntimeVersion.toNat}', the current runtime version is '{CURRENT_RUNTIME_VERSION.toNat}'"
  else .ok ()

/-- The result and the burnt gas of a program that has ended. The result has to be a text. -/
def vmOutcome (vmLogic : VMLogic) : Except Error (Bytes × Gas) :=
  if vmLogic.returnData.isEmpty || vmLogic.returnData.toByteArray.validateUTF8 then
    .ok (vmLogic.returnData, vmLogic.runtimeGas.burntGas)
  else .error "invalid utf-8 sequence"

variable (vms : VirtualMachines) (db : StateTables) (engines : Engines) (call : FunctionCall)

/-- Run a program on a manager. -/
def executeProgram (vm : VMContext) (memory : Memory) (program : EbpfProgram) :
    ManagerOp (Bytes × Gas) := fun manager =>
  let vmLogic : VMLogic := ⟨∅, memory, [], .new call.gasLimit, manager⟩
  let ran := (do
    VMLogic.checkGas
    program.run (VMLogic.answer db call.frame vm vms.ebpf.borsh engines)).run vmLogic
  match ran with
  | (.ok (.ok _), vmLogic) => (vmOutcome vmLogic, vmLogic.api)
  | (.ok (.error e), vmLogic) => (.error e, vmLogic.api)
  | (.error e, vmLogic) => (.error e, vmLogic.api)

/-- `l1x_ebpf_runtime::run`. -/
def run : ManagerOp (Bytes × Gas) := do
  let version ← lift (vms.ebpf.findVersion call.contract.code)
  lift (verifyVersion version)
  let linked ← lift (vms.ebpf.link call.contract.code call.function)
  executeProgram vms db engines call (call.vmContext version) linked.1 linked.2

/-- A call that may change the state leaves its result as an event. -/
def createResultEvent (result : Bytes) : StateOp Unit :=
  if !call.readonly then
    createEvent ⟨call.env.transactionHash, result, call.env.blockNumber,
      EVENT_TYPE_L1XVM, call.contractInstance.instanceAddress, none⟩
  else pure ()

def executeContractFunctionCall (s : UpdatedState) : Performed (Capture × Gas) :=
  if MAX_CROSS_CONTRACT_CALL_DEPTH < call.currentCallDepth then ⟨maxDepthReached, s, []⟩
  else
    match (call.transferDeposit db).run s with
    | (.error e, s) =>
      ⟨(.exit (.error s!"Can't transfer deposit: amount={call.deposit.toNat}, from={hexEncode call.accountAddress}, to={hexEncode call.contractInstance.instanceAddress}, err={e}")
        [], 0), s, []⟩
    | (.ok _, s) =>
      match (run vms db engines call).run (.new call.gasLimit s) with
      | (.error e, manager) => ⟨(.ofError e, 0), s, manager.log⟩
      | (.ok (result, burntGas), manager) =>
        match (createResultEvent call result).run (s.merge manager.updatedState) with
        | (.error e, s) => ⟨(.ofError e, burntGas), s, manager.log⟩
        | (.ok _, s) => ⟨(.exit .succeed result, burntGas), s, manager.log⟩

/-- A call from outside a transaction: nobody's, without a deposit, and read-only. -/
def executeContractFunctionCallReadOnly (contract : Contract) (contractInstance : ContractInstance)
    (function : ContractFunction) (arguments : ContractArgument) (gasLimit : Gas) (env : CallEnv)
    (currentCallDepth : Nat) : UpdatedState → Performed (Capture × Gas) :=
  executeContractFunctionCall vms db engines
    { accountAddress := 0, context := ⟨0, 0, 0⟩, gasLimit, deposit := 0, contract, contractInstance,
      function, arguments, readonly := true, env := { env with transactionHash := 0 },
      currentCallDepth }

end ExecuteContractL1xvm

/-! ## EVM -/

/-- Whether a frame runs the code that creates a contract, or a call. -/
inductive RuntimeKind where
  | create (address : Address)
  | call (address : Address)

/-- The arguments of `execute_evm_runtime`. -/
structure RuntimeCall where
  accountAddress : Address
  accessType : Int8
  contractCode : ContractCode
  arguments : ContractArgument
  gasLimit : Gas
  isReadOnly : Bool
  runtimeKind : RuntimeKind
  context : Context
  env : CallEnv
  currentCallDepth : Nat

def RuntimeCall.frame (r : RuntimeCall) : Frame where
  contractInstance := none
  accountAddress := r.accountAddress
  env := r.env
  context := r.context
  readonly := r.isReadOnly
  currentCallDepth := r.currentCallDepth

/-- The exit reason of a program; a trap is an error. -/
def RunCapture.reason : RunCapture → ExitReason
  | exit reason => reason
  | trapCall => .error "inner_runtime.run: Resolve::Call(interrupt, resolve)"
  | trapCreate => .error "inner_runtime.run: Resolve::Create(interrupt, resolve)"

namespace ExecuteContractEvm

def config : EvmConfig := .shanghai

def verifyCode (code : Bytes) : Except Error Unit :=
  if config.disallowExecutableFormat && code.head? == some 0xef then .error "InvalidCode(Opcode(239))"
  else if config.createContractLimit * 2 < code.length then .error "CreateContractLimit"
  else .ok ()

/-- `cleanup_for_create` and `cleanup_for_call`: whether the program succeeded, and for a creation
    whether the code it returned can be deployed. -/
def cleanup (runtimeKind : RuntimeKind) (reason : ExitReason) (returnData : Bytes) : Except Error Unit :=
  match reason, runtimeKind with
  | .succeed, .create _ => verifyCode returnData
  | .succeed, .call _ => .ok ()
  | .error e, _ | .revert e, _ | .fatal e, _ => .error e

def transactionCost (r : RuntimeCall) : Gas :=
  match r.runtimeKind with
  | .create _ => TransactionCost.create config r.contractCode
  | .call _ => TransactionCost.call config r.arguments

def storeEvmContract (r : RuntimeCall) (address : Address) (code : ContractCode) : StateOp Unit := do
  storeContract
    { address, access := r.accessType, code, type := 1, ownerAddress := r.accountAddress }
  storeContractInstance
    { instanceAddress := address, contractAddress := address, ownerAddress := r.accountAddress }
  createEvent ⟨r.env.transactionHash,
    Error.intoBytes "EVM Contract deployment succeeded", r.env.blockNumber, EVENT_TYPE_EVM,
    address, none⟩

/-- A creation that succeeded stores the contract. A call that may change the state leaves its result as
    an event, whether it succeeded or not. -/
def conclude (r : RuntimeCall) (exitReason : ExitReason) (returnData : Bytes) : StateOp Unit :=
  match r.runtimeKind with
  | .create address =>
    if !r.isReadOnly && exitReason.isSucceed then storeEvmContract r address returnData else pure ()
  | .call _ =>
    if !r.isReadOnly then
      createEvent ⟨r.env.transactionHash, returnData, r.env.blockNumber,
        EVENT_TYPE_EVM, r.accountAddress, none⟩
    else pure ()

variable (vms : VirtualMachines) (db : StateTables) (engines : Engines)

/-- Answer a request of the program of a frame. -/
def answer (frame : Frame) (c : HandlerCall) : ManagerOp c.Answer := do
  record (.evm frame c)
  Handler.answer db frame vms.crypto config vms.evm.precompiles engines c

def executeEvmRuntime (r : RuntimeCall) (s : UpdatedState) : Performed (Capture × Gas) :=
  if MAX_CROSS_CONTRACT_CALL_DEPTH < r.currentCallDepth then ⟨maxDepthReached, s, []⟩
  else
    let program := vms.evm.program r.contractCode r.arguments r.context
    match (program.run (answer vms db engines r.frame)).run (.new r.gasLimit s) with
    | (.error e, manager) => ⟨(.exit (.fatal e) [], 0), s, manager.log⟩
    | (.ok exit, manager) =>
      let burntGas := (manager.gasometer.charge (transactionCost r)).burntGas
      -- the clone is merged only if the program succeeded and its result could be handed on
      let (exitReason, s) : ExitReason × UpdatedState :=
        match cleanup r.runtimeKind exit.capture.reason exit.returnValue, exit.finishError with
        | .ok _, none => (.succeed, s.merge manager.updatedState)
        | .ok _, some e => (.error e, s)
        | .error e, _ => (.error e, s)
      match (conclude r exitReason exit.returnValue).run s with
      | (.error e, s) => ⟨(.ofError e, burntGas), s, manager.log⟩
      | (.ok _, s) => ⟨(.exit exitReason exit.returnValue, burntGas), s, manager.log⟩

/-- The account of a new contract, with the deposit. -/
def createContractAccount (d : Deployment) (address : Address) : StateOp Unit := do
  let valid ← isValidAccount db address
  if valid then fail s!"EVM Deployment: Account collision, address: {hexEncode address}"
  else
    createAccount db (Account.newSystem address)
    if 0 < d.deposit then
      (transfer db d.accountAddress address d.deposit).mapError fun e =>
        s!"Can't transfer deposit from {hexEncode d.accountAddress} to {hexEncode address}, error: {e}"

/-- What a deployment passes to the runtime. -/
def deploymentCall (d : Deployment) (address : Address) : RuntimeCall where
  accountAddress := d.accountAddress
  accessType := d.accessType
  contractCode := d.contractCode
  arguments := []
  gasLimit := d.gasLimit
  isReadOnly := false
  runtimeKind := .create address
  context := ⟨address, d.accountAddress, d.deposit.setWidth 256⟩
  env := d.env
  currentCallDepth := d.currentCallDepth

def executeContractDeployment (d : Deployment) (s : UpdatedState) :
    Performed (Except Error (Address × Gas)) :=
  let address := createEvmAddress vms.crypto d.scheme d.env.nonce
  match (createContractAccount db d address).run s with
  | (.error e, s) => ⟨.error e, s, []⟩
  | (.ok _, s) =>
    let deployed := executeEvmRuntime vms db engines (deploymentCall d address) s
    match deployed.outcome with
    | (.exit .succeed _, gas) => ⟨.ok (address, gas), deployed.updatedState, deployed.log⟩
    | (.exit (.error e) _, _) | (.exit (.fatal e) _, _) | (.exit (.revert e) _, _) =>
      ⟨.error s!"execute_contract_deployment: {e}", deployed.updatedState, deployed.log⟩
    | (.trap, _) => ⟨.error "execute_contract_deployment: trap", deployed.updatedState, deployed.log⟩

/-- What a function call passes to the runtime. -/
def runtimeCall (call : FunctionCall) : RuntimeCall where
  accountAddress := call.accountAddress
  accessType := call.contract.access
  contractCode := call.contract.code
  arguments := call.arguments
  gasLimit := call.gasLimit
  isReadOnly := call.readonly
  runtimeKind := .call call.contractInstance.instanceAddress
  context := call.context
  env := call.env
  currentCallDepth := call.currentCallDepth

def executeContractFunctionCall (call : FunctionCall) (s : UpdatedState) : Performed (Capture × Gas) :=
  match (call.transferDeposit db).run s with
  | (.error e, s) =>
    ⟨(.exit (.error s!"Can't transfer deposit from {hexEncode call.accountAddress} to {hexEncode call.contractInstance.instanceAddress}, error: {e}")
      [], 0), s, []⟩
  | (.ok _, s) => executeEvmRuntime vms db engines (runtimeCall call) s

/-- A call from outside a transaction: it is read-only and carries no deposit, and the block hash stands
    for the hash of a transaction. -/
def executeContractFunctionCallReadOnly (contract : Contract) (contractInstance : ContractInstance)
    (function : ContractFunction) (arguments : ContractArgument) (gasLimit : Gas) (env : CallEnv)
    (currentCallDepth : Nat) : UpdatedState → Performed (Capture × Gas) :=
  executeContractFunctionCall vms db engines
    { accountAddress := contractInstance.instanceAddress,
      context := ⟨contractInstance.instanceAddress, 0, 0⟩, gasLimit, deposit := 0, contract,
      contractInstance, function, arguments, readonly := true,
      env := { env with transactionHash := env.blockHash }, currentCallDepth }

end ExecuteContractEvm

/-! ## The engines -/

section

variable (vms : VirtualMachines) (db : StateTables)

/-- Engines that run a frame, with `engines` for the calls the frame makes. -/
def nextEngines (engines : Engines) : Engines where
  l1xvm := ExecuteContractL1xvm.executeContractFunctionCall vms db engines
  evm := ExecuteContractEvm.executeContractFunctionCall vms db engines
  evmDeployment := ExecuteContractEvm.executeContractDeployment vms db engines

/-- Engines whose calls nest at most `n` times. -/
def enginesUpTo : Nat → Engines
  | 0 =>
    ⟨fun _ s => ⟨maxDepthReached, s, []⟩, fun _ s => ⟨maxDepthReached, s, []⟩,
      fun _ s => ⟨.error "Max cross-contarct call depth reached", s, []⟩⟩
  | n + 1 => nextEngines vms db (enginesUpTo n)

/-- The engines of the node. -/
def contractEngines : Engines := enginesUpTo vms db (MAX_CROSS_CONTRACT_CALL_DEPTH + 2)

/-- The engines do the same with every call at a depth of at least `d`. -/
structure Engines.AgreeFrom (d : Nat) (e₁ e₂ : Engines) : Prop where
  l1xvm : ∀ call : FunctionCall, d ≤ call.currentCallDepth → e₁.l1xvm call = e₂.l1xvm call
  evm : ∀ call : FunctionCall, d ≤ call.currentCallDepth → e₁.evm call = e₂.evm call
  evmDeployment : ∀ deployment : Deployment, d ≤ deployment.currentCallDepth →
    e₁.evmDeployment deployment = e₂.evmDeployment deployment

variable {db} {e₁ e₂ : Engines} {frame : Frame}

/-- A frame of an L1XVM contract calls one level below its own. -/
theorem VMContractTrait.callContract_congr (h : e₁.AgreeFrom (frame.currentCallDepth + 1) e₂) :
    callContract db frame e₁ = callContract db frame e₂ := by
  have hcalled : calledContract frame e₁ = calledContract frame e₂ := by
    funext contractType
    cases contractType with
    | L1XVM =>
      funext contract contractInstance current address function arguments gasLimit deposit readonly
      exact h.l1xvm _ (le_refl _)
    | EVM =>
      funext contract contractInstance current address function arguments gasLimit deposit readonly
      exact h.evm _ (le_refl _)
    | XTALK => rfl
  unfold callContract
  rw [hcalled]

theorem VMLogic.answer_congr (vm : VMContext) (borsh : BorshCalls)
    (h : e₁.AgreeFrom (frame.currentCallDepth + 1) e₂) :
    answer db frame vm borsh e₁ = answer db frame vm borsh e₂ := by
  have hcall : callContract db frame vm borsh e₁ = callContract db frame vm borsh e₂ := by
    unfold callContract
    rw [callContract_congr h]
  have hperform : perform db frame vm borsh e₁ = perform db frame vm borsh e₂ := by
    unfold perform
    rw [hcall]
  unfold answer
  rw [hperform]

/-- So does a frame of an EVM contract, with its calls and its creations. -/
theorem Handler.answer_congr (crypto : Crypto) (config : EvmConfig) (precompiles : Precompiles)
    (h : e₁.AgreeFrom (frame.currentCallDepth + 1) e₂) :
    answer db frame crypto config precompiles e₁ = answer db frame crypto config precompiles e₂ := by
  have hcalled : calledByHandler frame e₁ = calledByHandler frame e₂ := by
    funext contractType
    cases contractType with
    | L1XVM =>
      funext contract contractInstance input gasLimit deposit isStatic context
      exact h.l1xvm _ (le_refl _)
    | EVM =>
      funext contract contractInstance input gasLimit deposit isStatic context
      exact h.evm _ (le_refl _)
    | XTALK => rfl
  have hcall : call db frame config precompiles e₁ = call db frame config precompiles e₂ := by
    unfold call callAddress
    rw [hcalled]
  have hdeploy : ∀ nonce caller scheme gasLimit deposit accessType code,
      e₁.evmDeployment ⟨caller, scheme, gasLimit, deposit, accessType, code,
        { frame.env with nonce }, frame.currentCallDepth + 1⟩ =
      e₂.evmDeployment ⟨caller, scheme, gasLimit, deposit, accessType, code,
        { frame.env with nonce }, frame.currentCallDepth + 1⟩ :=
    fun _ _ _ _ _ _ _ => h.evmDeployment _ (le_refl _)
  have hcreate : create db frame e₁ = create db frame e₂ := by
    unfold create
    simp only [hdeploy]
  funext c
  unfold answer
  rw [hcall, hcreate]

/-- **One level down.** A frame runs code only if its depth is within the limit, and the engines it then
    uses are called one level deeper. -/
theorem nextEngines_agreeFrom {d : Nat} (h : d ≤ MAX_CROSS_CONTRACT_CALL_DEPTH → e₁.AgreeFrom (d + 1) e₂) :
    (nextEngines vms db e₁).AgreeFrom d (nextEngines vms db e₂) := by
  have hdeeper : ∀ d', d ≤ d' → ¬ MAX_CROSS_CONTRACT_CALL_DEPTH < d' → e₁.AgreeFrom (d' + 1) e₂ := by
    intro d' hd hmax
    have hagree := h (by omega)
    exact ⟨fun call hc => hagree.l1xvm call (by omega), fun call hc => hagree.evm call (by omega),
      fun deployment hc => hagree.evmDeployment deployment (by omega)⟩
  have hruntime : ∀ r : RuntimeCall, d ≤ r.currentCallDepth →
      ExecuteContractEvm.executeEvmRuntime vms db e₁ r =
        ExecuteContractEvm.executeEvmRuntime vms db e₂ r := by
    intro r hd
    funext s
    unfold ExecuteContractEvm.executeEvmRuntime ExecuteContractEvm.answer
    by_cases hmax : MAX_CROSS_CONTRACT_CALL_DEPTH < r.currentCallDepth
    · rw [if_pos hmax, if_pos hmax]
    · rw [if_neg hmax, if_neg hmax, answer_congr _ _ _ (hdeeper _ hd hmax)]
  refine ⟨fun call hd => ?_, fun call hd => ?_, fun deployment hd => ?_⟩
  · funext s
    show ExecuteContractL1xvm.executeContractFunctionCall vms db e₁ call s =
      ExecuteContractL1xvm.executeContractFunctionCall vms db e₂ call s
    unfold ExecuteContractL1xvm.executeContractFunctionCall ExecuteContractL1xvm.run
      ExecuteContractL1xvm.executeProgram
    by_cases hmax : MAX_CROSS_CONTRACT_CALL_DEPTH < call.currentCallDepth
    · rw [if_pos hmax, if_pos hmax]
    · have hanswer : ∀ vm, VMLogic.answer db call.frame vm vms.ebpf.borsh e₁ =
          VMLogic.answer db call.frame vm vms.ebpf.borsh e₂ :=
        fun vm => VMLogic.answer_congr vm vms.ebpf.borsh (hdeeper _ hd hmax)
      simp only [if_neg hmax, hanswer]
  · funext s
    show ExecuteContractEvm.executeContractFunctionCall vms db e₁ call s =
      ExecuteContractEvm.executeContractFunctionCall vms db e₂ call s
    unfold ExecuteContractEvm.executeContractFunctionCall
    rw [hruntime _ hd]
  · funext s
    show ExecuteContractEvm.executeContractDeployment vms db e₁ deployment s =
      ExecuteContractEvm.executeContractDeployment vms db e₂ deployment s
    have hdeploy : ∀ address,
        ExecuteContractEvm.executeEvmRuntime vms db e₁
          (ExecuteContractEvm.deploymentCall deployment address) =
        ExecuteContractEvm.executeEvmRuntime vms db e₂
          (ExecuteContractEvm.deploymentCall deployment address) := fun address => hruntime _ hd
    unfold ExecuteContractEvm.executeContractDeployment
    simp only [hdeploy]

/-- With every level of nesting, the engines are right one depth earlier. -/
theorem enginesUpTo_agreeFrom (n : Nat) :
    (enginesUpTo vms db (n + 1)).AgreeFrom (MAX_CROSS_CONTRACT_CALL_DEPTH + 1 - n)
      (enginesUpTo vms db (n + 2)) := by
  induction n with
  | zero => exact nextEngines_agreeFrom vms fun h => absurd h (by omega)
  | succ n ih =>
    refine nextEngines_agreeFrom vms fun h => ?_
    refine ⟨fun call hc => ih.l1xvm call (by omega), fun call hc => ih.evm call (by omega),
      fun deployment hc => ih.evmDeployment deployment (by omega)⟩

/-- **The engines of the node are their own next level**: nesting deeper makes no difference, so their
    calls are those of the code, which knows no bound but the depth it checks. -/
theorem contractEngines_eq : contractEngines vms db = nextEngines vms db (contractEngines vms db) := by
  have h : (contractEngines vms db).AgreeFrom _ (nextEngines vms db (contractEngines vms db)) :=
    enginesUpTo_agreeFrom vms (MAX_CROSS_CONTRACT_CALL_DEPTH + 1)
  have hl1xvm : (contractEngines vms db).l1xvm = (nextEngines vms db (contractEngines vms db)).l1xvm :=
    funext fun call => h.l1xvm call (by omega)
  have hevm : (contractEngines vms db).evm = (nextEngines vms db (contractEngines vms db)).evm :=
    funext fun call => h.evm call (by omega)
  have hdeployment : (contractEngines vms db).evmDeployment =
      (nextEngines vms db (contractEngines vms db)).evmDeployment :=
    funext fun deployment => h.evmDeployment deployment (by omega)
  exact Engines.ext hl1xvm hevm hdeployment

end

end L1xCore
