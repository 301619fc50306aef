import L1xCore.Execute.ExecuteContract
import L1xCore.State.Checkpoint

/-!
# `Execute.CallTree` — the contracts that run in one execution

A contract is run by a call or, on the EVM, by a creation (`Invocation`). While it runs it makes requests, and
some of them run another contract: `call_contract` of an L1XVM contract, and `call` and `create` of the
handler of an EVM contract. What comes before the contract is run, the lookups and the checks, is separated
here from the run itself (`callContract_eq`, `call_eq`, `create_eq`), so that one can speak about the contract
a request runs, and the overlay it is run on.

`Started` are the contracts that run in an execution, each with the one that has called it.
-/

namespace L1xCore

open Fallible ContractInstanceManager UpdatedState Handler VMContractTrait

variable {m m' self manager : ContractInstanceManager} {contractType : ContractType} {targetGas : Option Gas}
  {address : Address} {transfer : Option Transfer} {input : Bytes} {isStatic : Bool} {context : Context}
  {config : EvmConfig} {precompiles : Precompiles} {vm : VMContext} {s : UpdatedState}
  {invocation child : Invocation} {caller : Address} {scheme : CreateScheme} {value : U256}
  {initCode : Bytes} {borsh : BorshCalls} {r : RuntimeCall} {c : Syscall} {frame : Frame}
  {contract : Contract} {contractInstance : ContractInstance}
  {currentAddress contractInstanceAddress : Address} {function : ContractFunction}
  {arguments : ContractArgument} {gasLimit : Gas} {deposit : Balance} {readonly : Bool}
  {version : ContractCallVersion} {callAddr : MemoryAddress} {callLen : BitVec 64}
  {resultRegisterId : RegisterId}

/-- The engine of a contract type. A call of a contract of type `XTALK` does nothing. -/
def Engines.run (engines : Engines) :
    ContractType → FunctionCall → UpdatedState → Performed (Capture × Gas)
  | .L1XVM => engines.l1xvm
  | .EVM => engines.evm
  | .XTALK => fun _ => xtalk

/-- Lookups leave the gas meter alone. -/
def ContractInstanceManager.SameMeter (m m' : ContractInstanceManager) : Prop :=
  m'.gasometer = m.gasometer

instance : Std.Refl SameMeter := ⟨fun _ => rfl⟩

instance : IsTrans ContractInstanceManager SameMeter := ⟨fun _ _ _ h₁ h₂ => h₂.trans h₁⟩

theorem ContractInstanceManager.onState_sameMeter {α : Type} {x : StateOp α} :
    Moves SameMeter (onState x) := fun _ => rfl

theorem ContractInstanceManager.onState_remembers {db : StateTables} {α : Type} {x : StateOp α}
    (hx : Moves (Remembers db) x) :
    Moves (fun m m' => Remembers db m.updatedState m'.updatedState) (onState x) :=
  .zoom hx fun _ _ h => h

/-! ## The contract that a request runs -/

namespace VMContractTrait

variable (db : StateTables) (frame : Frame) (engines : Engines)

/-- The call that `call_contract` makes. -/
def calledWith (contractType : ContractType) (contract : Contract) (contractInstance : ContractInstance)
    (currentAddress contractInstanceAddress : Address) (function : ContractFunction)
    (arguments : ContractArgument) (gasLimit : Gas) (deposit : Balance) (readonly : Bool) : FunctionCall where
  accountAddress := if contractType = .EVM then contractInstanceAddress else currentAddress
  context :=
    if contractType = .EVM then ⟨contractInstanceAddress, currentAddress, deposit.setWidth 256⟩
    else ⟨currentAddress, currentAddress, 0⟩
  gasLimit := gasLimit
  deposit := deposit
  contract := contract
  contractInstance := contractInstance
  function := function
  arguments := arguments
  readonly := readonly
  env := frame.env
  currentCallDepth := frame.currentCallDepth + 1

/-- The lookups of `call_contract`. -/
def resolve (contractInstanceAddress : Address) (function : ContractFunction)
    (arguments : ContractArgument) (gasLimit : Gas) (deposit : Balance) (readonly : Bool) :
    ManagerOp (ContractType × FunctionCall) := do
  let currentAddress ← instanceAddress frame
  let contractInstance ← onState (getContractInstance db contractInstanceAddress)
  let contract ← onState (getContract db contractInstance.contractAddress)
  let contractType ← lift (ContractType.ofInt8 contract.type)
  pure (contractType, calledWith frame contractType contract contractInstance currentAddress
    contractInstanceAddress function arguments gasLimit deposit readonly)

theorem resolve_ok {db : StateTables} {frame : Frame} {call : FunctionCall}
    (h : (resolve db frame contractInstanceAddress function arguments gasLimit deposit readonly).run m =
      (.ok (contractType, call), m')) :
    ∃ contract contractInstance currentAddress,
      frame.contractInstance.map ContractInstance.instanceAddress = some currentAddress ∧
      call = calledWith frame contractType contract contractInstance currentAddress
        contractInstanceAddress function arguments gasLimit deposit readonly ∧
      Remembers db m.updatedState m'.updatedState := by
  obtain ⟨currentAddress, m₁, haddress, h⟩ := run_bind_ok h
  obtain ⟨hcurrent, hsame⟩ := run_okOr_ok haddress
  obtain ⟨contractInstance, m₂, hfound, h⟩ := run_bind_ok h
  obtain ⟨contract, m₃, hcontract, h⟩ := run_bind_ok h
  obtain ⟨_, m₄, htype, h⟩ := run_bind_ok h
  obtain ⟨-, htyped⟩ := run_lift_ok htype
  cases h
  subst hsame htyped
  have hread₁ := (onState_remembers (getContractInstance_remembers _)).of_run hfound
  have hread₂ := (onState_remembers (getContract_remembers _)).of_run hcontract
  exact ⟨contract, contractInstance, currentAddress, hcurrent, rfl, trans_of (Remembers db) hread₁ hread₂⟩

/-- What `call_contract` makes of the run. -/
def finishCall (called : (Capture × Gas) × UpdatedState) : ManagerOp (Bytes × Gas) :=
  match called.1.1 with
  | .exit .succeed result => do
    mergeState called.2
    pure (result, called.1.2)
  | .exit (.error e) _ => fail s!"Error: {e}"
  | .exit (.fatal e) _ => fail s!"Fatal: {e}"
  | .exit (.revert e) _ => fail s!"Revert: {e}"
  | .trap => fail "Trap"

theorem calledContract_eq :
    calledContract frame engines contractType contract contractInstance currentAddress
        contractInstanceAddress function arguments gasLimit deposit readonly =
      engines.run contractType (calledWith frame contractType contract contractInstance currentAddress
        contractInstanceAddress function arguments gasLimit deposit readonly) := by
  cases contractType <;> rfl

/-- **`call_contract` looks the contract up, runs it, and keeps the result.** -/
theorem callContract_eq :
    callContract db frame engines contractInstanceAddress function arguments gasLimit deposit readonly =
      (do
        let call ← resolve db frame contractInstanceAddress function arguments gasLimit deposit readonly
        let called ← perform (engines.run call.1 call.2)
        finishCall called) := by
  unfold callContract resolve
  simp only [bind_bind, calledContract_eq]
  rfl

end VMContractTrait

namespace VMLogic

variable (db : StateTables) (frame : Frame) (vm : VMContext) (borsh : BorshCalls)

/-- What the system call checks before it asks the manager. -/
def prepareCall (version : ContractCallVersion) (callAddr : MemoryAddress) (callLen : BitVec 64) :
    VMOp ContractCallv3 := do
  let callData ← memView callAddr callLen
  let call ← okOr (version.decode borsh callData) HostError.invalidArgument.toError
  if vm.readonly && !call.readOnly then fail HostError.readonlyCall.toError
  else
    tryBurnGas VmExecutionFees.createBasicConfig.crossContractCall
    let self ← state
    if self.runtimeGas.left < call.gasLimit then
      fail (HostError.contractCallGasLimit self.runtimeGas.left call.gasLimit).toError
    else pure call

/-- What the system call returns to the program. -/
def finishCall (resultRegisterId : RegisterId) (called : Except Error (Bytes × Gas)) : VMOp (BitVec 64) :=
  match called with
  | .ok (result, gas) => do
    burnGas gas
    setRegister resultRegisterId result
    pure 1
  | .error e => do
    setRegister resultRegisterId (Error.intoBytes e)
    pure 0

theorem callContract_eq (engines : Engines) :
    callContract db frame vm borsh engines version callAddr callLen resultRegisterId =
      (do
        let call ← prepareCall vm borsh version callAddr callLen
        let called ← onApi (VMContractTrait.callContract db frame engines call.contractInstanceAddress
          call.methodName call.args call.gasLimit call.deposit call.readOnly)
        finishCall resultRegisterId called) := by
  unfold callContract prepareCall
  simp only [bind_bind]
  refine bind_congr fun callData => bind_congr fun call => ?_
  by_cases hreadonly : (vm.readonly && !call.readOnly) = true
  · rw [if_pos hreadonly, if_pos hreadonly]
    rfl
  rw [if_neg hreadonly, if_neg hreadonly]
  simp only [bind_bind]
  refine bind_congr fun _ => bind_congr fun self => ?_
  by_cases hgas : self.runtimeGas.left < call.gasLimit
  · rw [if_pos hgas, if_pos hgas]
    rfl
  · rw [if_neg hgas, if_neg hgas]
    rfl

end VMLogic

namespace Handler

variable (db : StateTables) (frame : Frame) (engines : Engines)

/-- The call that the handler makes. -/
def calledWith (contractType : ContractType) (contract : Contract) (contractInstance : ContractInstance)
    (input : Bytes) (gasLimit : Gas) (deposit : Balance) (isStatic : Bool) (context : Context) :
    FunctionCall where
  accountAddress := context.caller
  context := if contractType = .EVM then context else ⟨context.caller, context.caller, 0⟩
  gasLimit := gasLimit
  deposit := deposit
  contract := contract
  contractInstance := contractInstance
  function := []
  arguments := input
  readonly := isStatic
  env := frame.env
  currentCallDepth := frame.currentCallDepth + 1

/-- The lookups of a call of an address; on the left an answer that runs no contract. -/
def resolveAddress (address : Address) (transfer : Option Transfer) (input : Bytes)
    (targetGas : Option Gas) (isStatic : Bool) (context : Context) :
    ManagerOp (Capture ⊕ ContractType × FunctionCall) := do
  match ← (onState (getContractInstance db address)).outcome with
  | .error _ => do
    let capture ← transferOnly db transfer
    pure (.inl capture)
  | .ok contractInstance =>
    match ← (onState
      (getContract db contractInstance.contractAddress)).outcome with
    | .error e => pure (.inl (.ofError e))
    | .ok contract =>
      match ContractType.ofInt8 contract.type, depositOf transfer with
      | .error e, _ => pure (.inl (.ofError e))
      | .ok _, .error e => pure (.inl (.ofError e))
      | .ok contractType, .ok deposit => do
        let self ← state
        pure (.inr (contractType, calledWith frame contractType contract contractInstance input
          (targetGas.getD self.gasometer.gas64) deposit isStatic context))

/-- The checks and lookups of a call. -/
def resolveCall (config : EvmConfig) (precompiles : Precompiles) (address : Address)
    (transfer : Option Transfer) (input : Bytes) (targetGas : Option Gas) (isStatic : Bool)
    (context : Context) : ManagerOp (Capture ⊕ ContractType × FunctionCall) :=
  if frame.readonly && transfer.isSome then
    pure (.inl (.ofError "Call: Can't be called from static-call context with attached value"))
  else
    match GasometerState.newTransactCall config 1000000 input with
    | .error e => pure (.inl (.ofError e))
    | .ok gasometer =>
      match precompileNumber address with
      | some number =>
        match precompiles number input gasometer with
        | (.ok _, data) => pure (.inl (.exit .succeed data))
        | (.error e, data) => pure (.inl (.exit (.error e) data))
      | none => resolveAddress db frame address transfer input targetGas isStatic context

section

variable {R : ContractInstanceManager → ContractInstanceManager → Prop} [Std.Refl R]
  [IsTrans ContractInstanceManager R] {db} {frame}

theorem transferOnly_moves (h : ∀ a b amount, Moves R (onState (UpdatedState.transfer db a b amount))) :
    Moves R (transferOnly db transfer) := by
  unfold transferOnly
  split
  · exact .pure _
  · split
    · exact .pure _
    · refine (h _ _ _).outcome.bind fun transferred => ?_
      cases transferred with
      | ok | error => exact .pure _

section

variable (hinstance : ∀ a, Moves R (onState (getContractInstance db a)))
  (hcontract : ∀ a, Moves R (onState (getContract db a)))

include hinstance hcontract

theorem resolveAddress_moves (htransfer : Moves R (transferOnly db transfer)) :
    Moves R (resolveAddress db frame address transfer input targetGas isStatic context) := by
  refine (hinstance _).outcome.bind fun found => ?_
  cases found with
  | error e => exact htransfer.bind fun _ => .pure _
  | ok contractInstance =>
    refine (hcontract _).outcome.bind fun contract => ?_
    cases contract with
    | error e => exact .pure _
    | ok contract =>
      dsimp only
      split
      · exact .pure _
      · exact .pure _
      · exact Moves.state.bind fun _ => .pure _

/-- What the lookups and the transfer do to the manager, a call does before it comes to run a contract. -/
theorem resolveCall_moves
    (htransfer : (frame.readonly && transfer.isSome) = false → Moves R (transferOnly db transfer)) :
    Moves R (resolveCall db frame config precompiles address transfer input targetGas isStatic context) := by
  unfold resolveCall
  split
  · exact .pure _
  next haccepted =>
  split
  · exact .pure _
  · split
    · split
      · exact .pure _
      · exact .pure _
    · exact resolveAddress_moves hinstance hcontract (htransfer (Bool.eq_false_of_not_eq_true haccepted))

end

theorem resolveCall_sameMeter :
    Moves SameMeter
      (resolveCall db frame config precompiles address transfer input targetGas isStatic context) :=
  resolveCall_moves (fun _ => onState_sameMeter) (fun _ => onState_sameMeter)
    fun _ => transferOnly_moves fun _ _ _ => onState_sameMeter

end

section

variable {db : StateTables} {frame : Frame} {call : FunctionCall}

/-- The contract that a call of the handler runs has the caller of the context for its account, and the gas
    limit that the program has asked for. -/
theorem resolveAddress_ok
    (h : (resolveAddress db frame address transfer input targetGas isStatic context).run m =
      (.ok (.inr (contractType, call)), m')) :
    ∃ contract contractInstance deposit,
      call = calledWith frame contractType contract contractInstance input
        (targetGas.getD m.gasometer.gas64) deposit isStatic context ∧
      Remembers db m.updatedState m'.updatedState := by
  obtain ⟨found, m₁, hfound, h⟩ := run_bind_ok h
  have hmeter₁ : m₁.gasometer = m.gasometer := onState_sameMeter.outcome.of_run hfound
  have hread₁ := (onState_remembers (getContractInstance_remembers _)).outcome.of_run hfound
  cases found with
  | error e =>
    obtain ⟨capture, m₂, -, h⟩ := run_bind_ok h
    cases h
  | ok contractInstance =>
    obtain ⟨contract, m₂, hcontract, h⟩ := run_bind_ok h
    have hmeter₂ : m₂.gasometer = m₁.gasometer := onState_sameMeter.outcome.of_run hcontract
    have hread₂ := (onState_remembers (getContract_remembers _)).outcome.of_run hcontract
    cases contract with
    | error e => cases h
    | ok contract =>
      dsimp only at h
      split at h
      · cases h
      · cases h
      · next deposit _ _ =>
          obtain ⟨self, m₃, hself, h⟩ := run_bind_ok h
          cases hself
          cases h
          rw [← hmeter₁, ← hmeter₂]
          exact ⟨contract, contractInstance, deposit, rfl, trans_of (Remembers db) hread₁ hread₂⟩

theorem resolveCall_ok
    (h : (resolveCall db frame config precompiles address transfer input targetGas isStatic context).run m =
      (.ok (.inr (contractType, call)), m')) :
    (resolveAddress db frame address transfer input targetGas isStatic context).run m =
      (.ok (.inr (contractType, call)), m') := by
  unfold resolveCall at h
  split at h
  · cases h
  · split at h
    · cases h
    · split at h
      · split at h
        · cases h
        · cases h
      · exact h

end

/-- The answer, or the run of the contract. -/
def runCall (engines : Engines) : Capture ⊕ ContractType × FunctionCall → ManagerOp Capture
  | .inl capture => pure capture
  | .inr call => executeCall (engines.run call.1 call.2)

theorem callAddress_eq :
    callAddress db frame engines address transfer input targetGas isStatic context =
      resolveAddress db frame address transfer input targetGas isStatic context >>= runCall engines := by
  unfold callAddress resolveAddress
  rw [bind_bind]
  refine bind_congr fun found => ?_
  cases found with
  | error e =>
    rw [bind_bind]
    exact bind_pure_eq.symm
  | ok contractInstance =>
    rw [bind_bind]
    refine bind_congr fun contract => ?_
    cases contract with
    | error e => rfl
    | ok contract =>
      dsimp only
      cases ContractType.ofInt8 contract.type with
      | error e => rfl
      | ok contractType =>
        cases depositOf transfer with
        | error e => rfl
        | ok deposit =>
          refine bind_congr fun self => ?_
          cases contractType <;> rfl

/-- **A call of the handler looks the contract up and runs it**, or is answered without. -/
theorem call_eq :
    call db frame config precompiles engines address transfer input targetGas isStatic context =
      resolveCall db frame config precompiles address transfer input targetGas isStatic context >>=
        runCall engines := by
  unfold call resolveCall
  by_cases hstatic : (frame.readonly && transfer.isSome) = true
  · rw [if_pos hstatic, if_pos hstatic]
    rfl
  rw [if_neg hstatic, if_neg hstatic]
  cases GasometerState.newTransactCall config 1000000 input with
  | error e => rfl
  | ok gasometer =>
    cases precompileNumber address with
    | none => exact callAddress_eq db frame engines
    | some number =>
      dsimp only
      rcases precompiles number input gasometer with ⟨e | result, data⟩
      · rfl
      · rfl

/-- The checks of a creation, and the nonce it takes. -/
def resolveCreate (caller : Address) (scheme : CreateScheme) (value : U256) (initCode : Bytes)
    (targetGas : Option Gas) : ManagerOp ((ExitReason × Option Address × Bytes) ⊕ Deployment) :=
  if frame.readonly then
    pure (.inl (createError "Create: Can't be called from static-call context" initCode))
  else
    match u256ToBalance value with
    | none =>
      pure (.inl (createError
        s!"Create: Can't convert EVM value to deposit, value: {value.toNat}" initCode))
    | some deposit => do
      let self ← state
      match ← (onState (takeNonce db caller)).outcome with
      | .error e => pure (.inl (createError e initCode))
      | .ok nonce =>
        pure (.inr
          { accountAddress := caller, scheme, gasLimit := targetGas.getD self.gasometer.gas64,
            deposit, accessType := AccessType.PRIVATE.toInt8, contractCode := initCode,
            env := { frame.env with nonce }, currentCallDepth := frame.currentCallDepth + 1 })

theorem resolveCreate_sameMeter :
    Moves SameMeter (resolveCreate db frame caller scheme value initCode targetGas) := by
  unfold resolveCreate
  split
  · exact .pure _
  · split
    · exact .pure _
    · refine Moves.state.bind fun _ => onState_sameMeter.outcome.bind fun taken => ?_
      cases taken with
      | error | ok => exact .pure _

theorem resolveCreate_ok {db : StateTables} {frame : Frame} {deployment : Deployment}
    (h : (resolveCreate db frame caller scheme value initCode targetGas).run m =
      (.ok (.inr deployment), m')) :
    ∃ deposit nonce, deployment =
      { accountAddress := caller, scheme, gasLimit := targetGas.getD m.gasometer.gas64,
        deposit, accessType := AccessType.PRIVATE.toInt8, contractCode := initCode,
        env := { frame.env with nonce }, currentCallDepth := frame.currentCallDepth + 1 } ∧
      (takeNonce db caller).run m.updatedState = (.ok nonce, m'.updatedState) := by
  unfold resolveCreate at h
  split at h
  · cases h
  · split at h
    · cases h
    · next deposit _ =>
        obtain ⟨self, m₁, hstate, h⟩ := run_bind_ok h
        cases hstate
        obtain ⟨taken, m₂, htaken, h⟩ := run_bind_ok h
        obtain ⟨hnonce, rfl⟩ := Prod.mk.inj htaken
        cases taken with
        | error e => cases h
        | ok nonce =>
          cases h
          exact ⟨deposit, nonce, rfl, Prod.ext (Except.ok.inj hnonce) rfl⟩

/-- The answer, or the run of the code that creates the contract. -/
def runCreate (engines : Engines) (initCode : Bytes) :
    (ExitReason × Option Address × Bytes) ⊕ Deployment → ManagerOp (ExitReason × Option Address × Bytes)
  | .inl answer => pure answer
  | .inr deployment => do
    let created ← perform (engines.evmDeployment deployment)
    match created.1 with
    | .ok (address, burntGas) => do
      chargeGas burntGas
      mergeState created.2
      pure (.succeed, some address, initCode)
    | .error e => pure (createError e initCode)

theorem create_eq :
    create db frame engines caller scheme value initCode targetGas =
      resolveCreate db frame caller scheme value initCode targetGas >>= runCreate engines initCode := by
  unfold create resolveCreate
  by_cases hreadonly : frame.readonly = true
  · rw [if_pos hreadonly, if_pos hreadonly]
    rfl
  rw [if_neg hreadonly, if_neg hreadonly]
  cases u256ToBalance value with
  | none => rfl
  | some deposit =>
    rw [bind_bind]
    refine bind_congr fun self => ?_
    rw [bind_bind]
    refine bind_congr fun taken => ?_
    cases taken with
    | error e => rfl
    | ok nonce => rfl

end Handler

/-! ## The contracts of an execution -/

/-- A contract that is run. -/
inductive Invocation where
  | call (contractType : ContractType) (call : FunctionCall)
  | create (deployment : Deployment)

section

variable (db : StateTables) (frame : Frame)

/-- The contract that `call_contract` runs, and the manager as it is then. -/
def VMLogic.callInvokes (vm : VMContext) (borsh : BorshCalls) (version : ContractCallVersion)
    (callAddr : MemoryAddress) (callLen : BitVec 64) (self : VMLogic) :
    Option (Invocation × ContractInstanceManager) :=
  match (VMLogic.prepareCall vm borsh version callAddr callLen).run self with
  | (.error _, _) => none
  | (.ok call, self) =>
    match (resolve db frame call.contractInstanceAddress call.methodName call.args
      call.gasLimit call.deposit call.readOnly).run self.api with
    | (.error _, _) => none
    | (.ok (contractType, call), manager) => some (.call contractType call, manager)

/-- The contract that a system call runs. -/
def Syscall.invokes (vm : VMContext) (borsh : BorshCalls) (c : Syscall) (self : VMLogic) :
    Option (Invocation × ContractInstanceManager) :=
  match c with
  | .callContract callAddr callLen _ => self.callInvokes db frame vm borsh .V1 callAddr callLen
  | .callContract2 callAddr callLen _ => self.callInvokes db frame vm borsh .V2 callAddr callLen
  | _ => none

/-- The contract that a call of the handler runs. -/
def Handler.callInvokes (config : EvmConfig) (precompiles : Precompiles) (address : Address)
    (transfer : Option Transfer) (input : Bytes) (targetGas : Option Gas) (isStatic : Bool)
    (context : Context) (self : ContractInstanceManager) : Option (Invocation × ContractInstanceManager) :=
  match (resolveCall db frame config precompiles address transfer input targetGas isStatic
    context).run self with
  | (.ok (.inr (contractType, call)), manager) => some (.call contractType call, manager)
  | _ => none

/-- The contract that a creation runs. -/
def Handler.createInvokes (caller : Address) (scheme : CreateScheme) (value : U256) (initCode : Bytes)
    (targetGas : Option Gas) (self : ContractInstanceManager) :
    Option (Invocation × ContractInstanceManager) :=
  match (resolveCreate db frame caller scheme value initCode targetGas).run self with
  | (.ok (.inr deployment), manager) => some (.create deployment, manager)
  | _ => none

/-- The contract that a method of the handler runs. -/
def HandlerCall.invokes (config : EvmConfig) (precompiles : Precompiles) (c : HandlerCall)
    (self : ContractInstanceManager) : Option (Invocation × ContractInstanceManager) :=
  match c with
  | .call address transfer input targetGas isStatic context =>
    callInvokes db frame config precompiles address transfer input targetGas isStatic context
      self
  | .create caller scheme value initCode targetGas =>
    createInvokes db frame caller scheme value initCode targetGas self
  | _ => none

variable {db} {frame} {child : Invocation} {manager : ContractInstanceManager}

theorem VMLogic.callInvokes_some {self : VMLogic}
    (h : self.callInvokes db frame vm borsh version callAddr callLen = some (child, manager)) :
    ∃ call self₁ contractType made, child = .call contractType made ∧
      (prepareCall vm borsh version callAddr callLen).run self = (.ok call, self₁) ∧
      (resolve db frame call.contractInstanceAddress call.methodName call.args call.gasLimit
        call.deposit call.readOnly).run self₁.api = (.ok (contractType, made), manager) := by
  unfold callInvokes at h
  split at h
  · cases h
  next call self₁ hprepare =>
  split at h
  · cases h
  next contractType made manager₁ hresolve =>
  cases h
  exact ⟨call, self₁, contractType, made, rfl, hprepare, hresolve⟩

theorem Handler.callInvokes_some
    (h : callInvokes db frame config precompiles address transfer input targetGas isStatic context
      self = some (child, manager)) :
    ∃ contractType made, child = .call contractType made ∧
      (resolveCall db frame config precompiles address transfer input targetGas isStatic
        context).run self = (.ok (.inr (contractType, made)), manager) := by
  unfold callInvokes at h
  split at h
  · next contractType made manager₁ hresolve =>
      cases h
      exact ⟨contractType, made, rfl, hresolve⟩
  · cases h

theorem Handler.createInvokes_some (h : createInvokes db frame caller scheme value initCode targetGas self =
      some (child, manager)) :
    ∃ deployment, child = .create deployment ∧
      (resolveCreate db frame caller scheme value initCode targetGas).run self =
        (.ok (.inr deployment), manager) := by
  unfold createInvokes at h
  split at h
  · next deployment manager₁ hresolve =>
      cases h
      exact ⟨deployment, rfl, hresolve⟩
  · cases h

end

section

variable (vms : VirtualMachines) (db : StateTables) {call : FunctionCall}

/-- The program of an L1XVM contract with its host, when it comes to run. -/
def ExecuteContractL1xvm.start (call : FunctionCall) (s : UpdatedState) :
    Option (VMContext × EbpfProgram × VMLogic) :=
  if MAX_CROSS_CONTRACT_CALL_DEPTH < call.currentCallDepth then none
  else
    match (call.transferDeposit db).run s with
    | (.error _, _) => none
    | (.ok _, s) =>
      match vms.ebpf.findVersion call.contract.code with
      | .error _ => none
      | .ok version =>
        match verifyVersion version, vms.ebpf.link call.contract.code call.function with
        | .ok _, .ok (memory, program) =>
          if (RuntimeGas.new call.gasLimit).left = 0 then none
          else
            some (call.vmContext version, program, ⟨∅, memory, [], .new call.gasLimit, .new call.gasLimit s⟩)
        | _, _ => none

/-- The runtime of an EVM contract with its manager, when it comes to run. -/
def ExecuteContractEvm.start (invocation : Invocation) (s : UpdatedState) :
    Option (RuntimeCall × ContractInstanceManager) :=
  let run (r : RuntimeCall) (started : Except Error Unit × UpdatedState) :=
    match started with
    | (.error _, _) => none
    | (.ok _, s) =>
      if MAX_CROSS_CONTRACT_CALL_DEPTH < r.currentCallDepth then none
      else some (r, .new r.gasLimit s)
  match invocation with
  | .call .EVM call => run (runtimeCall call) ((call.transferDeposit db).run s)
  | .call _ _ => none
  | .create deployment =>
    let address := createEvmAddress vms.crypto deployment.scheme deployment.env.nonce
    run (deploymentCall deployment address) ((createContractAccount db deployment address).run s)

/-- The requests of a program of an L1XVM contract. -/
def ExecuteContractL1xvm.requests (call : FunctionCall) (s : UpdatedState) :
    List (VMContext × Syscall × VMLogic) :=
  match start vms db call s with
  | none => []
  | some (vm, program, self) =>
    (program.trace (VMLogic.answer db call.frame vm vms.ebpf.borsh (contractEngines vms db)) self).map
      fun request => (vm, request.1, request.2)

/-- The requests of a program of an EVM contract. -/
def ExecuteContractEvm.requests (invocation : Invocation) (s : UpdatedState) :
    List (RuntimeCall × HandlerCall × ContractInstanceManager) :=
  match start vms db invocation s with
  | none => []
  | some (r, self) =>
    ((vms.evm.program r.contractCode r.arguments r.context).trace
      (answer vms db (contractEngines vms db) r.frame) self).map fun request => (r, request.1, request.2)

/-- The contracts that a contract runs, each with the manager of its issuer as it is then. -/
def Invocation.calls (invocation : Invocation) (s : UpdatedState) :
    List (Invocation × ContractInstanceManager) :=
  match invocation with
  | .call .L1XVM made =>
    (ExecuteContractL1xvm.requests vms db made s).filterMap fun (vm, c, self) =>
      c.invokes db made.frame vm vms.ebpf.borsh self
  | invocation =>
    (ExecuteContractEvm.requests vms db invocation s).filterMap fun (r, c, self) =>
      c.invokes db r.frame ExecuteContractEvm.config vms.evm.precompiles self

variable {vms db}

theorem ExecuteContractL1xvm.start_depth (h : (start vms db call s).isSome) :
    call.currentCallDepth ≤ MAX_CROSS_CONTRACT_CALL_DEPTH := by
  by_contra hdepth
  unfold start at h
  rw [if_pos (Nat.lt_of_not_le hdepth)] at h
  cases h

/-- What an EVM contract is started with. -/
inductive Invocation.RuntimeCallIs (crypto : Crypto) : Invocation → RuntimeCall → Prop
  | call (made : FunctionCall) :
      RuntimeCallIs crypto (.call .EVM made) (ExecuteContractEvm.runtimeCall made)
  | create (deployment : Deployment) :
      RuntimeCallIs crypto (.create deployment) (ExecuteContractEvm.deploymentCall deployment
        (createEvmAddress crypto deployment.scheme deployment.env.nonce))

theorem ExecuteContractEvm.start_some (h : start vms db invocation s = some (r, self)) :
    invocation.RuntimeCallIs vms.crypto r ∧ r.currentCallDepth ≤ MAX_CROSS_CONTRACT_CALL_DEPTH ∧
      self.gasometer = .new r.gasLimit := by
  unfold start at h
  dsimp only at h
  split at h
  · split at h
    · cases h
    split at h
    · cases h
    · next hdepth =>
        cases h
        exact ⟨.call _, Nat.le_of_not_lt hdepth, rfl⟩
  · cases h
  · split at h
    · cases h
    split at h
    · cases h
    · next hdepth =>
        cases h
        exact ⟨.create _, Nat.le_of_not_lt hdepth, rfl⟩

theorem ExecuteContractL1xvm.mem_requests {self : VMLogic} (h : (vm, c, self) ∈ requests vms db call s) :
    ∃ program self₀, start vms db call s = some (vm, program, self₀) ∧ (c, self) ∈ program.trace
      (VMLogic.answer db call.frame vm vms.ebpf.borsh (contractEngines vms db)) self₀ := by
  unfold requests at h
  split at h
  · cases h
  · next vm₀ program self₀ hstart =>
      obtain ⟨request, hmem, heq⟩ := List.mem_map.mp h
      cases heq
      exact ⟨program, self₀, hstart, hmem⟩

/-- Every request of an EVM contract is made by its program, with the context it was started with. -/
theorem ExecuteContractEvm.mem_requests {c : HandlerCall} (h : (r, c, self) ∈ requests vms db invocation s) :
    ∃ self₀, start vms db invocation s = some (r, self₀) ∧
      (c, self) ∈ (vms.evm.program r.contractCode r.arguments r.context).trace
        (answer vms db (contractEngines vms db) r.frame) self₀ := by
  unfold requests at h
  split at h
  · cases h
  · next r₀ self₀ hstart =>
      obtain ⟨request, hmem, heq⟩ := List.mem_map.mp h
      cases heq
      exact ⟨self₀, hstart, hmem⟩

/-- **The calls of a contract** are those of its requests that run one. -/
theorem Invocation.mem_calls :
    (child, manager) ∈ invocation.calls vms db s ↔
      (∃ made vm c self, invocation = .call .L1XVM made ∧
        (vm, c, self) ∈ ExecuteContractL1xvm.requests vms db made s ∧
        c.invokes db made.frame vm vms.ebpf.borsh self = some (child, manager)) ∨
      ∃ r c self, (r, c, self) ∈ ExecuteContractEvm.requests vms db invocation s ∧
        c.invokes db r.frame ExecuteContractEvm.config vms.evm.precompiles self = some (child, manager) := by
  constructor
  · intro h
    unfold calls at h
    split at h
    · obtain ⟨⟨vm, c, self⟩, hrequest, hinvokes⟩ := List.mem_filterMap.mp h
      exact .inl ⟨_, vm, c, self, rfl, hrequest, hinvokes⟩
    · obtain ⟨⟨r, c, self⟩, hrequest, hinvokes⟩ := List.mem_filterMap.mp h
      exact .inr ⟨r, c, self, hrequest, hinvokes⟩
  · rintro (⟨made, vm, c, self, rfl, hrequest, hinvokes⟩ | ⟨r, c, self, hrequest, hinvokes⟩)
    · exact List.mem_filterMap.mpr ⟨(vm, c, self), hrequest, hinvokes⟩
    · have hmem : (child, manager) ∈ (ExecuteContractEvm.requests vms db invocation s).filterMap
          fun (r, c, self) => c.invokes db r.frame ExecuteContractEvm.config vms.evm.precompiles self :=
        List.mem_filterMap.mpr ⟨(r, c, self), hrequest, hinvokes⟩
      unfold calls
      split
      · -- an L1XVM contract makes no requests of the handler
        cases hrequest
      · exact hmem

/-- How deep a contract is nested. -/
def Invocation.depth : Invocation → Nat
  | .call _ made => made.currentCallDepth
  | .create deployment => deployment.currentCallDepth

section

variable {self : VMLogic} (h : c.invokes db frame vm borsh self = some (child, manager))

include h

/-- **What a system call runs** is what `call_contract` calls with, for a contract that it has looked up. -/
theorem Syscall.invokes_some :
    ∃ contractType contract contractInstance currentAddress address function arguments gasLimit deposit readonly,
      frame.contractInstance.map ContractInstance.instanceAddress = some currentAddress ∧
      child = .call contractType (VMContractTrait.calledWith frame contractType contract contractInstance
        currentAddress address function arguments gasLimit deposit readonly) := by
  have hcall : ∃ version callAddr callLen,
      self.callInvokes db frame vm borsh version callAddr callLen = some (child, manager) := by
    cases c with
    | callContract | callContract2 => exact ⟨_, _, _, h⟩
    | _ => cases h
  obtain ⟨version, callAddr, callLen, h⟩ := hcall
  obtain ⟨call, self₁, contractType, made, rfl, -, hresolve⟩ := VMLogic.callInvokes_some h
  obtain ⟨contract, contractInstance, currentAddress, hcurrent, rfl, -⟩ := resolve_ok hresolve
  exact ⟨_, _, _, _, _, _, _, _, _, _, hcurrent, rfl⟩

theorem Syscall.invokes_depth : child.depth = frame.currentCallDepth + 1 := by
  obtain ⟨_, _, _, _, _, _, _, _, _, _, -, rfl⟩ := invokes_some h
  rfl

end

theorem HandlerCall.invokes_depth {c : HandlerCall}
    (h : c.invokes db frame config precompiles self = some (child, manager)) :
    child.depth = frame.currentCallDepth + 1 := by
  cases c with
  | call address transfer input targetGas isStatic context =>
    obtain ⟨contractType, made, rfl, hresolve⟩ := callInvokes_some h
    obtain ⟨contract, contractInstance, deposit, rfl, -⟩ := resolveAddress_ok (resolveCall_ok hresolve)
    rfl
  | create caller scheme value initCode targetGas =>
    obtain ⟨deployment, rfl, hresolve⟩ := createInvokes_some h
    obtain ⟨deposit, nonce, rfl, -⟩ := resolveCreate_ok hresolve
    rfl
  | _ => cases h

/-- **Calls go one level down**, and only from within the limit. -/
theorem Invocation.depth_of_mem_calls (h : (child, manager) ∈ invocation.calls vms db s) :
    invocation.depth ≤ MAX_CROSS_CONTRACT_CALL_DEPTH ∧ child.depth = invocation.depth + 1 := by
  rcases mem_calls.mp h with
    ⟨made, vm, c, self, rfl, hrequest, hinvokes⟩ | ⟨r, c, self, hrequest, hinvokes⟩
  · obtain ⟨program, self₀, hstart, -⟩ := ExecuteContractL1xvm.mem_requests hrequest
    have hdepth := ExecuteContractL1xvm.start_depth (Option.isSome_of_eq_some hstart)
    exact ⟨hdepth, Syscall.invokes_depth hinvokes⟩
  · obtain ⟨self₀, hstart, -⟩ := ExecuteContractEvm.mem_requests hrequest
    obtain ⟨hr, hdepth, -⟩ := ExecuteContractEvm.start_some hstart
    have hchild := HandlerCall.invokes_depth hinvokes
    cases hr with
    | call | create => exact ⟨hdepth, hchild⟩

/-- Who has a contract run: a transaction, or a contract, with the manager as it is then. -/
inductive Origin where
  | transaction
  | contract (issuer : Invocation) (manager : ContractInstanceManager)

/-- The contracts that run in an execution, each with its origin and the overlay it is run on. -/
inductive Started (vms : VirtualMachines) (db : StateTables) (root : Invocation) (s₀ : UpdatedState) :
    Origin → Invocation → UpdatedState → Prop
  | root : Started vms db root s₀ .transaction root s₀
  | nested {origin : Origin} {issuer child : Invocation} {s : UpdatedState}
      {manager : ContractInstanceManager} (hissuer : Started vms db root s₀ origin issuer s)
      (hcall : (child, manager) ∈ issuer.calls vms db s) :
      Started vms db root s₀ (.contract issuer manager) child manager.updatedState

end

end L1xCore
