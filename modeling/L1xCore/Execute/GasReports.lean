import L1xCore.Execute.CallTree

/-!
# `Execute.GasReports` — what a contract burns, and what is reported for it

Every contract that runs has a meter of its own. When it has ended, its engine reports what the meter shows, or
zero: an L1XVM contract that has failed is reported with zero, and a creation that has failed is not reported
at all (`Invocation.report_cases`). The issuer of the call charges its own meter with what is reported, or does
not: an L1XVM contract does so only if the call has succeeded, and the meter of an EVM contract refuses a charge
that exceeds its limit, which is only logged (`Origin.charged`).
-/

namespace L1xCore

open Fallible ContractInstanceManager Handler

def Capture.isSucceed : Capture → Bool
  | exit reason _ => reason.isSucceed
  | trap => false

section

variable (vms : VirtualMachines) (db : StateTables)

/-- What the meter of an L1XVM contract shows when it has ended, in whatever way. -/
def ExecuteContractL1xvm.meter (call : FunctionCall) (s : UpdatedState) : Gas :=
  match start vms db call s with
  | none => 0
  | some (vm, program, self) =>
    ((program.run (VMLogic.answer db call.frame vm vms.ebpf.borsh (contractEngines vms db))).run
      self).2.runtimeGas.burntGas

/-- The program of an EVM contract, when it has ended. -/
def ExecuteContractEvm.ran (r : RuntimeCall) (self : ContractInstanceManager) :
    Except Error EvmExit × ContractInstanceManager :=
  ((vms.evm.program r.contractCode r.arguments r.context).run
    (answer vms db (contractEngines vms db) r.frame)).run self

/-- What the meter of an EVM contract shows when it has ended. The transaction cost is charged last, but not
    if the handler has panicked. -/
def ExecuteContractEvm.meter (invocation : Invocation) (s : UpdatedState) : Gas :=
  match start vms db invocation s with
  | none => 0
  | some (r, self) =>
    match ran vms db r self with
    | (.ok _, manager) => (manager.gasometer.charge (transactionCost r)).burntGas
    | (.error _, manager) => manager.gasometer.burntGas

/-- The program of an EVM contract comes to an end, without a panic of the handler. -/
def ExecuteContractEvm.ends (invocation : Invocation) (s : UpdatedState) : Bool :=
  match start vms db invocation s with
  | none => false
  | some (r, self) => (ran vms db r self).1.isOk

namespace Invocation

def meter (invocation : Invocation) (s : UpdatedState) : Gas :=
  match invocation with
  | .call .L1XVM made => ExecuteContractL1xvm.meter vms db made s
  | invocation => ExecuteContractEvm.meter vms db invocation s

/-- The gas of the contract is reported even if it fails: it is an EVM contract that was called. -/
def reportsFailure (invocation : Invocation) (s : UpdatedState) : Bool :=
  match invocation with
  | .call .EVM _ => ExecuteContractEvm.ends vms db invocation s
  | _ => false

/-- Whether a contract has succeeded, and the gas that is reported for it. -/
def report (invocation : Invocation) (s : UpdatedState) : Bool × Gas :=
  match invocation with
  | .call contractType made =>
    let performed := (contractEngines vms db).run contractType made s
    (performed.outcome.1.isSucceed, performed.outcome.2)
  | .create deployment =>
    match ((contractEngines vms db).evmDeployment deployment s).outcome with
    | .ok (_, burntGas) => (true, burntGas)
    | .error _ => (false, 0)

end Invocation

end

/-- What the issuer is charged with. A transaction is charged with what is reported. -/
def Origin.charged (origin : Origin) (report : Bool × Gas) : Gas :=
  match origin with
  | transaction => report.2
  | contract (.call .L1XVM _) _ => if report.1 then report.2 else 0
  | contract _ manager => if (manager.gasometer.recordGas64 report.2).isOk then report.2 else 0

/-! ## What is reported -/

section

variable {vms : VirtualMachines} {db : StateTables} (call : FunctionCall) (s : UpdatedState) {result : Bytes}
  {burntGas : Gas} {manager : ContractInstanceManager}

theorem VMLogic.checkGas_ok {self self' : VMLogic} (h : checkGas.run self = (.ok (), self')) :
    self.runtimeGas.left ≠ 0 ∧ self' = self := by
  obtain ⟨_, _, hstate, h⟩ := run_bind_ok h
  cases hstate
  split at h
  · cases h
  · next hleft =>
      cases h
      exact ⟨hleft, rfl⟩

theorem ExecuteContractL1xvm.meter_of_run {call : FunctionCall} {s s₁ : UpdatedState}
    (hdepth : ¬ MAX_CROSS_CONTRACT_CALL_DEPTH < call.currentCallDepth)
    (htransfer : (call.transferDeposit db).run s = (.ok (), s₁))
    (h : (run vms db (contractEngines vms db) call).run (.new call.gasLimit s₁) =
      (.ok (result, burntGas), manager)) : meter vms db call s = burntGas := by
  obtain ⟨version, m₁, hfind, h⟩ := run_bind_ok h
  obtain ⟨_, m₂, hcheck, h⟩ := run_bind_ok h
  obtain ⟨⟨memory, program⟩, m₃, hprogram, h⟩ := run_bind_ok h
  obtain ⟨hversion, hm₁⟩ := run_lift_ok hfind
  obtain ⟨hverify, hm₂⟩ := run_lift_ok hcheck
  obtain ⟨hlink, hm₃⟩ := run_lift_ok hprogram
  rw [hm₃, hm₂, hm₁] at h
  unfold meter start
  rw [if_neg hdepth, htransfer]
  rw [hversion]
  dsimp only
  rw [hverify, hlink]
  dsimp only
  -- a program that ends well has begun, and reports its meter
  change executeProgram vms db (contractEngines vms db) call _ memory program _ = _ at h
  unfold executeProgram at h
  dsimp only at h
  split at h
  · next self hran =>
      obtain ⟨_, _, hcheck, hprogram⟩ := run_bind_ok hran
      obtain ⟨hleft, rfl⟩ := VMLogic.checkGas_ok hcheck
      have hresult : vmOutcome self = .ok (result, burntGas) := congrArg Prod.fst h
      unfold vmOutcome at hresult
      rw [if_neg hleft]
      dsimp only
      rw [hprogram]
      split at hresult
      · cases hresult
        rfl
      · cases hresult
  · cases h
  · cases h

/-- An L1XVM contract reports its meter if it has succeeded, and nothing if it has failed. -/
theorem ExecuteContractL1xvm.executeContractFunctionCall_outcome :
    let outcome := (executeContractFunctionCall vms db (contractEngines vms db) call s).outcome
    outcome.1.isSucceed = true ∧ outcome.2 = meter vms db call s ∨
      outcome.1.isSucceed = false ∧ outcome.2 = 0 := by
  unfold executeContractFunctionCall
  by_cases hdepth : MAX_CROSS_CONTRACT_CALL_DEPTH < call.currentCallDepth
  · rw [if_pos hdepth]
    exact .inr ⟨rfl, rfl⟩
  rw [if_neg hdepth]
  rcases htransfer : (call.transferDeposit db).run s with ⟨e | _, s₁⟩
  · exact .inr ⟨rfl, rfl⟩
  dsimp only
  rcases hrun : (run vms db (contractEngines vms db) call).run (.new call.gasLimit s₁) with
    ⟨e | ⟨result, burntGas⟩, manager⟩
  · exact .inr ⟨rfl, rfl⟩
  dsimp only
  rcases hevent : (createResultEvent call result).run (s₁.merge manager.updatedState) with ⟨e | _, s₂⟩
  · unfold createResultEvent at hevent
    split at hevent <;> cases hevent
  · exact .inl ⟨rfl, (meter_of_run hdepth htransfer hrun).symm⟩

/-- The runtime of an EVM contract reports the meter, whether it has succeeded or not, unless it panicked. -/
theorem ExecuteContractEvm.executeEvmRuntime_outcome {r : RuntimeCall} {s : UpdatedState}
    (hdepth : ¬ MAX_CROSS_CONTRACT_CALL_DEPTH < r.currentCallDepth) :
    let outcome := (executeEvmRuntime vms db (contractEngines vms db) r s).outcome
    (∃ exit manager, ran vms db r (.new r.gasLimit s) = (.ok exit, manager) ∧
      outcome.2 = (manager.gasometer.charge (transactionCost r)).burntGas) ∨
    (∃ e manager, ran vms db r (.new r.gasLimit s) = (.error e, manager) ∧
      outcome.1.isSucceed = false ∧ outcome.2 = 0) := by
  unfold executeEvmRuntime
  rw [if_neg hdepth]
  unfold ran
  dsimp only
  rcases hran : ((vms.evm.program r.contractCode r.arguments r.context).run
    (answer vms db (contractEngines vms db) r.frame)).run (.new r.gasLimit s) with ⟨e | exit, manager⟩
  · exact .inr ⟨e, manager, rfl, rfl, rfl⟩
  · refine .inl ⟨exit, manager, rfl, ?_⟩
    dsimp only
    split
    · rfl
    · rfl

theorem ExecuteContractEvm.executeContractFunctionCall_outcome :
    let outcome := (executeContractFunctionCall vms db (contractEngines vms db) call s).outcome
    ends vms db (.call .EVM call) s = true ∧ outcome.2 = meter vms db (.call .EVM call) s ∨
      ends vms db (.call .EVM call) s = false ∧ outcome.1.isSucceed = false ∧ outcome.2 = 0 := by
  unfold executeContractFunctionCall ends meter start
  dsimp only
  rcases htransfer : (call.transferDeposit db).run s with ⟨e | _, s₁⟩
  · exact .inr ⟨rfl, rfl, rfl⟩
  dsimp only
  by_cases hdepth : MAX_CROSS_CONTRACT_CALL_DEPTH < (runtimeCall call).currentCallDepth
  · rw [if_pos hdepth]
    unfold executeEvmRuntime
    rw [if_pos hdepth]
    exact .inr ⟨rfl, rfl, rfl⟩
  rw [if_neg hdepth]
  dsimp only
  rcases executeEvmRuntime_outcome hdepth with
    ⟨exit, manager, hran, hgas⟩ | ⟨e, manager, hran, hfailed, hgas⟩
  · rw [hran]
    exact .inl ⟨rfl, hgas⟩
  · rw [hran]
    exact .inr ⟨rfl, hfailed, hgas⟩

theorem ExecuteContractEvm.executeContractDeployment_outcome {deployment : Deployment} {s : UpdatedState} :
    (∃ address, (executeContractDeployment vms db (contractEngines vms db) deployment s).outcome =
      .ok (address, meter vms db (.create deployment) s)) ∨
    ∃ e, (executeContractDeployment vms db (contractEngines vms db) deployment s).outcome = .error e := by
  unfold executeContractDeployment meter start
  dsimp only
  generalize createEvmAddress vms.crypto deployment.scheme deployment.env.nonce = address
  rcases haccount : (createContractAccount db deployment address).run s with ⟨e | _, s₁⟩
  · exact .inr ⟨e, rfl⟩
  dsimp only
  by_cases hdepth : MAX_CROSS_CONTRACT_CALL_DEPTH < (deploymentCall deployment address).currentCallDepth
  · rw [if_pos hdepth]
    unfold executeEvmRuntime
    rw [if_pos hdepth]
    exact .inr ⟨_, rfl⟩
  rw [if_neg hdepth]
  dsimp only
  rcases executeEvmRuntime_outcome hdepth with
    ⟨exit, manager, hran, hgas⟩ | ⟨e, manager, hran, hfailed, hgas⟩
  · rw [hran]
    dsimp only
    rw [← hgas]
    split
    · next hdeployed =>
        rw [hdeployed]
        exact .inl ⟨address, rfl⟩
    all_goals exact .inr ⟨_, rfl⟩
  · split
    · next hdeployed =>
        rw [hdeployed] at hfailed
        cases hfailed
    all_goals exact .inr ⟨_, rfl⟩

/-- **What is reported** is the meter, if the contract has succeeded or its gas is reported even if it fails,
    and zero otherwise. -/
theorem Invocation.report_cases (invocation : Invocation) (s : UpdatedState) :
    (invocation.report vms db s).2 = invocation.meter vms db s ∧
        ((invocation.report vms db s).1 = true ∨ invocation.reportsFailure vms db s = true) ∨
      (invocation.report vms db s).2 = 0 ∧ (invocation.report vms db s).1 = false ∧
        invocation.reportsFailure vms db s = false := by
  cases invocation with
  | create deployment =>
    unfold report
    rw [contractEngines_eq]
    rcases ExecuteContractEvm.executeContractDeployment_outcome with ⟨address, h⟩ | ⟨e, h⟩
    · dsimp only [nextEngines]
      rw [h]
      exact .inl ⟨rfl, .inl rfl⟩
    · dsimp only [nextEngines]
      rw [h]
      exact .inr ⟨rfl, rfl, rfl⟩
  | call contractType made =>
    cases contractType with
    | XTALK => exact .inl ⟨rfl, .inl rfl⟩
    | L1XVM =>
      unfold report
      rw [contractEngines_eq]
      rcases ExecuteContractL1xvm.executeContractFunctionCall_outcome made s with
        ⟨hsucceed, hgas⟩ | ⟨hfailed, hgas⟩
      · exact .inl ⟨hgas, .inl hsucceed⟩
      · exact .inr ⟨hgas, hfailed, rfl⟩
    | EVM =>
      unfold report
      rw [contractEngines_eq]
      rcases ExecuteContractEvm.executeContractFunctionCall_outcome made s with
        ⟨hends, hgas⟩ | ⟨hends, hfailed, hgas⟩
      · exact .inl ⟨hgas, .inr hends⟩
      · exact .inr ⟨hgas, hfailed, hends⟩

end

/-! ## What the issuer is charged with -/

section

variable {vms : VirtualMachines} {db : StateTables} {frame : Frame} {version : ContractCallVersion}
  {callAddr : MemoryAddress} (meter : GasometerState) {callLen : BitVec 64} {borsh : BorshCalls}
  {child : Invocation} {vm : VMContext} {manager : ContractInstanceManager}

theorem RuntimeGas.burn_zero (gas : RuntimeGas) : gas.burn 0 = gas := by
  have hadd : gas.burntGas.checkedAdd 0 = some gas.burntGas := by
    rw [BitVec.checkedAdd_eq_some]
    rfl
  unfold burn
  rw [hadd]
  rfl

theorem GasometerState.usedGas_charge (gas : Gas) :
    (meter.charge gas).usedGas = meter.usedGas + if (meter.recordGas64 gas).isOk then gas else 0 := by
  unfold charge recordGas64
  cases meter.totalUsedGas.checkedAdd gas with
  | none => simp [Except.isOk, Except.toBool, Except.toOption]
  | some cost =>
    by_cases hlimit : meter.gasLimit < cost
    · simp [hlimit, Except.isOk, Except.toBool, Except.toOption]
    · simp [hlimit, Except.isOk, Except.toBool, Except.toOption]

theorem GasometerState.charge_zero : meter.charge 0 = meter := by
  unfold charge recordGas64
  cases meter.totalUsedGas.checkedAdd 0 with
  | none => rfl
  | some cost =>
    by_cases hlimit : meter.gasLimit < cost
    · simp [hlimit, Except.toOption]
    · simp [hlimit, Except.toOption]

/-- What the system call checks costs its fee. -/
theorem VMLogic.prepareCall_ok {self self' : VMLogic} {call : ContractCallv3}
    (h : (prepareCall vm borsh version callAddr callLen).run self = (.ok call, self')) :
    self' = { self with
      runtimeGas := self.runtimeGas.burn VmExecutionFees.createBasicConfig.crossContractCall } := by
  obtain ⟨callData, self₁, hdata, h⟩ := run_bind_ok h
  obtain ⟨decoded, self₂, hdecode, h⟩ := run_bind_ok h
  have hself : self₂ = self := by
    obtain ⟨_, self₃, hstate, hview⟩ := run_bind_ok hdata
    rw [(run_okOr_ok hdecode).2, (run_okOr_ok hview).2]
    cases hstate
    rfl
  rw [hself] at h
  by_cases hreadonly : (vm.readonly && !decoded.readOnly) = true
  · rw [if_pos hreadonly] at h
    cases h
  rw [if_neg hreadonly] at h
  obtain ⟨_, self₄, hburn, h⟩ := run_bind_ok h
  obtain ⟨_, self₅, hupdate, hcheck⟩ := run_bind_ok hburn
  obtain ⟨-, rfl⟩ := checkGas_ok hcheck
  cases hupdate
  obtain ⟨_, _, hstate, h⟩ := run_bind_ok h
  cases hstate
  split at h
  · cases h
  · cases h
    rfl

/-- What the manager answers is what is reported of the contract that it has run. -/
theorem VMContractTrait.callContract_gas {m : ContractInstanceManager} {address : Address} {function arguments : Bytes}
    {gasLimit : Gas} {deposit : Balance} {readonly : Bool} {contractType : ContractType} {made : FunctionCall}
    (h : (resolve db frame address function arguments gasLimit deposit readonly).run m =
      (.ok (contractType, made), manager)) :
    let called := ((callContract db frame (contractEngines vms db) address function arguments gasLimit deposit
      readonly).run m).1
    let report := (Invocation.call contractType made).report vms db manager.updatedState
    (∃ result, called = .ok (result, report.2) ∧ report.1 = true) ∨
      ∃ e, called = .error e ∧ report.1 = false := by
  intro called report
  have hperform : (perform ((contractEngines vms db).run contractType made)).run manager = (.ok _, _) := rfl
  unfold called report Invocation.report
  rw [callContract_eq, run_bind_of_ok h, run_bind_of_ok hperform]
  unfold finishCall
  dsimp only
  split
  · next hsucceed =>
      rw [hsucceed]
      exact .inl ⟨_, rfl, rfl⟩
  all_goals
    next hfailed =>
      rw [hfailed]
      exact .inr ⟨_, rfl, rfl⟩

/-- **An L1XVM contract is charged** with the fee of the call, and with what `Origin.charged` says. -/
theorem VMLogic.callContract_charges {self : VMLogic} (made : FunctionCall) (resultRegisterId : RegisterId)
    (h : self.callInvokes db frame vm borsh version callAddr callLen = some (child, manager)) :
    ((callContract db frame vm borsh (contractEngines vms db) version callAddr callLen
      resultRegisterId).run self).2.runtimeGas =
      (self.runtimeGas.burn VmExecutionFees.createBasicConfig.crossContractCall).burn
        ((Origin.contract (.call .L1XVM made) manager).charged
          (child.report vms db manager.updatedState)) := by
  obtain ⟨call, self₁, contractType, called, rfl, hprepare, hresolve⟩ := callInvokes_some h
  have hgas : self₁.runtimeGas = self.runtimeGas.burn _ := congrArg runtimeGas (prepareCall_ok hprepare)
  rw [callContract_eq, run_bind_of_ok hprepare, ← hgas]
  have hapi : ∀ x : ManagerOp (Bytes × Gas), (onApi x).run self₁ = (.ok (x.run self₁.api).1, _) := fun _ => rfl
  rw [run_bind_of_ok (hapi _)]
  rcases VMContractTrait.callContract_gas hresolve with ⟨result, hresult, hsucceed⟩ | ⟨e, herror, hfailed⟩
  · have hcharged : (Origin.contract (.call .L1XVM made) manager).charged
        ((Invocation.call contractType called).report vms db manager.updatedState) = _ := if_pos hsucceed
    rw [hresult, hcharged]
    rfl
  · have hcharged : (Origin.contract (.call .L1XVM made) manager).charged
        ((Invocation.call contractType called).report vms db manager.updatedState) = 0 :=
      if_neg (by rw [hfailed]; exact Bool.false_ne_true)
    rw [herror, hcharged, RuntimeGas.burn_zero]
    rfl

theorem Handler.executeCall_gasometer (call : UpdatedState → Performed (Capture × Gas))
    (manager : ContractInstanceManager) :
    ((executeCall call).run manager).2.gasometer =
      manager.gasometer.charge (call manager.updatedState).outcome.2 := by
  have hperform : (perform call).run manager = (.ok _, _) := rfl
  rw [executeCall, run_bind_of_ok hperform, chargeGas, run_bind_of_ok (run_update _ _)]
  dsimp only
  split
  · next reason _ _ => cases reason <;> rfl
  · rfl

theorem Handler.runCreate_gasometer (initCode : Bytes) (deployment : Deployment)
    (manager : ContractInstanceManager) :
    ((runCreate (contractEngines vms db) initCode (.inr deployment)).run manager).2.gasometer =
      manager.gasometer.charge ((Invocation.create deployment).report vms db manager.updatedState).2 := by
  have hperform : (perform ((contractEngines vms db).evmDeployment deployment)).run manager = (.ok _, _) := rfl
  unfold Invocation.report runCreate
  dsimp only
  rw [run_bind_of_ok hperform]
  dsimp only
  rcases ((contractEngines vms db).evmDeployment deployment manager.updatedState).outcome with
    e | ⟨address, burntGas⟩
  · exact (GasometerState.charge_zero _).symm
  · rfl

/-- **An EVM contract is charged** with what `Origin.charged` says. -/
theorem HandlerCall.answer_charges {crypto : Crypto} {config : EvmConfig} {precompiles : Precompiles}
    {c : HandlerCall} {self : ContractInstanceManager} (issuer : Invocation)
    (hissuer : ∀ made, issuer ≠ .call .L1XVM made)
    (h : c.invokes db frame config precompiles self = some (child, manager)) :
    ((answer db frame crypto config precompiles (contractEngines vms db) c).run
      self).2.gasometer.usedGas =
      self.gasometer.usedGas +
        (Origin.contract issuer manager).charged (child.report vms db manager.updatedState) := by
  have hcharged : (Origin.contract issuer manager).charged (child.report vms db manager.updatedState) =
      if (manager.gasometer.recordGas64 (child.report vms db manager.updatedState).2).isOk
      then (child.report vms db manager.updatedState).2 else 0 := by
    cases issuer with
    | create deployment => rfl
    | call contractType made =>
      cases contractType with
      | L1XVM => exact absurd rfl (hissuer made)
      | EVM => rfl
      | XTALK => rfl
  rw [hcharged]
  cases c with
  | call address transfer input targetGas isStatic context =>
    obtain ⟨contractType, made, rfl, hresolve⟩ := callInvokes_some h
    have hmeter : manager.gasometer = self.gasometer := resolveCall_sameMeter.of_run hresolve
    show ((Handler.call db frame config precompiles (contractEngines vms db) address transfer input
      targetGas isStatic context).run self).2.gasometer.usedGas = _
    rw [call_eq, run_bind_of_ok hresolve]
    show ((executeCall ((contractEngines vms db).run contractType made)).run manager).2.gasometer.usedGas = _
    rw [executeCall_gasometer, GasometerState.usedGas_charge, hmeter]
    rfl
  | create caller scheme value initCode targetGas =>
    obtain ⟨deployment, rfl, hresolve⟩ := createInvokes_some h
    have hmeter : manager.gasometer = self.gasometer := (resolveCreate_sameMeter _ _).of_run hresolve
    show ((Handler.create db frame (contractEngines vms db) caller scheme value initCode
      targetGas).run self).2.gasometer.usedGas = _
    rw [create_eq, run_bind_of_ok hresolve, runCreate_gasometer, GasometerState.usedGas_charge, hmeter]
  | _ => cases h

end

end L1xCore
