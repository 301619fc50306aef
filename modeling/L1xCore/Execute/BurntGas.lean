import L1xCore.Execute.ContractExecutor
import L1xCore.Execute.GasReports
import L1xCore.Lib.Tally

/-!
# `Execute.BurntGas` — whether the gas that an execution burns is paid for

What a contract and the contracts below it burn is what its meter shows, and of each contract it has called what
that and the ones below it burn, without what its own meter was charged with for it (`burntGas`, a tally over the
contracts of the execution). A transaction pays for what is reported of the contract it runs, so it pays for all
gas if and only if every meter of the execution is passed on in full (`burntGas_le_iff`).

This fails where a contract fails. An L1XVM contract that fails is reported with zero gas, an EVM contract that is
called by an L1XVM contract and fails is not charged to it, and a creation or an initialization that fails is not
charged to the transaction. It also fails where the meter of an EVM contract refuses a charge.
-/

namespace L1xCore

open Fallible FeeManager

/-! ## The gas of an execution -/

section

variable (vms : VirtualMachines) (db : StateTables)

/-- The calls of a contract, each with what the meter of the contract was charged with. -/
def chargedCalls (x : Invocation × UpdatedState) : List ((Invocation × UpdatedState) × Nat) :=
  (x.1.calls vms db x.2).map fun (child, manager) =>
    ((child, manager.updatedState),
      ((Origin.contract x.1 manager).charged (child.report vms db manager.updatedState)).toNat)

/-- What a contract and the contracts below it burn. -/
def burntGas (invocation : Invocation) (s : UpdatedState) : Nat :=
  tally (fun x => (x.1.meter vms db x.2).toNat) (chargedCalls vms db)
    (fun x => MAX_CROSS_CONTRACT_CALL_DEPTH + 1 - x.1.depth) (invocation, s)

end

/-- The origin of a call takes the gas that is reported: a transaction always, an L1XVM contract if the call has
    succeeded, an EVM contract if its meter does not exceed its limit with it. -/
def Origin.Takes (origin : Origin) (succeeded : Bool) (gas : Gas) : Prop :=
  match origin with
  | transaction => True
  | contract (.call .L1XVM _) _ => succeeded = true
  | contract _ manager => (manager.gasometer.recordGas64 gas).isOk = true

/-- A contract that has burnt gas has succeeded, or is an EVM contract that was called, and its origin takes the
    gas. -/
def Settled (vms : VirtualMachines) (db : StateTables) (origin : Origin) (invocation : Invocation)
    (s : UpdatedState) : Prop :=
  invocation.meter vms db s = 0 ∨
    ((invocation.report vms db s).1 = true ∨ invocation.reportsFailure vms db s = true) ∧
      origin.Takes (invocation.report vms db s).1 (invocation.meter vms db s)

section

variable {vms : VirtualMachines} {db : StateTables} (origin : Origin) (invocation : Invocation)
  (root : Invocation) (s₀ : UpdatedState) (s : UpdatedState)

theorem Origin.charged_cases (report : Bool × Gas) :
    origin.Takes report.1 report.2 ∧ origin.charged report = report.2 ∨
      ¬ origin.Takes report.1 report.2 ∧ origin.charged report = 0 := by
  cases origin with
  | transaction => exact .inl ⟨trivial, rfl⟩
  | contract issuer manager =>
    have hevm : (manager.gasometer.recordGas64 report.2).isOk = true ∧
          (if (manager.gasometer.recordGas64 report.2).isOk then report.2 else 0) = report.2 ∨
        ¬ (manager.gasometer.recordGas64 report.2).isOk = true ∧
          (if (manager.gasometer.recordGas64 report.2).isOk then report.2 else 0) = 0 := by
      by_cases hok : (manager.gasometer.recordGas64 report.2).isOk = true
      · exact .inl ⟨hok, if_pos hok⟩
      · exact .inr ⟨hok, if_neg hok⟩
    cases issuer with
    | create deployment => exact hevm
    | call contractType made =>
      cases contractType with
      | EVM => exact hevm
      | XTALK => exact hevm
      | L1XVM =>
        by_cases hsucceeded : report.1 = true
        · exact .inl ⟨hsucceeded, if_pos hsucceeded⟩
        · exact .inr ⟨hsucceeded, if_neg hsucceeded⟩

theorem Origin.charged_le_meter :
    (origin.charged (invocation.report vms db s)).toNat ≤ (invocation.meter vms db s).toNat := by
  have hreport : (invocation.report vms db s).2.toNat ≤ (invocation.meter vms db s).toNat := by
    rcases invocation.report_cases s with ⟨hgas, -⟩ | ⟨hgas, -⟩
    · rw [hgas]
    · rw [hgas]
      exact Nat.zero_le _
  rcases origin.charged_cases (invocation.report vms db s) with ⟨-, hcharged⟩ | ⟨-, hcharged⟩
  · rw [hcharged]
    exact hreport
  · rw [hcharged]
    exact Nat.zero_le _

/-- **A meter is passed on in full** if and only if the contract is settled. -/
theorem meter_le_charged_iff :
    (invocation.meter vms db s).toNat ≤ (origin.charged (invocation.report vms db s)).toNat ↔
      Settled vms db origin invocation s := by
  by_cases hzero : invocation.meter vms db s = 0
  · rw [hzero]
    exact ⟨fun _ => .inl hzero, fun _ => Nat.zero_le _⟩
  have hpos : ¬ (invocation.meter vms db s).toNat ≤ (0 : Gas).toNat := by
    intro hle
    exact hzero (BitVec.eq_of_toNat_eq (Nat.le_zero.mp hle))
  unfold Settled
  rcases invocation.report_cases s with ⟨hgas, hreported⟩ | ⟨hgas, hfailed, hsilent⟩
  · rcases origin.charged_cases (invocation.report vms db s) with ⟨htakes, hcharged⟩ | ⟨htakes, hcharged⟩
    · rw [hgas] at htakes hcharged
      rw [hcharged]
      exact ⟨fun _ => .inr ⟨hreported, htakes⟩, fun _ => le_refl _⟩
    · rw [hgas] at htakes
      rw [hcharged]
      exact ⟨fun hle => absurd hle hpos, fun hsettled => absurd (hsettled.resolve_left hzero).2 htakes⟩
  · have hcharged : origin.charged (invocation.report vms db s) = 0 := by
      rcases origin.charged_cases (invocation.report vms db s) with ⟨-, hcharged⟩ | ⟨-, hcharged⟩
      · rw [hcharged, hgas]
      · exact hcharged
    rw [hcharged, hfailed, hsilent]
    refine ⟨fun hle => absurd hle hpos, fun hsettled => ?_⟩
    rcases (hsettled.resolve_left hzero).1 with h | h
    · cases h
    · cases h

theorem reached_iff_started {root : Invocation} {s₀ : UpdatedState} {x : Invocation × UpdatedState} {p : Nat} :
    Reached (chargedCalls vms db) (root, s₀) (root.report vms db s₀).2.toNat x p ↔
      ∃ origin, Started vms db root s₀ origin x.1 x.2 ∧
        p = (origin.charged (x.1.report vms db x.2)).toNat := by
  constructor
  · intro h
    induction h with
    | root => exact ⟨.transaction, .root, rfl⟩
    | call _ hcall ih =>
      obtain ⟨origin, hstarted, -⟩ := ih
      obtain ⟨⟨child, manager⟩, hmem, heq⟩ := List.mem_map.mp hcall
      cases heq
      exact ⟨.contract _ manager, .nested hstarted hmem, rfl⟩
  · rintro ⟨origin, hstarted, rfl⟩
    rcases x with ⟨invocation, s⟩
    dsimp only at hstarted ⊢
    induction hstarted with
    | root => exact .root
    | nested _ hcall ih => exact .call ih (List.mem_map.mpr ⟨_, hcall, rfl⟩)

theorem chargedCalls_rank (x y : Invocation × UpdatedState) (q : Nat)
    (hcall : (y, q) ∈ chargedCalls vms db x) :
    MAX_CROSS_CONTRACT_CALL_DEPTH + 1 - y.1.depth < MAX_CROSS_CONTRACT_CALL_DEPTH + 1 - x.1.depth := by
  obtain ⟨⟨child, manager⟩, hmem, heq⟩ := List.mem_map.mp hcall
  cases heq
  obtain ⟨hdepth, hchild⟩ := Invocation.depth_of_mem_calls hmem
  dsimp only
  omega

theorem report_le_burntGas : (root.report vms db s₀).2.toNat ≤ burntGas vms db root s₀ := by
  have hmeter : (root.meter vms db s₀).toNat ≤ burntGas vms db root s₀ := by
    unfold burntGas
    rw [tally_eq chargedCalls_rank]
    exact Nat.le_add_right _ _
  exact (Origin.charged_le_meter .transaction root s₀).trans hmeter

/-- **All gas is reported** if and only if every contract of the execution is settled. -/
theorem burntGas_le_iff :
    burntGas vms db root s₀ ≤ (root.report vms db s₀).2.toNat ↔
      ∀ origin invocation s, Started vms db root s₀ origin invocation s →
        Settled vms db origin invocation s := by
  refine trans (tally_le_iff chargedCalls_rank ?_ ?_) ?_
  · rintro x y q hcall
    obtain ⟨⟨child, manager⟩, hmem, heq⟩ := List.mem_map.mp hcall
    cases heq
    exact Origin.charged_le_meter _ _ _
  · exact Origin.charged_le_meter .transaction root s₀
  · constructor
    · intro h origin invocation s hstarted
      rw [← meter_le_charged_iff]
      exact h (invocation, s) _ (reached_iff_started.mpr ⟨origin, hstarted, rfl⟩)
    · intro h x p hx
      obtain ⟨origin, hstarted, rfl⟩ := reached_iff_started.mp hx
      exact (meter_le_charged_iff origin x.1 x.2).mpr (h origin x.1 x.2 hstarted)

end

/-! ## What a transaction is charged with -/

/-- The gas that the executor reports, if it reports any. -/
def ContractRequest.reportedGas (vms : VirtualMachines) (db : StateTables) (request : ContractRequest)
    (s : UpdatedState) : Option Gas :=
  match request with
  | .deployment contractType cx accessType contractCode _ deposit =>
    match (vms.executeContractDeployment db contractType cx accessType contractCode deposit s).outcome with
    | .ok (_, burntGas) => some burntGas
    | .error _ => none
  | .init contractType cx contract arguments deposit =>
    match (vms.executeContractInit db contractType cx contract arguments deposit s).outcome with
    | .ok (_, burntGas) => some burntGas
    | .error _ => none
  | .functionCall contractType cx contract contractInstance function arguments deposit =>
    some (vms.executeContractFunctionCall db contractType cx contract contractInstance function arguments
      deposit s).outcome.2

section

variable {vms : VirtualMachines} {cx : TransactionContext}

open ExecutionOp TransactionContext

section

variable (hreports : cx.executor.Reports vms) (request : ContractRequest)

include hreports

theorem ContractExecutor.Reports.gas_answer (s : UpdatedState) :
    (cx.executor.answer cx.db s request).gas = request.reportedGas vms cx.db s := by
  unfold answer ContractRequest.reportedGas
  cases request with
  | deployment contractType call accessType contractCode salt deposit =>
    dsimp only
    rw [hreports.deployment]
    rcases (vms.executeContractDeployment ..).outcome with error | made
    · rfl
    · rfl
  | init contractType call contract arguments deposit =>
    dsimp only
    rw [hreports.init]
    rcases (vms.executeContractInit ..).outcome with error | made
    · rfl
    · rfl
  | functionCall contractType call contract contractInstance function arguments deposit =>
    dsimp only
    rw [hreports.functionCall]
    rfl

/-- **What is charged after the executor was asked** is the gas it reports. -/
theorem TransactionContext.finishRequest_feeManager (e : Execution) :
    ((cx.finishRequest request).run e).2.feeManager =
      (request.reportedGas vms cx.db e.updatedState).elim e.feeManager fun burntGas =>
        ((updateGasAndFeeUsed burntGas).run e.feeManager).2 := by
  obtain ⟨executed, text, -, hrun⟩ := cx.run_finishRequest request e
  rw [hrun, hreports.gas_answer]
  cases request.reportedGas vms cx.db e.updatedState with
  | none => rfl
  | some burntGas =>
    dsimp only [Option.elim]
    rw [run_bind, onFees, run_zoom]
    rcases (updateGasAndFeeUsed burntGas).run e.feeManager with ⟨_ | _, manager⟩
    · rfl
    · rfl

end

theorem initOutcome_gas (contractInstance : ContractInstance) (outcome : Capture × Gas)
    (h : outcome.1.isSucceed = false → outcome.2 = 0) :
    (match initOutcome contractInstance outcome with
      | .ok (_, burntGas) => some burntGas
      | .error _ => none).getD 0 = outcome.2 := by
  rcases outcome with ⟨capture, burntGas⟩
  cases capture with
  | trap => exact (h rfl).symm
  | exit reason result =>
    cases reason with
    | succeed => rfl
    | error e => exact (h rfl).symm
    | revert e => exact (h rfl).symm
    | fatal e => exact (h rfl).symm

/-- What is reported to a transaction is what is reported of the contract it runs. -/
theorem ContractRequest.reportedGas_getD (db : StateTables) (request : ContractRequest) (s : UpdatedState) :
    (request.reportedGas vms db s).getD 0 =
      (request.root vms db s).elim 0 fun root => (root.1.report vms db root.2).2 := by
  cases request with
  | functionCall contractType call contract contractInstance function arguments deposit => rfl
  | deployment contractType call accessType contractCode salt deposit =>
    cases contractType with
    | XTALK => rfl
    | EVM =>
      unfold reportedGas root VirtualMachines.executeContractDeployment
      dsimp only [Option.elim, Invocation.report]
      rcases ((contractEngines vms db).evmDeployment (call.deployment accessType contractCode deposit)
        s).outcome with error | ⟨address, burntGas⟩
      · rfl
      · rfl
    | L1XVM =>
      -- the code is stored, which burns nothing
      unfold reportedGas root VirtualMachines.executeContractDeployment
      dsimp only [Option.elim]
      rcases hdeploy : (ExecuteContractL1xvm.executeContractDeployment vms.crypto db call accessType
        contractCode).run s with ⟨error | ⟨address, burntGas⟩, s'⟩
      · rfl
      · obtain ⟨_, _, -, hdeploy⟩ := run_bind_ok hdeploy
        cases hdeploy
        rfl
  | init contractType call contract arguments deposit =>
    cases contractType with
    | XTALK => rfl
    | EVM => rfl
    | L1XVM =>
      unfold reportedGas root VirtualMachines.executeContractInit ExecuteContractL1xvm.executeContractInit
      dsimp only
      rcases (ExecuteContractL1xvm.createInstance vms.crypto db call contract).run s with ⟨error | _, s₁⟩
      · rfl
      · -- a call that has failed is reported with zero gas
        apply initOutcome_gas
        intro hfailed
        rcases Invocation.report_cases (.call .L1XVM (call.initCall vms.crypto contract arguments
          deposit)) s₁ with ⟨-, hsucceeded | hreported⟩ | ⟨hgas, -⟩
        · cases hfailed.symm.trans hsucceeded
        · cases hreported
        · exact hgas

/-- **What a transaction reports** once it has asked an executor: the gas that is reported of the contract it has
    run, and the fixed fees with the price of that gas, within the limit. -/
theorem executeTransaction_report (hreports : cx.executor.Reports vms) {tx : Transaction} {s : UpdatedState}
    {request : ContractRequest} {e : Execution} (hrequest : cx.requestOf tx s = some (request, e)) :
    (reportOf (executeTransaction cx tx s).1).gasBurnt =
      (request.reportedGas vms cx.db e.updatedState).getD 0 ∧
    (reportOf (executeTransaction cx tx s).1).fee.toNat =
      min tx.feeLimit.toNat (fixedFees tx request.contractType +
        (sellGas ((request.reportedGas vms cx.db e.updatedState).getD 0)).toNat) := by
  obtain ⟨-, hcharged⟩ := requestOf_prepared hrequest
  have hleft : e.feeManager.leftLimit.toNat + fixedFees tx request.contractType = tx.feeLimit.toNat :=
    hcharged.leftLimit
  have hlimit : e.feeManager.feeLimit = tx.feeLimit := hcharged.feeLimit
  have hgas : e.feeManager.gasUsed = 0 := hcharged.gasUsed
  -- what is left of the fee manager
  have hmanager : ((cx.finishRequest request).run e).2.feeManager.feeLimit = tx.feeLimit ∧
      ((cx.finishRequest request).run e).2.feeManager.gasUsed =
        (request.reportedGas vms cx.db e.updatedState).getD 0 ∧
      ((cx.finishRequest request).run e).2.feeManager.leftLimit.toNat = e.feeManager.leftLimit.toNat -
        (sellGas ((request.reportedGas vms cx.db e.updatedState).getD 0)).toNat := by
    rw [finishRequest_feeManager hreports]
    cases request.reportedGas vms cx.db e.updatedState with
    | none => exact ⟨hlimit, hgas, rfl⟩
    | some burntGas =>
      obtain ⟨hlimit', hgas', hleft'⟩ := e.feeManager.updateGasAndFeeUsed_spec burntGas
      refine ⟨hlimit'.trans hlimit, hgas'.trans ?_, hleft'⟩
      unfold addGas
      rw [hgas]
      have hadd : (0 : Gas).checkedAdd burntGas = some burntGas := by
        rw [BitVec.checkedAdd_eq_some]
        simp
      rw [hadd]
      rfl
  obtain ⟨hlimit', hgas', hleft'⟩ := hmanager
  have hreport : (reportOf (executeTransaction cx tx s).1).gasBurnt =
        ((cx.finishRequest request).run e).2.feeManager.gasUsed ∧
      (reportOf (executeTransaction cx tx s).1).fee =
        ((cx.finishRequest request).run e).2.feeManager.getFeeUsed := by
    unfold executeTransaction
    rw [run_executeBody_of_requestOf hrequest]
    rcases (cx.finishRequest request).run e with ⟨error | ⟨error | ⟨⟩, event⟩, e'⟩
    · exact ⟨rfl, rfl⟩
    · exact ⟨rfl, rfl⟩
    · exact ⟨rfl, rfl⟩
  refine ⟨hreport.1.trans hgas', ?_⟩
  rw [hreport.2, toNat_getFeeUsed, hlimit', hleft']
  omega

end

/-- The gas that is burnt for a request. -/
def ContractRequest.burntGas (vms : VirtualMachines) (db : StateTables) (request : ContractRequest)
    (s : UpdatedState) : Nat :=
  (request.root vms db s).elim 0 fun root => L1xCore.burntGas vms db root.1 root.2

/-- **When burnt gas is paid.** Let a transaction come to ask an executor, for a deployment, an initialization or a
    function call. What it reports accounts for all gas that is burnt, by the contract it runs and by those below:
    the gas it reports is at least that, and the fee is at least the fixed fees with the price of that gas, or the
    limit. This is so if and only if every contract of the execution is settled: if it has burnt gas, it has
    succeeded, or is an EVM contract that was called by the transaction or by an EVM contract, and if it was called
    or created by an EVM contract, then the meter of that contract was not exceeded. -/
theorem burntGas_paid_iff (vms : VirtualMachines) (cx : TransactionContext)
    (hreports : cx.executor.Reports vms) (tx : Transaction) (s : UpdatedState) (request : ContractRequest)
    (e : Execution) (hrequest : cx.requestOf tx s = some (request, e)) :
    let burnt := request.burntGas vms cx.db e.updatedState
    let report := reportOf (executeTransaction cx tx s).1
    (burnt ≤ report.gasBurnt.toNat ∧
      min tx.feeLimit.toNat (fixedFees tx request.contractType + (sellGas (BitVec.ofNat 64 burnt)).toNat) ≤
        report.fee.toNat) ↔
    ∀ root s₀, request.root vms cx.db e.updatedState = some (root, s₀) →
      ∀ origin invocation s', Started vms cx.db root s₀ origin invocation s' →
        Settled vms cx.db origin invocation s' := by
  intro burnt report
  obtain ⟨hgas, hfee⟩ := executeTransaction_report hreports hrequest
  rw [ContractRequest.reportedGas_getD] at hgas hfee
  have hburnt : burnt = (request.root vms cx.db e.updatedState).elim 0 fun root =>
    burntGas vms cx.db root.1 root.2 := rfl
  rw [hgas, hfee, hburnt]
  cases request.root vms cx.db e.updatedState with
  | none =>
    -- no contract is run
    refine ⟨fun _ root s₀ hroot => ?_, fun _ => ⟨le_refl _, le_refl _⟩⟩
    cases hroot
  | some run =>
    obtain ⟨root, s₀⟩ := run
    dsimp only [Option.elim]
    constructor
    · rintro ⟨hle, -⟩ root' s₀' heq
      cases heq
      exact (burntGas_le_iff root s₀).mp hle
    · intro hsettled
      have hle := (burntGas_le_iff root s₀).mpr (hsettled root s₀ rfl)
      -- all that is burnt is reported, so the fee is the price of just that
      have heq := le_antisymm hle (report_le_burntGas root s₀)
      rw [heq, BitVec.ofNat_toNat, BitVec.setWidth_eq]
      exact ⟨le_refl _, le_refl _⟩

namespace Small

/-- The end of a program that succeeds, and of one that is stopped. -/
def finishing : EbpfProgram := .done (.ok 0)

def trapping : EbpfProgram := .done (.error "trap")

/-- The L1XVM contract with the code 11 burns 50 gas and then goes on with `rest`; the EVM contract with the code
    14 calls it. -/
def burningMachines (rest : EbpfProgram) : VirtualMachines :=
  { virtualMachines with
    ebpf :=
      { virtualMachines.ebpf with
        link := fun _ _ => .ok (memory, .ask (.compute 50 fun memory => .ok (0, memory)) fun _ => rest) }
    evm :=
      { program := fun _ _ own =>
          .ask (CallScheme.call.handlerCall own (instanceOf 11).instanceAddress 0 [] (some 1000)) fun _ =>
            .done evmExit
        precompiles := fun _ _ _ => (.ok (), []) } }

/-- A transaction of the account 0x77 with these contracts. -/
def burningContext (rest : EbpfProgram) : TransactionContext := senderContext (burningMachines rest).executor

end Small

open L1xCore.Small

/-- The EVM contract calls the L1XVM contract, which succeeds: all 21050 gas is paid, and every contract is
    settled. -/
theorem burntGas_paid_of_success :
    ∃ request e, (burningContext finishing).requestOf (callTransaction 14) .new = some (request, e) ∧
      request.burntGas (burningMachines finishing) (burningContext finishing).db e.updatedState = 21050 ∧
      ∀ root s₀, request.root (burningMachines finishing) (burningContext finishing).db e.updatedState =
          some (root, s₀) →
        ∀ origin invocation s', Started (burningMachines finishing) (burningContext finishing).db root s₀ origin
            invocation s' →
          Settled (burningMachines finishing) (burningContext finishing).db origin invocation s' := by
  have hasked : (((burningContext finishing).requestOf (callTransaction 14) .new).any fun asked =>
      asked.1.burntGas (burningMachines finishing) (burningContext finishing).db asked.2.updatedState = 21050 &&
        fixedFees (callTransaction 14) asked.1.contractType = 2) = true := by decide +kernel
  have hgas : (reportOf (executeTransaction (burningContext finishing) (callTransaction 14) .new).1).gasBurnt =
      21050 := by decide +kernel
  have hfee : (reportOf (executeTransaction (burningContext finishing) (callTransaction 14) .new).1).fee = 6 := by
    decide +kernel
  obtain ⟨⟨request, e⟩, hrequest, hburnt⟩ := (Option.any_eq_true _ _).mp hasked
  simp only [Bool.and_eq_true, decide_eq_true_eq] at hburnt
  obtain ⟨hburnt, hfixed⟩ := hburnt
  refine ⟨request, e, hrequest, hburnt, ?_⟩
  apply (burntGas_paid_iff (burningMachines finishing) (burningContext finishing)
    (burningMachines finishing).executor_reports (callTransaction 14) .new request e hrequest).mp
  rw [hgas, hfee, hburnt, hfixed]
  decide

/-- **Gas that is not paid.** The L1XVM contract burns 50 gas and then fails. The transaction reports no gas, and a
    fee of 2 tokens, where the fixed fees with the price of the gas are 3. -/
theorem burntGas_unpaid :
    ∃ request e, (burningContext trapping).requestOf (callTransaction 11) .new = some (request, e) ∧
      request.burntGas (burningMachines trapping) (burningContext trapping).db e.updatedState = 50 ∧
      fixedFees (callTransaction 11) request.contractType + (sellGas 50).toNat = 3 ∧
      (reportOf (executeTransaction (burningContext trapping) (callTransaction 11) .new).1).gasBurnt = 0 ∧
      (reportOf (executeTransaction (burningContext trapping) (callTransaction 11) .new).1).fee = 2 := by
  have hasked : (((burningContext trapping).requestOf (callTransaction 11) .new).any fun asked =>
      asked.1.burntGas (burningMachines trapping) (burningContext trapping).db asked.2.updatedState = 50 &&
        fixedFees (callTransaction 11) asked.1.contractType + (sellGas 50).toNat = 3) = true := by
    decide +kernel
  obtain ⟨⟨request, e⟩, hrequest, hburnt⟩ := (Option.any_eq_true _ _).mp hasked
  simp only [Bool.and_eq_true, decide_eq_true_eq] at hburnt
  exact ⟨request, e, hrequest, hburnt.1, hburnt.2, by decide +kernel, by decide +kernel⟩

end L1xCore
