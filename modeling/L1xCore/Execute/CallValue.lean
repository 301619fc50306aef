import L1xCore.Execute.ReadOnlyCalls

/-!
# `Execute.CallValue` — the tokens that go with a call

A contract is called with a deposit, which is moved before it runs. An L1XVM contract can also ask for tokens of
its caller while it runs, with `transfer_from_caller`. Contracts that were made before there were deposits are
told so that they have got their tokens if they ask for just the deposit, and nothing is moved.
-/

namespace L1xCore

open Fallible UpdatedState

/-! ## What `transfer_from_caller` reports -/

namespace VMLogic

variable (db : StateTables) (vm : VMContext) {amountPtr : MemoryAddress} {amountLen : BitVec 64}

/-- The amount that is asked for, by a program that can pay for the call. -/
def askedAmount (amountPtr : MemoryAddress) (amountLen : BitVec 64) : VMOp Balance := do
  let amount ← readBalance amountPtr amountLen
  tryBurnGas VmExecutionFees.createBasicConfig.tokenTransfer
  pure amount

/-- `transfer_from_caller`, with the amount and the tokens that it moves beside its answer. -/
def transferFromCallerMoving (amountPtr : MemoryAddress) (amountLen : BitVec 64) :
    VMOp (BitVec 64 × Nat × Nat) := do
  if RUNTIME_VERSION_DEPOSIT_FEATURE ≤ vm.ebpfObjectVersion.expectedRuntimeVersion then
    fail (HostError.notSupported
      s!"tansfer_from_caller is not supported from runtime version '{RUNTIME_VERSION_DEPOSIT_FEATURE.toNat}', object runtime version: {vm.ebpfObjectVersion.expectedRuntimeVersion.toNat}").toError
  else
    let amount ← askedAmount amountPtr amountLen
    if 0 < vm.deposit then pure (if amount = vm.deposit then 1 else 0, amount.toNat, 0)
    else
      let transferred ← onApi
        (VMContractTrait.transferToken db vm.callerAddress vm.contractInstanceAddress amount)
      pure (succeeded transferred, amount.toNat, if transferred.isOk then amount.toNat else 0)

theorem transferFromCaller_eq :
    transferFromCaller db vm amountPtr amountLen =
      (transferFromCallerMoving db vm amountPtr amountLen >>= fun answer => pure answer.1) := by
  unfold transferFromCaller transferFromCallerMoving askedAmount
  by_cases hversion : RUNTIME_VERSION_DEPOSIT_FEATURE ≤ vm.ebpfObjectVersion.expectedRuntimeVersion
  · rw [if_pos hversion, if_pos hversion]
    rfl
  rw [if_neg hversion, if_neg hversion]
  simp only [bind_bind]
  refine bind_congr fun amount => bind_congr fun _ => ?_
  by_cases hdeposit : 0 < vm.deposit
  · rw [if_pos hdeposit]
    simp only [if_pos hdeposit]
    rfl
  · rw [if_neg hdeposit]
    simp only [if_neg hdeposit]
    rfl

end VMLogic

namespace ExecuteContractL1xvm

open VMLogic

variable {db : StateTables} {vm : VMContext} {c : Syscall} {self : VMLogic} {call : FunctionCall}
  {s : UpdatedState} {vms : VirtualMachines}

/-- What a request has reported as taken from the caller, and what it has moved. -/
def reported (db : StateTables) : VMContext × Syscall × VMLogic → Nat × Nat
  | (vm, .transferFromCaller amountPtr amountLen, self) =>
    match ((transferFromCallerMoving db vm amountPtr amountLen).run self).1 with
    | .ok (answer, amount, moved) => (if answer = 1 then amount else 0, moved)
    | .error _ => (0, 0)
  | _ => (0, 0)

/-- A request for just the deposit. -/
def asksForDeposit : VMContext × Syscall × VMLogic → Bool
  | (vm, .transferFromCaller amountPtr amountLen, self) =>
    vm.ebpfObjectVersion.expectedRuntimeVersion < RUNTIME_VERSION_DEPOSIT_FEATURE &&
      ((askedAmount amountPtr amountLen).run self).1 = .ok vm.deposit
  | _ => false

/-- What is reported in a call, and what is moved. -/
def totals (vms : VirtualMachines) (db : StateTables) (call : FunctionCall) (s : UpdatedState) : Nat × Nat :=
  (((requests vms db call s).map fun request => (reported db request).1).sum,
    ((requests vms db call s).map fun request => (reported db request).2).sum)

/-- **`transfer_from_caller` tells the truth** in a call: what it has reported in sum was moved, with the deposit
    or by itself. -/
def TellsTruth (vms : VirtualMachines) (db : StateTables) (call : FunctionCall) (s : UpdatedState) : Prop :=
  (totals vms db call s).1 ≤ (if call.readonly then 0 else call.deposit.toNat) + (totals vms db call s).2

theorem reported_of_no_deposit (h : vm.deposit = 0) :
    (reported db (vm, c, self)).1 = (reported db (vm, c, self)).2 := by
  cases c with
  | transferFromCaller amountPtr amountLen =>
    dsimp only [reported]
    split
    · next answer amount moved hrun =>
        unfold transferFromCallerMoving at hrun
        split at hrun
        · cases hrun
        · obtain ⟨asked, self₁, -, hrun⟩ := run_bind_ok (run_eq_of_fst hrun)
          rw [h, if_neg (by decide)] at hrun
          obtain ⟨transferred, self₂, -, hrun⟩ := run_bind_ok hrun
          cases hrun
          cases transferred with
          | ok | error => rfl
    · rfl
  | _ => rfl

/-- With a deposit nothing is moved, and the deposit is reported to whoever asks for it. -/
theorem reported_of_deposit (h : 0 < vm.deposit) :
    reported db (vm, c, self) = (if asksForDeposit (vm, c, self) then vm.deposit.toNat else 0, 0) := by
  cases c with
  | transferFromCaller amountPtr amountLen =>
    have hasks : asksForDeposit (vm, .transferFromCaller amountPtr amountLen, self) =
      (decide (vm.ebpfObjectVersion.expectedRuntimeVersion < RUNTIME_VERSION_DEPOSIT_FEATURE) &&
        decide (((askedAmount amountPtr amountLen).run self).1 = .ok vm.deposit)) := rfl
    rw [hasks]
    dsimp only [reported, transferFromCallerMoving]
    by_cases hversion : RUNTIME_VERSION_DEPOSIT_FEATURE ≤ vm.ebpfObjectVersion.expectedRuntimeVersion
    · rw [if_pos hversion, decide_eq_false (BitVec.not_lt.mpr hversion)]
      rfl
    rw [if_neg hversion, decide_eq_true (BitVec.not_le.mp hversion), Bool.true_and, run_bind]
    rcases (askedAmount amountPtr amountLen).run self with ⟨e | amount, self₁⟩
    · simp
    · dsimp only
      rw [if_pos h]
      by_cases hamount : amount = vm.deposit
      · simp [hamount]
      · simp [hamount]
  | _ => rfl

theorem deposit_of_mem_requests (h : (vm, c, self) ∈ requests vms db call s) : vm.deposit = call.deposit := by
  obtain ⟨program, self₀, hstart, -⟩ := mem_requests h
  unfold start at hstart
  split at hstart
  · cases hstart
  split at hstart
  · cases hstart
  split at hstart
  · cases hstart
  split at hstart
  · split at hstart
    · cases hstart
    · cases hstart
      rfl
  · cases hstart

/-- **When the reports are true**: in a call without a deposit, and in one with a deposit if it is asked for at
    most once, and not at all in a read-only call, where it is not moved. -/
theorem tellsTruth_iff (vms : VirtualMachines) (db : StateTables) (call : FunctionCall) (s : UpdatedState) :
    TellsTruth vms db call s ↔
      call.deposit = 0 ∨ (requests vms db call s).countP asksForDeposit ≤ if call.readonly then 0 else 1 := by
  have hvm : ∀ request ∈ requests vms db call s, request.1.deposit = call.deposit :=
    fun _ hmem => deposit_of_mem_requests hmem
  dsimp only [TellsTruth, totals]
  generalize requests vms db call s = asked at hvm
  by_cases hzero : call.deposit = 0
  · have hsame : (asked.map fun request => (reported db request).1) =
        asked.map fun request => (reported db request).2 :=
      List.map_congr_left fun request hmem => reported_of_no_deposit ((hvm request hmem).trans hzero)
    rw [hsame]
    exact iff_of_true (Nat.le_add_left _ _) (.inl hzero)
  have hdeposit : 0 < call.deposit.toNat := Nat.pos_of_ne_zero fun h => hzero (BitVec.eq_of_toNat_eq h)
  have hreported : ∀ request ∈ asked, reported db request =
      (if asksForDeposit request then call.deposit.toNat else 0, 0) := by
    intro request hmem
    rw [← hvm request hmem]
    refine reported_of_deposit ?_
    rw [hvm request hmem]
    exact hdeposit
  have hclaimed : (asked.map fun request => (reported db request).1).sum =
      asked.countP asksForDeposit * call.deposit.toNat := by
    clear hvm
    induction asked with
    | nil => rw [List.map_nil, List.sum_nil, List.countP_nil, zero_mul]
    | cons request asked ih =>
      have hrest := ih fun request hmem => hreported request (List.mem_cons_of_mem _ hmem)
      rw [List.map_cons, List.sum_cons, hrest, hreported request List.mem_cons_self, List.countP_cons,
        add_mul, add_comm]
      cases asksForDeposit request <;> simp
  have hmoved : (asked.map fun request => (reported db request).2).sum = 0 :=
    List.sum_eq_zero fun n hn => by
      obtain ⟨request, hmem, rfl⟩ := List.mem_map.mp hn
      rw [hreported request hmem]
  rw [hclaimed, hmoved, add_zero, or_iff_right hzero]
  cases call.readonly with
  | true => simp [Nat.pos_iff_ne_zero.mp hdeposit]
  | false =>
    have hone : asked.countP asksForDeposit * call.deposit.toNat ≤ 1 * call.deposit.toNat ↔ _ :=
      Nat.mul_le_mul_right_iff hdeposit
    rwa [one_mul] at hone

/-- A contract that asks twice for the 40 tokens that it was called with. -/
def askingMachines : VirtualMachines :=
  { Small.virtualMachines with
    ebpf :=
      { Small.virtualMachines.ebpf with
        link := fun _ _ => .ok (Small.memory, .ask (.transferFromCaller 20 16) fun _ =>
          .ask (.transferFromCaller 20 16) fun _ => .done (.ok 0)) } }

/-- The account 0x77 has a hundred tokens. -/
def askingTables : StateTables :=
  { Small.contractTables with account := (∅ : Table Address AccountRow).insert 0x77 ⟨.user, 100, 0⟩ }

/-- Eighty tokens are reported, and the forty of the deposit are all that was moved. -/
theorem deposit_reported_twice :
    let call := { Small.readOnlyCall 11 .L1XVM with deposit := 40, readonly := false }
    totals askingMachines askingTables call .new = (80, 0) ∧ ¬ TellsTruth askingMachines askingTables call .new := by
  intro call
  have htotals : totals askingMachines askingTables call .new = (80, 0) := by decide +kernel
  refine ⟨htotals, fun htruth => ?_⟩
  unfold TellsTruth at htruth
  rw [htotals] at htruth
  exact absurd htruth (by decide)

end ExecuteContractL1xvm

end L1xCore
