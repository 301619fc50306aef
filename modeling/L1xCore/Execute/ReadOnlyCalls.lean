import L1xCore.Execute.ReadOnlyHosts
import L1xCore.System.Block

/-!
# `Execute.ReadOnlyCalls` — what a read-only call leaves behind

A read-only frame of either engine, started in any state, leaves its caller's overlay as it was but for
what it has remembered of the database, if all requests in the frame and in the frames below respect
read-only frames (`Execute.ReadOnlyHosts`). The proof follows the code: the program by induction on its
requests (`Interaction.run_moves`), the calls by induction on how deep they nest.

The two kinds of requests that do not respect a read-only frame do change the state, as the runs at the
end show: an L1XVM contract pays out tokens while it is only looked at, and an EVM contract that is called
with `STATICCALL` has its storage written by a library it delegates to.
-/

namespace L1xCore

open Fallible UpdatedState ContractInstanceManager

variable {call : FunctionCall} {r : RuntimeCall}

/-! ## Frames -/

section

variable {vms : VirtualMachines} {db : StateTables} {engines : Engines}

theorem ExecuteContractEvm.answer_readsOnly (h : engines.KeepReadOnly db) {frame : Frame}
    (hreadonly : frame.readonly = true) (c : HandlerCall) :
    Moves (ReadsOnly db) (answer vms db engines frame c) := by
  have hrespects : (HostCall.evm frame c).respectsReadOnly = c.keepsStatic := by
    show (!frame.readonly || c.keepsStatic) = c.keepsStatic
    rw [hreadonly, Bool.not_true, Bool.false_or]
  show Moves (fun m m' => ReadsOnly db (id m) (id m')) (answer vms db engines frame c)
  refine recorded_readsOnly (fun _ => rfl) (fun hc => ?_) (fun hc => ?_)
  · exact Handler.answer_readsOnly h hreadonly _ _ _ (hrespects ▸ hc)
  · rw [hrespects] at hc
    cases c with
    | call address transfer input targetGas isStatic context =>
      exact Handler.call_logs address
    | _ => cases hc

theorem FunctionCall.run_transferDeposit (hreadonly : call.readonly = true) (s : UpdatedState) :
    (call.transferDeposit db).run s = (.ok (), s) := by
  unfold transferDeposit
  rw [hreadonly]
  rfl

theorem merge_keepsState {s : UpdatedState} {m : ContractInstanceManager} {gasLimit : Gas}
    (h : ReadsOnly db (.new gasLimit s) m) (hlog : AllRespect m.log) :
    Remembers db s (s.merge m.updatedState) := by
  have hclone : Remembers db s m.updatedState := h.remembers hlog
  exact trans_of (Remembers db) hclone (remembers_merge hclone.evolves)

section

variable (h : engines.KeepReadOnly db)

include h

theorem ExecuteContractL1xvm.executeProgram_readsOnly (call : FunctionCall) {vm : VMContext}
    (hreadonly : vm.readonly = true) (memory : Memory)
    (program : EbpfProgram) :
    Moves (ReadsOnly db) (executeProgram vms db engines call vm memory program) := by
  intro m
  have hprogram : Moves (VMLogic.OnApi (ReadsOnly db)) (do
      VMLogic.checkGas
      program.run (VMLogic.answer db call.frame vm vms.ebpf.borsh engines)) :=
    VMLogic.checkGas_moves.bind fun _ =>
      program.run_moves (VMLogic.answer_readsOnly h hreadonly vms.ebpf.borsh)
  have hran := hprogram ⟨∅, memory, [], .new call.gasLimit, m⟩
  show ReadsOnly db m
    (executeProgram vms db engines call vm memory program m).2
  unfold executeProgram
  dsimp only
  -- however the program ended, the manager is the one it has left
  split
  · next hrun => rw [hrun] at hran; exact hran
  · next hrun => rw [hrun] at hran; exact hran
  · next hrun => rw [hrun] at hran; exact hran

theorem ExecuteContractL1xvm.run_readsOnly (hreadonly : call.readonly = true) :
    Moves (ReadsOnly db) (run vms db engines call) :=
  (Moves.lift _).bind fun _ => (Moves.lift _).bind fun _ => (Moves.lift _).bind fun _ =>
    executeProgram_readsOnly h call hreadonly _ _

/-- **A read-only frame of an L1XVM contract.** -/
theorem ExecuteContractL1xvm.executeContractFunctionCall_keepsState (hreadonly : call.readonly = true) :
    KeepsState db (executeContractFunctionCall vms db engines call) := by
  intro s hlog
  unfold executeContractFunctionCall at hlog ⊢
  by_cases hmax : MAX_CROSS_CONTRACT_CALL_DEPTH < call.currentCallDepth
  · rw [if_pos hmax]
    exact refl_of (Remembers db) s
  · rw [if_neg hmax, FunctionCall.run_transferDeposit hreadonly] at hlog ⊢
    dsimp only at hlog ⊢
    rcases hrun : (run vms db engines call).run (.new call.gasLimit s)
      with ⟨e | ⟨result, burntGas⟩, m⟩
    · exact refl_of (Remembers db) s
    · have hevent : (createResultEvent call result).run
          (s.merge m.updatedState) = (.ok (), s.merge m.updatedState) := by
        unfold createResultEvent
        rw [hreadonly]
        rfl
      rw [hrun] at hlog
      dsimp only at hlog ⊢
      rw [hevent] at hlog ⊢
      exact merge_keepsState ((run_readsOnly h hreadonly).of_run hrun) hlog

end

theorem ExecuteContractEvm.conclude_readonly (hreadonly : r.isReadOnly = true) (exitReason : ExitReason)
    (returnData : Bytes) : conclude r exitReason returnData = pure () := by
  unfold conclude
  rw [hreadonly]
  cases r.runtimeKind with
  | create | call => rfl

/-- **A read-only frame of an EVM contract.** -/
theorem ExecuteContractEvm.executeEvmRuntime_keepsState (h : engines.KeepReadOnly db)
    (hreadonly : r.isReadOnly = true) : KeepsState db (executeEvmRuntime vms db engines r) := by
  intro s hlog
  unfold executeEvmRuntime at hlog ⊢
  by_cases hmax : MAX_CROSS_CONTRACT_CALL_DEPTH < r.currentCallDepth
  · rw [if_pos hmax]
    exact refl_of (Remembers db) s
  · rw [if_neg hmax] at hlog ⊢
    dsimp only at hlog ⊢
    have hprogram : Moves (ReadsOnly db)
        ((vms.evm.program r.contractCode r.arguments r.context).run (answer vms db engines r.frame)) :=
      Interaction.run_moves (answer_readsOnly h hreadonly) _
    rcases hrun : ((vms.evm.program r.contractCode r.arguments r.context).run
      (answer vms db engines r.frame)).run (.new r.gasLimit s)
      with ⟨e | exit, m⟩
    · exact refl_of (Remembers db) s
    · rw [hrun] at hlog
      dsimp only at hlog ⊢
      rw [conclude_readonly hreadonly] at hlog ⊢
      dsimp only [run_pure] at hlog ⊢
      have hmerged := merge_keepsState (hprogram.of_run hrun) hlog
      -- the clone is merged, or dropped
      split
      · exact hmerged
      · exact refl_of (Remembers db) s
      · exact refl_of (Remembers db) s

theorem ExecuteContractEvm.executeContractFunctionCall_keepsState (h : engines.KeepReadOnly db)
    (hreadonly : call.readonly = true) : KeepsState db (executeContractFunctionCall vms db engines call) := by
  intro s hlog
  unfold executeContractFunctionCall at hlog ⊢
  rw [FunctionCall.run_transferDeposit hreadonly] at hlog ⊢
  exact executeEvmRuntime_keepsState h hreadonly s hlog

/-- **Frames of any depth**, by induction on how deep calls can nest. -/
theorem enginesUpTo_keepReadOnly {n : Nat} : (enginesUpTo vms db n).KeepReadOnly db := by
  induction n with
  | zero =>
    exact ⟨fun _ _ s _ => refl_of (Remembers db) s, fun _ _ s _ => refl_of (Remembers db) s⟩
  | succ n ih =>
    exact ⟨fun _ => ExecuteContractL1xvm.executeContractFunctionCall_keepsState ih,
      fun _ => ExecuteContractEvm.executeContractFunctionCall_keepsState ih⟩

end

instance (log : List HostCall) : Decidable (AllRespect log) :=
  inferInstanceAs (Decidable (∀ c ∈ log, c.respectsReadOnly = true))

/-! ## L1XVM calls -/

/-- **Read-only calls of L1XVM contracts.** For any contracts and any state, a call that is started
    read-only, by an RPC, by a transaction's contract or from a read-only frame, leaves every record that
    can be read from its caller's overlay as it was, if all requests of the frame and of the frames below
    respect read-only frames: no read-only L1XVM frame transfers tokens, and no read-only EVM frame makes
    a call without a transfer that is not static. -/
theorem l1xvm_readonly_call_unchanged (vms : VirtualMachines) (db : StateTables) (call : FunctionCall)
    (hreadonly : call.readonly = true) (s : UpdatedState)
    (hrespect : AllRespect (ExecuteContractL1xvm.executeContractFunctionCall vms db
      (contractEngines vms db) call s).log) :
    view db (ExecuteContractL1xvm.executeContractFunctionCall vms db (contractEngines vms db) call
      s).updatedState = view db s := by
  have hengines : (contractEngines vms db).KeepReadOnly db := enginesUpTo_keepReadOnly
  have hremembers := ExecuteContractL1xvm.executeContractFunctionCall_keepsState hengines hreadonly s hrespect
  exact hremembers.view.symm

namespace Small

/-- The contract with the code `code`, and its only instance. -/
def contractOf (code : UInt8) (type : ContractType) : Contract :=
  ⟨BitVec.ofNat 160 code.toNat, 0, if type = .EVM then 1 else 0, [code], 0xAA⟩

def instanceOf (code : UInt8) : ContractInstance :=
  ⟨BitVec.ofNat 160 (0x100 + code.toNat), BitVec.ofNat 160 code.toNat, 0xAA⟩

def contractRow (code : UInt8) (type : ContractType) : ContractRow :=
  ⟨0, if type = .EVM then 1 else 0, [code], 0xAA⟩

/-- Contracts with the codes 10 to 12 for L1XVM and 13 to 15 for the EVM; the second holds 100 tokens. -/
def contractTables : StateTables :=
  { StateTables.empty with
    account := (∅ : Table Address AccountRow).insert (instanceOf 11).instanceAddress
      ⟨.system, 100, 0⟩
    contract := AList.indexBy (fun row : UInt8 × ContractType => BitVec.ofNat 160 row.1.toNat)
      (fun row => contractRow row.1 row.2)
      [(10, .L1XVM), (11, .L1XVM), (12, .L1XVM), (13, .EVM), (14, .EVM), (15, .EVM)]
    contractInstanceContractCodeMap := AList.indexBy
      (fun code => ((instanceOf code).instanceAddress, (instanceOf code).contractAddress))
      (fun _ => 0xAA) [10, 11, 12, 13, 14, 15] }

/-- An address and an amount. The byte behind them is never read, but it has to be there. -/
def memory : Memory := ⟨1, addressBytes 0x55 ++ u128ToLeBytes 40 ++ [0]⟩

/-- Code 10 reads its storage, code 11 sends the amount to the address, and code 12 reads a balance and
    calls a contract. -/
def ebpfProgram : ContractCode → EbpfProgram
  | [10] => .ask (.storageRead 0 20 0) fun _ => .done (.ok 0)
  | [11] => .ask (.transferTo 0 20 20 16) fun _ => .done (.ok 0)
  | [12] => .ask (.addressBalance 0 20 0) fun _ => .ask (.callContract2 0 20 1) fun _ => .done (.ok 0)
  | _ => .done (.error "no program")

def evmExit : EvmExit := ⟨.exit .succeed, [], none⟩

/-- Code 13 writes the storage of its frame, code 14 delegates to that contract, and code 15 reads its
    storage and makes a static call of itself. -/
def evmProgram (code : ContractCode) (context : Context) : EvmProgram :=
  match code with
  | [13] => .ask (.setStorage context.address 7 1) fun _ => .done evmExit
  | [14] =>
    .ask (CallScheme.delegateCall.handlerCall context (instanceOf 13).instanceAddress 0 [] (some 1000))
      fun _ => .done evmExit
  | [15] =>
    .ask (.storage context.address 7) fun _ =>
      .ask (CallScheme.staticCall.handlerCall context (instanceOf 15).instanceAddress 0 [] (some 1000))
        fun _ => .done evmExit
  | _ => .done ⟨.exit (.error "no program"), [], none⟩

/-- Every encoded call is a read-only call of the instance with the code 10. -/
def virtualMachines : VirtualMachines where
  crypto := crypto
  ebpf :=
    { findVersion := fun _ => .ok ⟨1, 4⟩
      link := fun code _ => .ok (memory, ebpfProgram code)
      borsh := ⟨fun _ => none, fun _ => some ⟨(instanceOf 10).instanceAddress, [], [], true, 100⟩,
        fun _ => none⟩ }
  evm :=
    { program := fun code _ context => evmProgram code context
      precompiles := fun _ _ _ => (.ok (), []) }

def callEnv : CallEnv := ⟨0, 0, 1, 1, 1, 1⟩

/-- A read-only call of the instance with a code, by the account 0x77. -/
def readOnlyCall (code : UInt8) (type : ContractType) : FunctionCall where
  accountAddress := 0x77
  context := ⟨(instanceOf code).instanceAddress, 0x77, 0⟩
  gasLimit := 1000
  deposit := 0
  contract := contractOf code type
  contractInstance := instanceOf code
  function := []
  arguments := []
  readonly := true
  env := callEnv
  currentCallDepth := 0

end Small

open L1xCore.Small

/-- A call that reads a balance and asks another contract, which reads its storage: three requests, all
    of which respect read-only frames. -/
theorem l1xvm_readonly_call_of_reader :
    ((ExecuteContractL1xvm.executeContractFunctionCall virtualMachines contractTables
      (contractEngines virtualMachines contractTables) (readOnlyCall 12 .L1XVM)
        UpdatedState.new).log.length = 3) ∧
    view contractTables (ExecuteContractL1xvm.executeContractFunctionCall virtualMachines contractTables
      (contractEngines virtualMachines contractTables) (readOnlyCall 12 .L1XVM)
        UpdatedState.new).updatedState = view contractTables UpdatedState.new :=
  ⟨by decide +kernel,
    l1xvm_readonly_call_unchanged virtualMachines contractTables (readOnlyCall 12 .L1XVM) rfl
      .new (by decide +kernel)⟩

/-- **A read-only call pays.** The contract holds 100 tokens; after a read-only call of it, in the overlay
    of whoever called it, 60 are left and 40 are with the account it has sent them to. -/
theorem l1xvm_readonly_call_pays :
    let after := (ExecuteContractL1xvm.executeContractFunctionCallReadOnly virtualMachines contractTables
      (contractEngines virtualMachines contractTables) (contractOf 11 .L1XVM) (instanceOf 11) [] [] 1000
        callEnv 0 UpdatedState.new).updatedState
    ((view contractTables UpdatedState.new).account (instanceOf 11).instanceAddress).map
      Account.balance = some 100 ∧
    ((view contractTables after).account (instanceOf 11).instanceAddress).map Account.balance = some 60 ∧
    ((view contractTables after).account 0x55).map Account.balance = some 40 := by
  decide +kernel

/-! ## EVM calls -/

/-- **The static context of EVM calls.** For any contracts and any state, a frame that is read-only,
    because it was started so or because the call was static, leaves every balance, every storage value,
    every event and every contract that can be read from its caller's overlay as it was, if all requests
    of the frame and of the frames below respect read-only frames: no read-only EVM frame makes a call
    without a transfer that is not static, which among the call opcodes is `DELEGATECALL`
    (`CallScheme.keepsStatic_iff`), and no read-only L1XVM frame transfers tokens. -/
theorem evm_static_context_inherited (vms : VirtualMachines) (db : StateTables) (call : FunctionCall)
    (hreadonly : call.readonly = true) (s : UpdatedState)
    (hrespect : AllRespect (ExecuteContractEvm.executeContractFunctionCall vms db
      (contractEngines vms db) call s).log) :
    view db (ExecuteContractEvm.executeContractFunctionCall vms db (contractEngines vms db) call
      s).updatedState = view db s := by
  have hengines : (contractEngines vms db).KeepReadOnly db := enginesUpTo_keepReadOnly
  have hremembers := ExecuteContractEvm.executeContractFunctionCall_keepsState hengines hreadonly s hrespect
  exact hremembers.view.symm

/-- A static call that reads storage and calls itself statically, until the depth limit stops it: sixteen
    frames with two requests each. -/
theorem evm_static_context_of_reader :
    (ExecuteContractEvm.executeContractFunctionCall virtualMachines contractTables
      (contractEngines virtualMachines contractTables) (readOnlyCall 15 .EVM)
        UpdatedState.new).log.length = 32 ∧
    view contractTables (ExecuteContractEvm.executeContractFunctionCall virtualMachines contractTables
      (contractEngines virtualMachines contractTables) (readOnlyCall 15 .EVM)
        UpdatedState.new).updatedState = view contractTables UpdatedState.new :=
  ⟨by decide +kernel,
    evm_static_context_inherited virtualMachines contractTables (readOnlyCall 15 .EVM) rfl
      .new (by decide +kernel)⟩

/-- **A static call writes storage.** The called contract delegates to a library; after the static call,
    its storage holds the value the library has written, and there is an event. -/
theorem evm_static_context_lost :
    let after := (ExecuteContractEvm.executeContractFunctionCall virtualMachines contractTables
      (contractEngines virtualMachines contractTables) (readOnlyCall 14 .EVM) UpdatedState.new).updatedState
    (view contractTables UpdatedState.new).storage ((instanceOf 14).instanceAddress, toBytes 32 7) = none ∧
    (view contractTables after).storage ((instanceOf 14).instanceAddress, toBytes 32 7) =
      some (toBytes 32 1) ∧ after.contractEvents.length = 1 := by
  decide +kernel

end L1xCore
