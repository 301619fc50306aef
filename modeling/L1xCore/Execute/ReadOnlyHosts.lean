import L1xCore.Execute.CallTree

/-!
# `Execute.ReadOnlyHosts` — what the hosts of a read-only frame do

A call that is started read-only is merged into the state of its caller like any other. That it changes
nothing has to come from the checks in the host functions, and from the flag being handed down to every
frame below. Two places do not do their part:

* `transfer_to` and `transfer_from_caller` of an L1XVM program do not ask for the write permission;
* the EVM call handler starts the called frame read-only if the call is static, and forgets whether the
  calling frame is. Of the four call opcodes, `DELEGATECALL` gets through: it carries no transfer, so it
  is not refused, and it is not static.

A request that is neither **respects** the read-only frame that makes it (`respectsReadOnly`). Every
answer to a program in a read-only frame puts the request into the log, and as long as all requests there
respect read-only frames it only fills the cache of the overlay (`VMLogic.answer_readsOnly`,
`Handler.answer_readsOnly`), given engines that do so in the calls below (`Engines.KeepReadOnly`).
-/

namespace L1xCore

open Fallible UpdatedState VMContractTrait List

variable {c : Syscall}

/-! ## Requests that respect a read-only frame -/

/-- A system call other than those that transfer tokens. The tokens of the caller are left alone if the
    object is too new for the call, or if there is a deposit to compare with. -/
def Syscall.movesNoTokens (vm : VMContext) : Syscall → Bool
  | .transferTo _ _ _ _ => false
  | .transferFromCaller _ _ =>
    RUNTIME_VERSION_DEPOSIT_FEATURE ≤ vm.ebpfObjectVersion.expectedRuntimeVersion ||
      0 < vm.deposit
  | _ => true

/-- A request other than a call that carries no transfer and is not static. -/
def HandlerCall.keepsStatic : HandlerCall → Bool
  | .call _ transfer _ _ isStatic _ => transfer.isSome || isStatic
  | _ => true

/-- A request that a read-only frame may make. -/
def HostCall.respectsReadOnly : HostCall → Bool
  | .l1xvm _ vm call => !vm.readonly || call.movesNoTokens vm
  | .evm frame call => !frame.readonly || call.keepsStatic

/-- **Of the call opcodes, only `DELEGATECALL` loses the static context.** -/
theorem CallScheme.keepsStatic_iff (scheme : CallScheme) (own : Context) (target : Address)
    (value : U256) (input : Bytes) (gas : Option Gas) :
    (scheme.handlerCall own target value input gas).keepsStatic = true ↔ scheme ≠ .delegateCall := by
  cases scheme with
  | call | callCode => exact ⟨fun _ h => noConfusion h, fun _ => rfl⟩
  | delegateCall => exact ⟨fun h => Bool.noConfusion h, fun h => absurd rfl h⟩
  | staticCall => exact ⟨fun _ h => noConfusion h, fun _ => rfl⟩

/-- All requests of a run respect read-only frames. -/
def AllRespect (log : List HostCall) : Prop := ∀ c ∈ log, c.respectsReadOnly = true

/-! ## What the manager of a read-only frame does -/

namespace ContractInstanceManager

variable {db : StateTables} {α β : Type} {x : StateOp α}

/-- The log only grows. -/
def Logs (m m' : ContractInstanceManager) : Prop := m.log <+: m'.log

/-- The log grows, and if all requests in it respect read-only frames, the overlay only remembers. -/
structure ReadsOnly (db : StateTables) (m m' : ContractInstanceManager) : Prop where
  logs : m.Logs m'
  remembers : AllRespect m'.log → Remembers db m.updatedState m'.updatedState

instance : Std.Refl Logs := ⟨fun _ => prefix_rfl⟩

instance : IsTrans ContractInstanceManager Logs := ⟨fun _ _ _ h₁ h₂ => h₁.trans h₂⟩

instance : Std.Refl (ReadsOnly db) := ⟨fun _ => ⟨prefix_rfl, fun _ => refl_of (Remembers db) _⟩⟩

instance : IsTrans ContractInstanceManager (ReadsOnly db) where
  trans _ _ _ h₁ h₂ :=
    ⟨h₁.logs.trans h₂.logs, fun h =>
      trans_of (Remembers db) (h₁.remembers fun c hc => h c (h₂.logs.subset hc)) (h₂.remembers h)⟩

theorem onState_logs : Moves Logs (onState x) := fun _ => prefix_rfl

theorem onState_readsOnly (hx : Moves (Remembers db) x) : Moves (ReadsOnly db) (onState x) :=
  .zoom hx fun _ _ h => ⟨prefix_rfl, fun _ => h⟩

/-- A call keeps the state of its caller, provided the requests made on the way respect it. -/
def KeepsState (db : StateTables) (call : UpdatedState → Performed α) : Prop :=
  ∀ s, AllRespect (call s).log → Remembers db s (call s).updatedState

theorem xtalk_keepsState : KeepsState db xtalk := fun s _ => refl_of (Remembers db) s

/-- The log is as it was, and the overlay is as it was or has been merged with `c`. -/
def KeepsOrMerges (c : UpdatedState) (m m' : ContractInstanceManager) : Prop :=
  m'.log = m.log ∧ (m'.updatedState = m.updatedState ∨ m'.updatedState = m.updatedState.merge c)

/-- **A nested call.** The caller drops the clone or merges it; the clone has only remembered. -/
theorem perform_readsOnly {call : UpdatedState → Performed α} (hcall : KeepsState db call)
    {next : α × UpdatedState → ManagerOp β} (hnext : ∀ called, Moves (KeepsOrMerges called.2) (next called)) :
    Moves (ReadsOnly db) (perform call >>= next) := by
  intro m
  -- the manager after the call has the requests of the call in its log, and its overlay as before
  have hperform : (perform call).run m = (.ok _, _) := rfl
  rw [run_bind_of_ok hperform]
  obtain ⟨hlog, hstate⟩ := hnext ((call m.updatedState).outcome, (call m.updatedState).updatedState)
    { m with log := m.log ++ (call m.updatedState).log }
  refine ⟨?_, fun h => ?_⟩
  · unfold Logs
    rw [hlog]
    exact prefix_append _ _
  · have hclone : Remembers db m.updatedState (call m.updatedState).updatedState := by
      apply hcall
      intro c hc
      apply h
      rw [hlog]
      exact mem_append_right _ hc
    rcases hstate with hsame | hmerged
    · rw [hsame]
      exact refl_of (Remembers db) _
    · rw [hmerged]
      exact trans_of (Remembers db) hclone (remembers_merge hclone.evolves)

theorem perform_logs (call : UpdatedState → Performed α) : Moves Logs (perform call) :=
  fun m => prefix_append m.log _

theorem chargeGas_logs {gas : Gas} : Moves Logs (chargeGas gas) := fun _ => prefix_rfl

theorem mergeState_logs {clone : UpdatedState} : Moves Logs (mergeState clone) :=
  fun _ => prefix_rfl

/-- **A request.** It is in the log from then on, so only requests that respect read-only frames have to
    keep the state. The manager may be a part of a larger state. -/
theorem recorded_readsOnly {σ : Type} {get : σ → ContractInstanceManager} {f : σ → σ} {c : HostCall}
    (hf : ∀ v, get (f v) = { get v with log := (get v).log ++ [c] }) {x : Fallible σ Error α}
    (hrespects : c.respectsReadOnly = true → Moves (fun v v' => ReadsOnly db (get v) (get v')) x)
    (hlogs : c.respectsReadOnly = false → Moves (fun v v' => Logs (get v) (get v')) x) :
    Moves (fun v v' => ReadsOnly db (get v) (get v')) (update f >>= fun _ => x) := by
  intro v
  have hrun : (update f >>= fun _ => x).run v = x.run (f v) := rfl
  have hrecorded : Logs (get v) (get (f v)) := by
    rw [hf]
    exact prefix_append _ _
  rw [hrun]
  cases hc : c.respectsReadOnly with
  | true =>
    have h := hrespects hc (f v)
    refine ⟨trans_of Logs hrecorded h.logs, fun hall => ?_⟩
    have hremembers := h.remembers hall
    rwa [hf] at hremembers
  | false =>
    have h := hlogs hc (f v)
    refine ⟨trans_of Logs hrecorded h, fun hall => ?_⟩
    -- the request itself is in the log, and it does not respect the frame
    have hmem : c ∈ (get (f v)).log := by
      rw [hf]
      exact mem_append_right _ (mem_singleton_self c)
    rw [hall c (h.subset hmem)] at hc
    cases hc

end ContractInstanceManager

open ContractInstanceManager

/-- Engines that keep the state in their read-only calls. -/
structure Engines.KeepReadOnly (db : StateTables) (engines : Engines) : Prop where
  l1xvm : ∀ call : FunctionCall, call.readonly = true → KeepsState db (engines.l1xvm call)
  evm : ∀ call : FunctionCall, call.readonly = true → KeepsState db (engines.evm call)

theorem Engines.KeepReadOnly.run {db : StateTables} {engines : Engines} (h : engines.KeepReadOnly db)
    (contractType : ContractType) {call : FunctionCall} (hcall : call.readonly = true) :
    KeepsState db (engines.run contractType call) := by
  cases contractType with
  | L1XVM => exact h.l1xvm call hcall
  | EVM => exact h.evm call hcall
  | XTALK => exact xtalk_keepsState

/-! ## The host of an L1XVM contract -/

namespace VMContractTrait

variable {db : StateTables} {frame : Frame} (address : Address)

theorem instanceAddress_readsOnly : Moves (ReadsOnly db) (instanceAddress frame) := .okOr _ _

theorem storageRead_readsOnly {key : ContractInstanceKey} : Moves (ReadsOnly db) (storageRead db frame key) :=
  instanceAddress_readsOnly.bind fun a => onState_readsOnly (getStateKeyValue_remembers a key)

theorem contractInstanceOwnerAddressOf_readsOnly :
    Moves (ReadsOnly db) (contractInstanceOwnerAddressOf db address) :=
  (onState_readsOnly (getContractInstance_remembers address)).bind fun _ => .pure _

theorem contractCodeAddressOf_readsOnly : Moves (ReadsOnly db) (contractCodeAddressOf db address) :=
  (onState_readsOnly (getContractInstance_remembers address)).bind fun _ => .pure _

theorem contractCodeOwnerAddressOf_readsOnly : Moves (ReadsOnly db) (contractCodeOwnerAddressOf db address) :=
  (onState_readsOnly ((getContract_remembers address).bind fun _ => .pure _)).bind fun _ => .pure _

theorem getBalance_readsOnly : Moves (ReadsOnly db) (getBalance db address) :=
  onState_readsOnly ((getAccount_remembers address).bind fun _ => .pure _)

theorem transferToken_logs {fromAddress toAddress : Address} {amount : Balance} :
    Moves Logs (transferToken db fromAddress toAddress amount) :=
  onState_logs

end VMContractTrait

/-! ## The system calls -/

namespace VMLogic

variable {R : ContractInstanceManager → ContractInstanceManager → Prop} {α : Type}

/-- The manager moves along `R`. -/
def OnApi (R : ContractInstanceManager → ContractInstanceManager → Prop) (v v' : VMLogic) : Prop :=
  R v.api v'.api

instance [Std.Refl R] : Std.Refl (OnApi R) := ⟨fun v => refl_of R v.api⟩

instance [IsTrans ContractInstanceManager R] : IsTrans VMLogic (OnApi R) :=
  ⟨fun _ _ _ h₁ h₂ => trans_of R h₁ h₂⟩

theorem onApi_moves {x : ManagerOp α} (hx : Moves R x) : Moves (OnApi R) (onApi x) :=
  fun v => hx v.api

section

variable [Std.Refl R] (registerId : RegisterId) (data : Bytes) (gas : Gas)

theorem burnGas_moves : Moves (OnApi R) (burnGas gas) := .update fun v => refl_of R v.api

theorem setRegister_moves : Moves (OnApi R) (setRegister registerId data) :=
  .update fun v => refl_of R v.api

theorem setMemory_moves {memory : Memory} :
    Moves (OnApi R) (update fun self => { self with memory } : VMOp Unit) :=
  .update fun v => refl_of R v.api

variable [IsTrans ContractInstanceManager R] (resultAddr : MemoryAddress)

theorem tryApi_moves {x : ManagerOp α} (hx : Moves R x) (f : Error → HostError) :
    Moves (OnApi R) (tryApi x f) := by
  refine (onApi_moves hx).bind fun outcome => ?_
  cases outcome with
  | ok a => exact .pure a
  | error e => exact .fail _

theorem checkGas_moves : Moves (OnApi R) checkGas := by
  refine Moves.state.bind fun self => ?_
  split
  · exact .fail _
  · exact .pure _

theorem tryBurnGas_moves : Moves (OnApi R) (tryBurnGas gas) :=
  (burnGas_moves gas).bind fun _ => checkGas_moves

theorem memView_moves {addr len : BitVec 64} : Moves (OnApi R) (memView addr len) :=
  Moves.state.bind fun _ => .okOr _ _

theorem memWrite_moves {offset : MemoryAddress} {buffer : Bytes} : Moves (OnApi R) (memWrite offset buffer) :=
  Moves.state.bind fun _ => (Moves.okOr _ _).bind fun _ => .update fun v => refl_of R v.api

theorem readL1xAddress_moves {addressPtr addressLen : BitVec 64} :
    Moves (OnApi R) (readL1xAddress addressPtr addressLen) := by
  refine memView_moves.bind fun address => ?_
  split
  · exact .pure _
  · exact .fail _

theorem readBalance_moves {balancePtr balanceLen : BitVec 64} :
    Moves (OnApi R) (readBalance balancePtr balanceLen) := by
  refine memView_moves.bind fun balance => ?_
  split
  · exact .pure _
  · exact .fail _

theorem evict_moves {evicted : Option Bytes} : Moves (OnApi R) (evict registerId evicted) := by
  cases evicted with
  | none => exact .pure _
  | some data => exact (setRegister_moves registerId data).bind fun _ => .pure _

theorem writeResult_moves {resultLen : BitVec 64} :
    Moves (OnApi R) (writeResult data resultAddr resultLen) := by
  unfold writeResult
  split
  · exact .fail _
  · exact memWrite_moves

theorem zero_moves {x : VMOp Unit} (hx : Moves (OnApi R) x) : Moves (OnApi R) (zero x) :=
  hx.bind fun _ => .pure _

theorem panic_moves {msgPtr : MemoryAddress} {msgLen : BitVec 64} :
    Moves (OnApi R) (panic msgPtr msgLen) := by
  unfold panic
  split
  · exact memView_moves.bind fun _ => .fail _
  · exact .fail _

theorem readRegister_moves : Moves (OnApi R) (readRegister registerId resultAddr) :=
  Moves.state.bind fun _ => (Moves.okOr _ _).bind fun _ => memWrite_moves

theorem registerLen_moves : Moves (OnApi R) (registerLen registerId) := by
  refine Moves.state.bind fun self => ?_
  cases self.registers.lookup registerId with
  | none | some => exact .pure _

theorem compute_moves {f : Memory → Except Error (BitVec 64 × Memory)} : Moves (OnApi R) (compute f) :=
  Moves.state.bind fun _ =>
    (Moves.lift _).bind fun _ => setMemory_moves.bind fun _ => .pure _

variable {db : StateTables} {vm : VMContext}

/-- The same for the tokens of the caller, which are left alone by an object that is too new and by a
    call with a deposit. -/
theorem transferFromCaller_moves
    (h : Syscall.movesNoTokens vm (.transferFromCaller 0 0) = false → ∀ amount, Moves R
      (transferToken db vm.callerAddress vm.contractInstanceAddress amount))
    (amountPtr : MemoryAddress) (amountLen : BitVec 64) :
    Moves (OnApi R) (transferFromCaller db vm amountPtr amountLen) := by
  unfold transferFromCaller
  split
  · exact .fail _
  · next hversion =>
      refine readBalance_moves.bind fun amount => (tryBurnGas_moves _).bind fun _ => ?_
      split
      · exact .pure _
      · next hdeposit =>
          have hmoves : Syscall.movesNoTokens vm (.transferFromCaller 0 0) = false := by
            unfold Syscall.movesNoTokens
            rw [decide_eq_false hversion, decide_eq_false hdeposit]
            rfl
          exact (onApi_moves (h hmoves amount)).bind fun _ => .pure _

end

variable {db : StateTables} {frame : Frame} {vm : VMContext} {engines : Engines}

theorem writePerm_run (hreadonly : vm.readonly = true) :
    writePerm vm = fail HostError.readonlyCall.toError := by
  unfold writePerm
  rw [if_pos hreadonly]

/-- What comes after `write_perm` is not reached in a read-only frame. -/
theorem writePerm_bind_moves [Std.Refl R] (hreadonly : vm.readonly = true) (f : Unit → VMOp α) :
    Moves (OnApi R) (writePerm vm >>= f) := by
  rw [writePerm_run hreadonly]
  exact fun v => refl_of R v.api

section

variable (h : engines.KeepReadOnly db) (hreadonly : vm.readonly = true) (borsh : BorshCalls)

include h hreadonly

theorem callContract_readsOnly (version : ContractCallVersion) (callAddr : MemoryAddress)
    (callLen : BitVec 64) (resultRegisterId : RegisterId) :
    Moves (OnApi (ReadsOnly db))
      (callContract db frame vm borsh engines version callAddr callLen resultRegisterId) := by
  refine memView_moves.bind fun callData => (Moves.okOr _ _).bind fun call => ?_
  cases hcall : call.readOnly with
  | false =>
    rw [hreadonly]
    exact .fail _
  | true =>
    rw [if_neg (by simp)]
    refine (tryBurnGas_moves _).bind fun _ => Moves.state.bind fun self => ?_
    split
    · exact .fail _
    · refine (onApi_moves ?_).bind fun outcome => ?_
      · refine instanceAddress_readsOnly.bind fun current => ?_
        refine (onState_readsOnly (getContractInstance_remembers _)).bind fun contractInstance => ?_
        refine (onState_readsOnly (getContract_remembers _)).bind fun contract => ?_
        refine (Moves.lift _).bind fun contractType => ?_
        rw [VMContractTrait.calledContract_eq]
        refine perform_readsOnly (h.run contractType rfl) fun called => ?_
        rcases called with ⟨⟨⟨reason, result⟩ | _, gas⟩, clone⟩
        · cases reason with
          | succeed => exact fun m => ⟨rfl, .inr rfl⟩
          | error | revert | fatal => exact fun m => ⟨rfl, .inl rfl⟩
        · exact fun m => ⟨rfl, .inl rfl⟩
      rcases outcome with e | ⟨result, gas⟩
      · exact (setRegister_moves _ _).bind fun _ => .pure _
      · exact (burnGas_moves _).bind fun _ => (setRegister_moves _ _).bind fun _ => .pure _

/-- **The system calls of a read-only frame**, those aside that transfer tokens. -/
theorem perform_readsOnly (hc : c.movesNoTokens vm = true) :
    Moves (OnApi (ReadsOnly db)) (perform db frame vm borsh engines c) := by
  cases c with
  | compute gas f => exact compute_moves
  | msg addr len => exact .pure _
  | panic msgPtr msgLen => exact zero_moves panic_moves
  | input id => exact zero_moves (setRegister_moves _ _)
  | output addr len =>
    exact zero_moves (memView_moves.bind fun _ =>
      .update fun v => refl_of (ReadsOnly db) v.api)
  | registerLen id => exact registerLen_moves id
  | readRegister id addr => exact zero_moves (readRegister_moves _ _)
  | writeRegister id addr len =>
    exact zero_moves (memView_moves.bind fun _ => setRegister_moves _ _)
  | storageWrite | storageRemove => exact writePerm_bind_moves hreadonly _
  | storageRead keyAddr keyLen id =>
    exact memView_moves.bind fun key =>
      (tryApi_moves storageRead_readsOnly _).bind fun _ => evict_moves _
  | storageWritePerm | currentRuntimeVersion => exact .pure _
  | callerAddress | contractOwnerAddress => exact zero_moves (setRegister_moves _ _)
  | contractOwnerAddressOf addr len id =>
    refine zero_moves (readL1xAddress_moves.bind fun address => ?_)
    split
    · exact setRegister_moves _ _
    · exact (tryApi_moves (contractInstanceOwnerAddressOf_readsOnly address) _).bind
        fun _ => setRegister_moves _ _
  | contractInstanceAddress id => exact zero_moves (setRegister_moves _ _)
  | contractCodeAddressOf addr len id =>
    refine zero_moves (readL1xAddress_moves.bind fun address => ?_)
    split
    · exact setRegister_moves _ _
    · exact (tryApi_moves (contractCodeAddressOf_readsOnly address) _).bind
        fun _ => setRegister_moves _ _
  | contractCodeOwnerAddressOf addr len id =>
    exact zero_moves (readL1xAddress_moves.bind fun address =>
      (tryApi_moves (contractCodeOwnerAddressOf_readsOnly address) _).bind fun _ => setRegister_moves _ _)
  | gasLimit | gasLeft => exact Moves.state.bind fun _ => .pure _
  | deposit addr len => exact zero_moves (writeResult_moves _ _)
  | addressBalance addr len id =>
    exact zero_moves (readL1xAddress_moves.bind fun address =>
      (onApi_moves (getBalance_readsOnly address)).bind fun _ => setRegister_moves _ _)
  | transferTo toPtr toLen amountPtr amountLen => cases hc
  | transferFromCaller amountPtr amountLen =>
    exact transferFromCaller_moves (fun hmoves => absurd (hmoves.symm.trans hc) Bool.false_ne_true)
      _ _
  | blockNumber | blockTimestamp | blockHash => exact zero_moves (writeResult_moves _ _)
  | callContract | callContract2 => exact callContract_readsOnly h hreadonly borsh _ _ _ _
  | emitEventExperimental addr len => exact writePerm_bind_moves hreadonly _

end

/-- The other two at least add nothing but themselves to the log. -/
theorem perform_logs (borsh : BorshCalls) (hc : c.movesNoTokens vm = false) :
    Moves (OnApi Logs) (perform db frame vm borsh engines c) := by
  cases c with
  | transferTo toPtr toLen amountPtr amountLen =>
    exact readL1xAddress_moves.bind fun toAddress => readBalance_moves.bind fun amount =>
      (tryBurnGas_moves _).bind fun _ => (onApi_moves transferToken_logs).bind fun _ => .pure _
  | transferFromCaller amountPtr amountLen =>
    exact transferFromCaller_moves (fun _ _ => transferToken_logs) _ _
  | _ => cases hc

/-- **Every answer to a program in a read-only frame.** -/
theorem answer_readsOnly (h : engines.KeepReadOnly db) (hreadonly : vm.readonly = true)
    (borsh : BorshCalls) (c : Syscall) :
    Moves (OnApi (ReadsOnly db)) (answer db frame vm borsh engines c) := by
  have hrespects : (HostCall.l1xvm frame vm c).respectsReadOnly = c.movesNoTokens vm := by
    show (!vm.readonly || c.movesNoTokens vm) = c.movesNoTokens vm
    rw [hreadonly, Bool.not_true, Bool.false_or]
  refine recorded_readsOnly (fun _ => rfl) (fun hc => ?_) (fun hc => ?_)
  · exact (perform_readsOnly h hreadonly borsh (hrespects ▸ hc)).bind fun r =>
      (burnGas_moves _).bind fun _ => checkGas_moves.bind fun _ => .pure r
  · have hmoves : Moves (OnApi Logs) (perform db frame vm borsh engines c) :=
      perform_logs borsh (hrespects ▸ hc)
    exact hmoves.bind fun r => (burnGas_moves _).bind fun _ => checkGas_moves.bind fun _ => .pure r

end VMLogic

/-! ## The host of an EVM contract -/

namespace Handler

variable {db : StateTables} {frame : Frame} {engines : Engines} (address : Address)
  {transfer : Option Transfer} {input : Bytes} {targetGas : Option Gas} {isStatic : Bool} {context : Context}
  {config : EvmConfig} {precompiles : Precompiles}

theorem contractAt_readsOnly : Moves (ReadsOnly db) (contractAt db address) := by
  refine (onState_readsOnly (getContractInstance_remembers address)).outcome.bind fun found => ?_
  cases found with
  | error e => exact .pure _
  | ok contractInstance =>
    exact (onState_readsOnly (getContract_remembers _)).outcome.bind fun _ => .pure _

theorem storage_readsOnly (key : H256) : Moves (ReadsOnly db) (storage db address key) := by
  refine (onState_readsOnly (getStateKeyValue_remembers address _)).bind fun value => ?_
  cases value with
  | none => exact .pure _
  | some value => exact .lift _

theorem isValidAccount_readsOnly : Moves (ReadsOnly db) (isValidAccount db address) :=
  onState_readsOnly ((getAccount_remembers address).outcome.bind fun _ => .pure _)

section

variable {call : UpdatedState → Performed (Capture × Gas)}

theorem executeCall_readsOnly (hcall : KeepsState db call) : Moves (ReadsOnly db) (executeCall call) := by
  refine perform_readsOnly hcall fun called => ?_
  rcases called with ⟨⟨⟨reason, result⟩ | _, gas⟩, clone⟩
  · cases reason with
    | succeed => exact fun m => ⟨rfl, .inr rfl⟩
    | error | revert | fatal => exact fun m => ⟨rfl, .inl rfl⟩
  · exact fun m => ⟨rfl, .inl rfl⟩

theorem executeCall_logs : Moves Logs (executeCall call) := by
  refine (perform_logs call).bind fun called => chargeGas_logs.bind fun _ => ?_
  cases called.1.1 with
  | trap => exact .pure _
  | exit reason result =>
    cases reason with
    | succeed => exact mergeState_logs.bind fun _ => .pure _
    | error | revert | fatal => exact .pure _

end

theorem call_readsOnly (h : engines.KeepReadOnly db)
    (htransfer : (frame.readonly && transfer.isSome) = false → transfer = none ∧ isStatic = true) :
    Moves (ReadsOnly db)
      (call db frame config precompiles engines address transfer input targetGas isStatic context) := by
  rw [call_eq]
  refine (resolveCall_moves (fun a => onState_readsOnly (getContractInstance_remembers a))
    (fun a => onState_readsOnly (getContract_remembers a)) fun haccepted => ?_).bind_run fun hresolve => ?_
  · rw [(htransfer haccepted).1]
    exact .pure _
  · rename_i resolved m m'
    cases resolved with
    | inl capture => exact .pure _
    | inr made =>
      have hstatic : isStatic = true := by
        refine (htransfer (Bool.eq_false_iff.mpr fun hrefused => ?_)).2
        rw [resolveCall, if_pos hrefused] at hresolve
        cases hresolve
      obtain ⟨contract, contractInstance, deposit, hmade, -⟩ := resolveAddress_ok (resolveCall_ok hresolve)
      refine executeCall_readsOnly (h.run made.1 ?_)
      rw [hmade]
      exact hstatic

theorem call_logs :
    Moves Logs (call db frame config precompiles engines address transfer input targetGas isStatic context) := by
  rw [call_eq]
  refine (resolveCall_moves (fun _ => onState_logs) (fun _ => onState_logs)
    fun _ => transferOnly_moves fun _ _ _ => onState_logs).bind fun resolved => ?_
  cases resolved with
  | inl capture => exact .pure _
  | inr made => exact executeCall_logs

/-- **The requests of a read-only frame**, the calls aside that forget the static context. -/
theorem answer_readsOnly (h : engines.KeepReadOnly db) (hreadonly : frame.readonly = true)
    (crypto : Crypto) (config : EvmConfig) (precompiles : Precompiles) {c : HandlerCall}
    (hc : c.keepsStatic = true) :
    Moves (ReadsOnly db) (answer db frame crypto config precompiles engines c) := by
  cases c with
  | balance address =>
    exact (onState_readsOnly ((getAccount_remembers address).bind fun _ => .pure _)).outcome.bind
      fun _ => .pure _
  | codeSize address => exact (contractAt_readsOnly address).bind fun _ => .pure _
  | codeHash address => exact (contractAt_readsOnly address).bind fun _ => .pure _
  | code address => exact (contractAt_readsOnly address).bind fun _ => .pure _
  | storage address key => exact storage_readsOnly address key
  | originalStorage address key => exact storage_readsOnly address key
  | gasLeft => exact Moves.state.bind fun _ => .pure _
  | «exists» address => exact isValidAccount_readsOnly address
  | deleted address => exact isValidAccount_readsOnly address
  | setStorage address key value =>
    show Moves (ReadsOnly db) (setStorage frame address key value)
    unfold setStorage
    rw [if_pos hreadonly]
    exact .pure _
  | log address topics eventData =>
    show Moves (ReadsOnly db) (log frame address topics eventData)
    unfold log
    rw [if_pos hreadonly]
    exact .pure _
  | create caller scheme value initCode targetGas =>
    show Moves (ReadsOnly db) (create db frame engines caller scheme value initCode targetGas)
    unfold create
    rw [if_pos hreadonly]
    exact .pure _
  | call address transfer input targetGas isStatic context =>
    refine call_readsOnly address h fun haccepted => ?_
    -- a transfer would have been refused, so the call is static
    rw [hreadonly, Bool.true_and] at haccepted
    have hstatic : (transfer.isSome || isStatic) = true := hc
    rw [haccepted, Bool.false_or] at hstatic
    rw [Option.isSome_eq_false_iff, Option.isNone_iff_eq_none] at haccepted
    exact ⟨haccepted, hstatic⟩
  | gasPrice | origin | blockHash _ | blockNumber | blockCoinbase | blockTimestamp | blockDifficulty
  | blockRandomness | blockGasLimit | blockBaseFeePerGas | chainId | isCold _ _ | markDelete _ _
  | preValidate _ | recordExternalOperation =>
    exact .pure _

end Handler

end L1xCore
