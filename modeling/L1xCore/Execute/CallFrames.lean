import L1xCore.Execute.GasReports
import L1xCore.Execute.RealCaller
import L1xCore.State.Ledger

/-!
# `Execute.CallFrames` — what a frame of a call tree knows of the transaction

`ORIGIN` is to give the sender of the transaction in every frame. It is not passed down the tree: the manager of
an EVM frame is made without a contract instance, and `origin` then gives the account that the frame was started
with. This is the sender in the frame of the transaction only. Below it, it is the caller that the context of a call
names, the account that creates a contract, and for an EVM contract that an L1XVM contract calls it is the
contract itself.

The depth is passed down: every call and creation adds one. An engine refuses a contract beyond the limit, the EVM
after it has moved the deposit or made the account, but on a clone, which the issuer drops.
-/

namespace L1xCore

open Fallible UpdatedState ContractInstanceManager Handler

/-- What a contract names to an EVM contract that it calls or creates: an EVM contract the caller, and an L1XVM
    contract the one that it calls. -/
def Invocation.named : Invocation → Invocation → Address
  | call _ made, call .L1XVM _ => made.context.address
  | call _ made, _ => made.context.caller
  | create deployment, _ => deployment.accountAddress

section

variable (vms : VirtualMachines) (db : StateTables) (sender : Address) (root : Invocation) (s₀ : UpdatedState)

/-- **`ORIGIN` is the sender** in every EVM frame of an execution. -/
def OriginIsSender : Prop :=
  ∀ from' invocation s, Started vms db root s₀ from' invocation s →
    ∀ r self, ExecuteContractEvm.start vms db invocation s = some (r, self) → origin r.frame = sender

/-- Every contract names the sender to the EVM contracts that it comes to run. -/
def NamesSender : Prop :=
  ∀ from' issuer s, Started vms db root s₀ from' issuer s →
    ∀ child manager, (child, manager) ∈ issuer.calls vms db s →
      (ExecuteContractEvm.start vms db child manager.updatedState).isSome → child.named issuer = sender

variable {vms db sender root s₀} {invocation child issuer : Invocation} {s : UpdatedState} {r : RuntimeCall}
  {self manager : ContractInstanceManager}

theorem ExecuteContractEvm.start_origin (h : start vms db invocation s = some (r, self)) :
    origin r.frame = invocation.account := by
  obtain ⟨hr, -, -⟩ := start_some h
  cases hr with
  | call | create => rfl

/-- **What is passed down**: the account of an EVM frame is what its issuer names. -/
theorem Invocation.account_of_mem_calls (h : (child, manager) ∈ issuer.calls vms db s)
    (hruns : ExecuteContractEvm.start vms db child manager.updatedState = some (r, self)) :
    child.account = child.named issuer := by
  obtain ⟨hr, -, -⟩ := ExecuteContractEvm.start_some hruns
  cases hr with
  | create => rfl
  | call called =>
    rcases mem_calls.mp h with ⟨made, vm, c, self, rfl, -, hinvokes⟩ | ⟨r', c, self, hrequest, hinvokes⟩
    · -- an L1XVM contract passes the address that it calls
      obtain ⟨_, _, _, _, _, _, _, _, _, _, -, heq⟩ := Syscall.invokes_some hinvokes
      cases heq
      rfl
    have hnamed : (call .EVM called).named issuer = called.context.caller := by
      cases issuer with
      | create => rfl
      | call contractType made =>
        cases contractType with
        | L1XVM => cases hrequest
        | EVM | XTALK => rfl
    rw [hnamed]
    cases c with
    | call address transfer input targetGas isStatic context =>
      obtain ⟨contractType, called, heq, hresolve⟩ := callInvokes_some hinvokes
      cases heq
      obtain ⟨contract, contractInstance, deposit, rfl, -⟩ := resolveAddress_ok (resolveCall_ok hresolve)
      rfl
    | create =>
      obtain ⟨deployment, heq, -⟩ := createInvokes_some hinvokes
      cases heq
    | _ => cases hinvokes

end

/-- **When `ORIGIN` is the sender in every frame**: if every EVM contract below the transaction is called by an EVM
    contract with the sender for the caller, created by the sender, or called by an L1XVM contract and the sender
    itself. -/
theorem originIsSender_iff (vms : VirtualMachines) (cx : TransactionContext) (tx : Transaction)
    (s : UpdatedState) :
    (∀ root s₀, cx.runs vms tx s = some (root, s₀) → OriginIsSender vms cx.db cx.accountAddress root s₀) ↔
      ∀ root s₀, cx.runs vms tx s = some (root, s₀) → NamesSender vms cx.db cx.accountAddress root s₀ := by
  refine forall₂_congr fun root s₀ => forall_congr' fun hruns => ?_
  constructor
  · intro h from' issuer s hissuer child manager hcall hruns
    obtain ⟨⟨r, self⟩, hstart⟩ := Option.isSome_iff_exists.mp hruns
    rw [← Invocation.account_of_mem_calls hcall hstart, ← ExecuteContractEvm.start_origin hstart]
    exact h _ child manager.updatedState (.nested hissuer hcall) r self hstart
  · intro h from' invocation s hstarted r self hstart
    rw [ExecuteContractEvm.start_origin hstart]
    cases hstarted with
    | root => exact (TransactionContext.runs_root hruns).1
    | nested hissuer hcall =>
      rw [Invocation.account_of_mem_calls hcall hstart]
      exact h _ _ _ hissuer _ _ hcall (Option.isSome_of_eq_some hstart)

open L1xCore.Small

/-- The contract with the code 15 makes a static call of itself. In the second frame `ORIGIN` is the contract. -/
theorem origin_in_second_frame :
    ∃ root s₀, (senderContext virtualMachines.executor).runs virtualMachines (callTransaction 15) .new =
        some (root, s₀) ∧
      ¬ OriginIsSender virtualMachines (senderContext virtualMachines.executor).db 0x77 root s₀ := by
  have hruns : (((senderContext virtualMachines.executor).runs virtualMachines (callTransaction 15) .new).any
      fun run => (run.1.calls virtualMachines (senderContext virtualMachines.executor).db run.2).any fun call =>
        (ExecuteContractEvm.start virtualMachines (senderContext virtualMachines.executor).db call.1
          call.2.updatedState).any fun started => origin started.1.frame = (instanceOf 15).instanceAddress) =
      true := by
    decide +kernel
  obtain ⟨⟨root, s₀⟩, hrun, hcalls⟩ := (Option.any_eq_true _ _).mp hruns
  obtain ⟨⟨child, manager⟩, hmem, hstarts⟩ := List.any_eq_true.mp hcalls
  obtain ⟨⟨r, self⟩, hstart, horigin⟩ := (Option.any_eq_true _ _).mp hstarts
  refine ⟨root, s₀, hrun, fun h => ?_⟩
  have hsender := h _ child manager.updatedState (.nested .root hmem) r self hstart
  exact absurd ((of_decide_eq_true horigin).symm.trans hsender) (by decide)

/-! ## How deep the tree is -/

section

/-- Whether a virtual machine runs the contract. A contract of type `XTALK` has no code. -/
def Invocation.hasCode : Invocation → Bool
  | call .XTALK _ => false
  | _ => true

variable (vms : VirtualMachines) (db : StateTables)

/-- The code of a contract comes to run. -/
def Invocation.runs : Invocation → UpdatedState → Bool
  | call .L1XVM made, s => (ExecuteContractL1xvm.start vms db made s).isSome
  | invocation, s => (ExecuteContractEvm.start vms db invocation s).isSome

/-- The contracts of an execution, each with the number of calls between it and the transaction. -/
inductive StartedAt (root : Invocation) (s₀ : UpdatedState) : Nat → Invocation → UpdatedState → Prop
  | root : StartedAt root s₀ 0 root s₀
  | nested {n : Nat} {issuer child : Invocation} {s : UpdatedState} {manager : ContractInstanceManager}
      (hissuer : StartedAt root s₀ n issuer s) (hcall : (child, manager) ∈ issuer.calls vms db s) :
      StartedAt root s₀ (n + 1) child manager.updatedState

/-- A system call that would run a contract returns 0, an error, and the state is as it was. -/
def Syscall.Refused (self : VMLogic) (answer : Except Error (BitVec 64) × VMLogic) : Prop :=
  answer.1 = .ok 0 ∧ view db answer.2.api.updatedState = view db self.api.updatedState

/-- So does a method of the handler. A creation has counted the nonce of its caller. -/
def HandlerCall.Refused (self : ContractInstanceManager) :
    (c : HandlerCall) → Except Error c.Answer × ContractInstanceManager → Prop
  | .call _ _ _ _ _ _, (answer, self') =>
    (∃ e result, answer = .ok (.exit (.error e) result)) ∧
      view db self'.updatedState = view db self.updatedState
  | .create caller _ _ _ _, (answer, self') =>
    (∃ e code, answer = .ok (.error e, none, code)) ∧
      ∃ st, (view db self.updatedState).toStore.incrementNonce caller = some st ∧
        view db self'.updatedState = (view db self.updatedState).onStore fun _ => st
  | _, _ => False

/-- **Recursion is bounded**: no code runs deeper than the limit, and a request that would run some is refused. -/
structure DepthBounded (root : Invocation) (s₀ : UpdatedState) : Prop where
  runs : ∀ n invocation s, StartedAt vms db root s₀ n invocation s → invocation.runs vms db s = true →
    n ≤ MAX_CROSS_CONTRACT_CALL_DEPTH
  l1xvm : ∀ n made s, StartedAt vms db root s₀ n (.call .L1XVM made) s → MAX_CROSS_CONTRACT_CALL_DEPTH ≤ n →
    ∀ vm c self child manager, c.invokes db made.frame vm vms.ebpf.borsh self = some (child, manager) →
      child.hasCode = true → Syscall.Refused db self
        ((VMLogic.perform db made.frame vm vms.ebpf.borsh (contractEngines vms db) c).run self)
  evm : ∀ n invocation s, StartedAt vms db root s₀ n invocation s → MAX_CROSS_CONTRACT_CALL_DEPTH ≤ n →
    ∀ r, invocation.RuntimeCallIs vms.crypto r → ∀ (c : HandlerCall) self child manager,
      c.invokes db r.frame ExecuteContractEvm.config vms.evm.precompiles self = some (child, manager) →
      child.hasCode = true → c.Refused db self ((answer db r.frame vms.crypto ExecuteContractEvm.config
        vms.evm.precompiles (contractEngines vms db) c).run self)

variable {made : FunctionCall} {deployment : Deployment} {contractType : ContractType} {frame : Frame}
  {invocation child root : Invocation} {manager : ContractInstanceManager} {s s₀ : UpdatedState}

theorem ExecuteContractEvm.executeEvmRuntime_of_depth {engines : Engines} {r : RuntimeCall}
    (hdepth : MAX_CROSS_CONTRACT_CALL_DEPTH < r.currentCallDepth) :
    executeEvmRuntime vms db engines r s = ⟨maxDepthReached, s, []⟩ := if_pos hdepth

/-- **Beyond the limit the engines give an error**, some of them after the deposit has moved on the clone. -/
theorem Engines.run_refuses (hdepth : MAX_CROSS_CONTRACT_CALL_DEPTH < made.currentCallDepth)
    (hcode : (Invocation.call contractType made).hasCode = true) :
    ∃ e, ((contractEngines vms db).run contractType made s).outcome = (.exit (.error e) [], 0) := by
  rw [contractEngines_eq]
  cases contractType with
  | XTALK => cases hcode
  | L1XVM =>
    show ∃ e, (ExecuteContractL1xvm.executeContractFunctionCall vms db _ made s).outcome = _
    rw [ExecuteContractL1xvm.executeContractFunctionCall, if_pos hdepth]
    exact ⟨_, rfl⟩
  | EVM =>
    show ∃ e, (ExecuteContractEvm.executeContractFunctionCall vms db _ made s).outcome = _
    unfold ExecuteContractEvm.executeContractFunctionCall
    split
    · exact ⟨_, rfl⟩
    · rw [ExecuteContractEvm.executeEvmRuntime_of_depth vms db hdepth]
      exact ⟨_, rfl⟩

theorem Engines.evmDeployment_refuses (hdepth : MAX_CROSS_CONTRACT_CALL_DEPTH < deployment.currentCallDepth) :
    ∃ e, ((contractEngines vms db).evmDeployment deployment s).outcome = .error e := by
  rw [contractEngines_eq]
  show ∃ e, (ExecuteContractEvm.executeContractDeployment vms db _ deployment s).outcome = .error e
  unfold ExecuteContractEvm.executeContractDeployment
  dsimp only
  split
  · exact ⟨_, rfl⟩
  · rw [ExecuteContractEvm.executeEvmRuntime_of_depth vms db hdepth]
    exact ⟨_, rfl⟩

variable {vms db}

theorem Syscall.refused {vm : VMContext} {borsh : BorshCalls} {c : Syscall} {self : VMLogic}
    (hdepth : MAX_CROSS_CONTRACT_CALL_DEPTH ≤ frame.currentCallDepth)
    (h : c.invokes db frame vm borsh self = some (child, manager)) (hcode : child.hasCode = true) :
    Refused db self ((VMLogic.perform db frame vm borsh (contractEngines vms db) c).run self) := by
  have hdeeper : MAX_CROSS_CONTRACT_CALL_DEPTH < child.depth := by
    rw [invokes_depth h]
    exact Nat.lt_succ_of_le hdepth
  have hcall : ∀ version callAddr callLen resultRegisterId,
      self.callInvokes db frame vm borsh version callAddr callLen = some (child, manager) →
      Refused db self ((VMLogic.callContract db frame vm borsh (contractEngines vms db) version callAddr callLen
        resultRegisterId).run self) := by
    intro version callAddr callLen resultRegisterId h
    obtain ⟨call, self₁, contractType, made, rfl, hprepare, hresolve⟩ := VMLogic.callInvokes_some h
    have hsame : self₁.api = self.api := by rw [VMLogic.prepareCall_ok hprepare]
    obtain ⟨_, _, _, -, -, hread⟩ := VMContractTrait.resolve_ok hresolve
    obtain ⟨e, hrefused⟩ := Engines.run_refuses (s := manager.updatedState) vms db hdeeper hcode
    have hperform : (perform ((contractEngines vms db).run contractType made)).run manager = (.ok _, _) := rfl
    have hapi : ∀ x : ManagerOp (Bytes × Gas), (VMLogic.onApi x).run self₁ = (.ok (x.run self₁.api).1, _) :=
      fun _ => rfl
    rw [VMLogic.callContract_eq, run_bind_of_ok hprepare, run_bind_of_ok (hapi _),
      VMContractTrait.callContract_eq, run_bind_of_ok hresolve, run_bind_of_ok hperform, hrefused, Refused, ← hsame]
    exact ⟨rfl, hread.view.symm⟩
  cases c with
  | callContract | callContract2 => exact hcall _ _ _ _ h
  | _ => cases h

theorem HandlerCall.refused {crypto : Crypto} {config : EvmConfig} {precompiles : Precompiles} {c : HandlerCall}
    {self : ContractInstanceManager} (hdepth : MAX_CROSS_CONTRACT_CALL_DEPTH ≤ frame.currentCallDepth)
    (h : c.invokes db frame config precompiles self = some (child, manager)) (hcode : child.hasCode = true) :
    c.Refused db self ((answer db frame crypto config precompiles (contractEngines vms db) c).run self) := by
  have hdeeper : MAX_CROSS_CONTRACT_CALL_DEPTH < child.depth := by
    rw [invokes_depth h]
    exact Nat.lt_succ_of_le hdepth
  cases c with
  | call address transfer input targetGas isStatic context =>
    obtain ⟨contractType, made, rfl, hresolve⟩ := callInvokes_some h
    obtain ⟨_, _, _, -, hread⟩ := resolveAddress_ok (resolveCall_ok hresolve)
    obtain ⟨e, hrefused⟩ := Engines.run_refuses (s := manager.updatedState) vms db hdeeper hcode
    have hperform : (perform ((contractEngines vms db).run contractType made)).run manager = (.ok _, _) := rfl
    show Refused db self (.call _ _ _ _ _ _) ((Handler.call db frame config precompiles _ _ _ _ _ _ _).run self)
    rw [call_eq, run_bind_of_ok hresolve, runCall, executeCall, run_bind_of_ok hperform, hrefused]
    exact ⟨⟨e, [], rfl⟩, hread.view.symm⟩
  | create caller scheme value initCode targetGas =>
    obtain ⟨deployment, rfl, hresolve⟩ := createInvokes_some h
    obtain ⟨_, _, -, htaken⟩ := resolveCreate_ok hresolve
    obtain ⟨e, hrefused⟩ := Engines.evmDeployment_refuses (s := manager.updatedState) vms db hdeeper
    have hperform : (perform ((contractEngines vms db).evmDeployment deployment)).run manager = (.ok _, _) := rfl
    show Refused db self (.create _ _ _ _ _) ((Handler.create db frame _ _ _ _ _ _).run self)
    rw [create_eq, run_bind_of_ok hresolve, runCreate, run_bind_of_ok hperform, hrefused]
    -- the clone with the new account is dropped, and the nonce is what is left
    obtain ⟨_, s₁, hget, htaken⟩ := run_bind_ok htaken
    obtain ⟨⟨⟩, s₂, hcount, htaken⟩ := run_bind_ok htaken
    cases htaken
    have hread := ((getAccount_remembers caller).bind fun _ => .pure _).of_run hget
    obtain ⟨st, hst, hview⟩ := incrementNonce_transacts.ok hcount
    rw [← hread.view] at hst hview
    exact ⟨⟨e, initCode, rfl⟩, st, hst, hview⟩
  | _ => cases h

theorem StartedAt.depth_eq {n : Nat} (h : StartedAt vms db root s₀ n invocation s) :
    invocation.depth = root.depth + n := by
  induction h with
  | root => rfl
  | nested _ hcall ih =>
    rw [(Invocation.depth_of_mem_calls hcall).2, ih]
    rfl

theorem Invocation.depth_of_runs (h : invocation.runs vms db s = true) :
    invocation.depth ≤ MAX_CROSS_CONTRACT_CALL_DEPTH := by
  unfold runs at h
  split at h
  · exact ExecuteContractL1xvm.start_depth h
  · obtain ⟨⟨r, self⟩, hstart⟩ := Option.isSome_iff_exists.mp h
    obtain ⟨hr, hdepth, -⟩ := ExecuteContractEvm.start_some hstart
    cases hr with
    | call | create => exact hdepth

end

/-- **Cross-contract recursion is bounded**, for every transaction that runs a contract and whatever the programs
    of the contracts do. -/
theorem depthBounded_of_runs (vms : VirtualMachines) (cx : TransactionContext) (tx : Transaction)
    (s s₀ : UpdatedState) (root : Invocation) (h : cx.runs vms tx s = some (root, s₀)) :
    DepthBounded vms cx.db root s₀ := by
  have hdepth : ∀ {n invocation s}, StartedAt vms cx.db root s₀ n invocation s → invocation.depth = n := by
    intro n invocation s hstarted
    rw [hstarted.depth_eq, (TransactionContext.runs_root h).2, Nat.zero_add]
  refine ⟨fun n invocation s hstarted hruns => ?_, fun n made s hstarted hn vm c self child manager hinvokes => ?_,
    fun n invocation s hstarted hn r hr c self child manager hinvokes => ?_⟩
  · rw [← hdepth hstarted]
    exact Invocation.depth_of_runs hruns
  · rw [← hdepth hstarted] at hn
    exact Syscall.refused hn hinvokes
  · rw [← hdepth hstarted] at hn
    cases hr with
    | call | create => exact HandlerCall.refused hn hinvokes

theorem depthBounded_of_static_call :
    ∃ root s₀, (senderContext virtualMachines.executor).runs virtualMachines (callTransaction 15) .new =
        some (root, s₀) ∧
      DepthBounded virtualMachines (senderContext virtualMachines.executor).db root s₀ := by
  have hruns : ((senderContext virtualMachines.executor).runs virtualMachines (callTransaction 15)
    .new).isSome = true := by decide +kernel
  obtain ⟨⟨root, s₀⟩, hrun⟩ := Option.isSome_iff_exists.mp hruns
  exact ⟨root, s₀, hrun, depthBounded_of_runs _ _ _ _ _ _ hrun⟩

end L1xCore
