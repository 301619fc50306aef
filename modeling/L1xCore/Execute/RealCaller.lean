import L1xCore.Execute.ContractExecutor

/-!
# `Execute.RealCaller` — whom an L1XVM contract takes for its caller

An L1XVM contract acts on the account it is called by: `caller_address` names it, the deposit is taken from it,
and `transfer_from_caller` takes tokens from it. A transaction passes its sender, and an L1XVM contract that
calls another passes its own address. The handler of an EVM contract passes the caller of the context that the
interpreter has made for the call. For `CALL`, `CALLCODE` and `STATICCALL` this is the calling contract. For
`DELEGATECALL` it is the *caller's* caller: an EVM contract that is called so runs for that account, but an
L1XVM contract runs on its own storage and takes it for the one that has called it.

`l1xvm_caller_known_iff` says for a whole execution, calls of all kinds nested in any way, when every L1XVM
contract sees the contract that has called it.
-/

namespace L1xCore

open ContractInstanceManager Handler

variable {manager : ContractInstanceManager} {contractType : ContractType} {s₀ : UpdatedState}
  {made : FunctionCall} {vm : VMContext} {borsh : BorshCalls} {self : VMLogic} {frame : Frame}
  {config : EvmConfig} {precompiles : Precompiles} {input : Bytes} {root : Invocation}

/-! ## Who has issued a call -/

namespace Invocation

variable (crypto : Crypto)

/-- The address a contract acts as. It is another than that of its code in an EVM contract that was called
    with `CALLCODE` or `DELEGATECALL`. -/
def ownAddress : Invocation → Address
  | call .EVM made => made.context.address
  | call _ made => made.contractInstance.instanceAddress
  | create deployment => createEvmAddress crypto deployment.scheme deployment.env.nonce

/-- The address of the contract whose code runs. -/
def codeAddress : Invocation → Address
  | call _ made => made.contractInstance.instanceAddress
  | create deployment => createEvmAddress crypto deployment.scheme deployment.env.nonce

/-- The account that a contract is started with. -/
def account : Invocation → Address
  | call _ made => made.accountAddress
  | create deployment => deployment.accountAddress

end Invocation

/-- Who has issued a call, with `address` for the address of a contract. -/
def Origin.issuer (address : Invocation → Address) (sender : Address) : Origin → Address
  | transaction => sender
  | contract issuer _ => address issuer

/-- What the program is told and what its deposit is taken from is `caller`. -/
structure FunctionCall.SeesCaller (call : FunctionCall) (caller : Address) : Prop where
  accountAddress : call.accountAddress = caller
  callerAddress : ∀ version, (call.vmContext version).callerAddress = caller

/-! ## What the interpreter passes -/

/-- The caller in the context of a call. -/
def CallScheme.caller (scheme : CallScheme) (own : Context) : Address :=
  if scheme = .delegateCall then own.caller else own.address

/-- A call of a program with the context `own` is one of the four call opcodes. -/
def HandlerCall.FollowsScheme (own : Context) : HandlerCall → Prop
  | .call address transfer input targetGas isStatic context =>
    ∃ scheme value gas, HandlerCall.call address transfer input targetGas isStatic context =
      CallScheme.handlerCall scheme own address value input gas
  | _ => True

/-- The interpreter passes to the handler what the call opcodes prescribe. -/
def EvmRuntime.PassesContext (evm : EvmRuntime) : Prop :=
  ∀ code arguments own, (evm.program code arguments own).All (HandlerCall.FollowsScheme own)

section

variable {db : StateTables} {call : FunctionCall}

/-- An L1XVM contract calls another one as itself. -/
theorem Syscall.invokes_accountAddress {c : Syscall}
    (h : c.invokes db made.frame vm borsh self = some (.call .L1XVM call, manager)) :
    call.accountAddress = made.contractInstance.instanceAddress := by
  obtain ⟨_, _, _, _, _, _, _, _, _, _, hcurrent, heq⟩ := invokes_some h
  cases heq
  cases hcurrent
  rfl

/-- An EVM contract calls an L1XVM contract as the caller that its opcode prescribes. -/
theorem CallScheme.invokes_accountAddress {scheme : CallScheme} {own : Context} {target : Address}
    {value : U256} {gas : Option Gas} {self : ContractInstanceManager}
    (h : (scheme.handlerCall own target value input gas).invokes db frame config precompiles self =
      some (.call contractType call, manager)) : call.accountAddress = scheme.caller own := by
  cases scheme with
  | call | callCode | delegateCall | staticCall =>
    obtain ⟨_, made, heq, hresolve⟩ := Handler.callInvokes_some h
    cases heq
    obtain ⟨contract, contractInstance, deposit, rfl, -⟩ := resolveAddress_ok (resolveCall_ok hresolve)
    rfl

end

/-! ## Requests of EVM contracts -/

section

variable {vms : VirtualMachines} {db : StateTables} {invocation : Invocation} {s : UpdatedState}
  {r : RuntimeCall} {c : HandlerCall} {self : ContractInstanceManager}

/-- With an interpreter that passes what the opcodes prescribe, a call is one of the four. -/
theorem EvmRuntime.PassesContext.scheme (hruntime : vms.evm.PassesContext)
    (h : (r, c, self) ∈ ExecuteContractEvm.requests vms db invocation s) {call : FunctionCall}
    (hinvokes : c.invokes db r.frame ExecuteContractEvm.config vms.evm.precompiles self =
      some (.call contractType call, manager)) :
    ∃ scheme target value input gas, c = CallScheme.handlerCall scheme r.context target value input gas := by
  obtain ⟨self₀, -, htrace⟩ := ExecuteContractEvm.mem_requests h
  have hfollows := (hruntime r.contractCode r.arguments r.context).of_mem_trace htrace
  cases c with
  | call address transfer input targetGas isStatic context =>
    obtain ⟨scheme, value, gas, heq⟩ := hfollows
    exact ⟨scheme, address, value, input, gas, heq⟩
  | create caller scheme value initCode targetGas =>
    -- a creation does not run a call
    obtain ⟨deployment, heq, -⟩ := createInvokes_some hinvokes
    cases heq
  | _ => cases hinvokes

end

/-! ## Executions -/

section

variable (vms : VirtualMachines) (db : StateTables) (sender : Address)

/-- In an execution, every L1XVM contract whose program comes to run sees the one that has issued its call. -/
def KnowsCaller (address : Invocation → Address) (root : Invocation) (s₀ : UpdatedState) : Prop :=
  ∀ origin call s, Started vms db root s₀ origin (.call .L1XVM call) s →
    (ExecuteContractL1xvm.start vms db call s).isSome → call.SeesCaller (origin.issuer address sender)

/-- A property of every call of an EVM contract that runs an L1XVM contract in an execution: of the opcode, the
    contract that makes the call, and its context. -/
def EvmCallsL1xvm (root : Invocation) (s₀ : UpdatedState)
    (P : CallScheme → Invocation → Context → Prop) : Prop :=
  ∀ origin issuer s, Started vms db root s₀ origin issuer s →
    ∀ r c self call manager, (r, c, self) ∈ ExecuteContractEvm.requests vms db issuer s →
      c.invokes db r.frame ExecuteContractEvm.config vms.evm.precompiles self =
        some (.call .L1XVM call, manager) →
      (ExecuteContractL1xvm.start vms db call manager.updatedState).isSome →
      ∀ scheme target value input gas,
        c = CallScheme.handlerCall scheme r.context target value input gas → P scheme issuer r.context

variable {vms} {db} {sender}

/-- **Whom the callees see.** For either notion of the address of a contract, an L1XVM contract sees the one
    that has called it in the whole execution if and only if every EVM contract that calls one does so with
    that address for the caller. -/
theorem knowsCaller_iff (hruntime : vms.evm.PassesContext) {address : Invocation → Address}
    (haddress : ∀ call, address (.call .L1XVM call) = call.contractInstance.instanceAddress)
    (hroot : ∀ call, root = .call .L1XVM call → call.accountAddress = sender) :
    KnowsCaller vms db sender address root s₀ ↔
      EvmCallsL1xvm vms db root s₀ fun scheme issuer own => scheme.caller own = address issuer := by
  constructor
  · intro hknows origin issuer s hissuer r c self call manager hrequest hinvokes hruns
    rintro scheme target value input gas rfl
    have hstarted : Started vms db root s₀ (.contract issuer manager) (.call .L1XVM call)
        manager.updatedState := .nested hissuer (Invocation.mem_calls.mpr (.inr ⟨r, _, self, hrequest, hinvokes⟩))
    rw [← CallScheme.invokes_accountAddress hinvokes]
    exact (hknows _ _ _ hstarted hruns).accountAddress
  · intro hpasses origin call s hstarted hruns
    suffices hcaller : call.accountAddress = _ from ⟨hcaller, fun _ => hcaller⟩
    -- the call was issued by the transaction, by an L1XVM contract or by an EVM contract
    generalize hchild : Invocation.call .L1XVM call = child at hstarted
    cases hstarted with
    | root => exact hroot call hchild.symm
    | nested hissuer hcall =>
      subst hchild
      rcases Invocation.mem_calls.mp hcall with
        ⟨made, vm, c, self, rfl, -, hinvokes⟩ | ⟨r, c, self, hrequest, hinvokes⟩
      · rw [Syscall.invokes_accountAddress hinvokes]
        exact (haddress made).symm
      · obtain ⟨scheme, target, value, input, gas, rfl⟩ := hruntime.scheme hrequest hinvokes
        rw [CallScheme.invokes_accountAddress hinvokes]
        exact hpasses _ _ _ hissuer r _ self call _ hrequest hinvokes hruns scheme target value input gas
          rfl

/-- The context of an EVM contract has its own address. -/
theorem EvmCallsL1xvm.congr {P Q : CallScheme → Invocation → Context → Prop}
    (h : ∀ scheme (issuer : Invocation) (own : Context), own.address = issuer.ownAddress vms.crypto →
      (P scheme issuer own ↔ Q scheme issuer own)) :
    EvmCallsL1xvm vms db root s₀ P ↔ EvmCallsL1xvm vms db root s₀ Q := by
  have himplies : ∀ P Q : CallScheme → Invocation → Context → Prop,
      (∀ scheme (issuer : Invocation) (own : Context), own.address = issuer.ownAddress vms.crypto →
        P scheme issuer own → Q scheme issuer own) →
      EvmCallsL1xvm vms db root s₀ P → EvmCallsL1xvm vms db root s₀ Q := by
    intro P Q hPQ hP origin issuer s hissuer r c self call manager hrequest hinvokes hruns scheme target
      value input gas hc
    obtain ⟨self₀, hstart, -⟩ := ExecuteContractEvm.mem_requests hrequest
    obtain ⟨hr, -, -⟩ := ExecuteContractEvm.start_some hstart
    have hown : r.context.address = issuer.ownAddress vms.crypto := by
      cases hr with
      | call | create => rfl
    apply hPQ scheme issuer r.context hown
    exact hP origin issuer s hissuer r c self call manager hrequest hinvokes hruns scheme target value input
      gas hc
  constructor
  · exact himplies P Q fun scheme issuer own hown => (h scheme issuer own hown).mp
  · exact himplies Q P fun scheme issuer own hown => (h scheme issuer own hown).mpr

/-- The contract that a transaction runs is started with the sender, and is not nested. -/
theorem TransactionContext.runs_root {cx : TransactionContext} {tx : Transaction} {s : UpdatedState}
    (h : cx.runs vms tx s = some (root, s₀)) : root.account = cx.accountAddress ∧ root.depth = 0 := by
  unfold runs at h
  split at h
  · next request e hrequest =>
      obtain ⟨hsender, -⟩ := requestOf_prepared hrequest
      rw [← hsender]
      unfold ContractRequest.root at h
      split at h
      · cases h
        exact ⟨rfl, rfl⟩
      · cases h
      · split at h
        · cases h
        · cases h
          exact ⟨rfl, rfl⟩
      · cases h
      · cases h
        exact ⟨rfl, rfl⟩
  · cases h

end

/-- **When every L1XVM contract knows its caller.** Let a transaction run a contract, which calls others, which
    call others in turn, of both engines and with any of the call opcodes. Every L1XVM contract among them has
    the contract that has called it for its caller, or the sender for the one that the transaction runs, if and
    only if no EVM contract makes a `DELEGATECALL` of an L1XVM contract, except one that has itself for its
    caller.

    Here the contract that has called is the account that the calling code runs as. If it is to be the account
    whose code has made the call, then moreover no EVM contract may call an L1XVM contract while it runs as
    another account, that is when it was called with `CALLCODE` or `DELEGATECALL` itself. -/
theorem l1xvm_caller_known_iff (vms : VirtualMachines) (hruntime : vms.evm.PassesContext)
    (cx : TransactionContext) (tx : Transaction) (s s₀ : UpdatedState) (root : Invocation)
    (hruns : cx.runs vms tx s = some (root, s₀)) :
    (KnowsCaller vms cx.db cx.accountAddress (fun issuer => issuer.ownAddress vms.crypto) root s₀ ↔
      EvmCallsL1xvm vms cx.db root s₀ fun scheme _ own =>
        scheme = .delegateCall → own.caller = own.address) ∧
    (KnowsCaller vms cx.db cx.accountAddress (fun issuer => issuer.codeAddress vms.crypto) root s₀ ↔
      EvmCallsL1xvm vms cx.db root s₀ fun scheme issuer own =>
        (scheme = .delegateCall → own.caller = issuer.codeAddress vms.crypto) ∧
        (scheme ≠ .delegateCall → own.address = issuer.codeAddress vms.crypto)) := by
  have hroot : ∀ call, root = .call .L1XVM call → call.accountAddress = cx.accountAddress := by
    rintro call rfl
    exact (TransactionContext.runs_root hruns).1
  constructor
  · rw [knowsCaller_iff hruntime (fun _ => rfl) hroot]
    apply EvmCallsL1xvm.congr
    intro scheme issuer own hown
    by_cases hscheme : scheme = .delegateCall
    · rw [CallScheme.caller, if_pos hscheme, ← hown]
      exact ⟨fun h _ => h, fun h => h hscheme⟩
    · rw [CallScheme.caller, if_neg hscheme]
      exact ⟨fun _ h => absurd h hscheme, fun _ => hown⟩
  · rw [knowsCaller_iff hruntime (fun _ => rfl) hroot]
    apply EvmCallsL1xvm.congr
    intro scheme issuer own hown
    by_cases hscheme : scheme = .delegateCall
    · rw [CallScheme.caller, if_pos hscheme]
      exact ⟨fun h => ⟨fun _ => h, fun h => absurd hscheme h⟩, fun h => h.1 hscheme⟩
    · rw [CallScheme.caller, if_neg hscheme]
      exact ⟨fun h => ⟨fun h => absurd h hscheme, fun _ => h⟩, fun h => h.2 hscheme⟩

namespace Small

/-- EVM contracts that call the L1XVM contract with the code 11 with some opcode, which takes 40 tokens from
    its caller. -/
def callingMachines (scheme : CallScheme) : VirtualMachines :=
  { virtualMachines with
    ebpf :=
      { virtualMachines.ebpf with
        link := fun _ _ => .ok (memory, .ask (.transferFromCaller 20 16) fun _ => .done (.ok 0)) }
    evm :=
      { program := fun _ _ own =>
          .ask (scheme.handlerCall own (instanceOf 11).instanceAddress 0 [] (some 1000)) fun _ =>
            .done evmExit
        precompiles := fun _ _ _ => (.ok (), []) } }

theorem callingMachines_passesContext {scheme : CallScheme} : (callingMachines scheme).evm.PassesContext := by
  intro code arguments own
  refine ⟨?_, fun _ => trivial⟩
  cases scheme with
  | call => exact ⟨.call, 0, some 1000, rfl⟩
  | callCode => exact ⟨.callCode, 0, some 1000, rfl⟩
  | delegateCall => exact ⟨.delegateCall, 0, some 1000, rfl⟩
  | staticCall => exact ⟨.staticCall, 0, some 1000, rfl⟩

/-- A transaction with these contracts. -/
def callingContext (scheme : CallScheme) : TransactionContext := senderContext (callingMachines scheme).executor

/-- The contract that the transaction runs calls an L1XVM contract, which runs with the caller `caller`. -/
def calledBy (scheme : CallScheme) (caller : Address) (root : Invocation) (s₀ : UpdatedState) : Bool :=
  (root.calls (callingMachines scheme) (callingContext scheme).db s₀).any fun
    | (.call .L1XVM call, manager) =>
      call.accountAddress = caller &&
        (ExecuteContractL1xvm.start (callingMachines scheme) (callingContext scheme).db call
          manager.updatedState).isSome
    | _ => false

/-- What the sender has left when the contract has ended. -/
def senderLeft (scheme : CallScheme) (root : Invocation) (s₀ : UpdatedState) : Option Balance :=
  match root with
  | .call contractType call =>
    let after :=
      ((contractEngines (callingMachines scheme) (callingContext scheme).db).run contractType call s₀)
    ((UpdatedState.view (callingContext scheme).db after.updatedState).account 0x77).map Account.balance
  | .create _ => none

end Small

open L1xCore.Small

/-- With `CALL`, the L1XVM contract sees the EVM contract. -/
theorem l1xvm_caller_known_of_call :
    ∃ root s₀, (callingContext .call).runs (callingMachines .call) (callTransaction 14) .new =
        some (root, s₀) ∧
      calledBy .call (instanceOf 14).instanceAddress root s₀ = true ∧
      KnowsCaller (callingMachines .call) (callingContext .call).db 0x77
        (fun issuer => issuer.ownAddress crypto) root s₀ := by
  have hruns : (((callingContext .call).runs (callingMachines .call) (callTransaction 14) .new).any fun run =>
      calledBy .call (instanceOf 14).instanceAddress run.1 run.2) = true := by decide +kernel
  obtain ⟨⟨root, s₀⟩, hrun, hcalled⟩ := (Option.any_eq_true _ _).mp hruns
  refine ⟨root, s₀, hrun, hcalled, ?_⟩
  apply (l1xvm_caller_known_iff _ callingMachines_passesContext (callingContext .call)
    (callTransaction 14) .new s₀ root hrun).1.mpr
  intro origin issuer s hissuer r c self call manager hrequest hinvokes hstarts scheme target value input gas
    hc
  -- every request of these contracts carries a transfer
  obtain ⟨self₀, -, htrace⟩ := ExecuteContractEvm.mem_requests hrequest
  have hall : ((callingMachines .call).evm.program r.contractCode r.arguments r.context).All
      fun c => c.keepsStatic = true := ⟨rfl, fun _ => trivial⟩
  have hkeeps := hall.of_mem_trace htrace
  rw [hc, CallScheme.keepsStatic_iff] at hkeeps
  intro hscheme
  exact absurd hscheme hkeeps

/-- **With `DELEGATECALL`, the L1XVM contract sees the sender.** Not the EVM contract that has called it, by
    its account or by its code, but the account 0x77, which has called that contract, is who it takes the 40
    tokens from. -/
theorem l1xvm_caller_hidden :
    ∃ root s₀, (callingContext .delegateCall).runs (callingMachines .delegateCall) (callTransaction 14) .new =
        some (root, s₀) ∧
      ¬ KnowsCaller (callingMachines .delegateCall) (callingContext .delegateCall).db 0x77
        (fun issuer => issuer.ownAddress crypto) root s₀ ∧
      ¬ KnowsCaller (callingMachines .delegateCall) (callingContext .delegateCall).db 0x77
        (fun issuer => issuer.codeAddress crypto) root s₀ ∧ senderLeft .delegateCall root s₀ = some 960 := by
  have hruns : (((callingContext .delegateCall).runs (callingMachines .delegateCall) (callTransaction 14)
      .new).any fun run =>
        calledBy .delegateCall 0x77 run.1 run.2 && run.1.ownAddress crypto ≠ 0x77 &&
          run.1.codeAddress crypto ≠ 0x77 && senderLeft .delegateCall run.1 run.2 = some 960) = true := by
    decide +kernel
  obtain ⟨⟨root, s₀⟩, hrun, hcalled⟩ := (Option.any_eq_true _ _).mp hruns
  simp only [Bool.and_eq_true, decide_eq_true_eq] at hcalled
  obtain ⟨⟨⟨hcalled, hown⟩, hcode⟩, hleft⟩ := hcalled
  obtain ⟨⟨child, manager⟩, hmem, hchild⟩ := List.any_eq_true.mp hcalled
  have hhidden : ∀ address : Invocation → Address, address root ≠ 0x77 →
      ¬ KnowsCaller (callingMachines .delegateCall) (callingContext .delegateCall).db 0x77 address root
        s₀ := by
    intro address hne hknows
    cases child with
    | create deployment => cases hchild
    | call contractType call =>
      cases contractType with
      | L1XVM =>
        obtain ⟨hcaller, hstarts⟩ := Bool.and_eq_true_iff.mp hchild
        have hseen := (hknows _ _ _ (.nested .root hmem) hstarts).accountAddress
        exact hne (hseen.symm.trans (of_decide_eq_true hcaller))
      | EVM => cases hchild
      | XTALK => cases hchild
  exact ⟨root, s₀, hrun, hhidden _ hown, hhidden _ hcode, hleft⟩

end L1xCore
