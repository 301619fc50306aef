import L1xCore.Execute.GasReports
import L1xCore.Execute.ReadOnlyCalls

/-!
# `Execute.EvmGas` — what the gas limit of an EVM contract bounds

The interpreter calls `pre_validate` before every opcode, and the handler could charge the meter there. It does
not: it only looks the opcode up in a list. What is charged is what a called or created contract reports, and the
transaction cost at the very end. If the meter refuses such a charge, the refusal is logged, and neither the
program nor the exit reason of the frame learns of it (`executeEvmRuntime_isSucceed`). The gas limit of a call or
a creation is the one the program names; the gas that is left is only the default.

So no gas limit bounds the frames that have it: one contract exceeds every gas limit it is given
(`evm_gas_never_bounds`).
-/

namespace L1xCore

open Fallible Handler BitVec

variable {c : HandlerCall} {manager : ContractInstanceManager} {child : Invocation} {pc' : Nat}
  {stack' : List U256}

/-! ## What a request asks for -/

/-- An opcode is executed after this request: it is a `pre_validate` that lets the opcode pass. -/
def HandlerCall.executesOpcode : HandlerCall → Bool
  | preValidate opcode => (Handler.preValidate opcode).isOk
  | _ => false

def Invocation.gasLimit : Invocation → Gas
  | call _ made => made.gasLimit
  | create deployment => deployment.gasLimit

/-- The handler refuses to go on. -/
def HandlerCall.Refuses : (c : HandlerCall) → c.Answer → Prop
  | preValidate _, answer => Except.isOk answer = false
  | recordExternalOperation, answer => Except.isOk answer = false
  | _, _ => False

/-- A program that is refused an opcode or an external operation ends with an error, whatever the other answers
    are. -/
def EvmProgram.StopsOnRefusal : EvmProgram → Prop
  | .done _ => True
  | .ask c next =>
    (∀ answer, c.Refuses answer → ∃ exit, next answer = .done exit ∧ exit.capture.reason.isSucceed = false) ∧
    ∀ answer, EvmProgram.StopsOnRefusal (next answer)

def EvmRuntime.StopsOnRefusal (evm : EvmRuntime) : Prop :=
  ∀ code arguments own, EvmProgram.StopsOnRefusal (evm.program code arguments own)

/-! ## Frames -/

namespace ExecuteContractEvm

section

variable (vms : VirtualMachines) (db : StateTables) (r : RuntimeCall) (s : UpdatedState)

/-- The requests that are made in a frame, each with the manager as it is then. -/
def frameRequests : List (HandlerCall × ContractInstanceManager) :=
  if MAX_CROSS_CONTRACT_CALL_DEPTH < r.currentCallDepth then []
  else
    (vms.evm.program r.contractCode r.arguments r.context).trace
      (answer vms db (contractEngines vms db) r.frame) (.new r.gasLimit s)

/-- The number of opcodes that are executed for some requests. -/
def opcodes (requests : List (HandlerCall × ContractInstanceManager)) : Nat :=
  requests.countP fun request => request.1.executesOpcode

/-- The contracts that are run from a frame, each with the manager of the frame as it is then. -/
def frameCalls : List (Invocation × ContractInstanceManager) :=
  (frameRequests vms db r s).filterMap fun (c, self) =>
    c.invokes db r.frame config vms.evm.precompiles self

/-- The frame comes to its end with the result of the program. -/
def succeeds : Bool := (executeEvmRuntime vms db (contractEngines vms db) r s).outcome.1.isSucceed

/-- The gas of a frame is exhausted: its meter refuses what a contract that it has run is reported with, or the
    transaction cost. -/
inductive Exhausted : Prop
  | call {child : Invocation} {manager : ContractInstanceManager} {e : Error}
      (hcall : (child, manager) ∈ frameCalls vms db r s)
      (hrefused : manager.gasometer.recordGas64 (child.report vms db manager.updatedState).2 = .error e)
  | transactionCost {exit : EvmExit} {manager : ContractInstanceManager} {e : Error}
      (hran : ran vms db r (.new r.gasLimit s) = (.ok exit, manager))
      (hrefused : manager.gasometer.recordGas64 (transactionCost r) = .error e)

/-- A frame is bounded by its gas. -/
structure BoundedByGas : Prop where
  opcodes_le : opcodes (frameRequests vms db r s) ≤ r.gasLimit.toNat
  gasLimit_le : ∀ child manager, (child, manager) ∈ frameCalls vms db r s →
    child.gasLimit ≤ manager.gasometer.gas64
  error_of_exhausted : Exhausted vms db r s → succeeds vms db r s = false

/-- The end of a program that is a success for the frame. -/
def exitSucceeds (exit : EvmExit) : Bool :=
  (cleanup r.runtimeKind exit.capture.reason exit.returnValue).isOk && exit.finishError.isNone

end

variable {vms : VirtualMachines} {db : StateTables} {r : RuntimeCall} {s : UpdatedState}

theorem run_conclude {exitReason : ExitReason} {returnData : Bytes} :
    ((conclude r exitReason returnData).run s).1 = .ok () := by
  unfold conclude
  split
  · split
    · rfl
    · rfl
  · split
    · rfl
    · rfl

/-- **The exit reason of a frame** depends on the end of its program only, and not on the meter. -/
theorem executeEvmRuntime_isSucceed (hdepth : ¬ MAX_CROSS_CONTRACT_CALL_DEPTH < r.currentCallDepth) :
    succeeds vms db r s =
      match ran vms db r (.new r.gasLimit s) with
      | (.ok exit, _) => exitSucceeds r exit
      | (.error _, _) => false := by
  unfold succeeds executeEvmRuntime ran
  rw [if_neg hdepth]
  dsimp only
  rcases hran : ((vms.evm.program r.contractCode r.arguments r.context).run
    (answer vms db (contractEngines vms db) r.frame)).run (.new r.gasLimit s) with ⟨e | exit, manager⟩
  · rfl
  dsimp only
  -- storing the contract or the event does not fail
  have hconclude : ∀ exitReason s', ∃ s'',
      (conclude r exitReason exit.returnValue).run s' = (.ok (), s'') := fun exitReason s' =>
    ⟨_, Prod.ext run_conclude rfl⟩
  unfold exitSucceeds
  cases cleanup r.runtimeKind exit.capture.reason exit.returnValue with
  | error e =>
    obtain ⟨s'', hs''⟩ := hconclude (.error e) s
    rw [hs'']
    rfl
  | ok _ =>
    cases exit.finishError with
    | some e =>
      obtain ⟨s'', hs''⟩ := hconclude (.error e) s
      rw [hs'']
      rfl
    | none =>
      obtain ⟨s'', hs''⟩ := hconclude .succeed (s.merge manager.updatedState)
      rw [hs'']
      rfl

end ExecuteContractEvm

/-! ## A small interpreter -/

namespace Small

/-- What an opcode does. -/
inductive Effect where
  | stop
  | goto (pc : Nat) (stack : List U256)
  | gas (stack : List U256)
  | call (gas : Option Gas) (target : Address) (value : U256) (stack : List U256)
  | fail (e : Error)

/-- Some opcodes of the EVM: `STOP`, `ADD`, `SUB`, `JUMPI`, `GAS`, `JUMPDEST`, `PUSH1`, `PUSH2`, `DUP1`, `SWAP1`
    and `CALL`. There is no memory, so a call has no input. -/
def effect (code : Bytes) (pc : Nat) (stack : List U256) : Effect :=
  match code.getD pc 0x00, stack with
  | 0x00, _ => .stop
  | 0x01, a :: b :: stack => .goto (pc + 1) ((a + b) :: stack)
  | 0x03, a :: b :: stack => .goto (pc + 1) ((a - b) :: stack)
  | 0x57, target :: condition :: stack => .goto (if condition = 0 then pc + 1 else target.toNat) stack
  | 0x5a, stack => .gas stack
  | 0x5b, stack => .goto (pc + 1) stack
  | 0x60, stack => .goto (pc + 2) (ofBytes 256 ((code.drop (pc + 1)).take 1) :: stack)
  | 0x61, stack => .goto (pc + 3) (ofBytes 256 ((code.drop (pc + 1)).take 2) :: stack)
  | 0x80, a :: stack => .goto (pc + 1) (a :: a :: stack)
  | 0x90, a :: b :: stack => .goto (pc + 1) (b :: a :: stack)
  | 0xf1, gas :: target :: value :: _ :: _ :: _ :: _ :: stack =>
    .call (if gas.toNat < 2 ^ 64 then some (gas.setWidth 64) else none) (target.setWidth 160) value stack
  | _, _ => .fail "DesignatedInvalid"

/-- Interpret a code, for at most `fuel` opcodes. Each of them is validated before it is executed. -/
def interpret (code : Bytes) (own : Context) : Nat → Nat → List U256 → EvmProgram
  | 0, _, _ => .done ⟨.exit (.error "out of fuel"), [], none⟩
  | fuel + 1, pc, stack =>
    .ask (.preValidate (code.getD pc 0x00)) fun (validated : Except Error Unit) =>
      match validated with
      | .error e => .done ⟨.exit (.error e), [], none⟩
      | .ok _ =>
        match effect code pc stack with
        | .stop => .done evmExit
        | .fail e => .done ⟨.exit (.error e), [], none⟩
        | .goto pc stack => interpret code own fuel pc stack
        | .gas stack =>
          .ask .gasLeft fun (gasLeft : U256) => interpret code own fuel (pc + 1) (gasLeft :: stack)
        | .call gas target value stack =>
          .ask (CallScheme.call.handlerCall own target value [] gas) fun (capture : Capture) =>
            interpret code own fuel (pc + 1) ((if capture.isSucceed then 1 else 0) :: stack)

/-- The engines with this interpreter. -/
def interpreting (fuel : Nat) : VirtualMachines :=
  { virtualMachines with
    evm :=
      { program := fun code _ own => interpret code own fuel 0 []
        precompiles := fun _ _ _ => (.ok (), []) } }

theorem interpreting_stopsOnRefusal (fuel : Nat) : (interpreting fuel).evm.StopsOnRefusal := by
  intro code arguments own
  suffices h : ∀ fuel pc stack, EvmProgram.StopsOnRefusal (interpret code own fuel pc stack) from
    h fuel 0 []
  intro fuel
  induction fuel with
  | zero => exact fun _ _ => trivial
  | succ fuel ih =>
    intro pc stack
    refine ⟨?_, ?_⟩
    · intro validated hrefused
      cases validated with
      | ok _ => cases hrefused
      | error e => exact ⟨_, rfl, rfl⟩
    · intro validated
      cases validated with
      | error e => exact trivial
      | ok _ =>
        cases effect code pc stack with
        | stop => exact trivial
        | fail e => exact trivial
        | goto pc stack => exact ih pc stack
        | gas stack => exact ⟨fun _ h => h.elim, fun _ => ih _ _⟩
        | call gas target value stack => exact ⟨fun _ h => h.elim, fun _ => ih _ _⟩

/-- A call of a contract with this code, which holds nothing and is given `gasLimit` gas. -/
def gasCall (code : ContractCode) (gasLimit : Gas) : RuntimeCall :=
  ExecuteContractEvm.runtimeCall
    { readOnlyCall 14 .EVM with contract := { contractOf 14 .EVM with code }, gasLimit, readonly := false }

/-- A contract that reads how much gas it has left, and counts one more than that down to zero. -/
def countdown : ContractCode :=
  [0x5a, 0x60, 0x01, 0x01, 0x5b, 0x60, 0x01, 0x90, 0x03, 0x80, 0x60, 0x04, 0x57, 0x00]

/-- A contract that calls the EVM contract with the code 13, for which it names 255 gas. -/
def generous : ContractCode :=
  [0x60, 0x00, 0x60, 0x00, 0x60, 0x00, 0x60, 0x00, 0x60, 0x00, 0x61, 0x01, 0x0d, 0x60, 0xff, 0xf1, 0x00]

/-- Run by a frame whose meter is `meter`, a program executes `n` opcodes, ends with `exit`, and leaves the meter
    as it is. -/
def Executes (vms : VirtualMachines) (db : StateTables) (frame : Frame) (meter : GasometerState) (n : Nat)
    (exit : EvmExit) (program : EvmProgram) : Prop :=
  ∀ self : ContractInstanceManager, self.gasometer = meter →
    ExecuteContractEvm.opcodes
        (program.trace (ExecuteContractEvm.answer vms db (contractEngines vms db) frame) self) = n ∧
      ∃ self' : ContractInstanceManager,
        (program.run (ExecuteContractEvm.answer vms db (contractEngines vms db) frame)).run self =
            (.ok exit, self') ∧ self'.gasometer = meter

section

variable {vms : VirtualMachines} {db : StateTables} {frame : Frame} {meter : GasometerState}
  {code : Bytes} {own : Context} {fuel pc n : Nat} {stack : List U256} {exit : EvmExit}

theorem executes_done : Executes vms db frame meter 0 exit (.done exit) :=
  fun self hself => ⟨rfl, self, rfl, hself⟩

theorem executes_ask {a : c.Answer} {next : c.Answer → EvmProgram}
    (hanswer : ∀ self : ContractInstanceManager, self.gasometer = meter → ∃ self' : ContractInstanceManager,
      (ExecuteContractEvm.answer vms db (contractEngines vms db) frame c).run self = (.ok a, self') ∧
        self'.gasometer = meter) (h : Executes vms db frame meter n exit (next a)) :
    Executes vms db frame meter (n + if c.executesOpcode = true then 1 else 0) exit (.ask c next) := by
  intro self hself
  obtain ⟨self₁, hrun, hself₁⟩ := hanswer self hself
  obtain ⟨hcount, self₂, hend, hself₂⟩ := h self₁ hself₁
  refine ⟨?_, self₂, ?_, hself₂⟩
  · rw [Interaction.trace, hrun, ExecuteContractEvm.opcodes, List.countP_cons]
    exact congrArg (· + _) hcount
  · rw [Interaction.run, run_bind_of_ok hrun]
    exact hend

section

variable (hvalid : preValidate (code.getD pc 0x00) = .ok ())

include hvalid

/-- An opcode that is let pass. The meter is not charged for it. -/
theorem executes_preValidate {next : Except Error Unit → EvmProgram}
    (h : Executes vms db frame meter n exit (next (.ok ()))) :
    Executes vms db frame meter (n + 1) exit (.ask (.preValidate (code.getD pc 0x00)) next) := by
  have hopcode : (HandlerCall.preValidate (code.getD pc 0x00)).executesOpcode = true := by
    show (preValidate (code.getD pc 0x00)).isOk = true
    rw [hvalid]
    rfl
  have hask := executes_ask (c := .preValidate (code.getD pc 0x00)) (a := .ok ()) ?_ h
  · rw [if_pos hopcode] at hask
    exact hask
  · intro self hself
    rw [← hvalid]
    exact ⟨_, rfl, hself⟩

theorem executes_goto (heffect : effect code pc stack = .goto pc' stack')
    (h : Executes vms db frame meter n exit (interpret code own fuel pc' stack')) :
    Executes vms db frame meter (n + 1) exit (interpret code own (fuel + 1) pc stack) := by
  rw [interpret]
  apply executes_preValidate hvalid
  rw [heffect]
  exact h

theorem executes_gas (heffect : effect code pc stack = .gas stack') (h : Executes vms db frame meter n exit
      (interpret code own fuel (pc + 1) (meter.gas64.setWidth 256 :: stack'))) :
    Executes vms db frame meter (n + 1) exit (interpret code own (fuel + 1) pc stack) := by
  rw [interpret]
  apply executes_preValidate hvalid
  rw [heffect]
  apply executes_ask _ h
  rintro self rfl
  exact ⟨_, rfl, rfl⟩

end

/-! ## Counting down -/

theorem executes_round {x : U256} (hjump : (if x - 1 = 0 then 13 else 4) = pc')
    (h : Executes vms db frame meter n exit (interpret countdown own fuel pc' [x - 1])) :
    Executes vms db frame meter (n + 7) exit (interpret countdown own (fuel + 7) 4 [x]) := by
  have hone : ofBytes 256 (.take 1 (.drop 6 countdown)) = 1 := by decide
  have hfour : (ofBytes 256 (.take 1 (.drop 11 countdown))).toNat = 4 := by decide
  -- `JUMPDEST`, `PUSH1 1`, `SWAP1`, `SUB`, `DUP1`, `PUSH1 4` and `JUMPI`
  apply executes_goto rfl rfl
  apply executes_goto rfl rfl
  apply executes_goto rfl rfl
  apply executes_goto rfl rfl
  apply executes_goto rfl rfl
  apply executes_goto rfl rfl
  apply executes_goto rfl rfl
  rw [hone, hfour, hjump]
  exact h

theorem ofNat_succ_sub_one (k : Nat) : BitVec.ofNat 256 (k + 1) - 1 = .ofNat 256 k := by
  rw [ofNat_add]
  exact add_sub_cancel _ _

/-- Counting down from `k + 1` takes `k + 1` rounds, and the opcode that stops the program. -/
theorem executes_loop {k : Nat} (hk : k < 2 ^ 256) (hfuel : 7 * k + 8 ≤ fuel) :
    Executes vms db frame meter (7 * k + 8) evmExit
      (interpret countdown own fuel 4 [.ofNat 256 (k + 1)]) := by
  induction k generalizing fuel with
  | zero =>
    obtain ⟨fuel, rfl⟩ := Nat.exists_eq_add_of_le' hfuel
    have hlast : (if BitVec.ofNat 256 1 - 1 = 0 then 13 else 4) = 13 := by decide
    apply executes_round hlast
    rw [interpret]
    apply executes_preValidate rfl
    exact executes_done
  | succ k ih =>
    obtain ⟨fuel, rfl⟩ := Nat.exists_eq_add_of_le' (show 7 ≤ fuel by omega)
    have hne : BitVec.ofNat 256 (k + 1) ≠ 0 := by
      intro hzero
      have hnat := congrArg BitVec.toNat hzero
      rw [toNat_ofNat, Nat.mod_eq_of_lt hk] at hnat
      exact Nat.succ_ne_zero k hnat
    have hround : 7 * (k + 1) + 8 = (7 * k + 8) + 7 := by omega
    rw [hround]
    apply executes_round
    · rw [ofNat_succ_sub_one, if_neg hne]
    · rw [ofNat_succ_sub_one]
      exact ih (by omega) (by omega)

/-- The contract counts down from one more than the gas that is left. -/
theorem executes_countdown {gasLeft : Gas} (hleft : meter.gas64 = gasLeft)
    (hfuel : 7 * gasLeft.toNat + 11 ≤ fuel) :
    Executes vms db frame meter (7 * gasLeft.toNat + 11) evmExit (interpret countdown own fuel 0 []) := by
  obtain ⟨fuel, rfl⟩ := Nat.exists_eq_add_of_le' (show 3 ≤ fuel by omega)
  have hone : ofBytes 256 (.take 1 (.drop 2 countdown)) = 1 := by decide
  have hcount : 1 + gasLeft.setWidth 256 = .ofNat 256 (gasLeft.toNat + 1) := by
    apply eq_of_toNat_eq
    rw [toNat_add, toNat_setWidth, toNat_ofNat]
    show (1 + _) % _ = _
    omega
  -- `GAS`, `PUSH1 1` and `ADD`
  apply executes_gas rfl rfl
  apply executes_goto rfl rfl
  apply executes_goto rfl rfl
  rw [hone, hleft, hcount]
  exact executes_loop (by omega) (by omega)

/-- Fuel for every gas limit. -/
def enoughFuel : Nat := 7 * 2 ^ 64 + 11

end

end Small

open L1xCore.Small ExecuteContractEvm

theorem countdown_exceeds {gasLimit : Gas} :
    let vms := interpreting enoughFuel
    gasLimit.toNat < opcodes (frameRequests vms contractTables (gasCall countdown gasLimit) .new) ∧
      succeeds vms contractTables (gasCall countdown gasLimit) .new = true ∧
      (gasLimit < 21000 → Exhausted vms contractTables (gasCall countdown gasLimit) .new) := by
  intro vms
  have hleft : (GasometerState.new gasLimit).gas64 = gasLimit := by
    show gasLimit - 0#64 - 0#64 = gasLimit
    rw [BitVec.sub_zero, BitVec.sub_zero]
  have hfuel : 7 * gasLimit.toNat + 11 ≤ enoughFuel := by
    have hlt := gasLimit.isLt
    unfold enoughFuel
    omega
  have hexecutes : Executes vms contractTables (gasCall countdown gasLimit).frame (.new gasLimit)
      (7 * gasLimit.toNat + 11) evmExit
      (interpret countdown (gasCall countdown gasLimit).context enoughFuel 0 []) :=
    executes_countdown hleft hfuel
  obtain ⟨hopcodes, manager, hran, hmeter⟩ := hexecutes (.new gasLimit .new) rfl
  have hdepth : ¬ MAX_CROSS_CONTRACT_CALL_DEPTH < (gasCall countdown gasLimit).currentCallDepth := by
    show ¬ MAX_CROSS_CONTRACT_CALL_DEPTH < 0
    exact Nat.not_lt_zero _
  refine ⟨?_, ?_, ?_⟩
  · rw [frameRequests, if_neg hdepth]
    refine lt_of_lt_of_eq ?_ hopcodes.symm
    omega
  · have hends : ran vms contractTables (gasCall countdown gasLimit)
        (.new (gasCall countdown gasLimit).gasLimit .new) = (.ok evmExit, manager) := hran
    rw [executeEvmRuntime_isSucceed hdepth, hends]
    rfl
  · intro hlimit
    apply Exhausted.transactionCost hran (e := "OutOfGas")
    rw [hmeter]
    have hcost : transactionCost (gasCall countdown gasLimit) = 21000 := rfl
    have hused : (GasometerState.new gasLimit).totalUsedGas.checkedAdd 21000 = some 21000 := by
      show (0 : Gas).checkedAdd 21000 = some 21000
      decide
    rw [hcost, GasometerState.recordGas64, hused]
    exact if_pos hlimit

/-- **No gas limit bounds the frames that have it.** For every gas limit there is a contract whose frame is not
    bounded by it, with one interpreter for all of them, which stops when it is refused an opcode: the same
    contract executes more opcodes than it has gas and succeeds, whatever its gas limit is. -/
theorem evm_gas_never_bounds (gasLimit : Gas) :
    (interpreting enoughFuel).evm.StopsOnRefusal ∧
      ¬ ∀ code, BoundedByGas (interpreting enoughFuel) contractTables (gasCall code gasLimit) .new := by
  refine ⟨interpreting_stopsOnRefusal _, fun hbounded => ?_⟩
  exact absurd (hbounded countdown).opcodes_le countdown_exceeds.1.not_ge

/-- **All three bounds fail.** With 100 gas, a contract executes more than 100 opcodes, it succeeds although its gas
    is exhausted, since that is less than the transaction cost, and another one gives the contract that it calls
    255 gas. -/
theorem evm_gas_unbounded :
    let vms := interpreting enoughFuel
    100 < opcodes (frameRequests vms contractTables (gasCall countdown 100) .new) ∧
    (Exhausted vms contractTables (gasCall countdown 100) .new ∧
      succeeds vms contractTables (gasCall countdown 100) .new = true) ∧
    ∃ child manager,
      (child, manager) ∈ frameCalls (interpreting 20) contractTables (gasCall generous 100) .new ∧
      manager.gasometer.gas64 = 100 ∧ child.gasLimit = 255 := by
  intro vms
  obtain ⟨hopcodes, hsucceeds, hexhausted⟩ := @countdown_exceeds 100
  refine ⟨hopcodes, ⟨hexhausted (by decide), hsucceeds⟩, ?_⟩
  have hcalls : ((frameCalls (interpreting 20) contractTables (gasCall generous 100) .new).any
      fun call => call.2.gasometer.gas64 = 100 && call.1.gasLimit = 255) = true := by
    decide +kernel
  obtain ⟨⟨child, manager⟩, hmem, hgas⟩ := List.any_eq_true.mp hcalls
  obtain ⟨hleft, hlimit⟩ := Bool.and_eq_true_iff.mp hgas
  exact ⟨child, manager, hmem, of_decide_eq_true hleft, of_decide_eq_true hlimit⟩

end L1xCore
