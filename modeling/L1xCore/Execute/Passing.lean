import L1xCore.Execute.EstimateFee
import L1xCore.State.StakingOutcomes

/-!
# `Execute.Passing` — the transactions that pass, and what they cost

A transaction begins by paying for its size. Then it either asks an executor for a contract and pays for the
gas, or it does one piece of plain work on the overlay for a fixed fee. `passes_cases` says that there is no
third way to pass, and the lemmas after it say when each of the two goes through, at what fee, and on which
overlay it has worked.
-/

namespace L1xCore

open Fallible ExecutionOp UpdatedState FeeManager

variable {n : Nat} {m : FeeManager} {fee : Balance} {burntGas : Gas} {e e' : Execution}
  {transactionHash : TransactionHash} {nonce : Nonce} {α : Type} {s' s : UpdatedState}
  {request : ContractRequest} {m' : FeeManager} {size : Balance} {account : Account} {text : Error → Error}
  {executed : Executed} {event : Option ExecutionEvent} {a : Address}

/-! ## Fees taken out of a limit -/

namespace FeeManager

/-- The fees `n` have been taken out of the limit. -/
structure Took (n : Nat) (m m' : FeeManager) : Prop where
  feeLimit : m'.feeLimit = m.feeLimit
  leftLimit : m'.leftLimit.toNat + n = m.leftLimit.toNat

theorem Took.trans {k : Nat} {m'' : FeeManager} (h : Took k m m') (h' : Took n m' m'') :
    Took (k + n) m m'' := by
  refine ⟨h'.feeLimit.trans h.feeLimit, ?_⟩
  have hleft := h.leftLimit
  have hleft' := h'.leftLimit
  omega

theorem Took.getFeeUsed {limit : Balance} (h : Took n (new limit) m) :
    m.getFeeUsed.toNat = n ∧ n ≤ limit.toNat := by
  have hleft := h.leftLimit
  have hnew : (new limit).leftLimit = limit := rfl
  have hlimit : m.feeLimit = limit := h.feeLimit
  rw [hnew] at hleft
  rw [toNat_getFeeUsed, hlimit]
  omega

end FeeManager

theorem Execution.Charged.took (h : Charged n e e') : e.feeManager.Took n e'.feeManager :=
  ⟨h.feeLimit, h.leftLimit⟩

namespace TransactionContext

open Execution (Charged)

variable {cx : TransactionContext} {tx : Transaction} {kind : TransactionType} {x : StateOp α}

theorem run_chargeFee (h : fee.toNat ≤ e.feeManager.leftLimit.toNat) :
    ∃ m, (chargeFee fee).run e = (.ok (), { e with feeManager := m }) ∧ e.feeManager.Took fee.toNat m := by
  rcases e.feeManager.charge_cases fee with ⟨m, hcharge, hleft⟩ | ⟨-, hless⟩
  · refine ⟨m, ?_, feeLimit_charge hcharge, hleft⟩
    unfold chargeFee onFees
    rw [run_zoom, run_updateFee_ok hcharge]
  · omega

theorem updatedState_chargeFee (h : (chargeFee fee).run e = (.ok (), e')) :
    e'.updatedState = e.updatedState := by
  unfold chargeFee onFees at h
  obtain ⟨m, -, rfl⟩ := run_zoom_ok h
  rfl

/-! ## The opening -/

/-- A transaction that gets over its opening has paid for its size, and only read the overlay. -/
theorem opening_ok (h : (cx.opening tx).run e = (.ok (transactionHash, nonce), e')) :
    ∃ size, FeeConfig.config.transactionSizeFee tx = some size ∧
      e.feeManager.Took size.toNat e'.feeManager ∧ Remembers cx.db e.updatedState e'.updatedState := by
  obtain ⟨size, e₁, hfee, h⟩ := run_bind_ok h
  obtain ⟨⟨⟩, e₂, hcharge, h⟩ := run_bind_ok h
  obtain ⟨found, e₃, hhash, h⟩ := run_bind_ok h
  obtain ⟨read, e₄, hnonce, h⟩ := run_bind_ok h
  cases h
  obtain ⟨hsize, rfl⟩ := run_okOr_ok hfee
  obtain ⟨-, rfl⟩ := run_lift_ok hhash
  have htook := ((Charged.of_chargeFee hcharge).trans (.of_onState hnonce)).took
  obtain ⟨s₄, hread, rfl⟩ := run_zoom_ok hnonce
  refine ⟨size, hsize, htook, ?_⟩
  have hremembers : Moves (Remembers cx.db) (getNonce cx.db cx.accountAddress) :=
    (getAccount_remembers cx.accountAddress).bind fun _ => .pure _
  have hread' := hremembers.of_run hread
  rw [updatedState_chargeFee hcharge] at hread'
  exact hread'

/-! ## Plain work -/

theorem run_executeKind_plain (h : (cx.prepareKind tx transactionHash nonce).run e = (.ok none, e')) :
    (cx.executeKind tx transactionHash nonce).run e = (cx.plainKind tx nonce).run e' := by
  rw [executeKind_eq, run_bind_of_ok h]

theorem plainKind_of_type (h : tx.transactionType = kind) :
    cx.plainKind tx nonce = cx.plainKind { tx with transactionType := kind } nonce := by
  subst h
  rfl

theorem prepareKind_of_type (h : tx.transactionType = kind) :
    cx.prepareKind tx transactionHash nonce =
      cx.prepareKind { tx with transactionType := kind } transactionHash nonce := by
  subst h
  rfl

/-- A fixed fee, one operation on the overlay, and an event. -/
def plainWork {α : Type} (fee : Balance) (text : Error → Error) (x : StateOp α)
    (event : α → Option ExecutionEvent) : ExecutionOp Executed := do
  chargeFee fee
  let a ← mapError text (onState x)
  pure (.ok (), event a)

theorem plainWork_ok {event : α → Option ExecutionEvent}
    (h : (plainWork fee text x event).run e = (.ok executed, e')) :
    e.feeManager.Took fee.toNat e'.feeManager ∧ ∃ a, x.run e.updatedState = (.ok a, e'.updatedState) := by
  obtain ⟨⟨⟩, e₁, hcharge, h⟩ := run_bind_ok h
  obtain ⟨a, e₂, hwork, h⟩ := run_bind_ok h
  cases h
  have hwork := run_mapError_ok hwork
  have htook := ((Charged.of_chargeFee hcharge).trans (.of_onState hwork)).took
  obtain ⟨s', hrun, rfl⟩ := run_zoom_ok hwork
  rw [updatedState_chargeFee hcharge] at hrun
  exact ⟨htook, a, hrun⟩

/-! ## Requests -/

variable {cx : TransactionContext} {tx : Transaction} {x : StateOp α} {arguments : ContractArgument}
  {function : ContractFunction} {deposit : Balance} {db : StateTables}

/-- A request that is finished well was answered so, and the gas was paid for. -/
theorem finishRequest_ok (h : (cx.finishRequest request).run e = (.ok (.ok (), event), e')) :
    ∃ burntGas, (cx.executor.answer cx.db e.updatedState request).passes = some burntGas ∧
      e'.updatedState = cx.performed request e.updatedState ∧
      e.feeManager.Took (sellGas burntGas).toNat e'.feeManager := by
  obtain ⟨executed, text, hpasses, hrun⟩ := cx.run_finishRequest request e
  rw [hrun] at h
  cases hgas : (cx.executor.answer cx.db e.updatedState request).gas with
  | none =>
    rw [hgas] at h
    cases h
  | some burntGas =>
    rw [hgas] at h
    obtain ⟨⟨⟩, e₁, hcharge, h⟩ := run_bind_ok h
    cases h
    obtain ⟨m, hupdate, rfl⟩ := run_zoom_ok hcharge
    have hle := updateGasAndFeeUsed_ok_iff.mp (by rw [hupdate])
    obtain ⟨hlimit, -, hleft⟩ := updateGasAndFeeUsed_spec e.feeManager burntGas
    rw [hupdate] at hlimit hleft
    refine ⟨burntGas, (hpasses burntGas).mpr ⟨hgas, rfl⟩, rfl, hlimit, ?_⟩
    dsimp only at hle hleft ⊢
    omega

/-! ## Passing -/

/-- The transaction passes on the overlay `s`, costs `fee` and leaves the overlay `s'`. -/
def Passes (cx : TransactionContext) (tx : Transaction) (s : UpdatedState) (fee : Nat)
    (s' : UpdatedState) : Prop :=
  ∃ result, executeTransaction cx tx s = (.ok result, s') ∧ result.fee.toNat = fee

theorem passes_of_run (h : (cx.executeBody tx).run ⟨s, .new tx.feeLimit⟩ = (.ok (.ok (), event), e'))
    (htook : (FeeManager.new tx.feeLimit).Took n e'.feeManager) : cx.Passes tx s n e'.updatedState := by
  refine ⟨⟨event, e'.feeManager.getFeeUsed, e'.feeManager.gasUsed, true, none⟩, ?_, htook.getFeeUsed.1⟩
  unfold executeTransaction
  rw [h]

theorem Passes.run {fee : Nat} (h : cx.Passes tx s fee s') :
    ∃ event e', (cx.executeBody tx).run ⟨s, .new tx.feeLimit⟩ = (.ok (.ok (), event), e') ∧
      e'.updatedState = s' ∧ e'.feeManager.getFeeUsed.toNat = fee := by
  obtain ⟨result, hexec, hfee⟩ := h
  unfold executeTransaction at hexec
  rcases hrun : (cx.executeBody tx).run ⟨s, .new tx.feeLimit⟩ with ⟨error | ⟨error | ⟨⟩, event⟩, e'⟩
  · rw [hrun] at hexec
    cases hexec
  · rw [hrun] at hexec
    cases hexec
  · rw [hrun] at hexec
    cases hexec
    exact ⟨event, e', rfl, rfl, hfee⟩

/-- The overlay is only read. -/
def Looks (db : StateTables) (e e' : Execution) : Prop :=
  Remembers db e.updatedState e'.updatedState

instance (db : StateTables) : Std.Refl (Looks db) := ⟨fun _ => refl_of (Remembers db) _⟩

instance (db : StateTables) : IsTrans Execution (Looks db) :=
  ⟨fun _ _ _ h₁ h₂ => trans_of (Remembers db) h₁ h₂⟩

theorem onState_looks (hx : Moves (Remembers db) x) : Moves (Looks db) (onState x) :=
  hx.zoom fun _ _ h => h

theorem chargeContractFee_looks {contractType : ContractType} :
    Moves (Looks db) (chargeContractFee tx contractType) :=
  (Moves.okOr _ _).bind fun _ e => refl_of (Looks db) e

theorem prepareKind_looks : Moves (Looks cx.db) (cx.prepareKind tx transactionHash nonce) := by
  have hinstance : ∀ a, Moves (Remembers cx.db) (getContractInstance cx.db a) :=
    fun a => getContractInstance_remembers a
  unfold prepareKind
  split
  · refine .bind ?_ fun _ => .pure _
    unfold prepareDeployment
    split
    · exact .fail _
    · exact chargeContractFee_looks.bind fun _ => Moves.state.bind fun _ => .pure _
  · refine .bind ?_ fun _ => .pure _
    exact (onState_looks (getContract_remembers _)).bind fun _ => (Moves.lift _).bind fun _ =>
      chargeContractFee_looks.bind fun _ => Moves.state.bind fun _ => .pure _
  · refine (onState_looks ((hinstance _).outcome.bind fun _ => .pure _)).bind fun valid => ?_
    cases valid with
    | false => exact .pure _
    | true =>
      exact (onState_looks (hinstance _)).bind fun _ =>
        (onState_looks (getContract_remembers _)).bind fun _ => (Moves.lift _).bind fun _ =>
          chargeContractFee_looks.bind fun _ => Moves.state.bind fun _ => .pure _
  · exact .pure _

theorem prepareFunctionCall_none
    (h : (cx.prepareFunctionCall tx transactionHash nonce a function arguments deposit).run e =
      (.ok none, e')) :
    (view cx.db e.updatedState).contractInstance a = none ∧ e'.feeManager = e.feeManager := by
  obtain ⟨valid, e₁, hvalid, h⟩ := run_bind_ok h
  cases valid with
  | true =>
    obtain ⟨_, _, _, h⟩ := run_bind_ok h
    obtain ⟨_, _, _, h⟩ := run_bind_ok h
    obtain ⟨_, _, _, h⟩ := run_bind_ok h
    obtain ⟨_, _, _, h⟩ := run_bind_ok h
    cases h
  | false =>
    cases h
    obtain ⟨s₁, hread, rfl⟩ := run_zoom_ok hvalid
    have hfound := (isValidContractInstance_reads cx.db a e.updatedState).1
    rw [hread] at hfound
    refine ⟨?_, rfl⟩
    cases hinstance : (view cx.db e.updatedState).contractInstance a with
    | none => rfl
    | some found =>
      dsimp only at hfound
      rw [hinstance] at hfound
      cases hfound

theorem run_prepareFunctionCall_none (h : (view cx.db e.updatedState).contractInstance a = none) :
    ∃ s', (cx.prepareFunctionCall tx transactionHash nonce a function arguments deposit).run e =
      (.ok none, ⟨s', e.feeManager⟩) := by
  obtain ⟨s', hread, -⟩ := (isValidContractInstance_reads cx.db a).found (s := e.updatedState)
    (a := false) (by rw [h]; rfl)
  have hvalid : (onState (isValidContractInstance cx.db a)).run e = (.ok false, ⟨s', e.feeManager⟩) := by
    unfold onState
    rw [run_zoom, hread]
  refine ⟨s', ?_⟩
  unfold prepareFunctionCall
  rw [run_bind_of_ok hvalid]
  rfl

theorem feeManager_prepareKind_none (h : (cx.prepareKind tx transactionHash nonce).run e = (.ok none, e')) :
    e'.feeManager = e.feeManager := by
  unfold prepareKind at h
  split at h
  · obtain ⟨made, e₁, hprepare, hmade⟩ := run_bind_ok h
    cases hmade
  · obtain ⟨made, e₁, hprepare, hmade⟩ := run_bind_ok h
    cases hmade
  · exact (prepareFunctionCall_none h).2
  · cases h
    rfl

theorem requestOf_reads (h : cx.requestOf tx s = some (request, e)) : Remembers cx.db s e.updatedState := by
  have hprepare := prepareBody_of_requestOf h
  unfold prepareBody at hprepare
  rw [← opening_bind] at hprepare
  obtain ⟨⟨transactionHash, nonce⟩, e₁, hopening, hprepare⟩ := run_bind_ok hprepare
  obtain ⟨size, -, -, hreads⟩ := opening_ok hopening
  have hlooks : Looks cx.db e₁ e := prepareKind_looks.of_run hprepare
  exact trans_of (Remembers cx.db) hreads hlooks

/-- How a transaction passes that has asked an executor. -/
structure PassesByRequest (cx : TransactionContext) (tx : Transaction) (s : UpdatedState) (fee : Nat)
    (request : ContractRequest) (e : Execution) (burntGas : Gas) : Prop where
  asked : cx.requestOf tx s = some (request, e)
  answer : (cx.executor.answer cx.db e.updatedState request).passes = some burntGas
  cost : fee = fixedFees tx request.contractType + (sellGas burntGas).toNat
  paid : fee ≤ tx.feeLimit.toNat

/-- How a transaction passes that has asked no executor. -/
structure PassesPlain (cx : TransactionContext) (tx : Transaction) (s : UpdatedState) (fee : Nat)
    (s' : UpdatedState) (size : Balance) (transactionHash : TransactionHash) (nonce : Nonce)
    (e : Execution) (event : Option ExecutionEvent) (e' : Execution) : Prop where
  sized : FeeConfig.config.transactionSizeFee tx = some size
  none : ∃ e₀, Remembers cx.db s e₀.updatedState ∧
    (cx.prepareKind tx transactionHash nonce).run e₀ = (.ok none, e)
  reads : Remembers cx.db s e.updatedState
  took : (FeeManager.new tx.feeLimit).Took size.toNat e.feeManager
  work : (cx.plainKind tx nonce).run e = (.ok (.ok (), event), e')
  state : e'.updatedState = s'
  fee : e'.feeManager.getFeeUsed.toNat = fee

/-- **How a transaction passes.** -/
theorem passes_cases {fee : Nat} (h : cx.Passes tx s fee s') :
    (∃ request e burntGas, cx.PassesByRequest tx s fee request e burntGas ∧
      s' = cx.performed request e.updatedState) ∨
    ∃ size transactionHash nonce e event e',
      cx.PassesPlain tx s fee s' size transactionHash nonce e event e' := by
  obtain ⟨event, e', hbody, hstate, hfee⟩ := h.run
  have hrun := hbody
  rw [run_executeBody_opening] at hrun
  obtain ⟨⟨transactionHash, nonce⟩, e₁, hopening, hkind⟩ := run_bind_ok hrun
  obtain ⟨size, hsize, htook, hreads⟩ := opening_ok hopening
  have hexecuted := hkind
  rw [executeKind_eq] at hexecuted
  obtain ⟨prepared, e₂, hprepare, -⟩ := run_bind_ok hexecuted
  have hlooks : Looks cx.db e₁ e₂ := prepareKind_looks.of_run hprepare
  cases prepared with
  | none =>
    right
    rw [run_executeKind_plain hprepare] at hkind
    rw [← feeManager_prepareKind_none hprepare] at htook
    exact ⟨size, transactionHash, nonce, e₂, event, e', hsize, ⟨e₁, hreads, hprepare⟩,
      trans_of (Remembers cx.db) hreads hlooks, htook, hkind, hstate, hfee⟩
  | some request =>
    left
    have hasked : cx.requestOf tx s = some (request, e₂) := by
      unfold requestOf prepareBody
      rw [← opening_bind, run_bind_of_ok hopening]
      rw [hprepare]
    rw [run_executeBody_of_requestOf hasked] at hbody
    obtain ⟨burntGas, hanswer, hperformed, htook'⟩ := finishRequest_ok hbody
    have htotal := (requestOf_prepared hasked).2.took.trans htook'
    obtain ⟨hused, hpaid⟩ := htotal.getFeeUsed
    have hcost := hfee.symm.trans hused
    refine ⟨request, e₂, burntGas, ⟨hasked, hanswer, hcost, ?_⟩, hstate.symm.trans hperformed⟩
    rw [hcost]
    exact hpaid

theorem passes_of_request {fee : Nat} (h : cx.PassesByRequest tx s fee request e burntGas) :
    cx.Passes tx s fee (cx.performed request e.updatedState) := by
  have htook := (requestOf_prepared h.asked).2.took
  have hleft := htook.leftLimit
  have hnew : (FeeManager.new tx.feeLimit).leftLimit = tx.feeLimit := rfl
  have hcost := h.cost
  have hpaid := h.paid
  rw [hnew] at hleft
  obtain ⟨event, e', hfinish⟩ : ∃ event e', (cx.finishRequest request).run e = (.ok (.ok (), event), e') := by
    obtain ⟨⟨outcome, event⟩, text, hpasses, hrun⟩ := cx.run_finishRequest request e
    obtain ⟨hgas, hok⟩ := (hpasses burntGas).mp h.answer
    cases hok
    have hle : (sellGas burntGas).toNat ≤ e.feeManager.leftLimit.toNat := by omega
    have hpaid := updateGasAndFeeUsed_ok_iff.mpr hle
    have hcharge : (onFees (updateGasAndFeeUsed burntGas)).run
        ⟨cx.performed request e.updatedState, e.feeManager⟩ = (.ok (), ⟨cx.performed request e.updatedState,
          ((updateGasAndFeeUsed burntGas).run e.feeManager).2⟩) := by
      unfold onFees
      rw [run_zoom, hpaid]
    rw [hrun, hgas]
    exact ⟨event, _, run_bind_of_ok hcharge⟩
  obtain ⟨gas, hgas, hperformed, htook'⟩ := finishRequest_ok hfinish
  cases h.answer.symm.trans hgas
  rw [← hperformed, hcost]
  have hbody := run_executeBody_of_requestOf h.asked
  rw [hfinish] at hbody
  exact passes_of_run hbody (htook.trans htook')

/-- Plain work that goes through on every overlay that shows the same makes the transaction pass. -/
theorem passes_of_plain {event : α → Option ExecutionEvent} {P : UpdatedState → Prop}
    (hsize : FeeConfig.config.transactionSizeFee tx = some size)
    (hhash : tx.transactionHash cx.rt.crypto cx.rt.codec = .ok transactionHash)
    (hacc : (view cx.db s).account cx.accountAddress = some account)
    (hle : size.toNat + fee.toNat ≤ tx.feeLimit.toNat) (hnone : ∀ e, Remembers cx.db s e.updatedState →
      ∃ e', (cx.prepareKind tx transactionHash account.nonce).run e = (.ok none, e'))
    (hwork : cx.plainKind tx account.nonce = plainWork fee text x event)
    (hx : ∀ s₁, Remembers cx.db s s₁ → ∃ a s', x.run s₁ = (.ok a, s') ∧ P s') :
    ∃ s', cx.Passes tx s (size.toNat + fee.toNat) s' ∧ P s' := by
  have hnew : (FeeManager.new tx.feeLimit).leftLimit = tx.feeLimit := rfl
  obtain ⟨e₁, hopening⟩ : ∃ e₁, (cx.opening tx).run ⟨s, .new tx.feeLimit⟩ =
      (.ok (transactionHash, account.nonce), e₁) := by
    have hreads : Reads cx.db (getNonce cx.db cx.accountAddress)
        (fun v => (v.account cx.accountAddress).map (·.nonce)) :=
      (getAccount_reads cx.accountAddress).map (·.nonce)
    have hle : size.toNat ≤ (FeeManager.new tx.feeLimit).leftLimit.toNat := by
      rw [hnew]
      omega
    obtain ⟨m, hcharge, -⟩ := run_chargeFee (e := ⟨s, .new tx.feeLimit⟩) hle
    obtain ⟨s', hread, -⟩ := hreads.found (s := s) (a := account.nonce) (by rw [hacc]; rfl)
    have hnonce : (onState (getNonce cx.db cx.accountAddress)).run ⟨s, m⟩ = (.ok account.nonce, ⟨s', m⟩) := by
      unfold onState
      rw [run_zoom, hread]
    refine ⟨⟨s', m⟩, ?_⟩
    unfold opening
    rw [hsize, run_bind_of_ok run_okOr_some, run_bind_of_ok hcharge, hhash,
      run_bind_of_ok (run_lift (.ok transactionHash) _), run_bind_of_ok hnonce]
    rfl
  obtain ⟨size', hsize', htook, hreads⟩ := opening_ok hopening
  cases hsize.symm.trans hsize'
  obtain ⟨e₂, hprepare⟩ := hnone e₁ hreads
  have hlooks : Looks cx.db e₁ e₂ := prepareKind_looks.of_run hprepare
  rw [← feeManager_prepareKind_none hprepare] at htook
  have hleft := htook.leftLimit
  rw [hnew] at hleft
  obtain ⟨a, s', hrun, hP⟩ := hx e₂.updatedState (trans_of (Remembers cx.db) hreads hlooks)
  have hpay : fee.toNat ≤ e₂.feeManager.leftLimit.toNat := by omega
  obtain ⟨m, hcharge, htook'⟩ := run_chargeFee hpay
  have hbody : (cx.executeBody tx).run ⟨s, .new tx.feeLimit⟩ = (.ok (.ok (), event a), ⟨s', m⟩) := by
    rw [run_executeBody_opening, run_bind_of_ok hopening]
    rw [run_executeKind_plain hprepare, hwork]
    unfold plainWork onState
    rw [run_bind_of_ok hcharge, run_bind, run_mapError, run_zoom, hrun]
    rfl
  exact ⟨s', passes_of_run hbody (htook.trans htook'), hP⟩

end TransactionContext

end L1xCore
