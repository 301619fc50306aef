import L1xCore.Execute.Settlement
import L1xCore.State.Conserved

/-!
# `Execute.Conserved` — conserved quantities through a round of a block

A quantity that token operations conserve (`UpdatedState.Conserved`) is conserved by the transaction kinds
that run no contract, by the refund and by the settlement of a round. What is left to each quantity is
what it does under a mint, under the increment of a nonce and under contract calls (`ContractsKeep`).
-/

namespace L1xCore

open Fallible

variable {tx : Transaction}

/-- The kinds that run no contract. -/
def Transaction.isNative (tx : Transaction) : Bool :=
  match tx.transactionType with
  | .nativeTokenTransfer .. => true
  | .createStakingPool .. => true
  | .stake .. => true
  | .unStake .. => true
  | .stakingPoolContract .. => true
  | _ => false

namespace TransactionContext

variable {α β : Type} (cx : TransactionContext) (R : UpdatedState → UpdatedState → Prop)

/-- The overlay moves along `R`; fees are no part of it. -/
def Along (e e' : Execution) : Prop := R e.updatedState e'.updatedState

instance [Std.Refl R] : Std.Refl (Along R) := ⟨fun _ => refl_of R _⟩

instance [IsTrans UpdatedState R] : IsTrans Execution (Along R) := ⟨fun _ _ _ h₁ h₂ => trans_of R h₁ h₂⟩

/-- `R` contains what the kinds do that run no contract, apart from a mint. -/
structure TokenSteps (db : StateTables) : Prop where
  pools : UpdatedState.PoolRule db R
  transfer : ∀ a b amount, Moves R (UpdatedState.transfer db a b amount)
  createSystemAccount : ∀ a, Moves R (UpdatedState.createSystemAccount db a)

/-- What the contract kinds rest on: their engines, called with an instance that is `Stored`, and the mint
    that a call of the mint master's own address comes down to. -/
structure ContractsKeep (Stored : ContractInstance → Prop) : Prop where
  deployment : ∀ contractType call accessType contractCode salt deposit,
    Moves R ((cx.executor.executeContractDeployment contractType cx.db call accessType contractCode salt
      deposit).perform cx.rt.crypto cx.db)
  init : ∀ contractType call contract arguments deposit,
    Moves R ((cx.executor.executeContractInit contractType cx.db call contract arguments deposit).perform
      cx.rt.crypto cx.db)
  readInstance : ∀ address {f : ContractInstance → ExecutionOp Executed},
    (∀ i, Stored i → Moves (Along R) (f i)) →
      Moves (Along R) (ExecutionOp.onState (UpdatedState.getContractInstance cx.db address) >>= f)
  functionCall : ∀ contractType call contract contractInstance function arguments deposit,
    Stored contractInstance →
      Moves R ((cx.executor.executeContractFunctionCall contractType cx.db call contract contractInstance
        function arguments deposit).total.perform cx.rt.crypto cx.db)
  mint : ∀ recipient amount, isMint cx.accountAddress recipient = true →
    Moves R (UpdatedState.mint cx.db amount recipient)

variable {cx R}

theorem onState_along {x : StateOp α} (hx : Moves R x) : Moves (Along R) (ExecutionOp.onState x) :=
  hx.zoom fun _ _ h => h

variable [Std.Refl R]

theorem chargeFee_along (fee : Balance) : Moves (Along R) (chargeFee fee) := fun _ => refl_of R _

variable (hR : TokenSteps R cx.db)
include hR

theorem TokenSteps.rule : cx.ExecutionRule (Along R) where
  fees _ _ := refl_of R _
  reads hx := onState_along (hR.pools.reads hx)

variable [IsTrans UpdatedState R]

theorem TokenSteps.executeTokenTransfer {recipient : Address} {amount : Balance}
    (hmint : isMint cx.accountAddress recipient = true →
      Moves R (UpdatedState.mint cx.db amount recipient)) :
    Moves (Along R) (cx.executeTokenTransfer recipient amount) := by
  refine hR.rule.work (onState_along ?_) _ _ _
  unfold executeNativeTokenTransfer
  split
  · exact hmint ‹_›
  · exact hR.transfer _ _ _

/-- **Every kind**, where a mint is along `R` and so are the contract calls. -/
theorem TokenSteps.executeKind {Stored : ContractInstance → Prop}
    (hcontracts : tx.isNative = false → cx.ContractsKeep R Stored)
    (hmint : isMintTx cx.accountAddress tx = true → ∀ recipient amount,
      Moves R (UpdatedState.mint cx.db amount recipient))
    (hash : TransactionHash) (nonce : Nonce) : Moves (Along R) (cx.executeKind tx hash nonce) := by
  have hrule := hR.rule
  have hstaking {x : StateOp Unit} (hx : Moves R x) (fee : Balance)
      (kind : String) : Moves (Along R) (executeStaking fee kind x) :=
    hrule.work (onState_along hx) _ _ _
  unfold TransactionContext.executeKind
  unfold Transaction.isNative at hcontracts
  unfold isMintTx at hmint
  cases hkind : tx.transactionType with
  | nativeTokenTransfer recipient amount =>
    rw [hkind] at hmint
    exact hR.executeTokenTransfer fun h => hmint h recipient amount
  | createStakingPool =>
    have hpool := hR.pools.createPool hR.createSystemAccount
    exact hrule.work (onState_along (hpool _ _ _ _ _ _ _ _ _ _ _)) _ _ _
  | stake => exact hstaking (hR.pools.stake (hR.transfer _ _ _) _) _ _
  | unStake => exact hstaking (hR.pools.unStake (fun _ => hR.transfer _ _ _) _ _) _ _
  | stakingPoolContract => exact hstaking (hR.pools.updateContract _ _ _) _ _
  | smartContractDeployment =>
    rw [hkind] at hcontracts
    have hengine := (hcontracts rfl).deployment
    exact hrule.executeDeployment (fun _ _ => onState_along (hengine _ _ _ _ _ _)) _ _ _
  | smartContractInit =>
    rw [hkind] at hcontracts
    have hengine := (hcontracts rfl).init
    exact hrule.executeInit (fun _ _ _ _ => onState_along (hengine _ _ _ _ _)) _ _ _ _
  | smartContractFunctionCall =>
    rw [hkind] at hcontracts
    obtain ⟨-, -, hread, hengine, hmints⟩ := hcontracts rfl
    exact hrule.executeFunctionCall (hR.executeTokenTransfer (hmints _ _)) (hread _)
      (fun _ _ _ i hi _ => onState_along (hengine _ _ _ i _ _ _ hi)) _ _ _

/-- **One transaction**, with whatever result. -/
theorem TokenSteps.executeTransaction {Stored : ContractInstance → Prop}
    (hcontracts : cx.ContractsKeep R Stored)
    (hmint : ∀ recipient amount, Moves R (UpdatedState.mint cx.db amount recipient))
    {s s' : UpdatedState} {r : Except TransactionResult TransactionResult}
    (h : executeTransaction cx tx s = (r, s')) : R s s' := by
  have hbody : Moves (Along R) (cx.executeBody tx) :=
    hR.rule.executeBody fun hash nonce => hR.executeKind (fun _ => hcontracts) (fun _ => hmint) hash nonce
  have hrun : R s _ := hbody ⟨s, .new tx.feeLimit⟩
  rcases hexec : (cx.executeBody tx).run ⟨s, .new tx.feeLimit⟩ with ⟨e | ⟨e | ⟨⟩, event⟩, e'⟩ <;>
    rw [hexec] at hrun <;> simp only [L1xCore.executeTransaction, hexec] at h <;> cases h <;> exact hrun

end TransactionContext

namespace UpdatedState.Conserved

variable {β : Type} {db : StateTables} {I : UpdatedState → Prop} {q : Store → β}

theorem tokenSteps (hq : Conserved db I q) : TransactionContext.TokenSteps (Keeps db I q) db where
  pools := hq.pools
  transfer := hq.transfer_keeps
  createSystemAccount := hq.createSystemAccount_keeps

end UpdatedState.Conserved

namespace Platform

variable {β : Type} {db : StateTables} {I : UpdatedState → Prop} {q : Store → β}
  (hq : UpdatedState.Conserved db I q) (sender : Address)
include hq

theorem refundFee_keeps (tx : Transaction) (fee : Balance) :
    Moves (UpdatedState.Keeps db I q) (refundFee db sender tx fee) :=
  (Moves.okOr _ _).bind fun _ => hq.transfer_keeps _ _ _

theorem settleFailed_keeps (tx : Transaction) (hash : TransactionHash) (result : TransactionResult)
    (s : UpdatedState) : UpdatedState.Keeps db I q s (settleFailed db sender tx hash result s) :=
  ((refundFee_keeps hq _ _ _).bind fun _ => hq.storeTransactionMetadata_keeps _) s

theorem settlePassed_keeps (tx : Transaction) (hash : TransactionHash) (result : TransactionResult)
    {s c : UpdatedState} (h : s.Evolves c) :
    UpdatedState.Keeps db I q c (settlePassed db sender tx hash result s c) :=
  settlePassed_rule hq.keeps_of_remembers (refundFee_keeps hq _ _ _) (hq.storeTransactionMetadata_keeps _) h

end Platform

end L1xCore
