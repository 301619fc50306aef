import L1xCore.Execute.Replay
import Mathlib.Algebra.Order.BigOperators.Group.Finset

/-!
# `Execute.Spending` — what a round of a block can take from an account

The balance of one account is followed through a block, as long as there is no contract at its address. A
round takes from its sender at most the fee limit and the amount of a transfer or a stake; what a contract
takes from its sender is not known. From everybody else it takes nothing, if contracts take tokens only from
their own accounts and from those who call them (`ContractExecutor.SparesOthers`) and nobody unstakes from a
pool at that address.

The fee recipient may be such an account: it gives back no more than it has received in the same round.
-/

namespace L1xCore

open Fallible UpdatedState Store BitVec Option
open Account (addressOf)

variable {a : Address} {α : Type} {tx : Transaction} {key : VerifyingKeyBytes} {account : Account}
  {sender : Address}

/-! ## Balances of a plain store -/

namespace Store

variable {st : Store}

theorem add_balanceAt_le_supply {b : Address} (hab : a ≠ b) :
    st.balanceAt a + st.balanceAt b ≤ st.supply := by
  have hsum := Finset.sum_le_sum_of_subset_of_nonneg (f := st.balanceAt)
    (Finset.subset_univ ({a, b} : Finset Address)) fun _ _ _ => Nat.zero_le _
  rw [Finset.sum_pair hab] at hsum
  exact hsum

/-- **When a transfer goes through.** As long as all balances together fit, only the payer's balance
    matters. -/
theorem transfer_isSome_iff (hf : st.AccountsFiled) (hfits : st.supply < 2 ^ 128) {payer : Address}
    (hpayer : st.account payer = some account) (receiver : Address) (amount : Balance) :
    (st.transfer payer receiver amount).isSome ↔ amount.toNat ≤ st.balanceAt payer := by
  have hbalance := balanceAt_of_some hpayer
  constructor
  · intro h
    obtain ⟨st', h⟩ := isSome_iff_exists.mp h
    simp only [transfer, bind_eq_bind, bind_eq_some_iff, hpayer] at h
    obtain ⟨_, ⟨⟩, fromBalance, hsub, -⟩ := h
    have hsub := checkedSub_eq_some.mp hsub
    omega
  · intro hle
    obtain rfl := hf payer account hpayer
    obtain ⟨fromBalance, hfrom, hsub⟩ := exists_checkedSub (hbalance ▸ hle)
    -- what the payee has and gets fits, since the payer has it now
    have hpayee : (st.setAccount { account with balance := fromBalance }).balanceAt receiver =
        (st.payee { account with balance := fromBalance } account.address receiver).balance.toNat :=
      balanceAt_payee _ receiver
    rw [balanceAt_setAccount] at hpayee
    dsimp only at hpayee
    have hroom : (st.payee { account with balance := fromBalance } account.address
        receiver).balance.toNat + amount.toNat < 2 ^ 128 := by
      by_cases hself : receiver = account.address
      · rw [if_pos hself] at hpayee
        omega
      · rw [if_neg hself] at hpayee
        have hboth : st.balanceAt receiver + st.balanceAt account.address ≤ st.supply :=
          add_balanceAt_le_supply hself
        omega
    obtain ⟨toBalance, hto⟩ := exists_toNat_eq hroom
    have hadd := checkedAdd_eq_some.mpr hto
    simp only [transfer, hpayer, bind_eq_bind, bind_some, hsub, hadd, isSome_some]

end Store

/-! ## Losing no more than an amount -/

namespace UpdatedState

variable {db : StateTables} {a : Address} {s s' : UpdatedState} {n : Nat} {amount : Balance}

/-- The balance of `a` goes down by no more than `n`. -/
abbrev Loses (db : StateTables) (a : Address) (n : Nat) : UpdatedState → UpdatedState → Prop :=
  Drops (External db a) (fun s => (s.view db).balanceAt a) n

theorem loses_of_remembers (h : Remembers db s s') : Loses db a n s s' :=
  (external_invariant db a).drops_of_remembers (p := (·.balanceAt a)) h

theorem loses_of_transacts {x : StateOp Unit} {g : Store → Option Store} (hx : Transacts db x g)
    (hinv : Moves (Preserves (External db a)) x)
    (hg : ∀ {st st'}, st.AccountsFiled → g st = some st' → st.balanceAt a ≤ st'.balanceAt a + n) :
    Moves (Loses db a n) x :=
  (external_invariant db a).drops_of_transacts (p := (·.balanceAt a)) hx hinv hg

/-! ### The operations -/

theorem transfer_loses {payer receiver : Address} :
    Moves (Loses db a (if a = payer then amount.toNat else 0)) (transfer db payer receiver amount) := by
  refine loses_of_transacts transfer_transacts ((external_invariant db a).preserves.transfer _ _ _)
    fun hf h => ?_
  have hmoved := balanceAt_transfer hf h a
  omega

theorem mint_loses {b : Address} : Moves (Loses db a n) (mint db amount b) := by
  refine loses_of_transacts (mint_transacts _ _) ((external_invariant db a).preserves.mint _ _) fun hf h => ?_
  exact (balanceAt_mint hf h a).trans (Nat.le_add_right _ _)

/-- New accounts and pools take nothing from anybody, whatever is at the address. -/
theorem TokenInvariant.createSystemAccount_drops {I : UpdatedState → Prop} (hI : TokenInvariant db I)
    (b : Address) : Moves (Drops I (fun s => (s.view db).balanceAt a) 0) (createSystemAccount db b) :=
  hI.drops_of_transacts (p := (·.balanceAt a)) createAccount_transacts (hI.preserves.createAccount _)
    fun _ h => (balanceAt_createAccount h a).ge

theorem TokenInvariant.balanceAt_rule {I : UpdatedState → Prop} (hI : TokenInvariant db I) :
    PoolRule db (Drops I (fun s => (s.view db).balanceAt a) 0) :=
  hI.drops_pools (p := (·.balanceAt a)) fun h => by simp only [balanceAt, h]

theorem createSystemAccount_loses (b : Address) : Moves (Loses db a 0) (createSystemAccount db b) :=
  (external_invariant db a).createSystemAccount_drops b

theorem loses_rule : PoolRule db (Loses db a 0) := (external_invariant db a).balanceAt_rule

/-- A stake moves its amount once; what comes before and after touches no account. -/
theorem stake_loses (p account : Address) (blockNumber : BlockNumber) (amount : Balance) :
    Moves (Loses db a (if a = account then amount.toNat else 0)) (stake db p account blockNumber amount) := by
  exact (loses_rule.reads (getStakingPool_remembers p)).bind_drops fun _ => (Moves.lift _).bind_drops fun _ =>
    (loses_rule.reads checkPoolBalance_remembers).bind_drops fun _ =>
      transfer_loses.drops_bind fun _ =>
        (loses_rule.reads (getStakingAccount_remembers _ _)).outcome.bind fun _ =>
          (Moves.okOr _ _).bind fun _ => (loses_rule.updateStakingAccount _).bind fun _ =>
            loses_rule.updateStakingPoolBlockNumber _ _

end UpdatedState

/-! ## Contract engines -/

theorem Call.perform_loses {call : Call (Except Error α)} {crypto : Crypto} {db : StateTables}
    {caller : Address} (h : call.Spares crypto db caller a) (hother : a ≠ caller) :
    Moves (Loses db a 0) (call.perform crypto db) := by
  intro s hs
  obtain ⟨hs', -, hbalance⟩ := h s hs
  exact ⟨hs', hbalance hother⟩

/-- A contract that counts its creations and pays from its own account. -/
theorem spares_of_contract {contract payee : Address} (hother : contract ≠ a) {db : StateTables}
    {crypto : Crypto} {caller : Address} {result : α} {amount : Balance} :
    Call.Spares (fun _ => (result, [.incrementNonce contract, .transfer contract payee amount])) crypto db
      caller a := by
  intro s hs
  have hinvariant := (external_invariant db a).preserves
  have hcounted : External db a ((incrementNonce db contract).run s).2 :=
    hinvariant.incrementNonce contract s hs
  have hnonce : Moves (Keeps db (External db a) (·.nonceAt a)) (incrementNonce db contract) :=
    (conserved_nonceAt db a).keeps_of_transacts incrementNonce_transacts (hinvariant.incrementNonce contract)
      fun hf h => by rw [nonceAt_incrementNonce hf h, if_neg hother.symm, add_zero]
  have hbalance : Moves (Loses db a 0) (incrementNonce db contract) :=
    loses_of_transacts incrementNonce_transacts (hinvariant.incrementNonce contract)
      fun hf h => (balanceAt_incrementNonce hf h a).ge
  have hpaid : Moves (Loses db a _) (transfer db contract payee amount) := transfer_loses
  rw [if_neg hother.symm] at hpaid
  refine ⟨hinvariant.transfer _ _ _ _ hcounted, ?_, fun _ => ((hbalance s).trans (hpaid _) hs).2⟩
  exact ((conserved_nonceAt db a).transfer_keeps _ _ _ _ hcounted).2.trans (hnonce s hs).2

theorem Small.platform_sparesOthers (db : StateTables) :
    Small.platform.executor.SparesOthers Small.platform.rt.crypto db where
  deployment _ _ _ _ _ _ _ _ hs := ⟨hs, rfl, fun _ => le_refl _⟩
  init _ _ _ _ _ _ _ hs := ⟨hs, rfl, fun _ => le_refl _⟩
  functionCall _ _ _ _ _ _ _ _ hother := spares_of_contract hother

/-! ## One transaction -/

/-- What a transaction that runs no contract moves away from its sender, besides the fee. -/
def Transaction.spends (tx : Transaction) : Nat :=
  match tx.transactionType with
  | .nativeTokenTransfer _ amount => amount.toNat
  | .stake _ amount => amount.toNat
  | _ => 0

namespace TransactionContext

variable (cx : TransactionContext) {a : Address} {n : Nat}

/-- The relation on executions; fees are no part of it. -/
abbrev Loses (a : Address) (n : Nat) : Execution → Execution → Prop :=
  Drops (fun e => External cx.db a e.updatedState) (fun e => (e.updatedState.view cx.db).balanceAt a) n

variable {cx}

theorem onState_loses {x : StateOp α} (hx : Moves (UpdatedState.Loses cx.db a n) x) :
    Moves (cx.Loses a n) (ExecutionOp.onState x) :=
  hx.zoom fun _ _ h => h

theorem loses_rule : cx.ExecutionRule (cx.Loses a 0) where
  fees _ e := refl_of (cx.Loses a 0) e
  reads hx := onState_loses (UpdatedState.loses_rule.reads hx)

theorem executeTokenTransfer_loses {recipient : Address} {amount : Balance} :
    Moves (cx.Loses a (if a = cx.accountAddress then amount.toNat else 0))
      (cx.executeTokenTransfer recipient amount) := by
  refine (loses_rule.chargeFee _).bind_drops fun _ => (onState_loses ?_).mapError.drops_bind fun _ => .pure _
  unfold executeNativeTokenTransfer
  by_cases hmint : isMint cx.accountAddress recipient = true
  · rw [if_pos hmint]
    exact mint_loses
  · rw [if_neg hmint]
    exact transfer_loses

theorem executeStaking_loses (fee : Balance) (kind : String) {x : StateOp Unit}
    (hx : Moves (UpdatedState.Loses cx.db a n) x) : Moves (cx.Loses a n) (executeStaking fee kind x) :=
  (loses_rule.chargeFee _).bind_drops fun _ => (onState_loses hx).mapError.drops_bind fun _ => .pure _

variable (hengines : cx.executor.SparesOthers cx.rt.crypto cx.db) (hkey : addressOf cx.rt.crypto key = .ok a)
  (hnative : a = cx.accountAddress → tx.isNative = true)
  (hpools : ∀ poolAddress amount, tx.transactionType = .unStake poolAddress amount → poolAddress ≠ a)

include hengines hkey hnative hpools

/-- **Every kind.** The sender of a contract kind is left out: its engine may take anything from it. -/
theorem executeKind_loses (hash : TransactionHash) (nonce : Nonce) :
    Moves (cx.Loses a (if a = cx.accountAddress then tx.spends else 0)) (cx.executeKind tx hash nonce) := by
  unfold executeKind Transaction.spends
  unfold Transaction.isNative at hnative
  -- a kind that takes nothing from `a`
  have hnothing : ∀ {α : Type} {x : ExecutionOp α} {m : Nat}, Moves (cx.Loses a 0) x →
      Moves (cx.Loses a m) x := fun hx => hx.mono fun _ _ h => h.mono (Nat.zero_le _)
  cases hkind : tx.transactionType with
  | nativeTokenTransfer recipient amount => exact executeTokenTransfer_loses
  | createStakingPool =>
    exact hnothing (loses_rule.work (onState_loses (UpdatedState.loses_rule.createPool
      createSystemAccount_loses _ _ _ _ _ _ _ _ _ _ _)) _ _ _)
  | stake => exact executeStaking_loses _ _ (stake_loses _ _ _ _)
  | unStake poolAddress amount =>
    -- unstaking takes from the pool
    refine hnothing (executeStaking_loses _ _ (UpdatedState.loses_rule.unStake (fun withdrawn => ?_) _ _))
    have hmoved : Moves (UpdatedState.Loses cx.db a (if a = poolAddress then withdrawn.toNat else 0))
      (transfer cx.db poolAddress cx.accountAddress withdrawn) := transfer_loses
    rw [if_neg (hpools _ _ hkind).symm] at hmoved
    exact hmoved
  | stakingPoolContract =>
    exact hnothing (executeStaking_loses _ _ (UpdatedState.loses_rule.updateContract _ _ _))
  | smartContractDeployment =>
    rw [hkind] at hnative
    have hother : a ≠ cx.accountAddress := fun h => Bool.noConfusion (hnative h)
    refine hnothing (loses_rule.executeDeployment (fun call hcall => onState_loses ?_) _ _ _)
    exact Call.perform_loses (hengines.deployment hkey _ _ _ _ _ _) (hcall ▸ hother)
  | smartContractInit =>
    rw [hkind] at hnative
    have hother : a ≠ cx.accountAddress := fun h => Bool.noConfusion (hnative h)
    refine hnothing (loses_rule.executeInit (fun _ call _ hcall => onState_loses ?_) _ _ _ _)
    exact Call.perform_loses (hengines.init hkey _ _ _ _ _) (hcall ▸ hother)
  | smartContractFunctionCall contractInstanceAddress function arguments deposit =>
    rw [hkind] at hnative
    have hother : a ≠ cx.accountAddress := fun h => Bool.noConfusion (hnative h)
    have htransfer : Moves (cx.Loses a (if a = cx.accountAddress then deposit.toNat else 0))
        (cx.executeTokenTransfer contractInstanceAddress deposit) := executeTokenTransfer_loses
    rw [if_neg hother] at htransfer
    refine hnothing (loses_rule.executeFunctionCall htransfer
      (readInstance_external UpdatedState.loses_rule (fun h hs => h hs hs) _) ?_ _ _ _)
    intro _ call _ i hne hcall
    exact onState_loses (Call.perform_loses (hengines.functionCall hkey _ _ _ i _ _ _ hne) (hcall ▸ hother))

/-- **One transaction**, with whatever result. -/
theorem executeTransaction_loses {s s' : UpdatedState} {r : Except TransactionResult TransactionResult}
    (h : executeTransaction cx tx s = (r, s')) :
    UpdatedState.Loses cx.db a (if a = cx.accountAddress then tx.spends else 0) s s' := by
  have hbody : Moves (cx.Loses a (if a = cx.accountAddress then tx.spends else 0)) (cx.executeBody tx) :=
    (Moves.okOr _ _).bind_drops fun _ => (loses_rule.chargeFee _).bind_drops fun _ =>
      (Moves.lift _).bind_drops fun hash => loses_rule.getNonce.bind_drops fun nonce =>
        executeKind_loses hengines hkey hnative hpools hash nonce
  have hrun := hbody ⟨s, .new tx.feeLimit⟩
  rcases hexec : (cx.executeBody tx).run ⟨s, .new tx.feeLimit⟩ with ⟨e | ⟨e | ⟨⟩, event⟩, e'⟩ <;>
    rw [hexec] at hrun <;> simp only [executeTransaction, hexec] at h <;> cases h <;> exact hrun

end TransactionContext

/-! ## One round -/

namespace Platform

variable (pf : Platform) {db : StateTables} (header : BlockHeader) {a : Address} {s : UpdatedState}

/-- A refund takes from the fee recipient no more than the fee limit. -/
theorem refundFee_loses {fee : Balance} :
    Moves (Loses db a (if a = FEE_RECIPIENT_MASTER_ADDRESS then tx.feeLimit.toNat else 0))
      (refundFee db sender tx fee) := by
  unfold refundFee
  cases hunused : tx.feeLimit.checkedSub fee with
  | none => exact fun s => refl_of (Loses db a _) s
  | some unusedFee =>
    have hunused := checkedSub_eq_some.mp hunused
    intro s
    refine .mono (transfer_loses s) ?_
    split <;> omega

theorem storeTransactionMetadata_loses {metadata : TransactionMetadata} :
    Moves (Loses db a 0) (storeTransactionMetadata metadata) :=
  fun s => .of_eq (fun h => external_of_entry h ((storeTransactionMetadata_evolves s).wellKeyed h.wellKeyed) rfl) rfl

/-- The settlement of a transaction that passed, seen from the clone `c` it was executed on. -/
theorem settlePassed_loses (sender : Address) (tx : Transaction) (hash : TransactionHash)
    (result : TransactionResult) {c : UpdatedState} (h : s.Evolves c) :
    Loses db a (if a = FEE_RECIPIENT_MASTER_ADDRESS then tx.feeLimit.toNat else 0) c
      (settlePassed db sender tx hash result s c) := by
  have hmerged : Remembers db c (s.merge c) := remembers_merge h
  unfold settlePassed
  rcases hrun : (refundFee db sender tx result.fee).run c with ⟨e | ⟨⟩, c'⟩
  · exact loses_of_remembers hmerged
  · have hrefund : Loses db a _ c c' := refundFee_loses.of_run hrun
    have hevolves : c.Evolves c' := refundFee_evolves.of_run hrun
    -- merging the refunded clone adds only what the merged state remembered
    have hagain : Loses db a 0 _ _ := loses_of_remembers (merge_remembers hmerged hevolves)
    exact (hrefund.trans hagain).trans (storeTransactionMetadata_loses _)

/-- **One round** takes from its sender the fee limit and what the transaction spends, and from every other
    key holder nothing. -/
theorem processTransaction_loses (hengines : pf.executor.SparesOthers pf.rt.crypto db)
    (hkey : addressOf pf.rt.crypto key = .ok a)
    (hnative : addressOf pf.rt.crypto tx.verifyingKey = .ok a → tx.isNative = true)
    (hpools : ∀ poolAddress amount, tx.transactionType = .unStake poolAddress amount → poolAddress ≠ a) :
    Loses db a (if addressOf pf.rt.crypto tx.verifyingKey = .ok a then tx.feeLimit.toNat + tx.spends else 0)
      s (pf.processTransaction db header tx s).2 := by
  rcases pf.processTransaction_cases db header tx s with ⟨e, hrun⟩ |
    ⟨sender, hash, locked, hsender, -, hlock, hend⟩
  · rw [hrun]
    exact refl_of (Loses db a _) s
  intro hs
  have hlocked : s.Evolves locked := (lockFee_evolves sender tx).of_run hlock
  have hlockedExternal : External db a locked := (lockFee_external sender tx).of_run hlock hs
  obtain ⟨st₁, st₂, hnonce, htransfer, hview⟩ := view_lockFee hlock
  have hf : (s.view db).AccountsFiled := accountsFiled_view hs.wellKeyed
  have hmoved := balanceAt_transfer (accountsFiled_incrementNonce hf hnonce) htransfer a
  rw [balanceAt_incrementNonce hf hnonce] at hmoved
  have hbalance : (locked.view db).balanceAt a = st₂.balanceAt a := by
    rw [hview]
    rfl
  rw [← hbalance] at hmoved
  have hifs : (if addressOf pf.rt.crypto tx.verifyingKey = .ok a
      then tx.feeLimit.toNat + tx.spends else 0) =
      (if a = sender then tx.feeLimit.toNat else 0) + if a = sender then tx.spends else 0 := by
    rw [hsender]
    by_cases ha : a = sender
    · rw [if_pos (congrArg _ ha.symm), if_pos ha, if_pos ha]
    · rw [if_neg fun h => ha (Except.ok.inj h).symm, if_neg ha, if_neg ha]
  rw [hifs]
  rcases hend with ⟨result, s', hexec, hrun⟩ | ⟨result, s', hexec, hrun⟩
  · -- passed: the clone is kept, and the rest of the fee goes back
    have hloses : Loses db a (if a = sender then tx.spends else 0) locked s' :=
      TransactionContext.executeTransaction_loses hengines hkey
        (fun ha => hnative (hsender.trans (congrArg _ ha.symm))) hpools hexec
    have hclone : (s.merge locked).Evolves s' := evolves_of_executed hlocked hexec
    obtain ⟨hs', hexecution⟩ := hloses hlockedExternal
    obtain ⟨hsettledExternal, hsettled⟩ := settlePassed_loses (a := a) sender tx hash result hclone hs'
    rw [hrun]
    refine ⟨hsettledExternal, ?_⟩
    dsimp only at hexecution hsettled ⊢
    omega
  · -- failed: the clone is dropped
    have hmerged : Remembers db locked (s.merge locked) := remembers_merge hlocked
    have hsame : ((s.merge locked).view db).balanceAt a = (locked.view db).balanceAt a := by
      rw [hmerged.view]
    have hloses : Loses db a _ (s.merge locked) (settleFailed db sender tx hash result (s.merge locked)) :=
      refundFee_loses.drops_bind (fun _ => storeTransactionMetadata_loses) _
    obtain ⟨hsettledExternal, hsettled⟩ := hloses ((external_invariant db a).remembers hlockedExternal hmerged)
    rw [hrun]
    refine ⟨hsettledExternal, ?_⟩
    dsimp only at hsettled ⊢
    omega

/-- **When a fee can be locked.** As long as all balances together fit, the account is there, its nonce is not
    used up, and it has the tokens. -/
theorem lockFee_ok_iff (hs : s.WellKeyed) (hfits : (s.view db).supply < 2 ^ 128) (tx : Transaction) :
    (∃ locked, (lockFee db sender tx).run s = (.ok (), locked)) ↔
      ∃ account, (s.view db).account sender = some account ∧ account.nonce.toNat + 1 < 2 ^ 128 ∧
        tx.feeLimit.toNat ≤ account.balance.toNat := by
  have hf : (s.view db).AccountsFiled := accountsFiled_view hs
  -- once the nonce is counted, the balance decides
  have hpayable : ∀ {st : Store}, (s.view db).incrementNonce sender = some st →
      ((st.transfer sender FEE_RECIPIENT_MASTER_ADDRESS tx.feeLimit).isSome ↔
        tx.feeLimit.toNat ≤ (s.view db).balanceAt sender) := by
    intro st hcount
    rw [← balanceAt_incrementNonce hf hcount sender]
    have hfits' : st.supply < 2 ^ 128 := (supply_incrementNonce hf hcount).trans_lt hfits
    simp only [Store.incrementNonce, bind_eq_bind, bind_eq_some_iff, some.injEq] at hcount
    obtain ⟨account, haccount, nonce, -, rfl⟩ := hcount
    obtain rfl := hf sender account haccount
    refine transfer_isSome_iff ?_ hfits' (account_setAccount_self { account with nonce }) _ _
    exact accountsFiled_setAccount hf _
  constructor
  · rintro ⟨locked, hlock⟩
    obtain ⟨st₁, st₂, hcount, htransfer, -⟩ := view_lockFee hlock
    have hpaid := (hpayable hcount).mp (isSome_iff_exists.mpr ⟨st₂, htransfer⟩)
    simp only [Store.incrementNonce, bind_eq_bind, bind_eq_some_iff, checkedAdd_eq_some] at hcount
    obtain ⟨account, haccount, nonce, hnext, -⟩ := hcount
    rw [balanceAt_of_some haccount] at hpaid
    have hone : (1 : Nonce).toNat = 1 := rfl
    exact ⟨account, haccount, by omega, hpaid⟩
  · rintro ⟨account, haccount, hnonce, hpaid⟩
    obtain ⟨nonce, hnext⟩ := exists_toNat_eq hnonce
    have hadd : account.nonce.checkedAdd 1 = some nonce := checkedAdd_eq_some.mpr hnext
    have hcount : (s.view db).incrementNonce sender =
        some ((s.view db).toStore.setAccount { account with nonce }) := by
      simp only [Store.incrementNonce, haccount, bind_eq_bind, bind_some, hadd]
    rw [← balanceAt_of_some haccount, ← hpayable hcount] at hpaid
    obtain ⟨st₂, htransfer⟩ := isSome_iff_exists.mp hpaid
    obtain ⟨s₁, hrun₁, hv₁⟩ := incrementNonce_transacts.defined hcount
    have htransfer₁ : (s₁.view db).transfer sender FEE_RECIPIENT_MASTER_ADDRESS tx.feeLimit = some st₂ := by
      rw [hv₁]
      exact htransfer
    obtain ⟨s₂, hrun₂, -⟩ := transfer_transacts.defined htransfer₁
    exact ⟨s₂, by rw [lockFee, run_bind_of_ok hrun₁, hrun₂]⟩

end Platform

end L1xCore
