import L1xCore.Execute.Passing
import L1xCore.Execute.Spending

/-!
# `Execute.Drained` — transactions that empty the fee recipient

The unused part of a fee limit is paid back by the fee recipient, which got the limit just before the
transaction was executed. The transaction may take it away again: the fee recipient can be its sender, or a
pool that is unstaked from, or lose tokens to a contract. `drained_iff` says which transactions pass and leave
the fee recipient with less than the unused fee.
-/

namespace L1xCore

open UpdatedState Store

variable {amount size : Balance} {p a : Address} {n : BlockNumber} {db : StateTables}
  {transactionHash : TransactionHash} {recipient : Address} {fee : Nat} {nonce : Nonce} {e e' : Execution}
  {event : Option ExecutionEvent} {pool : StakingPool} {account : Account}

/-! ## Payments of the fee recipient -/

namespace Store

variable {st st' : Store} {payer payee : Address} {amount : Balance} {unused : Nat}

/-- The fee recipient pays an amount to somebody else, and keeps less than the unused fee. -/
structure Drains (st : Store) (payer payee : Address) (amount unused : Nat) : Prop where
  payer : payer = FEE_RECIPIENT_MASTER_ADDRESS
  payee : payee ≠ FEE_RECIPIENT_MASTER_ADDRESS
  paid : amount ≤ st.balanceAt FEE_RECIPIENT_MASTER_ADDRESS
  short : st.balanceAt FEE_RECIPIENT_MASTER_ADDRESS < amount + unused

theorem drains_of_transfer (hf : st.AccountsFiled) (h : st.transfer payer payee amount = some st')
    (hcover : unused ≤ st.balanceAt FEE_RECIPIENT_MASTER_ADDRESS)
    (hshort : st'.balanceAt FEE_RECIPIENT_MASTER_ADDRESS < unused) :
    st.Drains payer payee amount.toNat unused := by
  have hmoved := balanceAt_transfer hf h FEE_RECIPIENT_MASTER_ADDRESS
  by_cases hpayee : FEE_RECIPIENT_MASTER_ADDRESS = payee
  · -- what it pays to itself it keeps
    rw [if_pos hpayee] at hmoved
    split at hmoved <;> omega
  · rw [if_neg hpayee] at hmoved
    by_cases hpayer : FEE_RECIPIENT_MASTER_ADDRESS = payer
    · rw [if_pos hpayer] at hmoved
      exact ⟨hpayer.symm, symm hpayee, by omega, by omega⟩
    · rw [if_neg hpayer] at hmoved
      omega

theorem transfer_of_drains (hf : st.AccountsFiled) (hfits : st.supply < 2 ^ 128)
    (hcover : unused ≤ st.balanceAt FEE_RECIPIENT_MASTER_ADDRESS)
    (h : st.Drains payer payee amount.toNat unused) :
    ∃ st', st.transfer payer payee amount = some st' ∧
      st'.balanceAt FEE_RECIPIENT_MASTER_ADDRESS < unused := by
  obtain ⟨rfl, hpayee, hpaid, hshort⟩ := h
  have hpos : 0 < st.balanceAt FEE_RECIPIENT_MASTER_ADDRESS := by omega
  obtain ⟨account, hacc⟩ := Option.isSome_iff_exists.mp (isSome_account_of_pos hpos)
  obtain ⟨st', hst⟩ := Option.isSome_iff_exists.mp
    ((transfer_isSome_iff hf hfits hacc payee amount).mpr hpaid)
  have hmoved := balanceAt_transfer hf hst FEE_RECIPIENT_MASTER_ADDRESS
  rw [if_neg (symm hpayee), if_pos rfl] at hmoved
  exact ⟨st', hst, by omega⟩

end Store

/-! ## Transactions that leave too little -/

namespace TransactionContext

variable {cx : TransactionContext} {tx : Transaction} {s s' : UpdatedState} {unused : Nat}

/-- The plain work of the transaction goes through, and the fee recipient pays for it with the unused fee. -/
def DrainedByWork (cx : TransactionContext) (tx : Transaction) (st : Store) (unused : Nat) : Prop :=
  match tx.transactionType with
  | .nativeTokenTransfer recipient amount => st.Drains cx.accountAddress recipient amount.toNat unused
  | .smartContractFunctionCall contractInstanceAddress _ _ deposit =>
    st.contractInstance contractInstanceAddress = none ∧
      st.Drains cx.accountAddress contractInstanceAddress deposit.toNat unused
  | .stake poolAddress amount =>
    (∃ pool, st.Accepts poolAddress amount pool) ∧
      st.stakedBy poolAddress cx.accountAddress + amount.toNat < 2 ^ 128 ∧
      st.Drains cx.accountAddress poolAddress amount.toNat unused
  | .unStake poolAddress amount =>
    ∃ pool account, st.stakingPool poolAddress = some pool ∧
      st.stakingAccount (poolAddress, cx.accountAddress) = some account ∧
      amount ≤ account.balance ∧
      st.Drains poolAddress cx.accountAddress
        (withdrawal pool account.balance.toNat amount.toNat) unused
  | _ => False

/-- **The fee recipient cannot pay the unused fee back** after the transaction: its plain work takes too
    much from it, or the contract that it runs does. -/
def Drained (cx : TransactionContext) (tx : Transaction) (s : UpdatedState) : Prop :=
  (∃ size, FeeConfig.config.transactionSizeFee tx = some size ∧
    size.toNat + (plainFee tx).toNat ≤ tx.feeLimit.toNat ∧
    cx.DrainedByWork tx (s.view cx.db).toStore (tx.feeLimit.toNat - (size.toNat + (plainFee tx).toNat))) ∨
  ∃ fee request e burntGas, cx.PassesByRequest tx s fee request e burntGas ∧
    ((cx.performed request e.updatedState).view cx.db).balanceAt FEE_RECIPIENT_MASTER_ADDRESS <
      tx.feeLimit.toNat - fee

/-! ### A transaction that passes and leaves too little -/

section

variable (hs : s.WellKeyed) (hcover : unused ≤ (s.view db).balanceAt FEE_RECIPIENT_MASTER_ADDRESS)
  (hshort : (s'.view db).balanceAt FEE_RECIPIENT_MASTER_ADDRESS < unused)

include hs hcover hshort

theorem drains_of_tokenTransfer
    (h : (executeNativeTokenTransfer db a recipient amount).run s = (.ok (), s')) :
    (s.view db).Drains a recipient amount.toNat unused := by
  have hf : (s.view db).AccountsFiled := accountsFiled_view hs
  unfold executeNativeTokenTransfer at h
  by_cases hmint : isMint a recipient = true
  · rw [if_pos hmint] at h
    obtain ⟨st, hst, hview⟩ := (mint_transacts amount recipient).ok h
    have hmore := balanceAt_mint hf hst FEE_RECIPIENT_MASTER_ADDRESS
    rw [hview] at hshort
    have hshort : st.balanceAt FEE_RECIPIENT_MASTER_ADDRESS < unused := hshort
    omega
  · rw [if_neg hmint] at h
    obtain ⟨st, hst, hview⟩ := transfer_transacts.ok h
    rw [hview] at hshort
    exact drains_of_transfer hf hst hcover hshort

theorem drains_of_stake (h : (stake db p a n amount).run s = (.ok (), s')) :
    (∃ pool, (s.view db).Accepts p amount pool) ∧ (s.view db).stakedBy p a + amount.toNat < 2 ^ 128 ∧
      (s.view db).Drains a p amount.toNat unused := by
  obtain ⟨pool, st, balance, haccepts, hst, hadd, hview⟩ := stake_ok h
  rw [hview] at hshort
  refine ⟨⟨pool, haccepts⟩, ?_, ?_⟩
  · rw [← toNat_noted hs hadd]
    exact balance.isLt
  · exact drains_of_transfer (accountsFiled_view hs) hst hcover hshort

theorem drains_of_unStake (h : (unStake db p a n amount).run s = (.ok (), s')) :
    ∃ pool account, (s.view db).stakingPool p = some pool ∧
      (s.view db).stakingAccount (p, a) = some account ∧ amount ≤ account.balance ∧
      (s.view db).Drains p a (withdrawal pool account.balance.toNat amount.toNat) unused := by
  obtain ⟨e, s₁, hrun₁, -⟩ | ⟨pool, account, remaining, s₁, hpool, haccount, hremaining, hrun₁, hv₁⟩ :=
    unStake_cases
  · rw [hrun₁] at h
    cases h
  · rw [hrun₁] at h
    obtain ⟨st, hst, hview⟩ := transfer_transacts.ok h
    rw [hv₁] at hst hview
    rw [hview] at hshort
    have hf : (s.view db).AccountsFiled := accountsFiled_view hs
    have hnoted : ((s.view db).noted p pool { account with
        balance := (unStakeAmounts pool account.balance amount remaining).2 } n).Drains p a
        (unStakeAmounts pool account.balance amount remaining).1.toNat unused :=
      drains_of_transfer hf hst hcover hshort
    have hsub := BitVec.checkedSub_eq_some.mp hremaining
    have hle : amount.toNat ≤ account.balance.toNat := by omega
    rw [toNat_unStakeAmounts hremaining] at hnoted
    exact ⟨pool, account, hpool, haccount, hle, hnoted.payer, hnoted.payee, hnoted.paid, hnoted.short⟩

end

theorem PassesPlain.worked {α : Type} {charge : Balance} {text : Error → Error} {x : StateOp α}
    {events : α → Option ExecutionEvent}
    (h : cx.PassesPlain tx s fee s' size transactionHash nonce e event e')
    (hwork : cx.plainKind tx nonce = plainWork charge text x events) :
    fee = size.toNat + charge.toNat ∧ fee ≤ tx.feeLimit.toNat ∧ ∃ a, x.run e.updatedState = (.ok a, s') := by
  have hrun := h.work
  rw [hwork] at hrun
  obtain ⟨htook, a, hx⟩ := plainWork_ok hrun
  obtain ⟨hused, hle⟩ := (h.took.trans htook).getFeeUsed
  have hcost : fee = size.toNat + charge.toNat := h.fee.symm.trans hused
  rw [h.state] at hx
  exact ⟨hcost, by omega, a, hx⟩

theorem drained_of_plain (hs : s.WellKeyed)
    (hcover : tx.feeLimit.toNat ≤ (s.view cx.db).balanceAt FEE_RECIPIENT_MASTER_ADDRESS)
    (h : cx.PassesPlain tx s fee s' size transactionHash nonce e event e')
    (hshort : (s'.view cx.db).balanceAt FEE_RECIPIENT_MASTER_ADDRESS < tx.feeLimit.toNat - fee) :
    fee = size.toNat + (plainFee tx).toNat ∧ fee ≤ tx.feeLimit.toNat ∧
      cx.DrainedByWork tx (s.view cx.db).toStore (tx.feeLimit.toNat - fee) := by
  have hview : e.updatedState.view cx.db = s.view cx.db := h.reads.view.symm
  have hs₁ : e.updatedState.WellKeyed := h.reads.evolves.wellKeyed hs
  have hcover₁ : tx.feeLimit.toNat - fee ≤
      (e.updatedState.view cx.db).balanceAt FEE_RECIPIENT_MASTER_ADDRESS := by
    rw [hview]
    omega
  have hidle : ∀ {α : Type} {x : StateOp α} {r : Except Error α},
      Fallible.Moves (Drops WellKeyed (fun s => (s.view cx.db).balanceAt FEE_RECIPIENT_MASTER_ADDRESS) 0) x →
        x.run e.updatedState = (r, s') → False :=
    fun hkeeps hx => absurd (hcover₁.trans (hkeeps.of_run hx hs₁).2) hshort.not_ge
  rw [← hview]
  unfold DrainedByWork plainFee
  cases htype : tx.transactionType with
  | nativeTokenTransfer recipient amount =>
    obtain ⟨hcost, hle, a, hx⟩ := h.worked (plainKind_of_type htype)
    exact ⟨hcost, hle, drains_of_tokenTransfer hs₁ hcover₁ hshort hx⟩
  | smartContractFunctionCall contractInstanceAddress function arguments deposit =>
    obtain ⟨hcost, hle, a, hx⟩ := h.worked (plainKind_of_type htype)
    obtain ⟨e₀, hreads₀, hprepare⟩ := h.none
    unfold prepareKind at hprepare
    rw [htype] at hprepare
    have hinstance := (prepareFunctionCall_none hprepare).1
    rw [← hreads₀.view, ← hview] at hinstance
    exact ⟨hcost, hle, hinstance, drains_of_tokenTransfer hs₁ hcover₁ hshort hx⟩
  | stake poolAddress amount =>
    obtain ⟨hcost, hle, a, hx⟩ := h.worked (plainKind_of_type htype)
    exact ⟨hcost, hle, drains_of_stake hs₁ hcover₁ hshort hx⟩
  | unStake poolAddress amount =>
    obtain ⟨hcost, hle, a, hx⟩ := h.worked (plainKind_of_type htype)
    exact ⟨hcost, hle, drains_of_unStake hs₁ hcover₁ hshort hx⟩
  | createStakingPool contractInstanceAddress minStake maxStake minPoolBalance maxPoolBalance period =>
    -- the recipient is left alone
    obtain ⟨-, -, a, hx⟩ := h.worked (plainKind_of_type htype)
    exact (hidle (wellKeyed_invariant.balanceAt_rule.createPool wellKeyed_invariant.createSystemAccount_drops
      _ _ _ _ _ _ _ _ _ _ _) hx).elim
  | stakingPoolContract poolAddress contractInstanceAddress =>
    obtain ⟨-, -, a, hx⟩ := h.worked (plainKind_of_type htype)
    exact (hidle (wellKeyed_invariant.balanceAt_rule.updateContract _ _ _) hx).elim
  | smartContractDeployment | smartContractInit =>
    obtain ⟨e₀, -, hprepare⟩ := h.none
    exact absurd hprepare (prepareKind_ne_none (by rw [creates, htype]))

/-! ### A transaction that drains the fee recipient passes -/

variable (hs : s.WellKeyed)

include hs

section

variable (hfits : (s.view db).supply < 2 ^ 128)
  (hcover : unused ≤ (s.view db).balanceAt FEE_RECIPIENT_MASTER_ADDRESS)

include hfits hcover

theorem tokenTransfer_of_drains (h : (s.view db).Drains a recipient amount.toNat unused) :
    ∃ u s', (executeNativeTokenTransfer db a recipient amount).run s = (.ok u, s') ∧
      (s'.view db).balanceAt FEE_RECIPIENT_MASTER_ADDRESS < unused := by
  obtain ⟨st, hst, hshort⟩ := transfer_of_drains (accountsFiled_view hs) hfits hcover h
  have hmint : ¬ isMint a recipient = true := by
    unfold isMint
    rw [decide_eq_true_iff]
    rintro ⟨hself, -⟩
    exact h.payee (hself.symm.trans h.payer)
  obtain ⟨s', hrun, hview⟩ := transfer_transacts.defined hst
  refine ⟨(), s', ?_, ?_⟩
  · unfold executeNativeTokenTransfer
    rw [if_neg hmint]
    exact hrun
  · rw [hview]
    exact hshort

theorem unStake_of_drains {account : StakingAccount} (hpool : (s.view db).stakingPool p = some pool)
    (haccount : (s.view db).stakingAccount (p, a) = some account) (hle : amount ≤ account.balance)
    (h : (s.view db).Drains p a (withdrawal pool account.balance.toNat amount.toNat) unused) :
    ∃ u s', (unStake db p a n amount).run s = (.ok u, s') ∧
      (s'.view db).balanceAt FEE_RECIPIENT_MASTER_ADDRESS < unused := by
  obtain ⟨remaining, -, hremaining⟩ := BitVec.exists_checkedSub hle
  obtain ⟨s₁, hrun₁, hv₁⟩ := run_unStake_transfer n hpool haccount hremaining
  rw [← toNat_unStakeAmounts hremaining] at h
  -- the note moves no tokens, so the payment goes through on the overlay with it
  have hf₁ : (s₁.view db).AccountsFiled := by
    rw [hv₁]
    exact accountsFiled_view hs
  have hfits₁ : (s₁.view db).supply < 2 ^ 128 := by
    rw [hv₁]
    exact hfits
  have hdrains₁ : (s₁.view db).Drains p a
      (unStakeAmounts pool account.balance amount remaining).1.toNat unused := by
    rw [hv₁]
    exact ⟨h.payer, h.payee, h.paid, h.short⟩
  obtain ⟨st, hst, hshort⟩ := transfer_of_drains hf₁ hfits₁ (by rw [hv₁]; exact hcover) hdrains₁
  obtain ⟨s', hrun, hview⟩ := transfer_transacts.defined hst
  refine ⟨(), s', hrun₁.trans hrun, ?_⟩
  rw [hview]
  exact hshort

end

variable (hfits : (s.view cx.db).supply < 2 ^ 128)
  (hcover : tx.feeLimit.toNat ≤ (s.view cx.db).balanceAt FEE_RECIPIENT_MASTER_ADDRESS)
  (hacc : (s.view cx.db).account cx.accountAddress = some account)
  (hhash : tx.transactionHash cx.rt.crypto cx.rt.codec = .ok transactionHash)

include hfits hcover hacc hhash

theorem passes_of_drainedByWork (hsize : FeeConfig.config.transactionSizeFee tx = some size)
    (hle : size.toNat + (plainFee tx).toNat ≤ tx.feeLimit.toNat)
    (h : cx.DrainedByWork tx (s.view cx.db).toStore
      (tx.feeLimit.toNat - (size.toNat + (plainFee tx).toNat))) :
    ∃ s', cx.Passes tx s (size.toNat + (plainFee tx).toNat) s' ∧
      (s'.view cx.db).balanceAt FEE_RECIPIENT_MASTER_ADDRESS <
        tx.feeLimit.toNat - (size.toNat + (plainFee tx).toNat) := by
  have hcover' : tx.feeLimit.toNat - (size.toNat + (plainFee tx).toNat) ≤
      (s.view cx.db).balanceAt FEE_RECIPIENT_MASTER_ADDRESS := by omega
  generalize tx.feeLimit.toNat - (size.toNat + (plainFee tx).toNat) = unused at h hcover' ⊢
  unfold DrainedByWork at h
  unfold plainFee at hle ⊢
  -- on every overlay that shows the same, the same goes through
  have hsame : ∀ s₁, Remembers cx.db s s₁ → s₁.WellKeyed ∧ s₁.view cx.db = s.view cx.db := by
    intro s₁ hreads
    exact ⟨hreads.evolves.wellKeyed hs, hreads.view.symm⟩
  cases htype : tx.transactionType with
  | nativeTokenTransfer recipient amount =>
    rw [htype] at h hle
    refine passes_of_plain hsize hhash hacc hle ?_ (plainKind_of_type htype) ?_
    · intro e _
      exact ⟨e, by rw [prepareKind_of_type htype]; rfl⟩
    · intro s₁ hreads
      obtain ⟨hs₁, hview⟩ := hsame s₁ hreads
      rw [← hview] at h hfits hcover'
      exact tokenTransfer_of_drains hs₁ hfits hcover' h
  | smartContractFunctionCall contractInstanceAddress function arguments deposit =>
    rw [htype] at h hle
    obtain ⟨hinstance, h⟩ := h
    refine passes_of_plain hsize hhash hacc hle ?_ (plainKind_of_type htype) ?_
    · intro e hreads
      have hnone : (e.updatedState.view cx.db).contractInstance contractInstanceAddress = none := by
        rw [(hsame _ hreads).2]
        exact hinstance
      obtain ⟨s₁, hrun⟩ := run_prepareFunctionCall_none hnone
      rw [prepareKind_of_type htype]
      exact ⟨_, hrun⟩
    · intro s₁ hreads
      obtain ⟨hs₁, hview⟩ := hsame s₁ hreads
      rw [← hview] at h hfits hcover'
      exact tokenTransfer_of_drains hs₁ hfits hcover' h
  | stake poolAddress amount =>
    rw [htype] at h hle
    obtain ⟨⟨pool, haccepts⟩, hnote, h⟩ := h
    refine passes_of_plain hsize hhash hacc hle ?_ (plainKind_of_type htype) ?_
    · intro e _
      exact ⟨e, by rw [prepareKind_of_type htype]; rfl⟩
    · intro s₁ hreads
      obtain ⟨hs₁, hview⟩ := hsame s₁ hreads
      rw [← hview] at h hfits hcover' haccepts hnote
      obtain ⟨st, hst, hshort⟩ := transfer_of_drains (accountsFiled_view hs₁) hfits hcover' h
      obtain ⟨s', balance, -, hrun, hview'⟩ := stake_noted hs₁ _ haccepts hst hnote
      exact ⟨(), s', hrun, hview' ▸ hshort⟩
  | unStake poolAddress amount =>
    rw [htype] at h hle
    obtain ⟨pool, staked, hpool, hstaked, hamount, h⟩ := h
    refine passes_of_plain hsize hhash hacc hle ?_ (plainKind_of_type htype) ?_
    · intro e _
      exact ⟨e, by rw [prepareKind_of_type htype]; rfl⟩
    · intro s₁ hreads
      obtain ⟨hs₁, hview⟩ := hsame s₁ hreads
      rw [← hview] at h hfits hcover' hpool hstaked
      exact unStake_of_drains hs₁ hfits hcover' hpool hstaked hamount h
  | smartContractDeployment | smartContractInit | createStakingPool | stakingPoolContract =>
    rw [htype] at h; exact h.elim

/-- **When a transaction passes and leaves too little**, on an overlay where the fee was locked. -/
theorem drained_iff : (∃ fee s', cx.Passes tx s fee s' ∧
      (s'.view cx.db).balanceAt FEE_RECIPIENT_MASTER_ADDRESS < tx.feeLimit.toNat - fee) ↔
    cx.Drained tx s := by
  constructor
  · rintro ⟨fee, s', hpasses, hshort⟩
    rcases passes_cases hpasses with ⟨request, e, burntGas, hrequest, rfl⟩ |
      ⟨size, hash, nonce, e, event, e', hplain⟩
    · exact .inr ⟨fee, request, e, burntGas, hrequest, hshort⟩
    · obtain ⟨hcost, hle, hdrained⟩ := drained_of_plain hs hcover hplain hshort
      subst hcost
      exact .inl ⟨size, hplain.sized, hle, hdrained⟩
  · rintro (⟨size, hsize, hle, hdrained⟩ | ⟨fee, request, e, burntGas, hrequest, hshort⟩)
    · obtain ⟨s', hpasses, hshort⟩ := passes_of_drainedByWork hs hfits hcover hacc hhash hsize hle hdrained
      exact ⟨_, s', hpasses, hshort⟩
    · exact ⟨fee, _, passes_of_request hrequest, hshort⟩

end TransactionContext

end L1xCore
