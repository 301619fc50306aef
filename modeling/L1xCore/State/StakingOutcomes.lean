import L1xCore.State.Staking
import L1xCore.State.Transfers

/-!
# `State.StakingOutcomes` — what a stake and an unstake have done when they return

A stake pays first and notes the stake afterwards; an unstake lowers the note first and pays afterwards. Each
of them is followed here to its return: it is *refused* before anything is written, or it comes to its last
step, and then that step may still fail. What has been written by then stays.
-/

namespace L1xCore

open Store BitVec Option

variable {st : Store} {balance : Balance} {pool : StakingPool} {n : BlockNumber} {remaining : Balance}

namespace Store

variable {st st' : Store} {p a b : Address} {amount : Balance}

/-! ## Plain facts -/

/-- Between two accounts a transfer needs a payer who has the amount, and a payee who can hold it. -/
theorem exists_transfer_iff (hab : a ≠ b) :
    (∃ st', st.transfer a b amount = some st') ↔ (st.account a).isSome ∧ amount.toNat ≤ st.balanceAt a ∧
        st.balanceAt b + amount.toNat < 2 ^ 128 := by
  have hpayee : ((st.account b).getD (.new b)).balance.toNat = st.balanceAt b := by
    unfold balanceAt
    cases st.account b <;> rfl
  constructor
  · rintro ⟨st', h⟩
    obtain ⟨account, fromBalance, toBalance, hacc, hsub, hadd, -⟩ := (transfer_eq_some_of_ne hab).mp h
    refine ⟨by rw [hacc]; rfl, ?_, by omega⟩
    rw [balanceAt_of_some hacc]
    omega
  · rintro ⟨hsome, hle, hlt⟩
    obtain ⟨account, hacc⟩ := isSome_iff_exists.mp hsome
    rw [balanceAt_of_some hacc] at hle
    obtain ⟨fromBalance, hfrom, -⟩ := exists_checkedSub hle
    obtain ⟨toBalance, hto⟩ := exists_toNat_eq hlt
    refine ⟨_, (transfer_eq_some_of_ne hab).mpr ⟨account, fromBalance, toBalance, hacc, hfrom, ?_, rfl⟩⟩
    rw [hpayee]
    exact hto

theorem le_balanceAt_of_transfer (h : st.transfer a b amount = some st') : amount.toNat ≤ st.balanceAt a := by
  obtain ⟨account, hacc, h⟩ := bind_eq_some_iff.mp h
  obtain ⟨fromBalance, hsub, -⟩ := bind_eq_some_iff.mp h
  have hsum := checkedSub_eq_some.mp hsub
  rw [balanceAt_of_some hacc]
  omega

theorem isSome_account_of_pos (h : 0 < st.balanceAt a) : (st.account a).isSome := by
  by_contra hnone
  rw [Bool.not_eq_true, isSome_eq_false_iff, isNone_iff_eq_none] at hnone
  rw [balanceAt_of_none hnone] at h
  omega

/-! ## What a pool takes -/

/-- The pool `p` takes the amount: it is there, and its limits allow it. -/
structure Accepts (st : Store) (p : Address) (amount : Balance) (pool : StakingPool) : Prop where
  found : st.stakingPool p = some pool
  limits : UpdatedState.checkStakeLimits pool amount = .ok ()
  room : ∀ maxPoolBalance, pool.maxPoolBalance = some maxPoolBalance →
    ∃ account, st.account p = some account ∧ account.balance ≤ maxPoolBalance.saturatingSub amount

theorem balanceAt_noted (pool : StakingPool) (account : StakingAccount) (n : BlockNumber) (x : Address) :
    (st.noted p pool account n).balanceAt x = st.balanceAt x := rfl

end Store

namespace UpdatedState

open Fallible

variable {db : StateTables} {s s' : UpdatedState} {p a : Address} {amount : Balance}

/-! ## Stakes -/

/-- The limit of a pool on its balance, as the overlay checks it. -/
theorem run_checkPoolBalance :
    ((∀ maxPoolBalance, pool.maxPoolBalance = some maxPoolBalance → ∃ account,
        (view db s).account p = some account ∧ account.balance ≤ maxPoolBalance.saturatingSub amount) ∧
      ∃ s', (checkPoolBalance db pool p amount).run s = (.ok (), s') ∧ view db s' = view db s) ∨
    ((∃ maxPoolBalance, pool.maxPoolBalance = some maxPoolBalance ∧ ∀ account,
        (view db s).account p = some account → maxPoolBalance.saturatingSub amount < account.balance) ∧
      ∃ e s', (checkPoolBalance db pool p amount).run s = (.error e, s') ∧ view db s' = view db s) := by
  unfold checkPoolBalance
  cases hmax : pool.maxPoolBalance with
  | none =>
    left
    refine ⟨?_, s, rfl, rfl⟩
    intro maxPoolBalance h
    cases h
  | some maxPoolBalance =>
    have hreads : Reads db (getBalance db p) (fun v => (v.account p).map (·.balance)) :=
      (getAccount_reads p).map (·.balance)
    cases hacc : (view db s).account p with
    | none =>
      right
      obtain ⟨e, s', hrun, hview⟩ := hreads.missing (s := s) (by rw [hacc]; rfl)
      refine ⟨⟨maxPoolBalance, rfl, ?_⟩, e, s', run_bind_of_error hrun, hview⟩
      intro account h
      cases h
    | some account =>
      obtain ⟨s', hrun, hview⟩ := hreads.found (s := s) (by rw [hacc]; rfl)
      by_cases hless : maxPoolBalance.saturatingSub amount < account.balance
      · right
        refine ⟨⟨maxPoolBalance, rfl, ?_⟩, ?_⟩
        · rintro _ ⟨⟩
          exact hless
        · dsimp only
          rw [run_bind_of_ok hrun, checkPoolRoom, if_pos hless]
          exact ⟨_, s', rfl, hview⟩
      · left
        refine ⟨?_, ?_⟩
        · rintro _ ⟨⟩
          exact ⟨account, rfl, BitVec.not_lt.mp hless⟩
        · dsimp only
          rw [run_bind_of_ok hrun, checkPoolRoom, if_neg hless]
          exact ⟨s', rfl, hview⟩

/-- A stake that the pool does not take, or that cannot be paid, is refused. -/
theorem stake_refused
    (h : ¬ ∃ pool st, (view db s).Accepts p amount pool ∧ (view db s).transfer a p amount = some st) :
    ∃ e s', (stake db p a n amount).run s = (.error e, s') ∧ view db s' = view db s := by
  unfold stake
  cases hpool : (view db s).stakingPool p with
  | none =>
    obtain ⟨e, s₁, hrun₁, hv₁⟩ := (getStakingPool_reads p).missing hpool
    exact ⟨e, s₁, run_bind_of_error hrun₁, hv₁⟩
  | some pool =>
    obtain ⟨s₁, hrun₁, hv₁⟩ := (getStakingPool_reads p).found hpool
    rw [run_bind_of_ok hrun₁]
    cases hlimits : checkStakeLimits pool amount with
    | error e => exact ⟨e, s₁, rfl, hv₁⟩
    | ok _ =>
      rw [run_bind_of_ok (run_lift (.ok ()) s₁)]
      rcases run_checkPoolBalance with
        ⟨hroom, s₂, hrun₂, hv₂⟩ | ⟨-, e, s₂, hrun₂, hv₂⟩
      · rw [run_bind_of_ok hrun₂]
        rw [hv₁] at hroom hv₂
        have hnone : (view db s₂).transfer a p amount = none := by
          rw [hv₂, eq_none_iff_forall_ne_some]
          intro st hst
          exact h ⟨pool, st, ⟨hpool, hlimits, hroom⟩, hst⟩
        obtain ⟨e, s₃, hrun₃, hv₃⟩ := transfer_transacts.undefined hnone
        exact ⟨e, s₃, run_bind_of_error hrun₃, hv₃.trans hv₂⟩
      · exact ⟨e, s₂, run_bind_of_error hrun₂, hv₂.trans hv₁⟩

/-- A stake that is taken and paid is noted, unless the note overflows: then the payment stays. -/
theorem stake_paid (n : BlockNumber) (haccepts : (view db s).Accepts p amount pool)
    (hpaid : (view db s).transfer a p amount = some st) :
    match (((view db s).stakingAccount (p, a)).getD (.new a p)).balance.checkedAdd amount with
    | some balance => ∃ s', (stake db p a n amount).run s = (.ok (), s') ∧
        view db s' = (view db s).onStore fun _ =>
          st.noted p pool { ((view db s).stakingAccount (p, a)).getD (.new a p) with balance } n
    | none => ∃ e s', (stake db p a n amount).run s = (.error e, s') ∧
        view db s' = (view db s).onStore fun _ => st := by
  obtain ⟨hpools, hstaking, -⟩ := transfer_frame hpaid
  obtain ⟨s₁, hrun₁, hv₁⟩ := (getStakingPool_reads p).found haccepts.found
  obtain ⟨-, s₂, hrun₂, hv₂⟩ | ⟨⟨maxPoolBalance, hmax, hless⟩, -⟩ := run_checkPoolBalance
  · rw [hv₁] at hv₂
    obtain ⟨s₃, hrun₃, hv₃⟩ := transfer_transacts.defined (by rw [hv₂]; exact hpaid)
    rw [hv₂] at hv₃
    -- the staking account is read after the payment, which has not touched it
    have hreads : Reads db (getStakingAccount db a p) (·.stakingAccount (p, a)) := getStakingAccount_reads
    have hfound := hreads s₃
    rcases hread : (getStakingAccount db a p).run s₃ with ⟨found, s₄⟩
    rw [hread] at hfound
    obtain ⟨hfound, hv₄⟩ := hfound
    rw [hv₃] at hfound hv₄
    have hfound : found.toOption = (view db s).stakingAccount (p, a) := by
      rw [hfound]
      exact congrFun hstaking (p, a)
    have hrun : (stake db p a n amount).run s = (do
        let balance ← okOr ((found.toOption.getD (.new a p)).balance.checkedAdd amount)
          s!"Stake: balance overflow, staking account: {hexEncode (found.toOption.getD (.new a p)).accountAddress}, balance: {(found.toOption.getD (.new a p)).balance.toNat}, amount: {amount.toNat}"
        updateStakingAccount { found.toOption.getD (.new a p) with balance }
        updateStakingPoolBlockNumber db p n : StateOp Unit).run s₄ := by
      unfold stake
      rw [run_bind_of_ok hrun₁, haccepts.limits, run_bind_of_ok (run_lift (.ok ()) s₁),
        run_bind_of_ok hrun₂, run_bind_of_ok hrun₃, run_bind_of_ok (by rw [run_outcome, hread])]
    rw [hrun, hfound]
    generalize ((view db s).stakingAccount (p, a)).getD (.new a p) = account
    cases hadd : account.balance.checkedAdd amount with
    | none => exact ⟨_, s₄, rfl, hv₄⟩
    | some balance =>
      have hnote : Writes db (updateStakingAccount { account with balance }) _ :=
        updateStakingAccount_writes _
      obtain ⟨s₅, hrun₅, hv₅⟩ := hnote s₄
      have hpool₅ : (view db s₅).stakingPool p = some pool := by
        rw [hv₅, hv₄]
        exact (congrFun hpools p).trans haccepts.found
      obtain ⟨s₆, hrun₆, hv₆⟩ := (modifyStakingPool_transacts p fun pool =>
        { pool with updatedBlockNumber := n }).defined (map_eq_some_iff.mpr ⟨pool, hpool₅, rfl⟩)
      refine ⟨s₆, ?_, ?_⟩
      · rw [run_bind_of_ok run_okOr_some, run_bind_of_ok hrun₅]
        exact hrun₆
      · rw [hv₆, hv₅, hv₄]
        rfl
  · -- the pool has room, so the check has passed
    obtain ⟨account, hacc, hle⟩ := haccepts.room maxPoolBalance hmax
    exact absurd (hless account (by rw [hv₁]; exact hacc)) (BitVec.not_lt.mpr hle)

/-- A stake that returns without an error was taken, paid and noted. -/
theorem stake_ok (h : (stake db p a n amount).run s = (.ok (), s')) :
    ∃ pool st balance, (view db s).Accepts p amount pool ∧ (view db s).transfer a p amount = some st ∧
      (((view db s).stakingAccount (p, a)).getD (.new a p)).balance.checkedAdd amount = some balance ∧
      view db s' = (view db s).onStore fun _ =>
        st.noted p pool { ((view db s).stakingAccount (p, a)).getD (.new a p) with balance } n := by
  by_cases hreached : ∃ pool st, (view db s).Accepts p amount pool ∧ (view db s).transfer a p amount = some st
  · obtain ⟨pool, st, haccepts, hst⟩ := hreached
    have hpaid := stake_paid n haccepts hst
    cases hadd : (((view db s).stakingAccount (p, a)).getD (.new a p)).balance.checkedAdd amount with
    | none =>
      rw [hadd] at hpaid
      obtain ⟨e, s₁, hrun, -⟩ := hpaid
      rw [hrun] at h
      cases h
    | some balance =>
      rw [hadd] at hpaid
      obtain ⟨s₁, hrun, hview⟩ := hpaid
      rw [hrun] at h
      cases h
      exact ⟨pool, st, balance, haccepts, hst, rfl, hview⟩
  · obtain ⟨e, s₁, hrun, -⟩ := stake_refused hreached
    rw [hrun] at h
    cases h

theorem toNat_noted (hs : WellKeyed s)
    (hadd : (((view db s).stakingAccount (p, a)).getD (.new a p)).balance.checkedAdd amount = some balance) :
    balance.toNat = (view db s).stakedBy p a + amount.toNat := by
  have hfiled : (view db s).StakingFiled := stakingFiled_view hs
  obtain ⟨-, -, hstaked⟩ := Store.StakingFiled.getD hfiled p a
  have hsum := checkedAdd_eq_some.mp hadd
  omega

/-- A stake that is taken and paid goes through if its note fits. -/
theorem stake_noted (hs : WellKeyed s) (n : BlockNumber) (haccepts : (view db s).Accepts p amount pool)
    (hpaid : (view db s).transfer a p amount = some st)
    (hfits : (view db s).stakedBy p a + amount.toNat < 2 ^ 128) :
    ∃ s' balance, balance.toNat = (view db s).stakedBy p a + amount.toNat ∧
      (stake db p a n amount).run s = (.ok (), s') ∧
      view db s' = (view db s).onStore fun _ =>
        st.noted p pool { ((view db s).stakingAccount (p, a)).getD (.new a p) with balance } n := by
  have hfiled : (view db s).StakingFiled := stakingFiled_view hs
  obtain ⟨-, -, hstaked⟩ := Store.StakingFiled.getD hfiled p a
  obtain ⟨balance, hbalance⟩ : ∃ x : Balance, x.toNat = (view db s).stakedBy p a + amount.toNat :=
    exists_toNat_eq hfits
  have hsome : (((view db s).stakingAccount (p, a)).getD (.new a p)).balance.checkedAdd amount =
      some balance := checkedAdd_eq_some.mpr (by omega)
  have hstake := stake_paid n haccepts hpaid
  rw [hsome] at hstake
  obtain ⟨s', hrun, hview⟩ := hstake
  exact ⟨s', balance, hbalance, hrun, hview⟩

/-! ## Unstakes -/

/-- **An unstake is refused without a trace, or comes to its payment**, with the note lowered. -/
theorem unStake_cases :
    (∃ e s', (unStake db p a n amount).run s = (.error e, s') ∧ view db s' = view db s) ∨
    ∃ pool account remaining s', (view db s).stakingPool p = some pool ∧
      (view db s).stakingAccount (p, a) = some account ∧
      account.balance.checkedSub amount = some remaining ∧ (unStake db p a n amount).run s =
        (transfer db p a (unStakeAmounts pool account.balance amount remaining).1).run s' ∧
      view db s' = (view db s).onStore fun st => st.noted p pool
        { account with balance := (unStakeAmounts pool account.balance amount remaining).2 } n := by
  cases hpool : (view db s).stakingPool p with
  | none =>
    obtain ⟨e, s₁, hrun₁, hv₁⟩ := (getStakingPool_reads p).missing hpool
    exact .inl ⟨e, s₁, run_bind_of_error hrun₁, hv₁⟩
  | some pool =>
    obtain ⟨s₁, hrun₁, hv₁⟩ := (getStakingPool_reads p).found hpool
    cases haccount : (view db s).stakingAccount (p, a) with
    | none =>
      obtain ⟨e, s₂, hrun₂, hv₂⟩ := getStakingAccount_reads.missing (s := s₁) (by rw [hv₁]; exact haccount)
      exact .inl ⟨e, s₂, by rw [unStake, run_bind_of_ok hrun₁, run_bind_of_error hrun₂], hv₂.trans hv₁⟩
    | some account =>
      cases hremaining : account.balance.checkedSub amount with
      | none =>
        obtain ⟨s₂, hrun₂, hv₂⟩ := getStakingAccount_reads.found (s := s₁) (by rw [hv₁]; exact haccount)
        left
        rw [unStake, run_bind_of_ok hrun₁, run_bind_of_ok hrun₂, hremaining]
        exact ⟨_, s₂, rfl, hv₂.trans hv₁⟩
      | some remaining =>
        obtain ⟨s', hrun, hview⟩ := run_unStake_transfer n hpool haccount hremaining
        exact .inr ⟨pool, account, remaining, s', rfl, rfl, hremaining, hrun, hview⟩

/-! ## Exact unstakes, and failures without a trace -/

/-- What was paid out: the account gets what the pool gives and what leaves its stake, at least what was
    asked for, and what remains is nothing or the minimum. -/
structure PaidOut (st st' : Store) (p a : Address) (amount : Balance) (paid : Nat) : Prop where
  received : st'.balanceAt a = st.balanceAt a + paid
  given : st'.balanceAt p + paid = st.balanceAt p
  unstaked : st'.stakedBy p a + paid = st.stakedBy p a
  enough : amount.toNat ≤ paid
  rest : ∀ pool minStake, st.stakingPool p = some pool → pool.minStake = some minStake →
    st'.stakedBy p a = 0 ∨ minStake.toNat ≤ st'.stakedBy p a

/-- No balance and no staked balance changed. -/
structure SameFunds (st st' : Store) : Prop where
  balance : ∀ x, st'.balanceAt x = st.balanceAt x
  staked : ∀ q x, st'.stakedBy q x = st.stakedBy q x

/-- An unstake pays exactly what leaves the stake, and an operation that fails moves nothing. -/
structure StakingExact (db : StateTables) (s : UpdatedState) (p a : Address) (n : BlockNumber)
    (amount : Balance) : Prop where
  paid : ∀ s', (unStake db p a n amount).run s = (.ok (), s') →
    ∃ paid, PaidOut (view db s).toStore (view db s').toStore p a amount paid
  unstakeFailed : ∀ e s', (unStake db p a n amount).run s = (.error e, s') →
    SameFunds (view db s).toStore (view db s').toStore
  stakeFailed : ∀ e s', (stake db p a n amount).run s = (.error e, s') →
    SameFunds (view db s).toStore (view db s').toStore

/-- The amount, or the whole stake where less than the minimum would be left of it. -/
def withdrawal (pool : StakingPool) (staked amount : Nat) : Nat :=
  match pool.minStake with
  | some minStake => if amount < staked ∧ staked - amount < minStake.toNat then staked else amount
  | none => amount

/-- A withdrawal is what was asked for or more, and leaves nothing below the minimum. -/
theorem withdrawal_bounds {staked amount : Nat} (h : amount ≤ staked) :
    amount ≤ withdrawal pool staked amount ∧ ∀ minStake, pool.minStake = some minStake →
      withdrawal pool staked amount = staked ∨ withdrawal pool staked amount + minStake.toNat ≤ staked := by
  unfold withdrawal
  cases pool.minStake with
  | none => simp
  | some minStake =>
    simp only [some.injEq, forall_eq']
    split <;> omega

theorem toNat_unStakeAmounts (h : balance.checkedSub amount = some remaining) :
    (unStakeAmounts pool balance amount remaining).1.toNat = withdrawal pool balance.toNat amount.toNat := by
  have hsub := checkedSub_eq_some.mp h
  have hpos : 0 < remaining ↔ amount.toNat < balance.toNat := by
    show 0 < remaining.toNat ↔ _
    omega
  unfold unStakeAmounts withdrawal
  cases hmin : pool.minStake with
  | none => rfl
  | some minStake =>
    have hbelow : remaining < minStake ↔ balance.toNat - amount.toNat < minStake.toNat := by
      rw [lt_def]
      omega
    simp only [gt_iff_lt, hpos, hbelow]
    split <;> rfl

/-- Whatever an unstake has to withdraw, the pool has it and the account can hold it. -/
def PayoutFits (st : Store) (p a : Address) (amount : Balance) : Prop :=
  ∀ pool account, st.stakingPool p = some pool → st.stakingAccount (p, a) = some account →
    amount ≤ account.balance →
    withdrawal pool account.balance.toNat amount.toNat ≤ st.balanceAt p ∧
      st.balanceAt a + withdrawal pool account.balance.toNat amount.toNat < 2 ^ 128

/-- A stake that is taken and can be paid can be noted. -/
def NoteFits (st : Store) (p a : Address) (amount : Balance) : Prop :=
  ∀ pool, st.Accepts p amount pool → amount.toNat ≤ st.balanceAt a →
    st.balanceAt p + amount.toNat < 2 ^ 128 → st.stakedBy p a + amount.toNat < 2 ^ 128

theorem sameFunds_of_view_eq (h : view db s' = view db s) :
    SameFunds (view db s).toStore (view db s').toStore := by
  rw [h]
  exact ⟨fun _ => rfl, fun _ _ => rfl⟩

section

variable {account : StakingAccount}

theorem stakedBy_of_found (h : st.stakingAccount (p, a) = some account) :
    st.stakedBy p a = account.balance.toNat := by
  rw [stakedBy, h]
  rfl

theorem stakedBy_noted_self (hfiled : st.StakingFiled) (haccount : st.stakingAccount (p, a) = some account)
    (balance : Balance) (n : BlockNumber) (q x : Address) :
    (st.noted p pool { account with balance } n).stakedBy q x =
      if (q, x) = (p, a) then balance.toNat else st.stakedBy q x := by
  obtain ⟨hpool, hacc⟩ := hfiled p a account haccount
  show ((Function.update st.stakingAccount (account.poolAddress, account.accountAddress)
    (some { account with balance }) (q, x)).map (·.balance.toNat)).getD 0 = _
  rw [Function.update_apply, hpool, hacc]
  split <;> rfl

end

section

variable (hs : WellKeyed s) (hne : a ≠ p)

include hs hne

/-- **An unstake that fails moves nothing** exactly when its payment fits. -/
theorem unstakeFailed_iff (n : BlockNumber) : (∀ e s', (unStake db p a n amount).run s = (.error e, s') →
      SameFunds (view db s).toStore (view db s').toStore) ↔ PayoutFits (view db s).toStore p a amount := by
  have hfiled : (view db s).StakingFiled := stakingFiled_view hs
  constructor
  · intro h pool account hpool haccount hamount
    obtain ⟨remaining, hsub, hremaining⟩ := exists_checkedSub hamount
    obtain ⟨s₁, hrun, hv₁⟩ := run_unStake_transfer n hpool haccount hremaining
    have hsum := unStakeAmounts_add pool hremaining
    rw [← toNat_unStakeAmounts hremaining]
    generalize unStakeAmounts pool account.balance amount remaining = amounts at *
    by_contra hfits
    -- the payment fails, and the note stays
    have hnone : (view db s₁).transfer p a amounts.1 = none := by
      rw [eq_none_iff_forall_ne_some]
      intro st hst
      obtain ⟨-, hle, hlt⟩ := (exists_transfer_iff (symm hne)).mp ⟨st, hst⟩
      rw [hv₁] at hle hlt
      exact hfits ⟨hle, hlt⟩
    obtain ⟨e, s₂, hrun₂, hv₂⟩ := transfer_transacts.undefined hnone
    have hsame := (h e s₂ (hrun.trans hrun₂)).staked p a
    rw [hv₂, hv₁] at hsame
    have hnoted : ((view db s).noted p pool { account with balance := amounts.2 } n).stakedBy p a =
        amounts.2.toNat := by
      rw [stakedBy_noted_self hfiled haccount, if_pos rfl]
    have hbefore := stakedBy_of_found haccount
    have hsame : amounts.2.toNat = account.balance.toNat := by
      rw [← hnoted, ← hbefore]
      exact hsame
    have hlt : (view db s).balanceAt a < 2 ^ 128 := by
      cases hacc : (view db s).account a with
      | none =>
        rw [balanceAt_of_none hacc]
        decide
      | some holder =>
        rw [balanceAt_of_some hacc]
        exact holder.balance.isLt
    exact hfits ⟨by omega, by omega⟩
  · intro hfits e s' hrun
    obtain ⟨e', s₁, hrun₁, hv₁⟩ | ⟨pool, account, remaining, s₁, hpool, haccount, hremaining, hrun₁, hv₁⟩ :=
      unStake_cases
    · rw [hrun₁] at hrun
      cases hrun
      exact sameFunds_of_view_eq hv₁
    · have hamount : amount.toNat ≤ account.balance.toNat := by
        have hsub := checkedSub_eq_some.mp hremaining
        omega
      obtain ⟨hle, hlt⟩ := hfits pool account hpool haccount hamount
      rw [← toNat_unStakeAmounts hremaining] at hle hlt
      have hsum := unStakeAmounts_add pool hremaining
      generalize unStakeAmounts pool account.balance amount remaining = amounts at *
      rw [hrun₁] at hrun
      cases htransfer : (view db s₁).transfer p a amounts.1 with
      | some st =>
        obtain ⟨s₂, hrun₂, -⟩ := transfer_transacts.defined htransfer
        rw [hrun₂] at hrun
        cases hrun
      | none =>
        obtain ⟨e', s₂, hrun₂, hv₂⟩ := transfer_transacts.undefined htransfer
        rw [hrun₂] at hrun
        cases hrun
        -- only a pool without an account stops the payment, and then there is nothing to pay
        have hnothing : amounts.1.toNat = 0 := by
          by_contra hpos
          have hsome : ((view db s).account p).isSome := isSome_account_of_pos (by omega)
          have hdefined : ∃ st, (view db s₁).transfer p a amounts.1 = some st := by
            rw [exists_transfer_iff (symm hne), hv₁]
            exact ⟨hsome, hle, hlt⟩
          rw [htransfer] at hdefined
          simp at hdefined
        rw [hv₂, hv₁]
        refine ⟨fun x => rfl, fun q x => ?_⟩
        show ((view db s).noted p pool { account with balance := amounts.2 } n).stakedBy q x = _
        rw [stakedBy_noted_self hfiled haccount]
        split
        · next hkey =>
            obtain ⟨rfl, rfl⟩ := Prod.mk.inj hkey
            rw [stakedBy_of_found haccount]
            omega
        · rfl

/-- **A stake that fails moves nothing** exactly when it can be noted once it is paid. -/
theorem stakeFailed_iff (n : BlockNumber) : (∀ e s', (stake db p a n amount).run s = (.error e, s') →
      SameFunds (view db s).toStore (view db s').toStore) ↔ NoteFits (view db s).toStore p a amount := by
  have hfiled : (view db s).StakingFiled := stakingFiled_view hs
  obtain ⟨-, -, hstaked⟩ := Store.StakingFiled.getD hfiled p a
  constructor
  · intro h pool haccepts hle hlt
    by_contra hover
    obtain ⟨st, hst⟩ := (exists_transfer_iff hne).mpr
      ⟨isSome_account_of_pos (by omega), hle, hlt⟩
    have hpaid := stake_paid n haccepts hst
    have hnone : (((view db s).stakingAccount (p, a)).getD (.new a p)).balance.checkedAdd amount =
        none := checkedAdd_eq_none.mpr (by omega)
    rw [hnone] at hpaid
    obtain ⟨e, s₁, hrun, hv₁⟩ := hpaid
    -- the payer has paid for a stake that is not noted
    have hsame := (h e s₁ hrun).balance a
    have hmoved := balanceAt_transfer (accountsFiled_view hs) hst a
    rw [if_neg hne, if_pos rfl] at hmoved
    rw [hv₁] at hsame
    have hsame : st.balanceAt a = (view db s).balanceAt a := hsame
    omega
  · intro hfits e s' hrun
    by_cases hreached : ∃ pool st, (view db s).Accepts p amount pool ∧
        (view db s).transfer a p amount = some st
    · obtain ⟨pool, st, haccepts, hst⟩ := hreached
      obtain ⟨-, hle, hlt⟩ := (exists_transfer_iff hne).mp ⟨st, hst⟩
      obtain ⟨s₁, balance, -, hrun₁, -⟩ := stake_noted hs n haccepts hst (hfits pool haccepts hle hlt)
      rw [hrun₁] at hrun
      cases hrun
    · obtain ⟨e', s₁, hrun₁, hv₁⟩ := stake_refused hreached
      rw [hrun₁] at hrun
      cases hrun
      exact sameFunds_of_view_eq hv₁

/-- An unstake that returns without an error has paid exactly what leaves the stake. -/
theorem unStake_paidOut (h : (unStake db p a n amount).run s = (.ok (), s')) :
    ∃ paid, PaidOut (view db s).toStore (view db s').toStore p a amount paid := by
  obtain ⟨e, s₁, hrun₁, -⟩ | ⟨pool, account, remaining, s₁, hpool, haccount, hremaining, hrun₁, hv₁⟩ :=
    unStake_cases
  · rw [hrun₁] at h
    cases h
  · rw [hrun₁] at h
    obtain ⟨st, hst, hv⟩ := transfer_transacts.ok h
    rw [hv₁] at hst hv
    refine ⟨(unStakeAmounts pool account.balance amount remaining).1.toNat, ?_⟩
    rw [show (view db s').toStore = st from congrArg (·.toStore) hv]
    have hsum := unStakeAmounts_add pool hremaining
    have hsub := checkedSub_eq_some.mp hremaining
    obtain ⟨henough, hrest⟩ := withdrawal_bounds (show amount.toNat ≤ account.balance.toNat by omega)
    rw [← toNat_unStakeAmounts hremaining] at henough hrest
    generalize unStakeAmounts pool account.balance amount remaining = amounts at *
    have hfiled : ((view db s).noted p pool { account with balance := amounts.2 } n).AccountsFiled :=
      accountsFiled_view hs
    have hmoved := balanceAt_transfer hfiled hst
    have hstaked : st.stakedBy p a = amounts.2.toNat := by
      have hcongr : st.stakedBy p a =
          ((view db s).noted p pool { account with balance := amounts.2 } n).stakedBy p a := by
        unfold stakedBy
        rw [(transfer_frame hst).2.1]
        rfl
      rw [hcongr, stakedBy_noted_self (stakingFiled_view hs) haccount, if_pos rfl]
    refine ⟨?_, ?_, ?_, henough, ?_⟩
    · have hreceived := hmoved a
      rw [if_pos rfl, if_neg hne, balanceAt_noted] at hreceived
      omega
    · have hgiven := hmoved p
      rw [if_pos rfl, if_neg (symm hne), balanceAt_noted] at hgiven
      omega
    · rw [hstaked, stakedBy_of_found haccount]
      omega
    · intro pool' minStake hpool' hmin
      cases hpool.symm.trans hpool'
      have hleft := hrest minStake hmin
      omega

end

/-- **When staking is exact.** On every overlay that operations can make, for every pool, every account that
    is not the pool, and every amount: an unstake that succeeds pays exactly what leaves the stake, and a
    stake or an unstake that fails moves nothing, exactly when what the unstake would withdraw can be paid,
    and a stake that is paid can be noted. -/
theorem stakingExact_iff (crypto : Crypto) (db : StateTables) (ops : List Op) (p a : Address)
    (n : BlockNumber) (amount : Balance) (hne : a ≠ p) :
    StakingExact db (runOps crypto db ops .new) p a n amount ↔
      PayoutFits (view db (runOps crypto db ops .new)).toStore p a amount ∧
        NoteFits (view db (runOps crypto db ops .new)).toStore p a amount := by
  have hs : WellKeyed (runOps crypto db ops .new) := wellKeyed_runOps crypto db ops
  constructor
  · intro h
    exact ⟨(unstakeFailed_iff hs hne n).mp h.unstakeFailed, (stakeFailed_iff hs hne n).mp h.stakeFailed⟩
  · rintro ⟨hpayout, hnote⟩
    exact ⟨fun s' h => unStake_paidOut hs hne h, (unstakeFailed_iff hs hne n).mpr hpayout,
      (stakeFailed_iff hs hne n).mpr hnote⟩

/-- After forty were staked with a minimum of ten, both operations are exact for thirty-five. -/
theorem stakeForty_exact :
    (1 : Address) ≠ 7 ∧
      StakingExact beforeStaking (runOps poolAtSeven beforeStaking stakeForty .new) 7 1 3 35 := by
  refine ⟨by decide, ?_⟩
  refine (stakingExact_iff poolAtSeven beforeStaking stakeForty 7 1 3 35 (by decide)).mpr ⟨?_, ?_⟩
  · intro pool account hpool haccount _
    cases hpool
    cases haccount
    exact ⟨by decide, by decide⟩
  · intro pool haccepts hle
    exact absurd hle (by decide)

/-- Forty are staked, and then the account is filled up to the last token. -/
def fillAfterStake : List Op :=
  [.createPool 1 0 0 1 none (some 10) none none none none, .stake 7 1 2 40,
    .mint (340282366920938463463374607431768211455 - 10) 1]

/-- An unstake of ten from the pool that cannot be paid has lowered the stake all the same. -/
theorem unpaid_unstake_noted :
    ((unStake beforeStaking 7 1 3 10).run
        (runOps poolAtSeven beforeStaking fillAfterStake .new)).1.isOk = false ∧
      (view beforeStaking (runOps poolAtSeven beforeStaking fillAfterStake .new)).stakedBy 7 1 = 40 ∧
      (view beforeStaking ((unStake beforeStaking 7 1 3 10).run
        (runOps poolAtSeven beforeStaking fillAfterStake .new)).2).stakedBy 7 1 = 30 ∧
      ¬ StakingExact beforeStaking (runOps poolAtSeven beforeStaking fillAfterStake .new) 7 1 3 10 := by
  refine ⟨rfl, rfl, rfl, ?_⟩
  intro h
  have hfailed := (h.unstakeFailed _ _ rfl).staked 7 1
  have hsame : (30 : Nat) = 40 := hfailed
  omega

end UpdatedState

end L1xCore
