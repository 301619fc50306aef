import L1xCore.State.Checkpoint

/-!
# `State.Ledger` — the token operations on a plain store

What `increment_nonce`, `transfer` and `mint` are for, said on a plain store (`Store.transfer`, …): each
is a partial function, undefined where the operation fails. The operations of the overlay **refine** them
(`Transacts`): they succeed exactly where the function is defined, and a failed one leaves no trace.

The native supply is the sum of all balances. It does not change under transfers, and grows by the
amount of a mint.
-/

namespace L1xCore

open BitVec Option

variable {a b : Address} {account : Account} {st' : Store} {amount : Balance}

namespace Store

variable (st : Store)

def incrementNonce (address : Address) : Option Store := do
  let account ← st.account address
  let nonce ← account.nonce.checkedAdd 1
  some (st.setAccount { account with nonce })

def mint (amount : Balance) (toAddress : Address) : Option Store := do
  let account ← st.account toAddress
  let balance ← account.balance.checkedAdd amount
  some (st.setAccount { account with balance })

/-- Open an account where there is none. -/
def createAccount (account : Account) : Option Store :=
  match st.account account.address with
  | some _ => none
  | none => some (st.setAccount account)

/-- The account a transfer pays to: a missing one is opened, and a transfer to oneself goes on from the
    account that was just debited. -/
def payee (debited : Account) (fromAddress toAddress : Address) : Account :=
  if fromAddress = toAddress then debited
  else (st.account toAddress).getD (Account.new toAddress)

def transfer (fromAddress toAddress : Address) (amount : Balance) : Option Store := do
  let fromAccount ← st.account fromAddress
  let fromBalance ← fromAccount.balance.checkedSub amount
  let debited := { fromAccount with balance := fromBalance }
  let toAccount := st.payee debited fromAddress toAddress
  let toBalance ← toAccount.balance.checkedAdd amount
  some ((st.setAccount debited).setAccount { toAccount with balance := toBalance })

/-- Every account is filed under its own address. -/
def AccountsFiled : Prop := ∀ a account, st.account a = some account → account.address = a

/-- The balance at an address; an address without an account has none. -/
def balanceAt (a : Address) : Nat := ((st.account a).map (·.balance.toNat)).getD 0

/-- The native supply. -/
noncomputable def supply : Nat := ∑ a, st.balanceAt a

variable {st}

theorem balanceAt_of_some (h : st.account a = some account) : st.balanceAt a = account.balance.toNat := by
  rw [balanceAt, h]; rfl

theorem balanceAt_of_none (h : st.account a = none) : st.balanceAt a = 0 := by
  rw [balanceAt, h]; rfl

theorem account_setAccount_self (account : Account) :
    (st.setAccount account).account account.address = some account :=
  Function.update_self _ _ _

theorem account_setAccount_of_ne (h : a ≠ account.address) :
    (st.setAccount account).account a = st.account a :=
  Function.update_of_ne h _ _

/-- A write of the same account later makes an earlier one pointless. -/
theorem setAccount_setAccount_overwritten {other account' : Account} (h : account'.address = account.address) :
    ((st.setAccount account).setAccount other).setAccount account' =
      (st.setAccount other).setAccount account' := by
  simp only [setAccount, h]
  congr 1
  funext a
  simp only [Function.update_apply]
  split <;> [rfl; (split <;> rfl)]

theorem transfer_eq_some_of_ne (hab : a ≠ b) :
    st.transfer a b amount = some st' ↔ ∃ account fromBalance toBalance,
      st.account a = some account ∧ fromBalance.toNat + amount.toNat = account.balance.toNat ∧
      toBalance.toNat = ((st.account b).getD (.new b)).balance.toNat + amount.toNat ∧
      st' = (st.setAccount { account with balance := fromBalance }).setAccount
        { (st.account b).getD (.new b) with balance := toBalance } := by
  simp only [transfer, payee, if_neg hab, bind_eq_bind, bind_eq_some_iff,
    some.injEq, checkedSub_eq_some, checkedAdd_eq_some]
  constructor
  · rintro ⟨account, hacc, fromBalance, hsub, toBalance, hadd, rfl⟩
    exact ⟨account, fromBalance, toBalance, hacc, hsub, hadd, rfl⟩
  · rintro ⟨account, fromBalance, toBalance, hacc, hsub, hadd, rfl⟩
    exact ⟨account, hacc, fromBalance, hsub, toBalance, hadd, rfl⟩

theorem accountsFiled_setAccount (h : st.AccountsFiled) (account : Account) :
    (st.setAccount account).AccountsFiled := by
  intro a acc ha
  by_cases hk : a = account.address
  · subst hk; rw [account_setAccount_self] at ha; cases ha; rfl
  · rw [account_setAccount_of_ne hk] at ha; exact h a acc ha

theorem accountsFiled_incrementNonce (hf : st.AccountsFiled) (h : st.incrementNonce a = some st') :
    st'.AccountsFiled := by
  simp only [incrementNonce, bind_eq_bind, bind_eq_some_iff, some.injEq] at h
  obtain ⟨account, -, nonce, -, rfl⟩ := h
  exact accountsFiled_setAccount hf _

/-- Writing one account moves the supply by the change of its balance. -/
theorem supply_setAccount (st : Store) (account : Account) :
    (st.setAccount account).supply + st.balanceAt account.address = st.supply + account.balance.toNat := by
  have hsum := Fintype.sum_add_eq_of_eq_off (f := (st.setAccount account).balanceAt)
    (g := st.balanceAt) account.address fun a ha => by
      rw [balanceAt, balanceAt, account_setAccount_of_ne ha]
  rw [balanceAt_of_some (account_setAccount_self account)] at hsum
  exact hsum

theorem supply_congr (h : st'.account = st.account) : st'.supply = st.supply := by
  simp only [supply, balanceAt, h]

theorem supply_incrementNonce (hf : st.AccountsFiled) (h : st.incrementNonce a = some st') :
    st'.supply = st.supply := by
  simp only [incrementNonce, bind_eq_bind, bind_eq_some_iff, some.injEq] at h
  obtain ⟨account, hacc, nonce, -, rfl⟩ := h
  obtain rfl := hf a account hacc
  have hsum := supply_setAccount st { account with nonce }
  have hbal := balanceAt_of_some hacc
  dsimp only at hsum
  omega

theorem supply_mint (hf : st.AccountsFiled) (h : st.mint amount a = some st') :
    st'.supply = st.supply + amount.toNat := by
  simp only [mint, bind_eq_bind, bind_eq_some_iff, some.injEq] at h
  obtain ⟨account, hacc, balance, hadd, rfl⟩ := h
  obtain rfl := hf a account hacc
  have hsum := supply_setAccount st { account with balance }
  have hbal := balanceAt_of_some hacc
  have hadd := checkedAdd_eq_some.mp hadd
  dsimp only at hsum
  omega

theorem supply_createAccount (hzero : account.balance = 0) (h : st.createAccount account = some st') :
    st'.supply = st.supply := by
  unfold createAccount at h
  split at h
  · cases h
  · next hnone =>
      cases h
      have hsum := supply_setAccount st account
      have hbal := balanceAt_of_none hnone
      have hnothing : account.balance.toNat = 0 := by rw [hzero]; rfl
      omega

theorem payee_address (hf : st.AccountsFiled) (debited : Account) (b : Address) :
    (st.payee debited debited.address b).address = b := by
  unfold payee
  split
  · assumption
  · cases hb : st.account b with
    | none => rfl
    | some account => exact hf b account hb

/-- After the debit the payee has the balance the credit starts from. -/
theorem balanceAt_payee (debited : Account) (b : Address) :
    (st.setAccount debited).balanceAt b = (st.payee debited debited.address b).balance.toNat := by
  unfold payee
  split
  · next h => subst h; exact balanceAt_of_some (account_setAccount_self debited)
  · next h =>
      rw [balanceAt, account_setAccount_of_ne fun hb => h hb.symm]
      cases st.account b <;> rfl

/-- **A transfer keeps the supply**, to a new account and to oneself as well. -/
theorem supply_transfer (hf : st.AccountsFiled) (h : st.transfer a b amount = some st') :
    st'.supply = st.supply := by
  simp only [transfer, bind_eq_bind, bind_eq_some_iff, some.injEq] at h
  obtain ⟨account, hacc, fromBalance, hsub, toBalance, hadd, rfl⟩ := h
  obtain rfl := hf a account hacc
  generalize hdeb : ({ account with balance := fromBalance } : Account) = debited at hadd ⊢
  obtain ⟨haddr, hbal⟩ : debited.address = account.address ∧ debited.balance = fromBalance := by
    subst hdeb; exact ⟨rfl, rfl⟩
  rw [← haddr] at hacc hadd ⊢
  have hdebit := supply_setAccount st debited
  have hcredit := supply_setAccount (st.setAccount debited)
    { st.payee debited debited.address b with balance := toBalance }
  have hpay : (st.setAccount debited).balanceAt (st.payee debited debited.address b).address =
      (st.payee debited debited.address b).balance.toNat := by
    rw [payee_address hf debited b, balanceAt_payee]
  rw [balanceAt_of_some hacc, hbal] at hdebit
  have hsub := checkedSub_eq_some.mp hsub
  have hadd := checkedAdd_eq_some.mp hadd
  dsimp only at hcredit
  omega

/-! ## The balance of one account -/

variable {st' : Store}

theorem balanceAt_setAccount (account : Account) (a : Address) :
    (st.setAccount account).balanceAt a =
      if a = account.address then account.balance.toNat else st.balanceAt a := by
  split
  · next h =>
      rw [h]
      exact balanceAt_of_some (account_setAccount_self account)
  · next h => rw [balanceAt, account_setAccount_of_ne h, balanceAt]

/-- **A transfer, seen from any account**: the payee gets what the payer gives. -/
theorem balanceAt_transfer {payer receiver : Address} (hf : st.AccountsFiled)
    (h : st.transfer payer receiver amount = some st') (a : Address) :
    st.balanceAt a + (if a = receiver then amount.toNat else 0) =
      st'.balanceAt a + if a = payer then amount.toNat else 0 := by
  simp only [transfer, bind_eq_bind, bind_eq_some_iff, some.injEq] at h
  obtain ⟨account, hacc, fromBalance, hsub, toBalance, hadd, rfl⟩ := h
  obtain rfl := hf payer account hacc
  have hsub := checkedSub_eq_some.mp hsub
  have hadd := checkedAdd_eq_some.mp hadd
  have hpayee := payee_address hf { account with balance := fromBalance } receiver
  have hbefore : (st.setAccount { account with balance := fromBalance }).balanceAt receiver =
      (st.payee { account with balance := fromBalance } account.address receiver).balance.toNat :=
    balanceAt_payee _ receiver
  have hpayer := balanceAt_of_some hacc
  rw [balanceAt_setAccount] at hbefore ⊢
  rw [balanceAt_setAccount]
  dsimp only at hbefore ⊢
  rw [hpayee]
  by_cases hself : account.address = receiver
  · -- a transfer to oneself goes on from the debited account
    subst hself
    rw [if_pos rfl] at hbefore
    by_cases ha : a = account.address
    · rw [ha, if_pos rfl, if_pos rfl]
      omega
    · rw [if_neg ha, if_neg ha, if_neg ha]
  · rw [if_neg (Ne.symm hself)] at hbefore
    by_cases ha : a = account.address
    · rw [ha, if_neg hself, if_neg hself, if_pos rfl, if_pos rfl]
      omega
    · rw [if_neg ha, if_neg ha]
      split
      · next hgets =>
          rw [hgets]
          omega
      · rfl

theorem balanceAt_createAccount (h : st.createAccount (.newSystem b) = some st') (a : Address) :
    st'.balanceAt a = st.balanceAt a := by
  unfold createAccount at h
  split at h
  · cases h
  · next hnone =>
      cases h
      rw [balanceAt_setAccount]
      split
      · next ha =>
          rw [ha, balanceAt_of_none hnone]
          rfl
      · rfl

theorem balanceAt_mint (hf : st.AccountsFiled) (h : st.mint amount b = some st') (a : Address) :
    st.balanceAt a ≤ st'.balanceAt a := by
  simp only [mint, bind_eq_bind, bind_eq_some_iff, some.injEq] at h
  obtain ⟨account, hacc, balance, hadd, rfl⟩ := h
  obtain rfl := hf b account hacc
  have hadd := checkedAdd_eq_some.mp hadd
  rw [balanceAt_setAccount]
  split
  · next ha =>
      rw [ha, balanceAt_of_some hacc]
      dsimp only
      omega
  · exact le_refl _

theorem balanceAt_incrementNonce (hf : st.AccountsFiled) (h : st.incrementNonce b = some st') (a : Address) :
    st'.balanceAt a = st.balanceAt a := by
  simp only [incrementNonce, bind_eq_bind, bind_eq_some_iff, some.injEq] at h
  obtain ⟨account, hacc, nonce, -, rfl⟩ := h
  obtain rfl := hf b account hacc
  rw [balanceAt_setAccount]
  split
  · next ha => rw [ha, balanceAt_of_some hacc]
  · rfl

end Store

namespace UpdatedState

open Fallible

variable {db : StateTables} {s s' : UpdatedState} {x : StateOp Unit}

/-! ## The overlay's operations refine the plain ones -/

/-- `x` succeeds exactly where `g` is defined, and then changes the store seen by `g`. A failed `x` cannot
    be seen. -/
structure Transacts (db : StateTables) (x : StateOp Unit) (g : Store → Option Store) : Prop where
  defined : ∀ {s st}, g (view db s).toStore = some st →
    ∃ s', x.run s = (.ok (), s') ∧ view db s' = (view db s).onStore fun _ => st
  undefined : ∀ {s}, g (view db s).toStore = none → ∃ e s', x.run s = (.error e, s') ∧ view db s' = view db s

theorem Transacts.ok {g : Store → Option Store} (hx : Transacts db x g) (h : x.run s = (.ok (), s')) :
    ∃ st, g (view db s).toStore = some st ∧ view db s' = (view db s).onStore fun _ => st := by
  cases hg : g (view db s).toStore with
  | none =>
    obtain ⟨e, s'', hrun, -⟩ := hx.undefined hg
    rw [h] at hrun; cases hrun
  | some st =>
    obtain ⟨s'', hrun, hv⟩ := hx.defined hg
    rw [h] at hrun; cases hrun
    exact ⟨st, rfl, hv⟩

/-- **Changing a pool in place**: it must be there, and it is written back under the address asked for. -/
theorem modifyStakingPool_transacts (a : Address) (f : StakingPool → StakingPool) :
    Transacts db (modifyStakingPool db a f)
      (fun st => (st.stakingPool a).map fun pool => st.setStakingPool a (f pool)) where
  defined {s st} hg := by
    obtain ⟨pool, hpool, rfl⟩ := map_eq_some_iff.mp hg
    obtain ⟨s', hrun, hv⟩ := (getStakingPool_reads a).found hpool
    refine ⟨_, run_bind_of_ok hrun, ?_⟩
    show view db { s' with stakingPools := _ } = _
    rw [view_insert_stakingPool, hv]
    rfl
  undefined {s} hg := by
    obtain ⟨e, s', hrun, hv⟩ := (getStakingPool_reads a).missing (map_eq_none_iff.mp hg)
    exact ⟨e, s', run_bind_of_error hrun, hv⟩

theorem Writes.transacts {g : Store → Store} (hx : Writes db x (·.onStore g)) :
    Transacts db x fun st => some (g st) where
  defined {s st} hg := by
    cases hg
    exact hx s
  undefined h := nomatch h

/-- Reading an account, changing it by a checked operation and writing it back. -/
theorem modifyAccount_transacts {α : Type} {f : Account → Option α} {e : Account → Error}
    (h : Account → α → Account) :
    Transacts db
      (do
        let account ← getAccount db a
        let v ← okOr (f account) (e account)
        updateAccount (h account v))
      (fun st => do
        let account ← st.account a
        let v ← f account
        some (st.setAccount (h account v))) where
  defined {s st} hg := by
    simp only [bind_eq_bind, bind_eq_some_iff, some.injEq] at hg
    obtain ⟨account, hacc, v, hf, rfl⟩ := hg
    obtain ⟨s', hrun, hv⟩ := (getAccount_reads a).found hacc
    have hwrites : Writes db (updateAccount (h account v)) _ := updateAccount_writes _
    obtain ⟨s'', hrun', hv'⟩ := hwrites s'
    refine ⟨s'', ?_, by rw [hv', hv]; rfl⟩
    rw [run_bind_of_ok hrun, hf]
    exact hrun'
  undefined {s} hg := by
    cases hacc : (view db s).account a with
    | none =>
      obtain ⟨e, s', hrun, hv⟩ := (getAccount_reads a).missing hacc
      exact ⟨e, s', run_bind_of_error hrun, hv⟩
    | some account =>
      obtain ⟨s', hrun, hv⟩ := (getAccount_reads a).found hacc
      have hf : f account = none := eq_none_iff_forall_ne_some.mpr (by simpa [hacc] using hg)
      refine ⟨e account, s', ?_, hv⟩
      rw [run_bind_of_ok hrun, hf]
      rfl

theorem incrementNonce_transacts : Transacts db (incrementNonce db a) (·.incrementNonce a) :=
  modifyAccount_transacts fun account nonce => { account with nonce }

theorem mint_transacts (amount : Balance) (a : Address) : Transacts db (mint db amount a) (·.mint amount a) :=
  modifyAccount_transacts
    fun account balance => { account with balance }

theorem isValidAccount_of_found (h : (view db s).account a = some account) :
    ∃ s', (isValidAccount db a).run s = (.ok true, s') ∧ view db s' = view db s := by
  obtain ⟨s', hrun, hv⟩ := (getAccount_reads a).found h
  refine ⟨s', ?_, hv⟩
  rw [isValidAccount, run_bind, run_outcome, hrun]
  rfl

theorem createAccount_transacts : Transacts db (createAccount db account) (·.createAccount account) where
  defined {s st} hg := by
    unfold Store.createAccount at hg
    split at hg
    · cases hg
    · next hnone =>
        cases hg
        obtain ⟨e, s', hrun, hv⟩ := (getAccount_reads account.address).missing hnone
        have hwrites : Writes db (updateAccount account) _ := updateAccount_writes account
        obtain ⟨s'', hrun', hv'⟩ := hwrites s'
        refine ⟨s'', ?_, by rw [hv', hv]; rfl⟩
        have hvalid : (isValidAccount db account.address).run s = (.ok false, s') := by
          rw [isValidAccount, run_bind, run_outcome, hrun]; rfl
        rw [createAccount, run_bind_of_ok hvalid]
        exact hrun'
  undefined {s} hg := by
    unfold Store.createAccount at hg
    split at hg
    · next acc hsome =>
        obtain ⟨s', hvalid, hv⟩ := isValidAccount_of_found hsome
        rw [createAccount, run_bind_of_ok hvalid]
        exact ⟨_, s', rfl, hv⟩
    · cases hg

/-- The receiving account of a transfer. A missing one is opened, which the credit then overwrites: the
    state is as before except for that account. -/
theorem run_receiver {debited : Account} (ha : ((view db s).account a).isSome) :
    ∃ s', (receiver db debited a b).run s = (.ok ((view db s).toStore.payee debited a b), s') ∧
      (view db s' = view db s ∨ (view db s).account b = none ∧
          view db s' = (view db s).onStore (.setAccount (.new b))) := by
  cases hb : (view db s).account b with
  | some account =>
    obtain ⟨s', hrun, hv⟩ := (getAccount_reads b).found hb
    refine ⟨s', ?_, .inl hv⟩
    rw [receiver, run_bind, run_outcome, hrun]
    simp [Store.payee, hb]
  | none =>
    -- the payer has an account, so this is not a transfer to oneself
    have hab : a ≠ b := by rintro rfl; rw [hb] at ha; cases ha
    obtain ⟨e, s', hrun, hv⟩ := (getAccount_reads b).missing hb
    have hwrites : Writes db (updateAccount (.new b)) _ := updateAccount_writes _
    obtain ⟨s'', hrun', hv'⟩ := hwrites s'
    refine ⟨s'', ?_, .inr ⟨rfl, by rw [hv', hv]⟩⟩
    rw [receiver, run_bind, run_outcome, hrun]
    show ((do updateAccount (.new b); pure (.new b) : StateOp Account).run s') = _
    rw [run_bind_of_ok hrun']
    simp [Store.payee, hb, hab]

theorem transfer_transacts : Transacts db (transfer db a b amount) (·.transfer a b amount) where
  defined {s st} hg := by
    simp only [Store.transfer, bind_eq_bind, bind_eq_some_iff, some.injEq] at hg
    obtain ⟨account, hacc, fromBalance, hsub, toBalance, hadd, rfl⟩ := hg
    obtain ⟨s₁, hrun₁, hv₁⟩ := (getAccount_reads a).found hacc
    generalize hdeb : ({ account with balance := fromBalance } : Account) = debited at hadd ⊢
    have ha : ((view db s₁).account a).isSome := by rw [hv₁, hacc]; rfl
    obtain ⟨s₂, hrun₂, hv₂⟩ := run_receiver ha
    rw [hv₁] at hrun₂ hv₂
    have hdebit : Writes db (updateAccount debited) _ := updateAccount_writes debited
    obtain ⟨s₃, hrun₃, hv₃⟩ := hdebit s₂
    have hcredit : Writes db (updateAccount _) _ :=
      updateAccount_writes { (view db s).payee debited a b with balance := toBalance }
    obtain ⟨s₄, hrun₄, hv₄⟩ := hcredit s₃
    refine ⟨s₄, ?_, ?_⟩
    · rw [transfer, run_bind_of_ok hrun₁, hsub]
      show (receiver db { account with balance := fromBalance } a b >>= _).run s₁ = _
      rw [hdeb, run_bind_of_ok hrun₂, hadd]
      show ((do updateAccount debited; updateAccount _ : StateOp Unit).run s₂) = _
      rw [run_bind_of_ok hrun₃, hrun₄]
    · rw [hv₄, hv₃]
      rcases hv₂ with hv₂ | ⟨hb, hv₂⟩
      · rw [hv₂]; rfl
      · have hab : a ≠ b := by rintro rfl; rw [hacc] at hb; cases hb
        have hpayee : (view db s).payee debited a b = .new b := by
          simp [Store.payee, hab, hb]
        rw [hv₂, hpayee]
        exact congrArg (fun st => (view db s).onStore fun _ => st)
          (Store.setAccount_setAccount_overwritten rfl)
  undefined {s} hg := by
    cases hacc : (view db s).account a with
    | none =>
      obtain ⟨e, s', hrun, hv⟩ := (getAccount_reads a).missing hacc
      exact ⟨e, s', run_bind_of_error hrun, hv⟩
    | some account =>
      obtain ⟨s₁, hrun₁, hv₁⟩ := (getAccount_reads a).found hacc
      cases hsub : account.balance.checkedSub amount with
      | none => exact ⟨_, s₁, by rw [transfer, run_bind_of_ok hrun₁, hsub]; rfl, hv₁⟩
      | some fromBalance =>
        generalize hdeb : ({ account with balance := fromBalance } : Account) = debited
        have ha : ((view db s₁).account a).isSome := by rw [hv₁, hacc]; rfl
        obtain ⟨s₂, hrun₂, hv₂⟩ := run_receiver ha
        rw [hv₁] at hrun₂ hv₂
        have hadd := eq_none_iff_forall_ne_some.mpr (by simpa [Store.transfer, hacc, hsub, hdeb] using hg)
        have hrun : ∃ e, (transfer db a b amount).run s = (.error e, s₂) := by
          rw [transfer, run_bind_of_ok hrun₁, hsub]
          show ∃ e, (receiver db { account with balance := fromBalance } a b >>= _).run s₁ = _
          rw [hdeb, run_bind_of_ok hrun₂, hadd]
          exact ⟨_, rfl⟩
        obtain ⟨e, hrun⟩ := hrun
        refine ⟨e, s₂, hrun, ?_⟩
        rcases hv₂ with hv₂ | ⟨hb, -⟩
        · exact hv₂
        · -- the credit of a new account does not overflow
          have hab : a ≠ b := by rintro rfl; rw [hacc] at hb; cases hb
          have hpayee : (view db s).payee debited a b = .new b := by
            simp [Store.payee, hab, hb]
          rw [hpayee, checkedAdd_eq_none] at hadd
          have hzero : (Account.new b).balance.toNat = 0 := rfl
          omega

/-! ## Overlays that operations have made -/

theorem WellKeyed.fits (hs : WellKeyed s) {k : RecordKey} {v : k.Value}
    (h : overlaid (s.entry k) (db.record k) = some v) : Fits k (.updated (some v)) := by
  cases he : s.entry k with
  | some c =>
    rw [he] at h
    have hfits := hs k c he
    cases c with
    | cached w =>
      cases h
      cases k <;> exact hfits
    | updated w =>
      cases h
      exact hfits
  | none =>
    rw [he] at h
    have hfits := fits_record h
    cases k <;> exact hfits

theorem accountsFiled_view (hs : WellKeyed s) : (view db s).AccountsFiled := by
  intro a account h
  exact (hs.fits (k := .account a) h).key_eq

theorem view_merge (h : Evolves s s') : view db (s.merge s') = view db s' :=
  (remembers_merge h).view.symm

end UpdatedState

end L1xCore
