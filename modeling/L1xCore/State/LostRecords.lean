import L1xCore.State.LookupFaults
import L1xCore.State.Refinement

/-!
# `State.LostRecords` — which failed lookups destroy a record

A transfer, a stake or a mint returns without an error although lookups have failed, and the overlay is
committed. What was stored must be counted in what is stored then: a nonce stays, a balance and a stake change
by the amount (`MoneyOp.Kept`).

The payer of a transfer, the receiver of a mint and the pool of a stake must be found, so their records are
safe. A receiver of a transfer and a staking account need not be found: if the lookup of such a record fails,
a new one is written over it. `nothingDestroyed_iff` says that these are the only records that are lost
(`MoneyOp.Mistakes`).
-/

namespace L1xCore

open Store BitVec Option

variable {x p a b : Address} {account : Account} {amount : Balance} {st : Store} {n : BlockNumber}
  {m : MoneyOp} {α : Type} {k : RecordKey} {pool : StakingPool}
  {shown : StateTables}

namespace Store

variable {st : Store} {a : Address} {amount : Balance}

/-- The payer has the amount, and the payee can hold it. -/
structure CanPay (st : Store) (a b : Address) (amount : Balance) : Prop where
  payer : (st.account a).isSome
  enough : amount.toNat ≤ st.balanceAt a
  room : a ≠ b → st.balanceAt b + amount.toNat < 2 ^ 128

theorem exists_transfer_self_iff :
    (∃ st', st.transfer a a amount = some st') ↔ (st.account a).isSome ∧ amount.toNat ≤ st.balanceAt a := by
  constructor
  · rintro ⟨st', h⟩
    refine ⟨?_, le_balanceAt_of_transfer h⟩
    obtain ⟨account, hacc, -⟩ := bind_eq_some_iff.mp h
    rw [hacc]
    rfl
  · rintro ⟨hsome, hle⟩
    obtain ⟨account, hacc⟩ := isSome_iff_exists.mp hsome
    rw [balanceAt_of_some hacc] at hle
    obtain ⟨fromBalance, hfrom, hsub⟩ := exists_checkedSub hle
    -- what was taken is put back
    have hadd : fromBalance.checkedAdd amount = some account.balance := checkedAdd_eq_some.mpr hfrom.symm
    refine isSome_iff_exists.mp ?_
    simp only [transfer, payee, hacc, bind_eq_bind, bind_some, hsub, if_true, hadd, isSome_some]

theorem canPay_iff : (∃ st', st.transfer a b amount = some st') ↔ st.CanPay a b amount := by
  by_cases hab : a = b
  · subst hab
    rw [exists_transfer_self_iff]
    constructor
    · rintro ⟨hpayer, henough⟩
      exact ⟨hpayer, henough, fun hne => absurd rfl hne⟩
    · intro h
      exact ⟨h.payer, h.enough⟩
  · rw [exists_transfer_iff hab]
    constructor
    · rintro ⟨hpayer, henough, hroom⟩
      exact ⟨hpayer, henough, fun _ => hroom⟩
    · intro h
      exact ⟨h.payer, h.enough, h.room hab⟩

end Store

namespace UpdatedState

open Fallible

variable {db db' : StateTables} {f : Faults} {s s' : UpdatedState} {same : k.Value → k.Value → Prop}
  {stored : Except Error α}

/-! ## What is seen and what is stored -/

/-- The record of `k` has to be looked up, and the lookup fails. -/
def Unseen (f : Faults) (s : UpdatedState) (k : RecordKey) : Prop :=
  s.entry k = none ∧ (f k).isSome

theorem answer_failed (h : (f k).isSome) : (f.answer k stored).toOption = none := by
  obtain ⟨e, he⟩ := isSome_iff_exists.mp h
  unfold Faults.answer
  rw [he]
  rfl

theorem answer_none (h : f k = none) : f.answer k stored = stored := by
  unfold Faults.answer
  rw [h]

theorem record_of_failed (hk : k.isToken) (h : (f k).isSome) : (db.without f).record k = none := by
  cases k with
  | account a => exact (db.getAccount_without f a).symm.trans (answer_failed h)
  | stakingPool a => exact (db.getStakingPool_without f a).symm.trans (answer_failed h)
  | stakingAccount p a => exact (db.getStakingAccount_without f a p).symm.trans (answer_failed h)
  | contract | contractInstance | storage => cases hk

theorem record_of_answered (h : f k = none) : (db.without f).record k = db.record k := by
  cases k with
  | account a => exact (db.getAccount_without f a).symm.trans (congrArg Except.toOption (answer_none h))
  | stakingPool a => exact (db.getStakingPool_without f a).symm.trans (congrArg Except.toOption (answer_none h))
  | stakingAccount p a =>
    exact (db.getStakingAccount_without f a p).symm.trans (congrArg Except.toOption (answer_none h))
  | contract | contractInstance | storage => rfl

theorem shown_of_unseen (hk : k.isToken) (h : Unseen f s k) :
    overlaid (s.entry k) ((db.without f).record k) = none := by
  rw [h.1]
  exact record_of_failed hk h.2

theorem shown_of_seen (h : ¬ Unseen f s k) :
    overlaid (s.entry k) ((db.without f).record k) = overlaid (s.entry k) (db.record k) := by
  cases he : s.entry k with
  | some c => rfl
  | none =>
    refine record_of_answered ?_
    rw [← not_isSome_iff_eq_none]
    exact fun hsome => h ⟨he, hsome⟩

theorem stored_of_unseen (h : Unseen f s k) : overlaid (s.entry k) (db.record k) = db.record k :=
  congrArg (overlaid · (db.record k)) h.1

/-- Two accounts of one balance and nonce. A commit does not change the type of a stored account. -/
def SameFundsOf (account account' : Account) : Prop :=
  account'.nonce = account.nonce ∧ account'.balance = account.balance

/-- **What is stored of a record** after the commit: what the operation has shown, and what was stored if it has
    neither seen nor written the record. -/
structure Stores (db db' : StateTables) (f : Faults) (s : UpdatedState) (k : RecordKey)
    (same : k.Value → k.Value → Prop) : Prop where
  shown : ∀ {v}, overlaid (s.entry k) ((db.without f).record k) = some v →
    ∃ v', db'.record k = some v' ∧ same v v'
  absent : overlaid (s.entry k) ((db.without f).record k) = none → db'.record k = db.record k

/-- A record is stored if its row is written as the overlay says. -/
theorem stores_of_row {ν : Type} {effect : CachedStatus k.Value → ν → Option ν} {read : ν → Option k.Value}
    {row row' : ν} (hs : s.Overlays db) (hrefl : ∀ v, same v v)
    (hvalue : ∀ c, s.entry k = some c → ∃ v, c.getInner = some v) (hread : db.record k = read row)
    (hread' : db'.record k = read row') (hrow : row' = applied effect (s.entry k) row)
    (hcached : ∀ v, effect (.cached v) row = some row)
    (hupdated : ∀ v, ∃ row₁ v', effect (.updated (some v)) row = some row₁ ∧ read row₁ = some v' ∧ same v v') :
    Stores db db' f s k same := by
  rw [hrow] at hread'
  cases he : s.entry k with
  | none =>
    rw [he] at hread'
    have hsame : db'.record k = db.record k := hread'.trans hread.symm
    -- no entry, so what is shown is shown by the tables
    refine ⟨fun {v} h => ⟨v, hsame.trans (db.record_of_without f ?_), hrefl v⟩, fun _ => hsame⟩
    rwa [he] at h
  | some c =>
    obtain ⟨w, hw⟩ := hvalue c he
    have hfound : overlaid (s.entry k) ((db.without f).record k) = some w := by rw [he]; exact hw
    have hstored : ∃ v', db'.record k = some v' ∧ same w v' := by
      rw [he] at hread'
      cases c with
      | cached v =>
        cases hw
        refine ⟨w, (hread'.trans ?_).trans (hs.cached k w he), hrefl w⟩
        rw [hread]
        exact congrArg (fun r : Option ν => read (r.getD row)) (hcached w)
      | updated v =>
        cases hw
        obtain ⟨row₁, v', heffect, hv', hsame⟩ := hupdated w
        refine ⟨v', (hread'.trans ?_).trans hv', hsame⟩
        exact congrArg (fun r : Option ν => read (r.getD row)) heffect
    constructor
    · intro v h
      cases hfound.symm.trans h
      exact hstored
    · intro h
      cases hfound.symm.trans h

theorem stores_account (hs : s.Overlays db) (hd : Committed s db db') (x : Address) :
    Stores db db' f s (.account x) SameFundsOf := by
  refine stores_of_row hs (fun _ => ⟨rfl, rfl⟩) ?_ (store_account db x) (store_account db' x) (hd.account x)
    (fun _ => rfl) ?_
  · intro c he
    obtain ⟨account, hfound, -⟩ := hs.wellKeyed (.account x) c he
    exact ⟨account, hfound⟩
  · intro v
    cases db.account.lookup x with
    | none | some => exact ⟨_, _, rfl, rfl, rfl, rfl⟩

theorem stores_stakingAccount (hs : s.Overlays db) (hd : Committed s db db') (p x : Address) :
    Stores db db' f s (.stakingAccount p x) fun v v' => v'.balance = v.balance := by
  refine stores_of_row hs (fun _ => rfl) ?_ (store_stakingAccount db (p, x)) (store_stakingAccount db' (p, x))
    (hd.stakingAccount (p, x)) (fun _ => rfl) fun v => ⟨_, _, rfl, rfl, rfl⟩
  intro c he
  obtain ⟨staked, hfound, -⟩ := hs.wellKeyed (.stakingAccount p x) c he
  exact ⟨staked, hfound⟩

theorem Stores.untouched {v : k.Value} (hk : k.isToken) (hstores : Stores db db' f s' k same)
    (hrefl : same v v)
    (hsame : overlaid (s'.entry k) ((db.without f).record k) = overlaid (s.entry k) ((db.without f).record k))
    (h : overlaid (s.entry k) (db.record k) = some v) : ∃ v', db'.record k = some v' ∧ same v v' := by
  by_cases hunseen : Unseen f s k
  · rw [shown_of_unseen hk hunseen] at hsame
    rw [stored_of_unseen hunseen] at h
    exact ⟨v, (hstores.absent hsame).trans h, hrefl⟩
  · rw [shown_of_seen hunseen, h] at hsame
    exact hstores.shown hsame

/-! ## What an operation has to keep -/

namespace MoneyOp

/-- What an account pays. -/
def pays (x : Address) : MoneyOp → Nat
  | .transfer a _ amount => if x = a then amount.toNat else 0
  | .stake _ a _ amount => if x = a then amount.toNat else 0
  | .mint _ _ => 0

/-- What an account gets. -/
def gets (x : Address) : MoneyOp → Nat
  | .transfer _ b amount => if x = b then amount.toNat else 0
  | .stake p _ _ amount => if x = p then amount.toNat else 0
  | .mint amount b => if x = b then amount.toNat else 0

/-- What is staked more. -/
def stakes (q x : Address) : MoneyOp → Nat
  | .stake p a _ amount => if q = p ∧ x = a then amount.toNat else 0
  | _ => 0

/-- **Nothing is destroyed**: every account and every staking account that was there is accounted for in what
    is stored afterwards. -/
structure Kept (m : MoneyOp) (before after : Store) : Prop where
  account : ∀ x account, before.account x = some account → ∃ account', after.account x = some account' ∧
    account'.nonce = account.nonce ∧ account'.balance.toNat + m.pays x = account.balance.toNat + m.gets x
  stakingAccount : ∀ p x staked, before.stakingAccount (p, x) = some staked →
    ∃ staked', after.stakingAccount (p, x) = some staked' ∧
      staked'.balance.toNat = staked.balance.toNat + m.stakes p x

/-- The operation returns without an error, the overlay is committed, and nothing is destroyed. -/
def NothingDestroyed (db : StateTables) (f : Faults) (m : MoneyOp) (s : UpdatedState) : Prop :=
  ∀ s' db', (m.runFaulty db f).run s = (.ok (), s') → (commit s').run db = (.ok (), db') →
    m.Kept (view db s).toStore db'.store

/-- An account with a nonce or a balance, whose lookup fails. -/
def OverlooksAccount (db : StateTables) (f : Faults) (s : UpdatedState) (x : Address) : Prop :=
  Unseen f s (.account x) ∧
    ∃ account, db.store.account x = some account ∧ (account.nonce ≠ 0 ∨ account.balance ≠ 0)

/-- A stake whose lookup fails. -/
def OverlooksStake (db : StateTables) (f : Faults) (s : UpdatedState) (p x : Address) : Prop :=
  Unseen f s (.stakingAccount p x) ∧
    ∃ staked, db.store.stakingAccount (p, x) = some staked ∧ staked.balance ≠ 0

/-- **A failed lookup is mistaken for an absent record**: the receiver or the staking account of an operation
    that goes through on what is seen. -/
def Mistakes (db : StateTables) (f : Faults) (s : UpdatedState) : MoneyOp → Prop
  | .transfer a b amount =>
    OverlooksAccount db f s b ∧ (view (db.without f) s).CanPay a b amount
  | .stake p a _ amount =>
    (OverlooksAccount db f s p ∨ OverlooksStake db f s p a) ∧
      (∃ pool, (view (db.without f) s).Accepts p amount pool) ∧ (view (db.without f) s).CanPay a p amount ∧
      (view (db.without f) s).stakedBy p a + amount.toNat < 2 ^ 128
  | .mint _ _ => False

end MoneyOp

/-! ## Records that are kept -/

/-- **The accounts of a transfer**, alone or in a stake, when the receiver is not overlooked. -/
theorem accounts_kept (hs : s.Overlays db) (hs' : s'.Overlays db) (hd : Committed s' db db')
    (hst : (view (db.without f) s).transfer a b amount = some st)
    (hafter : (view (db.without f) s').account = st.account) (hseen : ¬ MoneyOp.OverlooksAccount db f s b)
    (h : (view db s).account x = some account) :
    ∃ account', db'.store.account x = some account' ∧ account'.nonce = account.nonce ∧
      account'.balance.toNat + (if x = a then amount.toNat else 0) =
        account.balance.toNat + if x = b then amount.toNat else 0 := by
  have hf : (view (db.without f) s).AccountsFiled := accountsFiled_view hs.wellKeyed
  have hmoved := moved_of_transfer hf hst
  have hbalance := hmoved.balance x
  have hsum : st.balanceAt x = (view (db.without f) s').balanceAt x := by
    unfold balanceAt
    rw [hafter]
  rw [hsum] at hbalance
  by_cases hunseen : Unseen f s (.account x)
  · have hnone : (view (db.without f) s).account x = none := shown_of_unseen rfl hunseen
    -- the payer was found
    have hxa : x ≠ a := by
      rintro rfl
      have hpayer := (canPay_iff.mp ⟨st, hst⟩).payer
      rw [hnone] at hpayer
      cases hpayer
    rw [if_neg hxa] at hbalance ⊢
    by_cases hxb : x = b
    · subst hxb
      obtain ⟨payee, balance, hpayee, hcredited⟩ := hmoved.payee
      rw [hnone] at hpayee
      cases hpayee
      rw [← hafter] at hcredited
      obtain ⟨account', hstored, hnonce, hfunds⟩ := (stores_account hs' hd _).shown hcredited
      -- a new account has the funds of one with neither a nonce nor a balance
      have h : db.store.account x = some account := (stored_of_unseen hunseen).symm.trans h
      have hblank : account.nonce = 0 ∧ account.balance = 0 := by
        by_contra hnot
        exact hseen ⟨hunseen, account, h, not_and_or.mp hnot⟩
      rw [balanceAt_of_none hnone, balanceAt_of_some hcredited, if_pos rfl] at hbalance
      refine ⟨account', hstored, hnonce.trans hblank.1.symm, ?_⟩
      rw [if_pos rfl, hfunds, hblank.2]
      exact hbalance
    · have hsame : (view (db.without f) s').account x = (view (db.without f) s).account x := by
        rw [hafter]
        exact hmoved.others x hxa hxb
      obtain ⟨account', hstored, hnonce, hfunds⟩ := (stores_account hs' hd _).untouched rfl ⟨rfl, rfl⟩ hsame h
      refine ⟨account', hstored, hnonce, ?_⟩
      rw [if_neg hxb, hfunds]
  · have hfound : (view (db.without f) s).account x = some account := (shown_of_seen hunseen).trans h
    obtain ⟨balance, hkept⟩ := hmoved.kept x account hfound
    rw [← hafter] at hkept
    obtain ⟨account', hstored, hnonce, hfunds⟩ := (stores_account hs' hd _).shown hkept
    rw [balanceAt_of_some hfound, balanceAt_of_some hkept] at hbalance
    refine ⟨account', hstored, hnonce, ?_⟩
    rw [hfunds]
    exact hbalance

theorem transfer_kept (hs : s.Overlays db)
    (hrun : (transfer (⟨db, f⟩ : FaultyTables) a b amount).run s = (.ok (), s'))
    (hs' : s'.Overlays db) (hd : Committed s' db db') (hseen : ¬ MoneyOp.OverlooksAccount db f s b) :
    (MoneyOp.transfer a b amount).Kept (view db s).toStore db'.store := by
  obtain ⟨st, hst, hview⟩ := transfer_transacts.ok (FaultyTables.transfer_mirrors.run_ok_iff.mp hrun)
  have hafter : (view (db.without f) s').account = st.account := by rw [hview]; rfl
  obtain ⟨-, hstaking, -⟩ := transfer_frame hst
  constructor
  · intro x account h
    exact accounts_kept hs hs' hd hst hafter hseen h
  · intro p x staked h
    have hsame : (view (db.without f) s').stakingAccount (p, x) =
        (view (db.without f) s).stakingAccount (p, x) := by
      rw [hview]
      exact congrFun hstaking (p, x)
    obtain ⟨staked', hstored, hbalance⟩ := (stores_stakingAccount hs' hd _ _).untouched rfl rfl hsame h
    exact ⟨staked', hstored, congrArg BitVec.toNat hbalance⟩

theorem mint_kept (hs : s.Overlays db) (hrun : (mint (⟨db, f⟩ : FaultyTables) amount b).run s = (.ok (), s'))
    (hs' : s'.Overlays db) (hd : Committed s' db db') :
    (MoneyOp.mint amount b).Kept (view db s).toStore db'.store := by
  obtain ⟨st, hst, hview⟩ := (mint_transacts amount b).ok (FaultyTables.mint_mirrors.run_ok_iff.mp hrun)
  obtain ⟨found, hfound, hst⟩ := bind_eq_some_iff.mp hst
  obtain ⟨balance, hadd, hst⟩ := bind_eq_some_iff.mp hst
  cases hst
  have hsum := checkedAdd_eq_some.mp hadd
  obtain rfl := accountsFiled_view hs.wellKeyed b found hfound
  constructor
  · intro x account h
    by_cases hx : x = found.address
    · subst hx
      -- what is minted to was found
      have hseen : ¬ Unseen f s (.account found.address) := by
        intro hunseen
        cases hfound.symm.trans (shown_of_unseen rfl hunseen)
      cases hfound.symm.trans ((shown_of_seen hseen).trans h)
      have hcredited : (view (db.without f) s').account found.address = some { found with balance } := by
        rw [hview]
        exact account_setAccount_self { found with balance }
      obtain ⟨account', hstored, hnonce, hfunds⟩ := (stores_account hs' hd _).shown hcredited
      refine ⟨account', hstored, hnonce, ?_⟩
      show account'.balance.toNat + 0 =
        found.balance.toNat + if found.address = found.address then amount.toNat else 0
      rw [if_pos rfl, hfunds]
      exact hsum
    · have hsame : (view (db.without f) s').account x = (view (db.without f) s).account x := by
        rw [hview]
        exact account_setAccount_of_ne hx
      obtain ⟨account', hstored, hnonce, hfunds⟩ := (stores_account hs' hd _).untouched rfl ⟨rfl, rfl⟩ hsame h
      refine ⟨account', hstored, hnonce, ?_⟩
      show account'.balance.toNat + 0 = account.balance.toNat + if x = found.address then amount.toNat else 0
      rw [if_neg hx, hfunds]
  · intro p x staked h
    have hsame : (view (db.without f) s').stakingAccount (p, x) =
        (view (db.without f) s).stakingAccount (p, x) := by
      rw [hview]
      rfl
    obtain ⟨staked', hstored, hbalance⟩ := (stores_stakingAccount hs' hd _ _).untouched rfl rfl hsame h
    exact ⟨staked', hstored, congrArg BitVec.toNat hbalance⟩

/-- The note goes to the record that was found, or to a new one for the same pool and staker. -/
theorem stakingAccount_noted_getD {found : Store} (hfiled : found.StakingFiled) {balance : Balance}
    (q x : Address) :
    (st.noted p pool { (found.stakingAccount (p, a)).getD (.new a p) with balance } n).stakingAccount (q, x) =
      if q = p ∧ x = a then some { (found.stakingAccount (p, a)).getD (.new a p) with balance }
      else st.stakingAccount (q, x) := by
  obtain ⟨hpool, haccount, -⟩ := Store.StakingFiled.getD hfiled p a
  show Function.update st.stakingAccount (_, _) (some _) (q, x) = _
  rw [Function.update_apply]
  simp only [hpool, haccount, Prod.mk.injEq]

theorem stake_kept (hs : s.Overlays db)
    (hrun : (stake (⟨db, f⟩ : FaultyTables) p a n amount).run s = (.ok (), s'))
    (hs' : s'.Overlays db) (hd : Committed s' db db') (hseen : ¬ MoneyOp.OverlooksAccount db f s p)
    (hstake : ¬ MoneyOp.OverlooksStake db f s p a) :
    (MoneyOp.stake p a n amount).Kept (view db s).toStore db'.store := by
  obtain ⟨pool, st, balance, -, hst, hadd, hview⟩ := stake_ok (FaultyTables.stake_mirrors.run_ok_iff.mp hrun)
  have hafter : (view (db.without f) s').account = st.account := by rw [hview]; rfl
  obtain ⟨-, hstaking, -⟩ := transfer_frame hst
  have hfiled : (view (db.without f) s).StakingFiled := stakingFiled_view hs.wellKeyed
  have hsum := checkedAdd_eq_some.mp hadd
  have hnoted : ∀ q x, (view (db.without f) s').stakingAccount (q, x) = if q = p ∧ x = a then
      some { ((view (db.without f) s).stakingAccount (p, a)).getD (.new a p) with balance }
      else (view (db.without f) s).stakingAccount (q, x) := by
    intro q x
    rw [hview]
    refine (stakingAccount_noted_getD hfiled q x).trans ?_
    rw [hstaking]
  constructor
  · intro x account h
    exact accounts_kept hs hs' hd hst hafter hseen h
  · intro q x staked h
    show ∃ staked', db'.store.stakingAccount (q, x) = some staked' ∧
      staked'.balance.toNat = staked.balance.toNat + if q = p ∧ x = a then amount.toNat else 0
    by_cases hkey : q = p ∧ x = a
    · obtain ⟨rfl, rfl⟩ := hkey
      have hwritten := hnoted q x
      rw [if_pos ⟨rfl, rfl⟩] at hwritten
      obtain ⟨staked', hstored, hbalance⟩ := (stores_stakingAccount hs' hd _ _).shown hwritten
      refine ⟨staked', hstored, ?_⟩
      rw [if_pos ⟨rfl, rfl⟩, hbalance]
      by_cases hunseen : Unseen f s (.stakingAccount q x)
      · -- a new staking account counts for an empty one
        have hnone : (view (db.without f) s).stakingAccount (q, x) = none := shown_of_unseen rfl hunseen
        have h : db.store.stakingAccount (q, x) = some staked := (stored_of_unseen hunseen).symm.trans h
        rw [hnone] at hsum
        have hempty : staked.balance = 0 := by
          by_contra hne
          exact hstake ⟨hunseen, staked, h, hne⟩
        rw [hempty]
        exact hsum
      · have hfound : (view (db.without f) s).stakingAccount (q, x) = some staked :=
          (shown_of_seen hunseen).trans h
        rw [hfound] at hsum
        exact hsum
    · rw [if_neg hkey]
      have hsame := hnoted q x
      rw [if_neg hkey] at hsame
      obtain ⟨staked', hstored, hbalance⟩ := (stores_stakingAccount hs' hd _ _).untouched rfl rfl hsame h
      exact ⟨staked', hstored, congrArg BitVec.toNat hbalance⟩

/-! ## Records that are lost -/

/-- **An overlooked receiver** ends with the amount and no nonce. -/
theorem not_kept_of_overlooksAccount (hs : s.Overlays db) (hs' : s'.Overlays db) (hd : Committed s' db db')
    (hst : (view (db.without f) s).transfer a b amount = some st)
    (hafter : (view (db.without f) s').account = st.account) (hover : MoneyOp.OverlooksAccount db f s b)
    (hpays : m.pays b = if b = a then amount.toNat else 0) (hgets : m.gets b = amount.toNat) :
    ¬ m.Kept (view db s).toStore db'.store := by
  intro hkept
  obtain ⟨hunseen, account, hacc, hfunds⟩ := hover
  have hnone : (view (db.without f) s).account b = none := shown_of_unseen rfl hunseen
  have hab : b ≠ a := by
    rintro rfl
    have hpayer := (canPay_iff.mp ⟨st, hst⟩).payer
    rw [hnone] at hpayer
    cases hpayer
  have hmoved := moved_of_transfer (accountsFiled_view hs.wellKeyed) hst
  obtain ⟨payee, balance, hpayee, hcredited⟩ := hmoved.payee
  rw [hnone] at hpayee
  cases hpayee
  rw [← hafter] at hcredited
  obtain ⟨account', hstored, hnonce, hcredit⟩ := (stores_account hs' hd _).shown hcredited
  obtain ⟨account'', hstored', hnonce', hbalance'⟩ := hkept.account b account
    ((stored_of_unseen hunseen).trans hacc)
  cases hstored.symm.trans hstored'
  have hbalance := hmoved.balance b
  have hsum : st.balanceAt b = (view (db.without f) s').balanceAt b := by
    unfold balanceAt
    rw [hafter]
  rw [hsum, balanceAt_of_some hcredited, balanceAt_of_none hnone, if_neg hab,
    if_pos rfl, ← hcredit] at hbalance
  rw [hpays, hgets, if_neg hab] at hbalance'
  rcases hfunds with hne | hne
  · exact hne (hnonce'.symm.trans hnonce)
  · have hzero : account.balance.toNat = 0 := by omega
    exact hne (eq_of_toNat_eq hzero)

/-- **An overlooked stake** ends with the amount alone. -/
theorem not_kept_of_overlooksStake (hs' : s'.Overlays db) (hd : Committed s' db db') {note : StakingAccount}
    (hnoted : (view (db.without f) s').stakingAccount (p, a) = some note)
    (hnote : note.balance.toNat = amount.toNat) (hover : MoneyOp.OverlooksStake db f s p a) :
    ¬ (MoneyOp.stake p a n amount).Kept (view db s).toStore db'.store := by
  intro hkept
  obtain ⟨hunseen, staked, hstaked, hne⟩ := hover
  obtain ⟨staked', hstored, hbalance⟩ := (stores_stakingAccount hs' hd _ _).shown hnoted
  obtain ⟨staked'', hstored', hbalance'⟩ := hkept.stakingAccount p a staked
    ((stored_of_unseen hunseen).trans hstaked)
  cases hstored.symm.trans hstored'
  have hbalance' : staked'.balance.toNat =
      staked.balance.toNat + if p = p ∧ a = a then amount.toNat else 0 := hbalance'
  rw [if_pos ⟨rfl, rfl⟩, hbalance] at hbalance'
  have hzero : staked.balance.toNat = 0 := by omega
  exact hne (eq_of_toNat_eq hzero)

/-! ## The commit -/

/-- The two overlays can be committed alike. -/
def CommitsAlike (db : StateTables) (s s' : UpdatedState) : Prop :=
  s'.Committable db ↔ s.Committable db

instance (db : StateTables) : Std.Refl (CommitsAlike db) := ⟨fun _ => Iff.rfl⟩

instance (db : StateTables) : IsTrans UpdatedState (CommitsAlike db) :=
  ⟨fun _ _ _ h₁ h₂ => Iff.trans h₂ h₁⟩

section

variable (h : ∀ k (v : RecordKey.Value k), shown.record k = some v → db.record k = some v)

include h

theorem Remembers.of_shown (hr : Remembers shown s s') : Remembers db s s' where
  entry k := by
    rcases hr.entry k with he | ⟨hnone, v, he, hv⟩
    · exact .inl he
    · exact .inr ⟨hnone, v, he, h k v hv⟩
  events := hr.events
  metadatas := hr.metadatas

/-- Token operations touch no contract and no instance. -/
theorem commitsAlike_rule : TokenRule shown (CommitsAlike db) where
  remembers hr := ⟨(hr.of_shown h).committable_of, (hr.of_shown h).committable⟩
  sets {s s' k v} htoken hs := by
    have hcontract : ∀ a, s'.contracts.lookup a = s.contracts.lookup a :=
      fun a => hs.entry_of_ne (.contract a) fun hk => by subst hk; cases htoken
    have hinstance : ∀ a, s'.contractInstances.lookup a = s.contractInstances.lookup a :=
      fun a => hs.entry_of_ne (.contractInstance a) fun hk => by subst hk; cases htoken
    constructor
    · intro hc
      exact ⟨fun a c he => hc.contract a c ((hcontract a).trans he),
        fun a c he => hc.contractInstance a c ((hinstance a).trans he)⟩
    · intro hc
      exact ⟨fun a c he => hc.contract a c ((hcontract a).symm.trans he),
        fun a c he => hc.contractInstance a c ((hinstance a).symm.trans he)⟩

end

theorem MoneyOp.commitsAlike (m : MoneyOp) (db : StateTables) (f : Faults) :
    Moves (CommitsAlike db) (m.runFaulty db f) :=
  m.mirrors.moves (m.run_moves (commitsAlike_rule fun _ _ => db.record_of_without f))

theorem committed_of_run (hs : s.WellKeyed) (h : (commit s).run db = (.ok (), db')) :
    s.Committable db ∧ Committed s db db' := by
  by_cases hc : s.Committable db
  · obtain ⟨db₁, hrun, hd⟩ := commit_ok hs hc
    cases hrun.symm.trans h
    exact ⟨hc, hd⟩
  · obtain ⟨e, db₁, hrun⟩ := commit_error hs hc
    cases hrun.symm.trans h

/-! ## The result -/

/-- An operation that makes a mistake goes through, and destroys a record. -/
theorem not_nothingDestroyed_of_mistakes (hs : s.Overlays db) (hc : s.Committable db) (h : m.Mistakes db f s) :
    ¬ m.NothingDestroyed db f s := by
  -- whatever the operation leaves can be committed
  have hcommit : ∀ {s'}, (m.runFaulty db f).run s = (.ok (), s') →
      s'.Overlays db ∧ ∃ db', (commit s').run db = (.ok (), db') ∧ Committed s' db db' := by
    intro s' hrun
    have hs' : s'.Overlays db := by
      have hafter := hs.runFaulty f m
      rwa [hrun] at hafter
    have hc' : s'.Committable db := ((m.commitsAlike db f).of_run hrun).mpr hc
    exact ⟨hs', commit_ok hs'.wellKeyed hc'⟩
  intro hkept
  cases m with
  | transfer a b amount =>
    obtain ⟨hover, hpay⟩ := h
    obtain ⟨st, hst⟩ := canPay_iff.mpr hpay
    obtain ⟨s', hrun, hview⟩ := transfer_transacts.defined hst
    have hrun := FaultyTables.transfer_mirrors.run_ok_iff.mpr hrun
    obtain ⟨hs', db', hcommitted, hd⟩ := hcommit hrun
    have hafter : (view (db.without f) s').account = st.account := by rw [hview]; rfl
    have hgets : (MoneyOp.transfer a b amount).gets b = amount.toNat := if_pos rfl
    exact not_kept_of_overlooksAccount hs hs' hd hst hafter hover rfl hgets
      (hkept s' db' hrun hcommitted)
  | stake p a n amount =>
    obtain ⟨hover, ⟨pool, haccepts⟩, hpay, hfits⟩ := h
    obtain ⟨st, hst⟩ := canPay_iff.mpr hpay
    have hfiled : (view (db.without f) s).StakingFiled := stakingFiled_view hs.wellKeyed
    obtain ⟨s', balance, hbalance, hrun, hview⟩ := stake_noted hs.wellKeyed n haccepts hst hfits
    have hrun := FaultyTables.stake_mirrors.run_ok_iff.mpr hrun
    obtain ⟨hs', db', hcommitted, hd⟩ := hcommit hrun
    rcases hover with hover | hover
    · have hafter : (view (db.without f) s').account = st.account := by rw [hview]; rfl
      have hgets : (MoneyOp.stake p a n amount).gets p = amount.toNat := if_pos rfl
      exact not_kept_of_overlooksAccount hs hs' hd hst hafter hover rfl hgets
        (hkept s' db' hrun hcommitted)
    · have hnoted : (view (db.without f) s').stakingAccount (p, a) =
          some { ((view (db.without f) s).stakingAccount (p, a)).getD (.new a p) with balance } := by
        rw [hview]
        exact (stakingAccount_noted_getD hfiled p a).trans (if_pos ⟨rfl, rfl⟩)
      have hnote : balance.toNat = amount.toNat := by
        have hnone : (view (db.without f) s).stakingAccount (p, a) = none := shown_of_unseen rfl hover.1
        unfold stakedBy at hbalance
        rw [hnone] at hbalance
        exact hbalance.trans (zero_add _)
      exact not_kept_of_overlooksStake hs' hd hnoted hnote hover (hkept s' db' hrun hcommitted)
  | mint amount b => exact h

theorem nothingDestroyed_of_not_mistakes (hs : s.Overlays db) (h : ¬ m.Mistakes db f s) :
    m.NothingDestroyed db f s := by
  intro s' db' hrun hcommitted
  have hs' : s'.Overlays db := by
    have hafter := hs.runFaulty f m
    rwa [hrun] at hafter
  obtain ⟨-, hd⟩ := committed_of_run hs'.wellKeyed hcommitted
  cases m with
  | transfer a b amount =>
    refine transfer_kept hs hrun hs' hd ?_
    intro hover
    obtain ⟨st, hst, -⟩ := transfer_transacts.ok (FaultyTables.transfer_mirrors.run_ok_iff.mp hrun)
    exact h ⟨hover, canPay_iff.mp ⟨st, hst⟩⟩
  | stake p a n amount =>
    obtain ⟨pool, st, balance, haccepts, hst, hadd, -⟩ := stake_ok (FaultyTables.stake_mirrors.run_ok_iff.mp hrun)
    have hfits : (view (db.without f) s).stakedBy p a + amount.toNat < 2 ^ 128 := by
      rw [← toNat_noted hs.wellKeyed hadd]
      exact balance.isLt
    have hthrough : (∃ pool, (view (db.without f) s).Accepts p amount pool) ∧
        (view (db.without f) s).CanPay a p amount ∧
        (view (db.without f) s).stakedBy p a + amount.toNat < 2 ^ 128 :=
      ⟨⟨pool, haccepts⟩, canPay_iff.mp ⟨st, hst⟩, hfits⟩
    refine stake_kept hs hrun hs' hd ?_ ?_
    · exact fun hover => h ⟨.inl hover, hthrough⟩
    · exact fun hover => h ⟨.inr hover, hthrough⟩
  | mint amount b => exact mint_kept hs hrun hs' hd

/-- **When failed lookups destroy no record.** For every overlay that any operations have made, operations
    with failing lookups included, and for any lookups that fail now: exactly when the operation does not take
    a receiver or a staking account with something in it for a new one. -/
theorem nothingDestroyed_iff (crypto : Crypto) (db : StateTables) (acts : List Act) (f : Faults)
    (m : MoneyOp) :
    m.NothingDestroyed db f (runActs crypto db acts .new) ↔
      ¬ ((runActs crypto db acts .new).Committable db ∧ m.Mistakes db f (runActs crypto db acts .new)) := by
  have hs : (runActs crypto db acts .new).Overlays db := overlays_runActs
  constructor
  · rintro hkept ⟨hc, hmistakes⟩
    exact not_nothingDestroyed_of_mistakes hs hc hmistakes hkept
  · intro hnot
    by_cases hmistakes : m.Mistakes db f (runActs crypto db acts .new)
    · -- what cannot be committed destroys nothing
      intro s' db' hrun hcommitted
      have hs' : s'.Overlays db := by
        have hafter := hs.runFaulty f m
        rwa [hrun] at hafter
      obtain ⟨hc', -⟩ := committed_of_run hs'.wellKeyed hcommitted
      exact absurd ⟨((m.commitsAlike db f).of_run hrun).mp hc', hmistakes⟩ hnot
    · exact nothingDestroyed_of_not_mistakes hs hmistakes

/-- Account 1 has a hundred tokens; account 2 has fifty and has sent three transactions. -/
def twoAccounts : StateTables :=
  { StateTables.empty with
    account := ((∅ : Table Address AccountRow).insert 1 ⟨.user, 100, 4⟩).insert 2 ⟨.user, 50, 3⟩ }

/-- The lookup of account 2 fails. -/
def connectionLost : Faults
  | .account 2 => some "connection closed"
  | _ => none

/-- A transfer of ten to account 2 during which its lookup fails. It returns without an error, and after the
    commit the account has the ten and nothing else. -/
theorem receiver_overwritten :
    let m : MoneyOp := .transfer 1 2 10
    (∃ s' db', (m.runFaulty twoAccounts connectionLost).run .new = (.ok (), s') ∧
      (commit s').run twoAccounts = (.ok (), db') ∧ db'.account.lookup 2 = some ⟨.user, 10, 0⟩) ∧
    ¬ m.NothingDestroyed twoAccounts connectionLost .new := by
  intro m
  have hrun : (m.runFaulty twoAccounts connectionLost).run .new =
      (.ok (), ((m.runFaulty twoAccounts connectionLost).run .new).2) := Prod.ext (by decide +kernel) rfl
  have hcommit : (commit ((m.runFaulty twoAccounts connectionLost).run .new).2).run twoAccounts =
      (.ok (), ((commit ((m.runFaulty twoAccounts connectionLost).run .new).2).run twoAccounts).2) :=
    Prod.ext (by decide +kernel) rfl
  have hrow : ((commit ((m.runFaulty twoAccounts connectionLost).run .new).2).run
      twoAccounts).2.account.lookup 2 = some ⟨.user, 10, 0⟩ := by decide +kernel
  refine ⟨⟨_, _, hrun, hcommit, hrow⟩, ?_⟩
  intro hkept
  obtain ⟨account', hstored, hnonce, -⟩ := (hkept _ _ hrun hcommit).account 2 ⟨2, 50, 3, .user⟩
    (by decide +kernel)
  rw [store_account, hrow] at hstored
  cases hstored
  exact absurd hnonce (by decide)

end UpdatedState

end L1xCore
