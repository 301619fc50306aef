import L1xCore.State.Ledger
import L1xCore.Lib.Triple

/-!
# `State.Staking` — staked tokens stay covered

Staking moves tokens to the account of the pool and notes them in a staking account; unstaking gives them
back. Nothing else keeps the two together: the note and the tokens are records of different kinds, and an
operation that fails half way keeps what it has done.

What holds throughout is that every pool's account has at least what is staked in it. The books are
compared with some room to spare (`Store.Backed`), since between the two halves of an operation a pool has
more than it owes.
-/

namespace L1xCore

open Store BitVec Option Function

variable {p a : Address} {amount balance remaining : Balance} {account : StakingAccount} {pool : StakingPool}
  {b : Address} {g : Store → Option Store} {spare : Address → Nat}

namespace Store

/-! ## What is staked -/

/-- What `a` has staked in the pool `p`. -/
def stakedBy (st : Store) (p a : Address) : Nat :=
  ((st.stakingAccount (p, a)).map (·.balance.toNat)).getD 0

/-- What is staked in the pool `p`. -/
noncomputable def staked (st : Store) (p : Address) : Nat := ∑ a, st.stakedBy p a

/-- Every staking account is filed under its own pool and account. -/
def StakingFiled (st : Store) : Prop :=
  ∀ p a account, st.stakingAccount (p, a) = some account →
    account.poolAddress = p ∧ account.accountAddress = a

/-- Every pool has an account with what is staked in the pool and `spare` more, and nothing is staked where
    there is no pool. -/
structure Backed (spare : Address → Nat) (st : Store) : Prop where
  opened : ∀ p, (st.stakingPool p).isSome → (st.account p).isSome
  unstaked : ∀ p, st.stakingPool p = none → st.staked p = 0
  covers : ∀ p, (st.stakingPool p).isSome → st.staked p + spare p ≤ st.balanceAt p

/-- Every pool has an account with what is staked in the pool. -/
abbrev Covered (st : Store) : Prop := st.Backed 0

variable {st st' : Store} {spare spare' : Address → Nat}

theorem Backed.mono (h : st.Backed spare) (hle : ∀ p, spare' p ≤ spare p) : st.Backed spare' where
  opened := h.opened
  unstaked := h.unstaked
  covers p hp := by
    have hcovers := h.covers p hp
    have hspare := hle p
    omega

theorem Backed.covered (h : st.Backed spare) : st.Covered :=
  h.mono fun _ => Nat.zero_le _

theorem staked_congr (h : st'.stakingAccount = st.stakingAccount) (p : Address) :
    st'.staked p = st.staked p := by
  simp only [staked, stakedBy, h]

/-- A change of the accounts alone: what matters is the balance of every pool. -/
theorem Backed.of_accounts (h : st.Backed spare) (hpool : st'.stakingPool = st.stakingPool)
    (hstaking : st'.stakingAccount = st.stakingAccount)
    (hopen : ∀ p, (st.account p).isSome → (st'.account p).isSome)
    (hbalance : ∀ p, (st.stakingPool p).isSome →
      st.balanceAt p + spare' p ≤ st'.balanceAt p + spare p) : st'.Backed spare' where
  opened p hp := hopen p (h.opened p (by rwa [hpool] at hp))
  unstaked p hp := by
    rw [staked_congr hstaking]
    exact h.unstaked p (by rwa [hpool] at hp)
  covers p hp := by
    rw [hpool] at hp
    rw [staked_congr hstaking]
    have hcovers := h.covers p hp
    have hmoved := hbalance p hp
    omega

/-! ## The plain operations -/

theorem isSome_account_setAccount {account : Account} (h : (st.account p).isSome) :
    ((st.setAccount account).account p).isSome := by
  by_cases hp : p = account.address
  · rw [hp, account_setAccount_self]
    rfl
  · rw [account_setAccount_of_ne hp]
    exact h

theorem transfer_frame (h : st.transfer a b amount = some st') :
    st'.stakingPool = st.stakingPool ∧ st'.stakingAccount = st.stakingAccount ∧
      ∀ p, (st.account p).isSome → (st'.account p).isSome := by
  simp only [transfer, bind_eq_bind, bind_eq_some_iff, some.injEq] at h
  obtain ⟨account, -, fromBalance, -, toBalance, -, rfl⟩ := h
  exact ⟨rfl, rfl, fun p hp => isSome_account_setAccount (isSome_account_setAccount hp)⟩

section

variable (h : st.Backed spare) (hf : st.AccountsFiled)

include h hf

/-- **A transfer on the books of the pools**: a pool that pays needs the room, a pool that is paid has
    it. -/
theorem Backed.transfer (ht : st.transfer a b amount = some st') (hspare : ∀ p, (st.stakingPool p).isSome →
      spare' p + (if p = a then amount.toNat else 0) ≤ spare p + if p = b then amount.toNat else 0) :
    st'.Backed spare' := by
  obtain ⟨hpool, hstaking, hopen⟩ := transfer_frame ht
  refine h.of_accounts hpool hstaking hopen fun p hp => ?_
  have hmoved := balanceAt_transfer hf ht p
  have hroom := hspare p hp
  omega

theorem Backed.mint (hm : st.mint amount a = some st') : st'.Backed spare := by
  have hbalance := balanceAt_mint hf hm
  simp only [Store.mint, bind_eq_bind, bind_eq_some_iff, some.injEq] at hm
  obtain ⟨account, -, balance, -, rfl⟩ := hm
  refine h.of_accounts rfl rfl (fun p hp => isSome_account_setAccount hp) fun p _ => ?_
  have hgrown := hbalance p
  omega

theorem Backed.incrementNonce (hn : st.incrementNonce a = some st') : st'.Backed spare := by
  have hbalance := balanceAt_incrementNonce hf hn
  simp only [Store.incrementNonce, bind_eq_bind, bind_eq_some_iff, some.injEq] at hn
  obtain ⟨account, -, nonce, -, rfl⟩ := hn
  refine h.of_accounts rfl rfl (fun p hp => isSome_account_setAccount hp) fun p _ => ?_
  rw [hbalance p]

end

theorem Backed.createAccount {account : Account} (h : st.Backed spare)
    (hc : st.createAccount account = some st') : st'.Backed spare := by
  unfold Store.createAccount at hc
  split at hc
  · cases hc
  · next hnone =>
      cases hc
      refine h.of_accounts rfl rfl (fun p hp => isSome_account_setAccount hp) fun p hp => ?_
      -- a pool has an account already, so it is another one
      have hne : p ≠ account.address := by
        rintro rfl
        have hopened := h.opened _ hp
        rw [hnone] at hopened
        cases hopened
      rw [balanceAt_setAccount, if_neg hne]

theorem staked_setStakingAccount_of_ne (st : Store) (hp : p ≠ account.poolAddress) :
    (st.setStakingAccount account).staked p = st.staked p := by
  refine Finset.sum_congr rfl fun a _ => ?_
  have hkey : (p, a) ≠ (account.poolAddress, account.accountAddress) := by
    intro hk
    exact hp (congrArg Prod.fst hk)
  simp only [stakedBy, setStakingAccount, update_of_ne hkey]

/-- A note on the books of its pool: a larger stake uses up room, a smaller one makes it. -/
theorem Backed.setStakingAccount (h : st.Backed spare) (hpool : (st.stakingPool account.poolAddress).isSome)
    (hother : ∀ p, p ≠ account.poolAddress → spare' p ≤ spare p)
    (hspare : account.balance.toNat + spare' account.poolAddress ≤
      st.stakedBy account.poolAddress account.accountAddress + spare account.poolAddress) :
    (st.setStakingAccount account).Backed spare' where
  opened := h.opened
  unstaked p hp := by
    have hne : p ≠ account.poolAddress := by
      rintro rfl
      have hnone : st.stakingPool account.poolAddress = none := hp
      rw [hnone] at hpool
      cases hpool
    rw [staked_setStakingAccount_of_ne st hne]
    exact h.unstaked p hp
  covers p hp := by
    have hcovers := h.covers p hp
    show (st.setStakingAccount account).staked p + spare' p ≤ st.balanceAt p
    by_cases hne : p = account.poolAddress
    · subst hne
      have hoff : ∀ a, a ≠ account.accountAddress →
          (st.setStakingAccount account).stakedBy account.poolAddress a = st.stakedBy account.poolAddress a := by
        intro a ha
        have hkey : (account.poolAddress, a) ≠ (account.poolAddress, account.accountAddress) := by
          intro hk
          exact ha (congrArg Prod.snd hk)
        simp only [stakedBy, Store.setStakingAccount, update_of_ne hkey]
      have hself : (st.setStakingAccount account).stakedBy account.poolAddress account.accountAddress =
          account.balance.toNat := by
        simp only [stakedBy, Store.setStakingAccount, update_self]
        rfl
      -- what is staked moves by the change of the balance
      have hsum := Fintype.sum_add_eq_of_eq_off account.accountAddress hoff
      rw [hself] at hsum
      change (st.setStakingAccount account).staked account.poolAddress + _ =
        st.staked account.poolAddress + _ at hsum
      omega
    · rw [staked_setStakingAccount_of_ne st hne]
      have hroom := hother p hne
      omega

theorem stakingPool_setStakingPool_self (st : Store) (p : Address) (pool : StakingPool) :
    (st.setStakingPool p pool).stakingPool p = some pool :=
  update_self _ _ _

theorem stakingPool_setStakingPool_of_ne {q : Address} (hqp : q ≠ p) :
    (st.setStakingPool p pool).stakingPool q = st.stakingPool q :=
  update_of_ne hqp _ _

/-- A pool may be set where there is one, or where an account has been opened for it. -/
theorem Backed.setStakingPool (h : st.Backed spare) (hopened : (st.account p).isSome)
    (hroom : st.stakingPool p = none → spare p ≤ st.balanceAt p) :
    (st.setStakingPool p pool).Backed spare where
  opened q hq := by
    by_cases hqp : q = p
    · rw [hqp]
      exact hopened
    · refine h.opened q ?_
      rwa [stakingPool_setStakingPool_of_ne hqp] at hq
  unstaked q hq := by
    by_cases hqp : q = p
    · rw [hqp, stakingPool_setStakingPool_self] at hq
      cases hq
    · rw [stakingPool_setStakingPool_of_ne hqp] at hq
      exact h.unstaked q hq
  covers q hq := by
    show st.staked q + spare q ≤ st.balanceAt q
    by_cases hpool : st.stakingPool q = none
    · have hqp : q = p := by
        by_contra hqp
        rw [stakingPool_setStakingPool_of_ne hqp, hpool] at hq
        cases hq
      rw [h.unstaked q hpool, zero_add]
      subst hqp
      exact hroom hpool
    · exact h.covers q (isSome_iff_ne_none.mpr hpool)

/-- The store after the note of a stake or an unstake: the staking account, and the block in which the pool
    was last changed. -/
def noted (st : Store) (p : Address) (pool : StakingPool) (account : StakingAccount)
    (blockNumber : BlockNumber) : Store :=
  (st.setStakingAccount account).setStakingPool p { pool with updatedBlockNumber := blockNumber }

/-- A note of less makes room for a withdrawal of the difference. -/
theorem Backed.lowerStake {withdrawn : Balance} (h : st.Covered) (hf : st.StakingFiled)
    (hpool : st.stakingPool p = some pool) (haccount : st.stakingAccount (p, a) = some account)
    (hsum : withdrawn.toNat + balance.toNat = account.balance.toNat) :
    (st.setStakingAccount { account with balance }).Backed (update 0 p withdrawn.toNat) := by
  obtain ⟨rfl, rfl⟩ := hf p a account haccount
  have hstaked : st.stakedBy account.poolAddress account.accountAddress = account.balance.toNat := by
    rw [stakedBy, haccount]
    rfl
  refine h.setStakingAccount (by rw [hpool]; rfl) (fun q hq => ?_) ?_
  · rw [update_of_ne hq]
  · dsimp only
    rw [hstaked, update_self]
    omega

/-- **A covered withdrawal is not stopped by the pool**: with the room there, it fails only if the
    account that is paid cannot hold it. -/
theorem Backed.withdraw (h : st.Backed spare) (hf : st.AccountsFiled) (hpool : (st.stakingPool p).isSome)
    (hroom : amount.toNat ≤ spare p) (hfail : st.transfer p a amount = none) :
    2 ^ 128 ≤ st.balanceAt a + amount.toNat := by
  obtain ⟨account, haccount⟩ := isSome_iff_exists.mp (h.opened p hpool)
  obtain rfl := hf p account haccount
  have hcovers := h.covers _ hpool
  rw [balanceAt_of_some haccount] at hcovers
  obtain ⟨rest, hrest, hsub⟩ := exists_checkedSub (show amount.toNat ≤ account.balance.toNat by omega)
  have hadd : (st.payee { account with balance := rest } account.address a).balance.checkedAdd amount =
      none := eq_none_iff_forall_ne_some.mpr (by simpa [Store.transfer, haccount, hsub] using hfail)
  rw [checkedAdd_eq_none] at hadd
  have hpayee : (st.setAccount { account with balance := rest }).balanceAt a =
      (st.payee { account with balance := rest } account.address a).balance.toNat := balanceAt_payee _ a
  rw [balanceAt_setAccount] at hpayee
  dsimp only at hpayee
  by_cases hself : a = account.address
  · -- to itself the pool pays back what it has just been debited
    rw [if_pos hself] at hpayee
    omega
  · rw [if_neg hself] at hpayee
    omega

end Store

namespace UpdatedState

open Fallible

variable {db : StateTables} {s s' : UpdatedState}

theorem stakingFiled_view (hs : WellKeyed s) : (view db s).StakingFiled := by
  intro p a account h
  have hkey := (hs.fits (k := .stakingAccount p a) h).key_eq
  exact ⟨congrArg Prod.fst hkey, congrArg Prod.snd hkey⟩

/-! ## Pre- and postconditions on the store seen -/

/-- A well-keyed overlay that shows a store with `P`. -/
def Showing (db : StateTables) (P : Store → Prop) (s : UpdatedState) : Prop :=
  s.WellKeyed ∧ P (view db s).toStore

/-- The pools seen in `s` are covered. -/
abbrev StakesCovered (db : StateTables) : UpdatedState → Prop := Showing db Covered

/-- Steps that leave the pools covered, whatever they return. -/
abbrev Covering (db : StateTables) : UpdatedState → UpdatedState → Prop :=
  Preserves (StakesCovered db)

variable {α : Type} {P Q : Store → Prop} {x : StateOp Unit} {f : Store → Option α} (n : BlockNumber)

/-- A read changes nothing that is seen. -/
theorem covering_of_remembers (h : Remembers db s s') : Covering db s s' := by
  rintro ⟨hs, hcovered⟩
  exact ⟨h.evolves.wellKeyed hs, by rwa [← h.view]⟩

section

variable {x : StateOp α} (hx : Reads db x fun v => f v.toStore) (hr : Moves (Remembers db) x)

include hx hr

theorem reads_triple :
    Triple (Covering db) (Showing db P) x (fun v => Showing db fun st => P st ∧ f st = some v) := by
  rintro s ⟨hs, hP⟩
  obtain ⟨hfound, hview⟩ := hx s
  refine ⟨covering_of_remembers (hr s), fun v s' hrun => ?_⟩
  have hs' := (hr s).evolves.wellKeyed hs
  rw [hrun] at hfound hview hs'
  refine ⟨hs', ?_⟩
  rw [hview]
  exact ⟨hP, hfound.symm⟩

theorem reads_outcome_triple : Triple (Covering db) (Showing db P) x.outcome
      (fun found => Showing db fun st => P st ∧ found.toOption = f st) := by
  rintro s ⟨hs, hP⟩
  obtain ⟨hfound, hview⟩ := hx s
  refine ⟨covering_of_remembers (hr s), fun found s' hrun => ?_⟩
  cases hrun
  refine ⟨(hr s).evolves.wellKeyed hs, ?_⟩
  show P (view db (x.run s).2).toStore ∧ _ = f (view db (x.run s).2).toStore
  rw [hview]
  exact ⟨hP, hfound⟩

end

/-- What a transaction of the plain store does under `P`, if that leaves the pools covered. -/
theorem transacts_triple (hx : Transacts db x g) (hevolves : Moves Evolves x)
    (hcovered : ∀ {st}, Q st → st.Covered)
    (hg : ∀ {st st'}, st.AccountsFiled → st.StakingFiled → P st → g st = some st' → Q st') :
    Triple (Covering db) (Showing db P) x (fun _ => Showing db Q) := by
  rintro s ⟨hs, hP⟩
  have hs' := (hevolves s).wellKeyed hs
  cases hst : g (view db s).toStore with
  | some st =>
    obtain ⟨s', hrun, hview⟩ := hx.defined hst
    have hQ : Q (view db s').toStore := by
      rw [hview]
      exact hg (accountsFiled_view hs) (stakingFiled_view hs) hP hst
    rw [hrun] at hs' ⊢
    refine ⟨fun _ => ⟨hs', hcovered hQ⟩, fun _ _ h => ?_⟩
    cases h
    exact ⟨hs', hQ⟩
  | none =>
    obtain ⟨e, s', hrun, hview⟩ := hx.undefined hst
    rw [hrun] at hs' ⊢
    refine ⟨fun hcov => ⟨hs', by rw [hview]; exact hcov.2⟩, fun _ _ h => ?_⟩
    cases h

theorem writes_triple {g : Store → Store} (hx : Writes db x (·.onStore g)) (hevolves : Moves Evolves x)
    (hcovered : ∀ {st}, Q st → st.Covered) (hg : ∀ {st}, st.StakingFiled → P st → Q (g st)) :
    Triple (Covering db) (Showing db P) x (fun _ => Showing db Q) := by
  refine transacts_triple hx.transacts hevolves hcovered fun _ hfiled hP h => ?_
  cases h
  exact hg hfiled hP

/-! ## The operations -/

theorem modifyStakingPool_triple (p : Address) {f : StakingPool → StakingPool}
    (hf : ∀ pool, (f pool).poolAddress = pool.poolAddress) :
    Triple (Covering db) (Showing db (Backed spare)) (modifyStakingPool db p f)
      (fun _ => Showing db (Backed spare)) := by
  refine transacts_triple (modifyStakingPool_transacts p f) ((pools_evolve db).modifyStakingPool p hf)
    (fun hQ => hQ.covered) fun _ _ hbacked h => ?_
  obtain ⟨pool, hpool, rfl⟩ := map_eq_some_iff.mp h
  refine hbacked.setStakingPool (hbacked.opened p (by rw [hpool]; rfl)) fun hnone => ?_
  rw [hpool] at hnone
  cases hnone

theorem updateStakingPoolBlockNumber_triple {n : BlockNumber} :
    Triple (Covering db) (Showing db (Backed spare)) (updateStakingPoolBlockNumber db p n)
      (fun _ => Showing db (Backed spare)) :=
  modifyStakingPool_triple (f := fun pool => { pool with updatedBlockNumber := n }) p fun _ => rfl

theorem remembers_triple {x : StateOp α} (hr : Moves (Remembers db) x) :
    Triple (Covering db) (Showing db P) x (fun _ => Showing db P) := by
  rintro s ⟨hs, hP⟩
  refine ⟨covering_of_remembers (hr s), fun v s' hrun => ?_⟩
  have hremembers := hr.of_run hrun
  exact ⟨hremembers.evolves.wellKeyed hs, by rwa [← hremembers.view]⟩

theorem getStakingPool_triple (p : Address) :
    Triple (Covering db) (Showing db P) (getStakingPool db p)
      (fun pool => Showing db fun st => P st ∧ st.stakingPool p = some pool) :=
  reads_triple (f := (·.stakingPool p)) (getStakingPool_reads p) (getStakingPool_remembers p)

/-- What was staked before, where a missing staking account is an empty one. -/
theorem Store.StakingFiled.getD {st : Store} (h : st.StakingFiled) (p a : Address) :
    let account := (st.stakingAccount (p, a)).getD (.new a p)
    account.poolAddress = p ∧ account.accountAddress = a ∧ account.balance.toNat = st.stakedBy p a := by
  unfold stakedBy
  cases hfound : st.stakingAccount (p, a) with
  | none => exact ⟨rfl, rfl, rfl⟩
  | some account =>
    obtain ⟨hpool, haccount⟩ := h p a account hfound
    exact ⟨hpool, haccount, rfl⟩

/-- The payment of a stake: the caller is no pool, so no pool pays. -/
theorem transfer_stake_triple :
    Triple (Covering db)
      (Showing db fun st => (st.Covered ∧ st.stakingPool a = none) ∧ st.stakingPool p = some pool)
      (transfer db a p amount)
      (fun _ => Showing db fun st =>
        st.Backed (update 0 p amount.toNat) ∧ st.stakingPool p = some pool) := by
  refine transacts_triple transfer_transacts (tokens_evolve.transfer a p amount)
    (fun hQ => hQ.1.covered) fun hfiled _ hP ht => ?_
  obtain ⟨⟨hcovered, hcaller⟩, hpool⟩ := hP
  refine ⟨hcovered.transfer hfiled ht fun q hq => ?_, ?_⟩
  · have hne : q ≠ a := by
      rintro rfl
      rw [hcaller] at hq
      cases hq
    rw [if_neg hne, update_apply]
    simp
  · rw [(transfer_frame ht).1]
    exact hpool

/-- **A stake leaves the pools covered.** Between the transfer and the note the pool has the amount to
    spare. -/
theorem stake_triple {n : BlockNumber} :
    Triple (Covering db) (Showing db fun st => st.Covered ∧ st.stakingPool a = none)
      (stake db p a n amount) (fun _ => Showing db Covered) := by
  have hfind : ∀ {P}, Triple (Covering db) (Showing db P) (getStakingAccount db a p).outcome
      (fun found => Showing db fun st => P st ∧ found.toOption = st.stakingAccount (p, a)) :=
    reads_outcome_triple (f := (·.stakingAccount (p, a))) getStakingAccount_reads
      (getStakingAccount_remembers a p)
  refine (getStakingPool_triple p).bind fun pool => .bind_lift fun _ _ =>
    (remembers_triple checkPoolBalance_remembers).bind fun _ =>
      transfer_stake_triple.bind fun _ => hfind.bind fun found =>
        .bind_okOr fun balance hbalance => Triple.bind ?_ fun _ => updateStakingPoolBlockNumber_triple
  -- the note of the stake uses up what the payment has left to spare
  refine writes_triple (updateStakingAccount_writes _) ((pools_evolve db).updateStakingAccount _) (fun hQ => hQ)
    fun hfiled hP => ?_
  obtain ⟨⟨hbacked, hpool⟩, hfound⟩ := hP
  obtain ⟨hfiledPool, hfiledAccount, hstaked⟩ := Store.StakingFiled.getD hfiled p a
  rw [← hfound] at hfiledPool hfiledAccount hstaked
  have hsum := checkedAdd_eq_some.mp hbalance
  refine hbacked.setStakingAccount ?_ (fun q _ => Nat.zero_le _) ?_
  · rw [hfiledPool, hpool]
    rfl
  · dsimp only
    rw [hfiledPool, hfiledAccount, update_self]
    show balance.toNat + 0 ≤ _
    omega

theorem unStakeAmounts_add (pool : StakingPool) (h : balance.checkedSub amount = some remaining) :
    (unStakeAmounts pool balance amount remaining).1.toNat +
      (unStakeAmounts pool balance amount remaining).2.toNat = balance.toNat := by
  have hsub := checkedSub_eq_some.mp h
  unfold unStakeAmounts
  cases pool.minStake with
  | none =>
    show amount.toNat + (if amount = amount then remaining else balance).toNat = _
    rw [if_pos rfl]
    omega
  | some minStake =>
    dsimp only
    by_cases hbelow : remaining > 0 ∧ remaining < minStake
    · -- everything is withdrawn, and that is more than was asked for
      rw [if_pos hbelow]
      have hpos : 0 < remaining.toNat := hbelow.1
      have hne : balance ≠ amount := by
        rintro rfl
        omega
      rw [if_neg hne]
      rfl
    · rw [if_neg hbelow]
      dsimp only
      rw [if_pos rfl]
      omega

/-- **An unstake leaves the pools covered.** The note comes first, so the pool has the withdrawal to
    spare when it pays. -/
theorem unStake_triple (p a : Address) (n : BlockNumber) (amount : Balance) :
    Triple (Covering db) (Showing db Covered) (unStake db p a n amount) (fun _ => Showing db Covered) := by
  refine (getStakingPool_triple p).bind fun pool => ?_
  have hfind : ∀ {P}, Triple (Covering db) (Showing db P) (getStakingAccount db a p)
      (fun account => Showing db fun st => P st ∧ st.stakingAccount (p, a) = some account) :=
    reads_triple (f := (·.stakingAccount (p, a))) getStakingAccount_reads
      (getStakingAccount_remembers a p)
  refine hfind.bind fun account => .bind_okOr fun remaining hremaining => ?_
  have hsum := unStakeAmounts_add pool hremaining
  generalize unStakeAmounts pool account.balance amount remaining = amounts at hsum
  obtain ⟨withdrawn, balance⟩ := amounts
  have hnoted : Triple (Covering db)
      (Showing db fun st => (st.Covered ∧ st.stakingPool p = some pool) ∧
        st.stakingAccount (p, a) = some account)
      (updateStakingAccount { account with balance })
      (fun _ => Showing db (Backed (update 0 p withdrawn.toNat))) :=
    writes_triple (updateStakingAccount_writes _) ((pools_evolve db).updateStakingAccount _)
      (fun hQ => hQ.covered) fun hfiled hP =>
        .lowerStake hP.1.1 hfiled hP.1.2 hP.2 hsum
  refine hnoted.bind fun _ => updateStakingPoolBlockNumber_triple.bind fun _ => ?_
  refine transacts_triple transfer_transacts (tokens_evolve.transfer p a withdrawn)
    (fun hQ => hQ) fun hfiled _ hbacked ht => hbacked.transfer hfiled ht fun q _ => ?_
  rw [update_apply]
  simp

/-- **An unstake of no more than what is staked comes to its payment**, with the note lowered. -/
theorem run_unStake_transfer (hpool : (view db s).stakingPool p = some pool)
    (haccount : (view db s).stakingAccount (p, a) = some account)
    (hremaining : account.balance.checkedSub amount = some remaining) :
    ∃ s', (unStake db p a n amount).run s =
        (transfer db p a (unStakeAmounts pool account.balance amount remaining).1).run s' ∧
      view db s' = (view db s).onStore fun st => st.noted p pool
        { account with balance := (unStakeAmounts pool account.balance amount remaining).2 } n := by
  generalize hamounts : unStakeAmounts pool account.balance amount remaining = amounts
  obtain ⟨withdrawn, balance⟩ := amounts
  have hnote : Writes db (updateStakingAccount { account with balance }) _ := updateStakingAccount_writes _
  obtain ⟨s₁, hrun₁, hv₁⟩ := (getStakingPool_reads p).found hpool
  obtain ⟨s₂, hrun₂, hv₂⟩ := getStakingAccount_reads.found (by rw [hv₁]; exact haccount)
  obtain ⟨s₃, hrun₃, hv₃⟩ := hnote s₂
  have hpool₃ : (view db s₃).stakingPool p = some pool := by
    rw [hv₃, hv₂, hv₁]
    exact hpool
  obtain ⟨s₄, hrun₄, hv₄⟩ := (modifyStakingPool_transacts p fun pool =>
    { pool with updatedBlockNumber := n }).defined (map_eq_some_iff.mpr ⟨pool, hpool₃, rfl⟩)
  refine ⟨s₄, ?_, ?_⟩
  · rw [unStake, run_bind_of_ok hrun₁, run_bind_of_ok hrun₂, hremaining,
      run_bind_of_ok run_okOr_some, hamounts]
    show (updateStakingAccount { account with balance } >>= _).run s₂ = _
    rw [run_bind_of_ok hrun₃]
    exact run_bind_of_ok hrun₄
  · rw [hv₄, hv₃, hv₂, hv₁]
    rfl

/-- In a covered state the pool has the withdrawal to spare when it comes to the payment. -/
theorem run_unStake (hs : StakesCovered db s) (hpool : (view db s).stakingPool p = some pool)
    (haccount : (view db s).stakingAccount (p, a) = some account)
    (hremaining : account.balance.checkedSub amount = some remaining) :
    let withdrawn := (unStakeAmounts pool account.balance amount remaining).1
    ∃ s', (unStake db p a n amount).run s = (transfer db p a withdrawn).run s' ∧
      (view db s').AccountsFiled ∧ ((view db s').stakingPool p).isSome ∧
      (view db s').account = (view db s).account ∧ (view db s').Backed (update 0 p withdrawn.toNat) := by
  have hsum := unStakeAmounts_add pool hremaining
  obtain ⟨s', hrun, hview⟩ := run_unStake_transfer n hpool haccount hremaining
  have hbacked := Backed.lowerStake hs.2 (stakingFiled_view hs.1) hpool haccount hsum
  refine ⟨s', hrun, ?_⟩
  rw [hview]
  refine ⟨accountsFiled_view hs.1, ?_, rfl, ?_⟩
  · exact congrArg isSome (stakingPool_setStakingPool_self _ p _)
  · refine hbacked.setStakingPool (hs.2.opened p (by rw [hpool]; rfl)) fun hnone => ?_
    have hfound : (view db s).stakingPool p = none := hnone
    rw [hpool] at hfound
    cases hfound

theorem createPool_triple {crypto : Crypto} {account cluster : Address} {nonce : Nonce} {n : BlockNumber}
    {i : Option Address} {minStake maxStake minPool maxPool : Option Balance} {period : Option BlockNumber} :
    Triple (Covering db) (Showing db Covered)
      (createPool db crypto account cluster nonce n i minStake maxStake minPool maxPool period)
      (fun _ => Showing db Covered) := by
  generalize hp : Account.poolAddress crypto account cluster nonce = p
  have hopened : Triple (Covering db) (Showing db Covered) (createSystemAccount db p)
      (fun _ => Showing db fun st => st.Covered ∧ (st.account p).isSome) :=
    transacts_triple createAccount_transacts (tokens_evolve.createAccount _)
      (fun hQ => hQ.1) fun _ _ hcovered hc => by
        refine ⟨hcovered.createAccount hc, ?_⟩
        unfold Store.createAccount at hc
        split at hc
        · cases hc
        · cases hc
          exact congrArg isSome (account_setAccount_self (.newSystem p))
  have hset : ∀ pool : StakingPool, pool.poolAddress = p →
      Triple (Covering db) (Showing db fun st => st.Covered ∧ (st.account p).isSome)
        (insertStakingPool pool) (fun _ => Showing db Covered) := by
    rintro pool rfl
    exact writes_triple (fun s => ⟨_, rfl, view_insert_stakingPool s pool.poolAddress _⟩)
      ((pools_evolve db).insertStakingPool pool)
      (fun hQ => hQ) fun _ hP => hP.1.setStakingPool hP.2 fun _ => Nat.zero_le _
  unfold createPool
  rw [hp]
  exact hopened.bind fun _ => (hset _ rfl).bind fun _ => .pure fun _ hs => hs

/-! ## Runs -/

section

variable (crypto : Crypto) (db : StateTables)

mutual

/-- The operation takes tokens from no pool, except to unstake them: whoever pays is not the address of a
    pool. Records are written through these operations only. -/
def Op.SparesPools : Op → UpdatedState → Prop
  | .transfer fromAddress _ _, s => (view db s).stakingPool fromAddress = none
  | .stake _ accountAddress _ _, s => (view db s).stakingPool accountAddress = none
  | .checkpoint ops _, s => SparePools ops s
  | .write _, _ => False
  | _, _ => True

/-- Every operation of the run spares the pools of the state it is carried out in. -/
def SparePools : List Op → UpdatedState → Prop
  | [], _ => True
  | op :: ops, s => op.SparesPools s ∧ SparePools ops (op.exec crypto db s)

end

end

theorem covering_of_transacts (hx : Transacts db x g) (hevolves : Moves Evolves x)
    (hg : ∀ {st st'}, st.AccountsFiled → st.Covered → g st = some st' → st'.Covered) :
    Moves (Covering db) x := fun s hs =>
  ((transacts_triple hx hevolves (fun hQ => hQ) fun hf _ => hg hf) s hs).1 hs

theorem stakesCovered_of_entry_eq (h : ∀ k, s'.entry k = s.entry k)
    (hview : (view db s').toStore = (view db s).toStore) (hs : StakesCovered db s) : StakesCovered db s' :=
  ⟨(evolves_of_entry_eq h).wellKeyed hs.1, by rw [hview]; exact hs.2⟩

mutual

/-- **Every operation that spares the pools leaves them covered.** -/
theorem Op.exec_stakesCovered (crypto : Crypto) :
    (op : Op) → (s : UpdatedState) → op.SparesPools crypto db s → StakesCovered db s →
      StakesCovered db (op.exec crypto db s)
  | .query q, s, _, hs => covering_of_remembers (q.exec_remembers s) hs
  | .write w, s, h, _ => h.elim
  | .incrementNonce a, s, _, hs =>
    covering_of_transacts incrementNonce_transacts (tokens_evolve.incrementNonce a)
      (fun hf hc hn => hc.incrementNonce hf hn) s hs
  | .mint amount a, s, _, hs =>
    covering_of_transacts (mint_transacts amount a) (tokens_evolve.mint amount a)
      (fun hf hc hm => hc.mint hf hm) s hs
  | .transfer a b amount, s, h, hs => by
    have hpaid : Triple (Covering db) (Showing db fun st => st.Covered ∧ st.stakingPool a = none)
        (UpdatedState.transfer db a b amount) (fun _ => Showing db Covered) :=
      transacts_triple transfer_transacts (tokens_evolve.transfer a b amount)
        (fun hQ => hQ) fun hf _ hP ht => hP.1.transfer hf ht fun q hq => by
          have hne : q ≠ a := by
            rintro rfl
            rw [hP.2] at hq
            cases hq
          rw [if_neg hne]
          exact Nat.zero_le _
    exact (hpaid s ⟨hs.1, hs.2, h⟩).1 hs
  | .createAccount account, s, _, hs =>
    covering_of_transacts createAccount_transacts (tokens_evolve.createAccount account)
      (fun _ hc h => hc.createAccount h) s hs
  | .createSystemAccount a, s, _, hs =>
    covering_of_transacts createAccount_transacts (tokens_evolve.createAccount _)
      (fun _ hc h => hc.createAccount h) s hs
  | .createPool .., s, _, hs => (createPool_triple s hs).1 hs
  | .stake p a n amount, s, h, hs => (stake_triple s ⟨hs.1, hs.2, h⟩).1 hs
  | .unStake p a n amount, s, _, hs => (unStake_triple p a n amount s hs).1 hs
  | .createEvent event, s, _, hs =>
    stakesCovered_of_entry_eq (fun k => by cases k <;> rfl) rfl hs
  | .storeTransactionMetadata m, s, _, hs =>
    stakesCovered_of_entry_eq (fun k => by cases k <;> rfl) rfl hs
  | .checkpoint ops keep, s, h, hs => by
    have hclone := runOps_stakesCovered ops s h hs
    have hevolves : Evolves s (runOps crypto db ops s) := runOps_evolves crypto ops s
    cases keep with
    | false => exact hs
    | true =>
      refine ⟨(merge_evolves hevolves).wellKeyed hs.1, ?_⟩
      show (view db (s.merge (runOps crypto db ops s))).Covered
      rw [view_merge hevolves]
      exact hclone.2

/-- **Every run that spares the pools leaves them covered.** -/
theorem runOps_stakesCovered {crypto : Crypto} :
    (ops : List Op) → (s : UpdatedState) → SparePools crypto db ops s → StakesCovered db s →
      StakesCovered db (runOps crypto db ops s)
  | [], _, _, hs => hs
  | op :: ops, s, h, hs =>
    runOps_stakesCovered ops _ h.2 (op.exec_stakesCovered crypto s h.1 hs)

end

theorem stakesCovered_new (hpool : db.stakingPool = ∅) (haccount : db.stakingAccount = ∅) :
    StakesCovered db .new := by
  have hpools : ∀ p, (view db .new).stakingPool p = none := by
    intro p
    show (db.getStakingPool p).toOption = none
    rw [StateTables.getStakingPool, hpool]
    rfl
  refine ⟨wellKeyed_new, fun p hp => ?_, fun p _ => ?_, fun p hp => ?_⟩
  · rw [hpools] at hp
    cases hp
  · refine Finset.sum_eq_zero fun a _ => ?_
    have hnone : (view db .new).stakingAccount (p, a) = none := by
      show (db.getStakingAccount a p).toOption = none
      rw [StateTables.getStakingAccount, haccount]
      rfl
    rw [stakedBy, hnone]
    rfl
  · rw [hpools] at hp
    cases hp

/-- **Staked tokens stay covered.** After any run that takes tokens from no pool except by unstaking, the
    account of every pool has what is staked in it. So an unstake of no more than what the caller has staked
    can be paid, with what the minimum adds to it: it fails only if the account of the caller cannot hold
    what it gets. -/
theorem staked_tokens_covered (crypto : Crypto) (db : StateTables) (ops : List Op) (s : UpdatedState)
    (hs : StakesCovered db s) (hops : SparePools crypto db ops s) :
    let seen := view db (runOps crypto db ops s)
    (∀ p pool, seen.stakingPool p = some pool → seen.staked p ≤ seen.balanceAt p) ∧
    ∀ p a n amount pool account, seen.stakingPool p = some pool →
      seen.stakingAccount (p, a) = some account → amount.toNat ≤ account.balance.toNat →
      let withdrawn := (unStakeAmounts pool account.balance amount (account.balance - amount)).1
      withdrawn.toNat ≤ seen.balanceAt p ∧
        (((unStake db p a n amount).run (runOps crypto db ops s)).1.isOk = true ∨
          2 ^ 128 ≤ seen.balanceAt a + withdrawn.toNat) := by
  have hreached := runOps_stakesCovered ops s hops hs
  generalize runOps crypto db ops s = s' at hreached
  refine ⟨fun p pool hpool => ?_, ?_⟩
  · have hcovers := hreached.2.covers p (by rw [hpool]; rfl)
    exact (Nat.le_add_right _ _).trans hcovers
  intro p a n amount pool account hpool haccount hle
  have hremaining : account.balance.checkedSub amount = some (account.balance - amount) := by
    rw [checkedSub_eq_some, toNat_sub_of_le (le_def.mpr hle)]
    omega
  obtain ⟨s₁, hrun, hfiled, hpool₁, haccounts, hbacked⟩ := run_unStake n hreached hpool haccount hremaining
  have hbalance : ∀ b, (view db s₁).balanceAt b = (view db s').balanceAt b := by
    intro b
    rw [balanceAt, haccounts]
    rfl
  have hroom := hbacked.covers p hpool₁
  rw [update_self, hbalance] at hroom
  refine ⟨by omega, ?_⟩
  rw [hrun]
  cases htransfer : (view db s₁).transfer p a
      (unStakeAmounts pool account.balance amount (account.balance - amount)).1 with
  | some st =>
    obtain ⟨s₂, hpaid, -⟩ := transfer_transacts.defined htransfer
    rw [hpaid]
    exact .inl rfl
  | none =>
    have hoverflow := hbacked.withdraw hfiled hpool₁ (by rw [update_self]) htransfer
    rw [hbalance] at hoverflow
    exact .inr hoverflow

/-- The account with address 1 has fifty tokens. -/
def beforeStaking : StateTables :=
  { StateTables.empty with
    account := (∅ : Table Address AccountRow).insert 1 ⟨.user, 50, 0⟩ }

/-- A hash that gives every new pool the address 7. -/
def poolAtSeven : Crypto := ⟨fun _ => 7, fun _ => 0, fun _ => none, fun _ _ _ => false⟩

/-- A pool with a minimum of ten is opened, forty are staked and the rest of the account is given away. -/
def stakeForty : List Op :=
  [.createPool 1 0 0 1 none (some 10) none none none none, .stake 7 1 2 40, .transfer 1 2 5]

/-- An unstake of thirty-five would leave less than the minimum, so all forty are paid out. -/
theorem stakeForty_covered :
    (∃ account, (view beforeStaking (runOps poolAtSeven beforeStaking stakeForty .new)).stakingAccount
      (7, 1) = some account ∧ account.balance = 40) ∧
    ((unStake beforeStaking 7 1 3 35).run
      (runOps poolAtSeven beforeStaking stakeForty .new)).1.isOk = true := by
  have hcovered := staked_tokens_covered poolAtSeven beforeStaking stakeForty .new
    (stakesCovered_new rfl rfl) ⟨trivial, rfl, rfl, trivial⟩
  obtain ⟨-, hunstake⟩ := hcovered
  refine ⟨⟨_, rfl, rfl⟩, ?_⟩
  obtain ⟨-, hok | hoverflow⟩ := hunstake 7 1 3 35 _ _ rfl rfl (by decide)
  · exact hok
  · have hfew : 2 ^ 128 ≤ 45 := hoverflow
    omega

end UpdatedState

end L1xCore
