import L1xCore.State.UpdatedState

/-!
# `State.View` — what can be observed of an overlay

The abstract side of `UpdatedState`: a **plain store** (`Store`) is one partial function per kind of
record, with no caching. The tables give a store, and an overlay on top of them gives a store together
with the two pending lists (`StateView`). Everything the rest of the development says about balances,
nonces or staking is said about views.

## Contents

* `Store`, `StateView`, and the views of tables and overlays;
* `Reads` — an operation that answers from the view and does not change it; every `get_*` is one;
* `Writes` — an operation that always succeeds and changes the view by a function; every unconditional
  write is one, with two exceptions: `store_contract` and `store_contract_instance` are so only as long
  as the record has not been read from the database (`upsert_update`).
-/

namespace L1xCore

open StateTables AList Function

variable {α κ : Type} {s : UpdatedState}

/-- A plain store: the records, without caching. -/
@[ext] structure Store where
  account : Address → Option Account
  contract : Address → Option Contract
  contractInstance : Address → Option ContractInstance
  storage : Address × ContractInstanceKey → Option ContractInstanceValue
  stakingPool : Address → Option StakingPool
  /-- By pool and account address. -/
  stakingAccount : Address × Address → Option StakingAccount

/-- The store an overlay shows, and the events and metadata waiting in it. -/
@[ext] structure StateView extends Store where
  events : List Event
  metadatas : List TransactionMetadata

/-- The records the tables hold. -/
def StateTables.store (db : StateTables) : Store where
  account a := (db.getAccount a).toOption
  contract a := (db.getContract a).toOption
  contractInstance a := (db.getContractInstance a).toOption
  storage k := db.getStateKeyValue k.1 k.2
  stakingPool a := (db.getStakingPool a).toOption
  stakingAccount k := (db.getStakingAccount k.2 k.1).toOption

/-- A record under an overlay entry: the entry if there is one, or else what the tables hold. -/
def overlaid {α : Type} (entry : Option (CachedStatus α)) (base : Option α) : Option α :=
  entry.elim base CachedStatus.getInner

@[simp] theorem overlaid_none (base : Option α) : overlaid none base = base := rfl

@[simp] theorem overlaid_cached (v : α) (base : Option α) : overlaid (some (.cached v)) base = some v := rfl

@[simp] theorem overlaid_updated (v base : Option α) : overlaid (some (.updated v)) base = v := rfl

namespace UpdatedState

/-- What the overlay `self` shows over the tables `db`. -/
def view (db : StateTables) (self : UpdatedState) : StateView where
  account a := overlaid (self.accounts.lookup a) (db.store.account a)
  contract a := overlaid (self.contracts.lookup a) (db.store.contract a)
  contractInstance a := overlaid (self.contractInstances.lookup a) (db.store.contractInstance a)
  storage k := (overlaid (self.contractStates.lookup₂ k.1 k.2) (some (db.store.storage k))).join
  stakingPool a := overlaid (self.stakingPools.lookup a) (db.store.stakingPool a)
  stakingAccount k := overlaid (self.stakingAccounts.lookup₂ k.1 k.2) (db.store.stakingAccount k)
  events := self.contractEvents.filterMap CachedStatus.getInner
  metadatas := self.transactionMetadatas.filterMap CachedStatus.getInner

end UpdatedState

/-! ## Changing one record of a store -/

namespace Store

def setAccount (account : Account) (st : Store) : Store :=
  { st with account := Function.update st.account account.address (some account) }

def setContract (contract : Contract) (st : Store) : Store :=
  { st with contract := Function.update st.contract contract.address (some contract) }

def setContractInstance (i : ContractInstance) (st : Store) : Store :=
  { st with contractInstance := Function.update st.contractInstance i.instanceAddress (some i) }

def setStorage (k : Address × ContractInstanceKey) (value : Option ContractInstanceValue)
    (st : Store) : Store :=
  { st with storage := Function.update st.storage k value }

/-- Store a pool under the given address. -/
def setStakingPool (poolAddress : Address) (pool : StakingPool) (st : Store) : Store :=
  { st with stakingPool := Function.update st.stakingPool poolAddress (some pool) }

def setStakingAccount (a : StakingAccount) (st : Store) : Store :=
  { st with
    stakingAccount := Function.update st.stakingAccount (a.poolAddress, a.accountAddress) (some a) }

end Store

/-- A change of the store of a view. -/
def StateView.onStore (v : StateView) (g : Store → Store) : StateView :=
  { v with toStore := g v.toStore }

namespace UpdatedState

open Fallible

variable {db : StateTables} {α β : Type} {f : StateView → Option α} (address : Address) {x : StateOp α}

/-! ## One entry of the overlay is one record of the view -/

theorem overlaid_insert [DecidableEq κ] (t : Table κ (CachedStatus α)) (k : κ) (c : CachedStatus α)
    (base : κ → Option α) :
    (fun k' => overlaid ((t.insert k c).lookup k') (base k')) =
      update (fun k' => overlaid (t.lookup k') (base k')) k c.getInner := by
  funext k'
  by_cases h : k' = k
  · subst h; simp [overlaid]
  · simp [h]

theorem overlaid_insert₂ {ι : Type} [DecidableEq κ] [DecidableEq ι] (t : Table κ (Table ι (CachedStatus α)))
    (k : κ × ι) (c : CachedStatus α) (base : κ × ι → Option α) :
    (fun k' => overlaid ((t.insert₂ k.1 k.2 c).lookup₂ k'.1 k'.2) (base k')) =
      update (fun k' => overlaid (t.lookup₂ k'.1 k'.2) (base k')) k c.getInner := by
  funext k'
  rw [lookup₂_insert₂]
  by_cases h : k' = k
  · subst h; simp [overlaid]
  · have hne : ¬ (k'.1 = k.1 ∧ k'.2 = k.2) := fun hk => h (Prod.ext hk.1 hk.2)
    rw [if_neg hne, update_of_ne h]

section

variable (s : UpdatedState)

theorem view_insert_account (a : Address) (c : CachedStatus Account) :
    view db { s with accounts := s.accounts.insert a c } =
      { view db s with account := update (view db s).account a c.getInner } := by
  simp only [view, overlaid_insert]

theorem view_insert_contract (a : Address) (c : CachedStatus Contract) :
    view db { s with contracts := s.contracts.insert a c } =
      { view db s with contract := update (view db s).contract a c.getInner } := by
  simp only [view, overlaid_insert]

theorem view_insert_contractInstance (a : Address) (c : CachedStatus ContractInstance) :
    view db { s with contractInstances := s.contractInstances.insert a c } =
      { view db s with
        contractInstance := update (view db s).contractInstance a c.getInner } := by
  simp only [view, overlaid_insert]

theorem view_insert_storage (k : Address × ContractInstanceKey)
    (c : CachedStatus (Option ContractInstanceValue)) :
    view db { s with contractStates := s.contractStates.insert₂ k.1 k.2 c } =
      { view db s with storage := update (view db s).storage k c.getInner.join } := by
  have h := congrArg (Option.join ∘ ·)
    (overlaid_insert₂ s.contractStates k c fun k => some (db.store.storage k))
  simp only [comp_update] at h
  exact congrArg (fun st => { view db s with storage := st }) h

theorem view_insert_stakingPool (a : Address) (c : CachedStatus StakingPool) :
    view db { s with stakingPools := s.stakingPools.insert a c } =
      { view db s with stakingPool := update (view db s).stakingPool a c.getInner } := by
  simp only [view, overlaid_insert]

theorem view_insert_stakingAccount (k : Address × Address) (c : CachedStatus StakingAccount) :
    view db { s with stakingAccounts := s.stakingAccounts.insert₂ k.1 k.2 c } =
      { view db s with
        stakingAccount := update (view db s).stakingAccount k c.getInner } := by
  have h := overlaid_insert₂ s.stakingAccounts k c db.store.stakingAccount
  exact congrArg (fun st => { view db s with stakingAccount := st }) h

end

/-! ## Operations that read -/

/-- `x` answers `f` of the view, with an error where `f` has nothing, and leaves the view as it is. -/
def Reads (db : StateTables) (x : StateOp α) (f : StateView → Option α) : Prop :=
  ∀ s, (x.run s).1.toOption = f (view db s) ∧ view db (x.run s).2 = view db s

theorem Reads.found (hx : Reads db x f) {a : α}
    (h : f (view db s) = some a) : ∃ s', x.run s = (.ok a, s') ∧ view db s' = view db s := by
  obtain ⟨hr, hv⟩ := hx s
  refine ⟨(x.run s).2, ?_, hv⟩
  rw [h] at hr
  rcases hs : x.run s with ⟨_ | b, s'⟩
  · rw [hs] at hr; cases hr
  · rw [hs] at hr; cases hr; rfl

theorem Reads.missing (hx : Reads db x f)
    (h : f (view db s) = none) : ∃ e s', x.run s = (.error e, s') ∧ view db s' = view db s := by
  obtain ⟨hr, hv⟩ := hx s
  rw [h] at hr
  rcases hs : x.run s with ⟨e | b, s'⟩
  · rw [hs] at hv; exact ⟨e, s', rfl, hv⟩
  · rw [hs] at hr; cases hr

theorem run_readThrough (entry : UpdatedState → Option (CachedStatus α)) (removed : Error)
    (fetch : Except Error α) (remember : α → UpdatedState → UpdatedState) (s : UpdatedState) :
    (readThrough entry removed fetch remember).run s =
      match entry s with
      | some cached => (cached.getInner.elim (.error removed) .ok, s)
      | none => (fetch, fetch.toOption.elim s fun v => remember v s) := by
  cases he : entry s with
  | some cached => cases hg : cached.getInner <;> simp [readThrough, run_bind, he, hg]
  | none => cases fetch <;> simp [readThrough, run_bind, he, Except.toOption]

/-- **Reading through the cache answers from the view.** The database is asked only when there is no
    entry, and remembering its answer does not change what is seen. -/
theorem readThrough_reads {entry : UpdatedState → Option (CachedStatus α)} {removed : Error}
    {fetch : Except Error α} {remember : α → UpdatedState → UpdatedState}
    (hf : ∀ s, f (view db s) = overlaid (entry s) fetch.toOption)
    (hr : ∀ s v, entry s = none → fetch = .ok v → view db (remember v s) = view db s) :
    Reads db (readThrough entry removed fetch remember) f := by
  intro s
  rw [hf, run_readThrough]
  cases he : entry s with
  | some cached =>
    cases hg : cached.getInner <;> simp [overlaid, hg, Except.toOption]
  | none =>
    refine ⟨rfl, ?_⟩
    cases hfe : fetch with
    | error e => rfl
    | ok v => exact hr s v he hfe

theorem getAccount_reads : Reads db (getAccount db address) (·.account address) := by
  refine readThrough_reads (fun s => rfl) fun s v he (hv : db.getAccount address = .ok v) => ?_
  have hbase : (view db s).account address = some v := by
    simp [view, he, store, hv, Except.toOption]
  rw [view_insert_account, CachedStatus.getInner, ← hbase, update_eq_self]

theorem getContract_reads : Reads db (getContract db address) (·.contract address) := by
  refine readThrough_reads (fun s => rfl) fun s v he hv => ?_
  have hbase : (view db s).contract address = some v := by
    simp [view, he, store, hv, Except.toOption]
  rw [upsert_of_none he, view_insert_contract, CachedStatus.getInner, ← hbase,
    update_eq_self]

theorem getContractInstance_reads :
    Reads db (getContractInstance db address) (·.contractInstance address) := by
  refine readThrough_reads (fun s => rfl) fun s v he hv => ?_
  have hbase : (view db s).contractInstance address = some v := by
    simp [view, he, store, hv, Except.toOption]
  rw [upsert_of_none he, view_insert_contractInstance, CachedStatus.getInner, ← hbase,
    update_eq_self]

theorem getStakingPool_reads : Reads db (getStakingPool db address) (·.stakingPool address) := by
  refine readThrough_reads (fun s => rfl) fun s v he (hv : db.getStakingPool address = .ok v) => ?_
  have hbase : (view db s).stakingPool address = some v := by
    simp [view, he, store, hv, Except.toOption]
  rw [upsert_of_none he, view_insert_stakingPool, CachedStatus.getInner, ← hbase,
    update_eq_self]

theorem getStakingAccount_reads {accountAddress poolAddress : Address} :
    Reads db (getStakingAccount db accountAddress poolAddress)
      (·.stakingAccount (poolAddress, accountAddress)) := by
  refine readThrough_reads (fun s => rfl)
    fun s v he (hv : db.getStakingAccount accountAddress poolAddress = .ok v) => ?_
  have hbase : (view db s).stakingAccount (poolAddress, accountAddress) = some v := by
    simp [view, he, store, hv, Except.toOption]
  rw [upsert₂_of_none he, view_insert_stakingAccount s (poolAddress, accountAddress),
    CachedStatus.getInner, ← hbase, update_eq_self]

/-- Storage reads always succeed; what they answer is the value or its absence. -/
theorem getStateKeyValue_reads {instanceAddress : Address} {key : ContractInstanceKey} :
    Reads db (getStateKeyValue db instanceAddress key)
      (fun v => some (v.storage (instanceAddress, key))) := by
  intro s
  cases he : s.contractStates.lookup₂ instanceAddress key with
  | some c => simp [getStateKeyValue, run_bind, he, view, overlaid, Except.toOption]
  | none =>
    have hbase : (view db s).storage (instanceAddress, key) = db.getStateKeyValue instanceAddress key := by
      simp [view, he, store]
    have hrun : (getStateKeyValue db instanceAddress key).run s =
        (.ok (db.getStateKeyValue instanceAddress key),
          { s with
            contractStates := s.contractStates.insert₂ instanceAddress key
              (.cached (db.getStateKeyValue instanceAddress key)) }) := by
      simp [getStateKeyValue, run_bind, he, upsert₂_of_none he]
    rw [hrun, view_insert_storage s (instanceAddress, key), CachedStatus.getInner,
      Option.join_some, ← hbase, update_eq_self]
    exact ⟨rfl, rfl⟩

theorem Reads.map (hx : Reads db x f) (g : α → β) :
    Reads db (do let v ← x; pure (g v)) (fun v => (f v).map g) := by
  intro s
  obtain ⟨hr, hv⟩ := hx s
  rw [run_bind]
  rcases hs : x.run s with ⟨e | a, s'⟩ <;> rw [hs] at hr hv
  · exact ⟨congrArg (Option.map g) hr, hv⟩
  · exact ⟨congrArg (Option.map g) hr, hv⟩

/-! ## Operations that write -/

/-- `x` succeeds and changes the view by `g`. -/
def Writes (db : StateTables) (x : StateOp Unit) (g : StateView → StateView) : Prop :=
  ∀ s, ∃ s', x.run s = (.ok (), s') ∧ view db s' = g (view db s)

theorem updateAccount_writes (account : Account) :
    Writes db (updateAccount account) (·.onStore (.setAccount account)) :=
  fun s => ⟨_, rfl, view_insert_account s account.address _⟩

theorem updateStakingAccount_writes (stakingAccount : StakingAccount) :
    Writes db (updateStakingAccount stakingAccount) (·.onStore (.setStakingAccount stakingAccount)) :=
  fun s => ⟨_, rfl, view_insert_stakingAccount s
    (stakingAccount.poolAddress, stakingAccount.accountAddress) _⟩

theorem storeTransactionMetadata_writes {metadata : TransactionMetadata} :
    Writes db (storeTransactionMetadata metadata)
      (fun v => { v with metadatas := v.metadatas ++ [metadata] }) := by
  refine fun s => ⟨_, rfl, ?_⟩
  simp [view, CachedStatus.getInner]

theorem upsert_update [DecidableEq κ] {t : Table κ (CachedStatus α)} {k : κ} {v : α}
    (h : ∀ c, t.lookup k = some c → c.isUpdated = true) :
    t.upsert k (·.update (some v)) (.updated (some v)) = t.insert k (.updated (some v)) := by
  cases he : t.lookup k with
  | none => exact upsert_of_none he _ _
  | some c =>
    -- an entry that a read has not filled keeps the value it is given
    rw [upsert_of_some he]
    cases c with
    | cached _ => cases h _ he
    | updated pending => cases pending <;> rfl

end UpdatedState

end L1xCore
