import L1xCore.State.UpdatedState

/-!
# `State.Records` — the overlay as one map from record keys to entries

The six maps of an overlay behave alike. This module puts them under one key type (`RecordKey`), so that
what an operation does to the overlay is said once: it **sets** the entry of one key (`Sets`) and leaves
everything else alone. Three relations follow for every operation, primitive or composed:

* `WellKeyed` is kept: a record stays filed under its own address, and only storage is ever removed;
* `Grows`: an entry never disappears;
* for the reads, `Remembers`: the only change is that values of the database are remembered.
-/

namespace L1xCore

open AList

variable {db : StateTables}

/-- The key of a record of any kind. -/
inductive RecordKey where
  | account (address : Address)
  | contract (address : Address)
  | contractInstance (instanceAddress : Address)
  | storage (instanceAddress : Address) (key : ContractInstanceKey)
  | stakingPool (poolAddress : Address)
  | stakingAccount (poolAddress accountAddress : Address)
  deriving DecidableEq

/-- What is kept under a key. A storage value may be known to be absent. -/
abbrev RecordKey.Value : RecordKey → Type
  | .account _ => Account
  | .contract _ => Contract
  | .contractInstance _ => ContractInstance
  | .storage _ _ => Option ContractInstanceValue
  | .stakingPool _ => StakingPool
  | .stakingAccount _ _ => StakingAccount

/-- What the tables hold under a key. -/
def StateTables.record (db : StateTables) : (k : RecordKey) → Option k.Value
  | .account a => (db.getAccount a).toOption
  | .contract a => (db.getContract a).toOption
  | .contractInstance a => (db.getContractInstance a).toOption
  | .storage a key => some (db.getStateKeyValue a key)
  | .stakingPool a => (db.getStakingPool a).toOption
  | .stakingAccount p a => (db.getStakingAccount a p).toOption

namespace UpdatedState

/-- The entry of a key in the overlay. -/
def entry (self : UpdatedState) : (k : RecordKey) → Option (CachedStatus k.Value)
  | .account a => self.accounts.lookup a
  | .contract a => self.contracts.lookup a
  | .contractInstance a => self.contractInstances.lookup a
  | .storage a key => self.contractStates.lookup₂ a key
  | .stakingPool a => self.stakingPools.lookup a
  | .stakingAccount p a => self.stakingAccounts.lookup₂ p a

@[simp] theorem entry_new (k : RecordKey) : new.entry k = none := by
  cases k <;> rfl

/-! ## Setting one entry -/

/-- `s'` is `s` with the entry of `k` set to `c`. -/
structure Sets (s : UpdatedState) (k : RecordKey) (c : CachedStatus k.Value) (s' : UpdatedState) : Prop where
  entry_self : s'.entry k = some c
  entry_of_ne : ∀ k', k' ≠ k → s'.entry k' = s.entry k'
  events : s'.contractEvents = s.contractEvents
  metadatas : s'.transactionMetadatas = s.transactionMetadatas

variable (s : UpdatedState) (a : Address)

theorem sets_account (c : CachedStatus Account) :
    Sets s (.account a) c { s with accounts := s.accounts.insert a c } where
  entry_self := lookup_insert _
  entry_of_ne k' hk := by
    cases k' with
    | account b => exact lookup_insert_ne fun h => hk (congrArg RecordKey.account h)
    | _ => rfl
  events := rfl
  metadatas := rfl

theorem sets_contract (c : CachedStatus Contract) :
    Sets s (.contract a) c { s with contracts := s.contracts.insert a c } where
  entry_self := lookup_insert _
  entry_of_ne k' hk := by
    cases k' with
    | contract b => exact lookup_insert_ne fun h => hk (congrArg RecordKey.contract h)
    | _ => rfl
  events := rfl
  metadatas := rfl

theorem sets_contractInstance (c : CachedStatus ContractInstance) :
    Sets s (.contractInstance a) c { s with contractInstances := s.contractInstances.insert a c } where
  entry_self := lookup_insert _
  entry_of_ne k' hk := by
    cases k' with
    | contractInstance b =>
      exact lookup_insert_ne fun h => hk (congrArg RecordKey.contractInstance h)
    | _ => rfl
  events := rfl
  metadatas := rfl

theorem sets_storage (key : ContractInstanceKey) (c : CachedStatus (Option ContractInstanceValue)) :
    Sets s (.storage a key) c { s with contractStates := s.contractStates.insert₂ a key c } where
  entry_self := by
    show (s.contractStates.insert₂ a key c).lookup₂ a key = _
    rw [lookup₂_insert₂, if_pos ⟨rfl, rfl⟩]
  entry_of_ne k' hk := by
    cases k' with
    | storage b key' =>
      show (s.contractStates.insert₂ a key c).lookup₂ b key' = _
      rw [lookup₂_insert₂, if_neg fun h => hk (by rw [h.1, h.2])]; rfl
    | _ => rfl
  events := rfl
  metadatas := rfl

theorem sets_stakingPool (c : CachedStatus StakingPool) :
    Sets s (.stakingPool a) c { s with stakingPools := s.stakingPools.insert a c } where
  entry_self := lookup_insert _
  entry_of_ne k' hk := by
    cases k' with
    | stakingPool b => exact lookup_insert_ne fun h => hk (congrArg RecordKey.stakingPool h)
    | _ => rfl
  events := rfl
  metadatas := rfl

theorem sets_stakingAccount (p a : Address) (c : CachedStatus StakingAccount) :
    Sets s (.stakingAccount p a) c { s with stakingAccounts := s.stakingAccounts.insert₂ p a c } where
  entry_self := by
    show (s.stakingAccounts.insert₂ p a c).lookup₂ p a = _
    rw [lookup₂_insert₂, if_pos ⟨rfl, rfl⟩]
  entry_of_ne k' hk := by
    cases k' with
    | stakingAccount q b =>
      show (s.stakingAccounts.insert₂ p a c).lookup₂ q b = _
      rw [lookup₂_insert₂, if_neg fun h => hk (by rw [h.1, h.2])]; rfl
    | _ => rfl
  events := rfl
  metadatas := rfl

/-! ## Three relations -/

/-- The entry holds a record, and the record belongs to the key `k`. -/
def Filed {κ α : Type} (key : α → κ) (k : κ) (c : CachedStatus α) : Prop :=
  ∃ v, c.getInner = some v ∧ key v = k

theorem Filed.key_eq {κ α : Type} {key : α → κ} {k : κ} {v : α}
    (h : Filed key k (.updated (some v))) : key v = k := by
  obtain ⟨w, hw, hk⟩ := h
  cases hw; exact hk

/-- The entry `c` may stand under the key `k`. -/
def Fits : (k : RecordKey) → CachedStatus k.Value → Prop
  | .account a, c => Filed Account.address a c
  | .contract a, c => Filed Contract.address a c
  | .contractInstance a, c => Filed ContractInstance.instanceAddress a c
  | .storage _ _, _ => True
  | .stakingPool a, c => Filed StakingPool.poolAddress a c
  | .stakingAccount p a, c => Filed (fun v => (v.poolAddress, v.accountAddress)) (p, a) c

variable {s}

/-- **The representation invariant**: every entry fits its key. -/
def WellKeyed (s : UpdatedState) : Prop := ∀ k c, s.entry k = some c → Fits k c

/-- No entry of `s` is missing in `s'`. -/
def Grows (s s' : UpdatedState) : Prop := ∀ k, s'.entry k = none → s.entry k = none

/-- An entry that is as it was, or that has just been filled from the database. -/
def Recalled {α : Type} (base : Option α) (e e' : Option (CachedStatus α)) : Prop :=
  e' = e ∨ e = none ∧ ∃ v, e' = some (.cached v) ∧ base = some v

/-- `s'` is `s` with some values of the database remembered. -/
structure Remembers (db : StateTables) (s s' : UpdatedState) : Prop where
  entry : ∀ k, Recalled (db.record k) (s.entry k) (s'.entry k)
  events : s'.contractEvents = s.contractEvents
  metadatas : s'.transactionMetadatas = s.transactionMetadatas

/-- What every operation does: no entry is lost, and the invariant is kept. -/
structure Evolves (s s' : UpdatedState) : Prop where
  grows : Grows s s'
  wellKeyed : WellKeyed s → WellKeyed s'

theorem wellKeyed_new : WellKeyed new := by
  intro k c h
  rw [entry_new] at h; cases h

instance : Std.Refl Evolves := ⟨fun _ => ⟨fun _ h => h, id⟩⟩

instance : IsTrans UpdatedState Evolves :=
  ⟨fun _ _ _ h₁ h₂ => ⟨fun k h => h₁.grows k (h₂.grows k h), h₂.wellKeyed ∘ h₁.wellKeyed⟩⟩

theorem Recalled.trans {α : Type} {base : Option α} {e₁ e₂ e₃ : Option (CachedStatus α)}
    (h₁ : Recalled base e₁ e₂) (h₂ : Recalled base e₂ e₃) : Recalled base e₁ e₃ := by
  rcases h₁ with rfl | ⟨rfl, v, rfl, hv⟩
  · exact h₂
  · rcases h₂ with rfl | ⟨h, -⟩
    · exact .inr ⟨rfl, v, rfl, hv⟩
    · cases h

instance (db : StateTables) : Std.Refl (Remembers db) := ⟨fun _ => ⟨fun _ => .inl rfl, rfl, rfl⟩⟩

instance (db : StateTables) : IsTrans UpdatedState (Remembers db) :=
  ⟨fun _ _ _ h₁ h₂ => ⟨fun k => (h₁.entry k).trans (h₂.entry k), h₂.events.trans h₁.events,
    h₂.metadatas.trans h₁.metadatas⟩⟩

section

variable {k : RecordKey} {c : CachedStatus k.Value} {s' : UpdatedState}

theorem Sets.evolves (h : Sets s k c s') (hc : WellKeyed s → Fits k c) : Evolves s s' where
  grows k' hk' := by
    by_cases hk : k' = k
    · subst hk; rw [h.entry_self] at hk'; cases hk'
    · rwa [h.entry_of_ne k' hk] at hk'
  wellKeyed hs k' c' he := by
    by_cases hk : k' = k
    · subst hk; rw [h.entry_self] at he; cases he; exact hc hs
    · rw [h.entry_of_ne k' hk] at he; exact hs k' c' he

theorem Sets.remembers {v : k.Value} (h : Sets s k (.cached v) s') (hs : s.entry k = none)
    (hv : db.record k = some v) : Remembers db s s' where
  entry k' := by
    by_cases hk : k' = k
    · subst hk; exact .inr ⟨hs, v, h.entry_self, hv⟩
    · exact .inl (h.entry_of_ne k' hk)
  events := h.events
  metadatas := h.metadatas

end

theorem fits_record {k : RecordKey} {v : k.Value} (h : db.record k = some v) : Fits k (.cached v) := by
  cases k with
  | account a =>
    cases hrow : db.account.lookup a <;>
      simp only [StateTables.record, StateTables.getAccount, hrow, Except.toOption] at h
    · cases h
    · cases h; exact ⟨_, rfl, rfl⟩
  | contract a =>
    cases hrow : db.contract.lookup a <;>
      simp only [StateTables.record, StateTables.getContract, hrow, Except.toOption] at h
    · cases h
    · cases h; exact ⟨_, rfl, rfl⟩
  | contractInstance a =>
    simp only [StateTables.record, StateTables.getContractInstance] at h
    split at h
    · next row hrow =>
        have hi : row.1.1 = a := by simpa using List.find?_some hrow
        cases h; exact ⟨_, rfl, hi⟩
    · cases h
  | storage a key => exact trivial
  | stakingPool a =>
    cases hrow : db.stakingPool.lookup a <;>
      simp only [StateTables.record, StateTables.getStakingPool, hrow, Except.toOption] at h
    · cases h
    · cases h; exact ⟨_, rfl, rfl⟩
  | stakingAccount p a =>
    cases hrow : db.stakingAccount.lookup (p, a) <;>
      simp only [StateTables.record, StateTables.getStakingAccount, hrow, Except.toOption] at h
    · cases h
    · cases h; exact ⟨_, rfl, rfl⟩

theorem Remembers.evolves {s s' : UpdatedState} (h : Remembers db s s') : Evolves s s' where
  grows k hk := by
    rcases h.entry k with he | ⟨he, -⟩
    · rw [← he]; exact hk
    · exact he
  wellKeyed hs k c hc := by
    rcases h.entry k with he | ⟨-, v, he, hv⟩
    · exact hs k c (he ▸ hc)
    · rw [he] at hc; cases hc; exact fits_record hv

end UpdatedState

end L1xCore
