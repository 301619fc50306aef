import L1xCore.State.Checkpoint

/-!
# `State.Refinement` — when an overlay behaves as a plain store

An overlay is meant to be a **plain store**: a read answers with the last write, and a commit leaves the
database as if every write had been made there. This module compares the two on arbitrary sequences of
reads and writes of single records.

They do differ. `CachedStatus::update` drops the new value of a contract that was read before, a commit
inserts contracts and instances without looking whether they are there, and three conversions of the
tables lose information. `Conforms` says of a single operation that it stays clear of all of these.
-/

namespace L1xCore.UpdatedState

variable {k : RecordKey} {α ν : Type} {pool : StakingPool} {row : ν}

open Fallible

variable {db : StateTables} {s s' : UpdatedState} {st : Store} {effect : CachedStatus α → ν → Option ν}

/-! ## The plain store -/

/-- An operation on a single record. -/
inductive RecordOp where
  | read (r : ReadOp)
  | write (w : WriteOp)

def RecordOp.run (db : StateTables) : RecordOp → StateOp Reply
  | .read r => r.run db
  | .write w => do
    w.run db
    pure .done

/-- What a plain store answers; none where there is no record. -/
def ReadOp.answer (st : Store) : ReadOp → Option Reply
  | .getAccount a => (st.account a).map .account
  | .getContract a => (st.contract a).map .contract
  | .getContractInstance a => (st.contractInstance a).map .contractInstance
  | .getStateKeyValue a key => some (.value (st.storage (a, key)))
  | .getStakingPool a => (st.stakingPool a).map .stakingPool
  | .getStakingAccount a p => (st.stakingAccount (p, a)).map .stakingAccount

/-- A plain store after a write; none where the record to be changed is missing. -/
def WriteOp.apply (st : Store) : WriteOp → Option Store
  | .updateAccount account => some (st.setAccount account)
  | .storeContract contract => some (st.setContract contract)
  | .storeContractInstance i => some (st.setContractInstance i)
  | .storeStateKeyValue a key value => some (st.setStorage (a, key) (some value))
  | .deleteStateKeyValue a key => some (st.setStorage (a, key) none)
  | .insertStakingPool pool => some (st.setStakingPool pool.poolAddress pool)
  | .updateStakingPoolBlockNumber a n =>
    (st.stakingPool a).map fun pool => st.setStakingPool a { pool with updatedBlockNumber := n }
  | .updateContract i p n =>
    (st.stakingPool p).map fun pool =>
      st.setStakingPool p { pool with contractInstanceAddress := some i, updatedBlockNumber := n }
  | .updateStakingAccount a => some (st.setStakingAccount a)
  | .insertStakingAccount a p balance => some (st.setStakingAccount ⟨a, p, balance⟩)

/-- The answer of a plain store and the store afterwards. -/
def RecordOp.plain (st : Store) : RecordOp → Option Reply × Store
  | .read r => (r.answer st, st)
  | .write w =>
    match w.apply st with
    | some st' => (some .done, st')
    | none => (none, st)

/-- A sequence of operations on an overlay, with the answers. -/
def runRecordOps (db : StateTables) :
    List RecordOp → UpdatedState → List (Option Reply) × UpdatedState
  | [], s => ([], s)
  | op :: ops, s =>
    let (reply, s₁) := (op.run db).run s
    let (replies, s₂) := runRecordOps db ops s₁
    (reply.toOption :: replies, s₂)

/-- The same sequence on a plain store. -/
def runPlain : List RecordOp → Store → List (Option Reply) × Store
  | [], st => ([], st)
  | op :: ops, st =>
    let (reply, st₁) := op.plain st
    let (replies, st₂) := runPlain ops st₁
    (reply :: replies, st₂)

/-- Over the tables `db` the sequence cannot be told from one on a plain store, neither by its answers nor
    by what a commit leaves in the tables, whatever the order of the maps. -/
def Refines (db : StateTables) (ops : List RecordOp) : Prop :=
  (runRecordOps db ops new).1 = (runPlain ops db.store).1 ∧
  ∀ u, Reordered (runRecordOps db ops new).2 u →
    ∃ db', (commit u).run db = (.ok (), db') ∧ db'.store = (runPlain ops db.store).2

/-! ## The condition on one operation -/

/-- The staking pool table keeps everything of `pool`: of a pool that has a row only the block number
    changes, and a new one has all its limits and no contract. -/
def Storable (db : StateTables) (pool : StakingPool) : Prop :=
  match db.store.stakingPool pool.poolAddress with
  | some old => pool = { old with updatedBlockNumber := pool.updatedBlockNumber }
  | none => pool.contractInstanceAddress = none ∧ pool.minStake.isSome ∧ pool.maxStake.isSome ∧
      pool.minPoolBalance.isSome ∧ pool.maxPoolBalance.isSome ∧ pool.stakingPeriod.isSome

/-- The operation stays clear of what the overlay and the tables lose: the type of an account that has a
    row does not change, contracts and instances are new, a written pool can be stored, and no contract is
    attached to a pool. -/
def RecordOp.Conforms (db : StateTables) (st : Store) : RecordOp → Prop
  | .write (.updateAccount account) =>
    ∀ old, db.store.account account.address = some old → account.accountType = old.accountType
  | .write (.storeContract contract) => db.store.contract contract.address = none
  | .write (.storeContractInstance i) => db.store.contractInstance i.instanceAddress = none
  | .write (.insertStakingPool pool) => Storable db pool
  | .write (.updateContract _ poolAddress _) => st.stakingPool poolAddress = none
  | _ => True

/-- Every operation of the sequence conforms, in the store it finds. -/
def AllConform (db : StateTables) : Store → List RecordOp → Prop
  | _, [] => True
  | st, op :: ops => op.Conforms db st ∧ AllConform db (op.plain st).2 ops

/-! ## Reading rows back -/

/-- The row `row` after the commit of the entry `c` reads as `c` itself does. -/
def Kept {α β ν : Type} (effect : CachedStatus α → ν → Option ν) (read : ν → Option β)
    (show' : CachedStatus α → Option β) (c : CachedStatus α) (row : ν) : Prop :=
  ∃ row', effect c row = some row' ∧ read row' = show' c

theorem Kept.applied {β : Type} {read : ν → Option β} {show' : CachedStatus α → Option β}
    {entry : Option (CachedStatus α)} (h : ∀ c, entry = some c → Kept effect read show' c row) :
    read (applied effect entry row) = entry.elim (read row) show' := by
  cases entry with
  | none => rfl
  | some c =>
    obtain ⟨row', heff, hread⟩ := h c rfl
    simp [UpdatedState.applied, heff, hread]

def readAccount (a : Address) (row : Option AccountRow) : Option Account :=
  row.map fun row => ⟨a, row.balance, row.nonce, row.accountType⟩

def readContract (a : Address) (row : Option ContractRow) : Option Contract :=
  row.map fun row => ⟨a, row.access, row.type, row.code, row.ownerAddress⟩

def readContractInstance (a : Address) (rows : List (Address × Address)) : Option ContractInstance :=
  rows.head?.map fun row => ⟨a, row.1, row.2⟩

def readStakingPool (a : Address) (row : Option StakingPoolRow) : Option StakingPool :=
  row.map (·.toPool a)

def readStakingAccount (p a : Address) (row : Option Balance) : Option StakingAccount :=
  row.map fun balance => ⟨a, p, balance⟩

section

variable (db : StateTables) (a : Address)

theorem store_account : db.store.account a = readAccount a (db.account.lookup a) := by
  cases h : db.account.lookup a <;>
    simp [StateTables.store, StateTables.getAccount, readAccount, h, Except.toOption]

theorem store_contract : db.store.contract a = readContract a (db.contract.lookup a) := by
  cases h : db.contract.lookup a <;>
    simp [StateTables.store, StateTables.getContract, readContract, h, Except.toOption]

theorem store_contractInstance :
    db.store.contractInstance a = readContractInstance a (instanceRows db a) := by
  simp only [StateTables.store, StateTables.getContractInstance, readContractInstance, instanceRows]
  induction db.contractInstanceContractCodeMap.entries with
  | nil => rfl
  | cons row rows ih =>
    by_cases h : row.1.1 = a
    · simp [h, Except.toOption]
    · simpa [h] using ih

theorem store_stakingPool : db.store.stakingPool a = readStakingPool a (db.stakingPool.lookup a) := by
  cases h : db.stakingPool.lookup a <;>
    simp [StateTables.store, StateTables.getStakingPool, readStakingPool, h, Except.toOption]

end

theorem store_stakingAccount (db : StateTables) (k : Address × Address) :
    db.store.stakingAccount k = readStakingAccount k.1 k.2 (db.stakingAccount.lookup k) := by
  cases h : db.stakingAccount.lookup k <;>
    simp [StateTables.store, StateTables.getStakingAccount, readStakingAccount, h, Except.toOption]

/-- The commit of the entry of `k` loses nothing. -/
def Lossless (db : StateTables) : (k : RecordKey) → CachedStatus k.Value → Prop
  | .account a, c => Kept accountEffect (readAccount a) (·.getInner) c (db.account.lookup a)
  | .contract a, c => Kept contractEffect (readContract a) (·.getInner) c (db.contract.lookup a)
  | .contractInstance a, c =>
    Kept contractInstanceEffect (readContractInstance a) (·.getInner) c (instanceRows db a)
  | .storage a key, c =>
    Kept storageEffect id (·.getInner.join) c (db.contractInstance.lookup (a, key))
  | .stakingPool a, c =>
    Kept stakingPoolEffect (readStakingPool a) (·.getInner) c (db.stakingPool.lookup a)
  | .stakingAccount p a, c =>
    Kept stakingAccountEffect (readStakingAccount p a) (·.getInner) c (db.stakingAccount.lookup (p, a))

theorem kept_cached {read : ν → Option α} {v : α} (heff : effect (.cached v) row = some row) :
    Kept effect read (·.getInner) (.cached v) row ↔ read row = some v := by
  constructor
  · rintro ⟨row', h, hread⟩
    rw [heff] at h; cases h; exact hread
  · exact fun h => ⟨row, heff, h⟩

/-- A commit leaves alone what was read from the database. -/
theorem lossless_cached {v : k.Value} : Lossless db k (.cached v) ↔ db.record k = some v := by
  cases k with
  | account a => exact (kept_cached rfl).trans (by rw [← store_account]; rfl)
  | contract a => exact (kept_cached rfl).trans (by rw [← store_contract]; rfl)
  | contractInstance a => exact (kept_cached rfl).trans (by rw [← store_contractInstance]; rfl)
  | storage a key =>
    constructor
    · rintro ⟨row', h, hread⟩
      cases h; exact congrArg some hread
    · exact fun h => ⟨_, rfl, Option.some.inj h⟩
  | stakingPool a => exact (kept_cached rfl).trans (by rw [← store_stakingPool]; rfl)
  | stakingAccount p a =>
    exact (kept_cached rfl).trans (by rw [← store_stakingAccount db (p, a)]; rfl)

/-! ## The simulation -/

/-- The overlay `s` shows the plain store `st`, and its commit will lose nothing of it. -/
structure Simulates (db : StateTables) (s : UpdatedState) (st : Store) : Prop where
  store : (view db s).toStore = st
  wellKeyed : WellKeyed s
  lossless : ∀ k c, s.entry k = some c → Lossless db k c

theorem simulates_new : Simulates db new db.store where
  store := rfl
  wellKeyed := wellKeyed_new
  lossless k c h := by rw [entry_new] at h; cases h

theorem Simulates.remembers (h : Simulates db s st) (hr : Remembers db s s') : Simulates db s' st where
  store := by rw [← hr.view]; exact h.store
  wellKeyed := hr.evolves.wellKeyed h.wellKeyed
  lossless k c hc := by
    rcases hr.entry k with he | ⟨-, v, he, hv⟩
    · exact h.lossless k c (he.symm.trans hc)
    · cases he.symm.trans hc; exact lossless_cached.mpr hv

/-- A write of one entry that shows the right store and loses nothing. -/
theorem Simulates.sets {st' : Store} {c : CachedStatus k.Value} (h : Simulates db s st) (hs : Sets s k c s')
    (hfits : Fits k c) (hl : Lossless db k c) (hst : (view db s').toStore = st') : Simulates db s' st' where
  store := hst
  wellKeyed := (hs.evolves fun _ => hfits).wellKeyed h.wellKeyed
  lossless k' c' hc := by
    by_cases hk : k' = k
    · subst hk; rw [hs.entry_self] at hc; cases hc; exact hl
    · rw [hs.entry_of_ne k' hk] at hc; exact h.lossless k' c' hc

/-- **The commit of a simulating overlay** succeeds and leaves the plain store. -/
theorem Simulates.commit (h : Simulates db s st) :
    ∃ db', (commit s).run db = (.ok (), db') ∧ db'.store = st := by
  have hc : s.Committable db :=
    { contract := fun a c he => by
        obtain ⟨_, heff, -⟩ := h.lossless (.contract a) c he; rw [heff]; rfl
      contractInstance := fun a c he => by
        obtain ⟨_, heff, -⟩ := h.lossless (.contractInstance a) c he; rw [heff]; rfl }
  obtain ⟨db', hrun, hd⟩ := commit_ok h.wellKeyed hc
  refine ⟨db', hrun, ?_⟩
  rw [← h.store]
  apply Store.ext
  · funext a
    rw [store_account, hd.account]
    show _ = overlaid (s.accounts.lookup a) (db.store.account a)
    rw [store_account]
    exact Kept.applied (h.lossless (.account a))
  · funext a
    rw [store_contract, hd.contract]
    show _ = overlaid (s.contracts.lookup a) (db.store.contract a)
    rw [store_contract]
    exact Kept.applied (h.lossless (.contract a))
  · funext a
    rw [store_contractInstance, hd.contractInstance]
    show _ = overlaid (s.contractInstances.lookup a) (db.store.contractInstance a)
    rw [store_contractInstance]
    exact Kept.applied (h.lossless (.contractInstance a))
  · funext k
    show db'.contractInstance.lookup k = (overlaid (s.contractStates.lookup₂ k.1 k.2) _).join
    rw [hd.storage]
    refine (Kept.applied (h.lossless (.storage k.1 k.2))).trans ?_
    show (s.contractStates.lookup₂ k.1 k.2).elim _ _ = _
    cases s.contractStates.lookup₂ k.1 k.2 <;> rfl
  · funext a
    rw [store_stakingPool, hd.stakingPool]
    show _ = overlaid (s.stakingPools.lookup a) (db.store.stakingPool a)
    rw [store_stakingPool]
    exact Kept.applied (h.lossless (.stakingPool a))
  · funext k
    rw [store_stakingAccount, hd.stakingAccount]
    show _ = overlaid (s.stakingAccounts.lookup₂ k.1 k.2) (db.store.stakingAccount k)
    rw [store_stakingAccount]
    exact Kept.applied (h.lossless (.stakingAccount k.1 k.2))

/-! ## One operation -/

theorem ReadOp.run_answers (r : ReadOp) : Reads db (r.run db) (fun v => r.answer v.toStore) := by
  cases r with
  | getAccount a => exact (getAccount_reads a).map _
  | getContract a => exact (getContract_reads a).map _
  | getContractInstance a => exact (getContractInstance_reads a).map _
  | getStateKeyValue a key => exact getStateKeyValue_reads.map _
  | getStakingPool a => exact (getStakingPool_reads a).map _
  | getStakingAccount a p => exact getStakingAccount_reads.map _

/-- `Storable` says of a pool what `Lossless` says of its pending write. -/
theorem storable_iff :
    Storable db pool ↔ Lossless db (.stakingPool pool.poolAddress) (.updated (some pool)) := by
  unfold Storable
  rw [store_stakingPool]
  show _ ↔ Kept _ _ _ _ (db.stakingPool.lookup pool.poolAddress)
  cases db.stakingPool.lookup pool.poolAddress with
  | some row =>
    simp [Kept, stakingPoolEffect, readStakingPool, StakingPoolRow.toPool, CachedStatus.getInner, eq_comm]
  | none =>
    obtain ⟨_, _, contract, _, _, _, minS, maxS, minP, maxP, period⟩ := pool
    cases contract <;> cases minS <;> cases maxS <;> cases minP <;> cases maxP <;> cases period <;>
      simp [Kept, stakingPoolEffect, readStakingPool, StakingPoolRow.toPool, StakingPoolRow.ofPool,
        CachedStatus.getInner]

theorem Simulates.storable (h : Simulates db s st) {a : Address} (hp : st.stakingPool a = some pool) :
    pool.poolAddress = a ∧ Storable db pool := by
  have hbase : db.store.stakingPool a = some pool → pool.poolAddress = a ∧ Storable db pool := by
    intro hb
    have ha : pool.poolAddress = a := by
      rw [store_stakingPool, readStakingPool] at hb
      obtain ⟨row, -, rfl⟩ := Option.map_eq_some_iff.mp hb
      rfl
    subst ha
    refine ⟨rfl, ?_⟩
    unfold Storable
    rw [hb]
  rw [← h.store] at hp
  have hp : overlaid (s.stakingPools.lookup a) (db.store.stakingPool a) = some pool := hp
  cases he : s.stakingPools.lookup a with
  | none => rw [he] at hp; exact hbase hp
  | some c =>
    rw [he] at hp
    have hl : Lossless db (.stakingPool a) c := h.lossless (.stakingPool a) c he
    rcases c with (_ | v) | v
    · cases hp
    · cases hp
      obtain rfl : pool.poolAddress = a := (h.wellKeyed (.stakingPool a) _ he).key_eq
      exact ⟨rfl, storable_iff.mpr hl⟩
    · cases hp
      obtain ⟨row', heff, hread⟩ := hl
      cases heff
      exact hbase ((store_stakingPool db a).trans hread)

theorem Storable.updateBlockNumber (h : Storable db pool) (n : BlockNumber) :
    Storable db { pool with updatedBlockNumber := n } := by
  unfold Storable at h ⊢
  cases hb : db.store.stakingPool pool.poolAddress with
  | none => simp only [hb] at h ⊢; exact h
  | some old =>
    simp only [hb] at h ⊢
    rw [h]

/-- An entry over a row that is not there was not filled by a read. -/
theorem Simulates.isUpdated (h : Simulates db s st) (hk : db.record k = none) (c : CachedStatus k.Value)
    (hc : s.entry k = some c) : c.isUpdated = true := by
  cases c with
  | updated v => rfl
  | cached v =>
    have hv := lossless_cached.mp (h.lossless k _ hc)
    rw [hk] at hv; cases hv

theorem Simulates.modifyStakingPool (h : Simulates db s st) (a : Address)
    {f : StakingPool → StakingPool} (haddr : ∀ pool, (f pool).poolAddress = pool.poolAddress)
    (hf : ∀ pool, st.stakingPool a = some pool → Storable db pool → Storable db (f pool)) :
    match (st.stakingPool a).map fun pool => st.setStakingPool a (f pool) with
    | some st' => ∃ s', (modifyStakingPool db a f).run s = (.ok (), s') ∧ Simulates db s' st'
    | none => ∃ e s', (modifyStakingPool db a f).run s = (.error e, s') ∧ Simulates db s' st := by
  have hrem : Remembers db s ((getStakingPool db a).run s).2 := getStakingPool_remembers a s
  cases hp : st.stakingPool a with
  | none =>
    obtain ⟨e, s₁, hrun, -⟩ := (getStakingPool_reads a).missing (by rw [h.store]; exact hp)
    rw [hrun] at hrem
    exact ⟨e, s₁, run_bind_of_error hrun, h.remembers hrem⟩
  | some pool =>
    obtain ⟨s₁, hrun, hv⟩ := (getStakingPool_reads a).found (by rw [h.store]; exact hp)
    rw [hrun] at hrem
    have h₁ : Simulates db s₁ st := h.remembers hrem
    obtain ⟨rfl, hstor⟩ := h.storable hp
    refine ⟨_, run_bind_of_ok hrun, h₁.sets (sets_stakingPool s₁ pool.poolAddress _)
      ⟨f pool, rfl, haddr pool⟩ ?_ ?_⟩
    · have hl := storable_iff.mp (hf pool hp hstor)
      rw [haddr pool] at hl; exact hl
    · rw [view_insert_stakingPool, ← h₁.store]; rfl

theorem lossless_updateAccount {account : Account}
    (h : ∀ old, db.store.account account.address = some old → account.accountType = old.accountType) :
    Lossless db (.account account.address) (.updated (some account)) := by
  have h' := h
  rw [store_account] at h'
  show Kept _ _ _ _ (db.account.lookup account.address)
  cases hrow : db.account.lookup account.address with
  | none => exact ⟨_, rfl, rfl⟩
  | some row =>
    rw [hrow] at h'
    refine ⟨_, rfl, ?_⟩
    have htype : account.accountType = row.accountType := h' _ rfl
    simp only [readAccount, Option.map_some, ← htype]; rfl

theorem lossless_storeContract {contract : Contract} (h : db.store.contract contract.address = none) :
    Lossless db (.contract contract.address) (.updated (some contract)) := by
  rw [store_contract, readContract, Option.map_eq_none_iff] at h
  show Kept _ _ _ _ (db.contract.lookup contract.address)
  rw [h]
  exact ⟨_, rfl, rfl⟩

theorem lossless_storeContractInstance {i : ContractInstance}
    (h : db.store.contractInstance i.instanceAddress = none) :
    Lossless db (.contractInstance i.instanceAddress) (.updated (some i)) := by
  rw [store_contractInstance, readContractInstance, Option.map_eq_none_iff, List.head?_eq_none_iff] at h
  show Kept _ _ _ _ (instanceRows db i.instanceAddress)
  rw [h]
  exact ⟨_, rfl, rfl⟩

theorem lossless_stakingAccount {a : StakingAccount} :
    Lossless db (.stakingAccount a.poolAddress a.accountAddress) (.updated (some a)) :=
  ⟨_, rfl, rfl⟩

/-- **A conforming write.** -/
theorem Simulates.write (h : Simulates db s st) (w : WriteOp) (hw : (RecordOp.write w).Conforms db st) :
    match w.apply st with
    | some st' => ∃ s', (w.run db).run s = (.ok (), s') ∧ Simulates db s' st'
    | none => ∃ e s', (w.run db).run s = (.error e, s') ∧ Simulates db s' st := by
  cases w with
  | updateAccount account =>
    refine ⟨_, rfl, h.sets (sets_account s _ _) ⟨account, rfl, rfl⟩ (lossless_updateAccount hw) ?_⟩
    rw [view_insert_account, ← h.store]; rfl
  | storeContract contract =>
    -- no entry was filled by a read, so the new value is the one that is kept
    have hkept := upsert_update (v := contract) (h.isUpdated (k := .contract contract.address) hw)
    refine ⟨_, by rw [WriteOp.run, storeContract, run_update, hkept],
      h.sets (sets_contract s _ _) ⟨contract, rfl, rfl⟩ (lossless_storeContract hw) ?_⟩
    rw [view_insert_contract, ← h.store]; rfl
  | storeContractInstance i =>
    have hkept := upsert_update (v := i) (h.isUpdated (k := .contractInstance i.instanceAddress) hw)
    refine ⟨_, by rw [WriteOp.run, storeContractInstance, run_update, hkept],
      h.sets (sets_contractInstance s _ _) ⟨i, rfl, rfl⟩ (lossless_storeContractInstance hw) ?_⟩
    rw [view_insert_contractInstance, ← h.store]; rfl
  | storeStateKeyValue a key value =>
    refine ⟨_, rfl, h.sets (sets_storage s a key _) trivial ⟨_, rfl, rfl⟩ ?_⟩
    rw [view_insert_storage s (a, key), ← h.store]; rfl
  | deleteStateKeyValue a key =>
    refine ⟨_, rfl, h.sets (sets_storage s a key _) trivial ⟨_, rfl, rfl⟩ ?_⟩
    rw [view_insert_storage s (a, key), ← h.store]; rfl
  | insertStakingPool pool =>
    refine ⟨_, rfl, h.sets (sets_stakingPool s _ _) ⟨pool, rfl, rfl⟩ (storable_iff.mp hw) ?_⟩
    rw [view_insert_stakingPool, ← h.store]; rfl
  | updateStakingPoolBlockNumber a n =>
    exact h.modifyStakingPool a (fun _ => rfl) fun _ _ hp => hp.updateBlockNumber n
  | updateContract i p n =>
    -- the pool is missing, so there is nothing to store
    refine h.modifyStakingPool p (fun _ => rfl) fun pool hp _ => ?_
    have hnone : st.stakingPool p = none := hw
    rw [hnone] at hp; cases hp
  | updateStakingAccount a =>
    refine ⟨_, rfl, h.sets (sets_stakingAccount s _ _ _) ⟨a, rfl, rfl⟩ lossless_stakingAccount ?_⟩
    rw [view_insert_stakingAccount s (a.poolAddress, a.accountAddress), ← h.store]; rfl
  | insertStakingAccount a p balance =>
    refine ⟨_, rfl, h.sets (sets_stakingAccount s p a _) ⟨⟨a, p, balance⟩, rfl, rfl⟩
      lossless_stakingAccount ?_⟩
    rw [view_insert_stakingAccount s (p, a), ← h.store]; rfl

/-- **The step lemma.** -/
theorem Simulates.step (h : Simulates db s st) (op : RecordOp) (hop : op.Conforms db st) :
    ((op.run db).run s).1.toOption = (op.plain st).1 ∧
    Simulates db ((op.run db).run s).2 (op.plain st).2 := by
  cases op with
  | read r =>
    refine ⟨?_, h.remembers (r.run_remembers s)⟩
    rw [← h.store]; exact (r.run_answers s).1
  | write w =>
    have hw := h.write w hop
    simp only [RecordOp.run, RecordOp.plain]
    cases hst : w.apply st with
    | some st' =>
      simp only [hst] at hw ⊢
      obtain ⟨s', hrun, hsim⟩ := hw
      rw [run_bind_of_ok hrun]; exact ⟨rfl, hsim⟩
    | none =>
      simp only [hst] at hw ⊢
      obtain ⟨e, s', hrun, hsim⟩ := hw
      rw [run_bind_of_error hrun]; exact ⟨rfl, hsim⟩

/-! ## A whole sequence -/

/-- **The run lemma.** -/
theorem Simulates.runRecordOps (ops : List RecordOp) :
    ∀ s st, Simulates db s st → AllConform db st ops → (runRecordOps db ops s).1 = (runPlain ops st).1 ∧
      Simulates db (runRecordOps db ops s).2 (runPlain ops st).2 := by
  induction ops with
  | nil => intro s st h _; exact ⟨rfl, h⟩
  | cons op ops ih =>
    rintro s st h ⟨hop, hops⟩
    obtain ⟨hreply, hsim⟩ := h.step op hop
    obtain ⟨hreplies, hsim'⟩ := ih _ _ hsim hops
    exact ⟨congrArg₂ List.cons hreply hreplies, hsim'⟩

/-- **A conforming sequence refines the plain store**: every answer is that of the last write of the
    record, or of the database, and a commit leaves the database with all the writes. -/
theorem refines_of_allConform (db : StateTables) (ops : List RecordOp)
    (h : AllConform db db.store ops) : Refines db ops := by
  obtain ⟨hreplies, hsim⟩ := Simulates.runRecordOps ops new db.store simulates_new h
  refine ⟨hreplies, fun u hu => ?_⟩
  have hrem : Remembers db (runRecordOps db ops new).2 u := hu.remembers
  exact (hsim.remembers hrem).commit

/-- A database with one account and one contract. -/
def smallDatabase : StateTables :=
  { StateTables.empty with
    account := (∅ : Table Address AccountRow).insert 1 ⟨.user, 10, 0⟩
    contract := (∅ : Table Address ContractRow).insert 2 ⟨1, 0, [], 1⟩ }

/-- A contract is deployed under a free address and an account is written. -/
def deployAndPay : List RecordOp :=
  [.read (.getContract 3), .write (.storeContract ⟨3, 1, 0, [7], 1⟩), .read (.getContract 3),
    .write (.updateAccount ⟨1, 4, 1, .user⟩), .write (.deleteStateKeyValue 3 [])]

theorem deployAndPay_refines :
    AllConform smallDatabase smallDatabase.store deployAndPay ∧ Refines smallDatabase deployAndPay :=
  have h : AllConform smallDatabase smallDatabase.store deployAndPay :=
    ⟨trivial, rfl, trivial, fun old hold => by cases hold; rfl, trivial, trivial⟩
  ⟨h, refines_of_allConform smallDatabase deployAndPay h⟩

/-- A contract is read, written and read again. -/
def readThenStore : List RecordOp :=
  [.read (.getContract 2), .write (.storeContract ⟨2, 1, 0, [7], 1⟩), .read (.getContract 2)]

/-- **The write is lost**: the second read answers with the old contract. -/
theorem readThenStore_not_refines : ¬ Refines smallDatabase readThenStore :=
  fun h => absurd h.1 (by decide)

end L1xCore.UpdatedState
