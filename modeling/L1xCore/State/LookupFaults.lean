import L1xCore.Lib.Related
import L1xCore.State.Rules
import L1xCore.State.StakingOutcomes

/-!
# `State.LookupFaults` — operations on a database that does not always answer

A lookup can fail for other reasons than that there is no record: the connection is lost, or a row cannot be
decoded. `UpdatedState` gets an `Err` then, as it does for a missing record. Here `transfer`, `stake` and
`mint` run over a database with any set of failing lookups (`FaultyTables`). An operation looks up no record
twice unless the first time was an end of the operation, so the faults are given by record.

An `Err` is all that these operations see. So with failing lookups they do what they would do over the tables
without the records in question (`StateTables.without`), and differ only in the errors they return
(`MoneyOp.mirrors`).
-/

namespace L1xCore

variable {s : UpdatedState} {α : Type} {k : RecordKey}

/-- The lookups that fail, with their errors. -/
def Faults := RecordKey → Option Error

/-- What a lookup returns. -/
def Faults.answer {α : Type} (f : Faults) (k : RecordKey) (stored : Except Error α) : Except Error α :=
  match f k with
  | some e => .error e
  | none => stored

namespace UpdatedState

open Fallible

/-- Tables with failing lookups. -/
structure FaultyTables where
  tables : StateTables
  faults : Faults

instance : Lookups FaultyTables where
  getAccount db a := db.faults.answer (.account a) (db.tables.getAccount a)
  getStakingPool db p := db.faults.answer (.stakingPool p) (db.tables.getStakingPool p)
  getStakingAccount db a p := db.faults.answer (.stakingAccount p a) (db.tables.getStakingAccount a p)

/-- The operations in question. -/
inductive MoneyOp where
  | transfer (fromAddress toAddress : Address) (amount : Balance)
  | stake (poolAddress accountAddress : Address) (blockNumber : BlockNumber) (amount : Balance)
  | mint (amount : Balance) (toAddress : Address)

namespace MoneyOp

def run {D : Type} [Lookups D] (db : D) : MoneyOp → StateOp Unit
  | .transfer a b amount => UpdatedState.transfer db a b amount
  | .stake p a n amount => UpdatedState.stake db p a n amount
  | .mint amount a => UpdatedState.mint db amount a

def runFaulty (db : StateTables) (f : Faults) (m : MoneyOp) : StateOp Unit := m.run (⟨db, f⟩ : FaultyTables)

/-- Without faults these are the operations of the overlay. -/
theorem runFaulty_none (db : StateTables) (m : MoneyOp) : m.runFaulty db (fun _ => none) = m.run db := by
  cases m <;> rfl

end MoneyOp

end UpdatedState

/-! ## What the lookups show -/

namespace StateTables

variable (db : StateTables) (f : Faults) (a : Address)

/-- The tables without the records whose lookups fail. -/
def without : StateTables :=
  { db with
    account := db.account.retain fun a row => if (f (.account a)).isSome then none else some row
    stakingPool := db.stakingPool.retain fun a row =>
      if (f (.stakingPool a)).isSome then none else some row
    stakingAccount := db.stakingAccount.retain fun k balance =>
      if (f (.stakingAccount k.1 k.2)).isSome then none else some balance }

theorem getAccount_without :
    (f.answer (.account a) (db.getAccount a)).toOption = ((db.without f).getAccount a).toOption := by
  unfold getAccount without Faults.answer
  rw [AList.lookup_retain]
  cases f (.account a) with
  | none | some => cases db.account.lookup a <;> rfl

theorem getStakingPool_without :
    (f.answer (.stakingPool a) (db.getStakingPool a)).toOption =
      ((db.without f).getStakingPool a).toOption := by
  unfold getStakingPool without Faults.answer
  rw [AList.lookup_retain]
  cases f (.stakingPool a) with
  | none | some => cases db.stakingPool.lookup a <;> rfl

theorem getStakingAccount_without (p : Address) :
    (f.answer (.stakingAccount p a) (db.getStakingAccount a p)).toOption =
      ((db.without f).getStakingAccount a p).toOption := by
  unfold getStakingAccount without Faults.answer
  rw [AList.lookup_retain]
  cases f (.stakingAccount p a) with
  | none | some => cases db.stakingAccount.lookup (p, a) <;> rfl

theorem answer_some {f : Faults} {stored : Except Error α} {v : α} (h : (f.answer k stored).toOption = some v) :
    stored.toOption = some v := by
  unfold Faults.answer at h
  cases hf : f k with
  | none =>
    rw [hf] at h
    exact h
  | some e =>
    rw [hf] at h
    cases h

theorem record_of_without {v : k.Value} (h : (db.without f).record k = some v) : db.record k = some v := by
  cases k with
  | account a => exact answer_some ((getAccount_without db f a).trans h)
  | contract | contractInstance | storage => exact h
  | stakingPool a => exact answer_some ((getStakingPool_without db f a).trans h)
  | stakingAccount p a => exact answer_some ((getStakingAccount_without db f a p).trans h)

end StateTables

namespace UpdatedState

open Fallible

variable {db : StateTables} {f : Faults} (m : MoneyOp)

theorem readThrough_mirrors {entry : UpdatedState → Option (CachedStatus α)} {removed : Error}
    {fetch fetch' : Except Error α} {remember : α → UpdatedState → UpdatedState}
    (h : fetch.toOption = fetch'.toOption) :
    Mirrors (readThrough entry removed fetch remember) (readThrough entry removed fetch' remember) := by
  intro s
  rw [run_readThrough, run_readThrough]
  cases entry s with
  | some cached => exact ⟨rfl, rfl⟩
  | none =>
    rw [h]
    exact ⟨rfl, rfl⟩

namespace FaultyTables

variable {a : Address} {p : Address}

theorem getAccount_mirrors : Mirrors (getAccount (⟨db, f⟩ : FaultyTables) a) (getAccount (db.without f) a) :=
  readThrough_mirrors (db.getAccount_without f a)

theorem getStakingPool_mirrors :
    Mirrors (getStakingPool (⟨db, f⟩ : FaultyTables) p) (getStakingPool (db.without f) p) :=
  readThrough_mirrors (db.getStakingPool_without f p)

theorem getStakingAccount_mirrors :
    Mirrors (getStakingAccount (⟨db, f⟩ : FaultyTables) a p) (getStakingAccount (db.without f) a p) :=
  readThrough_mirrors (db.getStakingAccount_without f a p)

variable {amount : Balance} {b : Address}

theorem mint_mirrors : Mirrors (mint (⟨db, f⟩ : FaultyTables) amount a) (mint (db.without f) amount a) :=
  getAccount_mirrors.bind fun _ => .refl _

theorem transfer_mirrors :
    Mirrors (transfer (⟨db, f⟩ : FaultyTables) a b amount) (transfer (db.without f) a b amount) :=
  getAccount_mirrors.bind fun _ => (Mirrors.refl _).bind fun _ =>
    (getAccount_mirrors.outcome_bind (fun _ => .refl _) fun _ _ => .refl _).bind fun _ => .refl _

theorem checkPoolBalance_mirrors {pool : StakingPool} :
    Mirrors (checkPoolBalance (⟨db, f⟩ : FaultyTables) pool p amount)
      (checkPoolBalance (db.without f) pool p amount) := by
  unfold checkPoolBalance
  cases pool.maxPoolBalance with
  | none => exact .refl _
  | some maxPoolBalance =>
    exact (getAccount_mirrors.bind fun _ => .refl _).bind fun _ => .refl _

theorem stake_mirrors {n : BlockNumber} :
    Mirrors (stake (⟨db, f⟩ : FaultyTables) p a n amount) (stake (db.without f) p a n amount) := by
  have hnote : Mirrors (updateStakingPoolBlockNumber (⟨db, f⟩ : FaultyTables) p n)
      (updateStakingPoolBlockNumber (db.without f) p n) :=
    getStakingPool_mirrors.bind fun _ => .refl _
  refine getStakingPool_mirrors.bind fun pool => (Mirrors.refl _).bind fun _ =>
    checkPoolBalance_mirrors.bind fun _ => transfer_mirrors.bind fun _ => ?_
  refine getStakingAccount_mirrors.outcome_bind (fun found => ?_) fun _ _ => ?_
  · exact (Mirrors.refl _).bind fun _ => (Mirrors.refl _).bind fun _ => hnote
  · exact (Mirrors.refl _).bind fun _ => (Mirrors.refl _).bind fun _ => hnote

end FaultyTables

/-- **A failed lookup is taken for a missing record.** -/
theorem MoneyOp.mirrors : Mirrors (m.runFaulty db f) (m.run (db.without f)) := by
  cases m with
  | transfer a b amount => exact FaultyTables.transfer_mirrors
  | stake p a n amount => exact FaultyTables.stake_mirrors
  | mint amount a => exact FaultyTables.mint_mirrors

theorem MoneyOp.run_moves {R : UpdatedState → UpdatedState → Prop} [Std.Refl R]
    [IsTrans UpdatedState R] (h : TokenRule db R) (m : MoneyOp) : Moves R (m.run db) := by
  cases m with
  | transfer a b amount => exact h.keyed.transfer a b amount
  | stake p a n amount => exact h.keyed.stake p a n amount
  | mint amount a => exact h.keyed.mint amount a

theorem MoneyOp.run_evolves : Moves Evolves (m.run db) := by
  cases m with
  | transfer a b amount => exact tokens_evolve.transfer a b amount
  | stake p a n amount => exact tokens_evolve.stake p a n amount
  | mint amount a => exact tokens_evolve.mint amount a

/-! ## Overlays in use -/

/-- What `s'` has cached was cached in `s` or is stored. -/
def CachesFrom (db : StateTables) (s s' : UpdatedState) : Prop :=
  ∀ k v, s'.entry k = some (.cached v) → s.entry k = some (.cached v) ∨ db.record k = some v

instance (db : StateTables) : Std.Refl (CachesFrom db) := ⟨fun _ _ _ h => .inl h⟩

instance (db : StateTables) : IsTrans UpdatedState (CachesFrom db) :=
  ⟨fun _ _ _ h₁ h₂ k v h => (h₂ k v h).elim (h₁ k v) .inr⟩

theorem cachesFrom_rule {shown : StateTables}
    (h : ∀ k (v : RecordKey.Value k), shown.record k = some v → db.record k = some v) :
    StepRule shown (CachesFrom db) where
  remembers hr := by
    intro k v hv
    rcases hr.entry k with he | ⟨-, w, he, hw⟩
    · exact .inl (he.symm.trans hv)
    · cases he.symm.trans hv
      exact .inr (h k v hw)
  sets {s s' k w} hs := by
    intro k' v hv
    by_cases hk : k' = k
    · subst hk
      cases hs.entry_self.symm.trans hv
    · exact .inl ((hs.entry_of_ne k' hk).symm.trans hv)
  lists hsame := by
    intro k v hv
    exact .inl ((hsame k).symm.trans hv)
  merge {s c} hc := by
    intro k v hv
    rw [entry_merge, Option.or_eq_some_iff] at hv
    rcases hv with hv | ⟨-, hv⟩
    · exact hc k v hv
    · exact .inl hv

/-- An overlay over `db`: its entries are filed under their keys, and what it has cached is stored. -/
structure Overlays (s : UpdatedState) (db : StateTables) : Prop where
  wellKeyed : s.WellKeyed
  cached : ∀ k v, s.entry k = some (.cached v) → db.record k = some v

theorem Overlays.step {s' : UpdatedState} (h : s.Overlays db) (hevolves : s.Evolves s')
    (hcaches : CachesFrom db s s') : s'.Overlays db :=
  ⟨hevolves.wellKeyed h.wellKeyed, fun k v hv => (hcaches k v hv).elim (h.cached k v) id⟩

theorem overlays_new : Overlays .new db := by
  refine ⟨wellKeyed_new, ?_⟩
  intro k v h
  rw [entry_new] at h
  cases h

theorem Overlays.runFaulty (h : s.Overlays db) (f : Faults) (m : MoneyOp) :
    ((m.runFaulty db f).run s).2.Overlays db := by
  have hrule : TokenRule (db.without f) (CachesFrom db) :=
    (cachesFrom_rule fun k v => db.record_of_without f).tokenRule
  exact h.step (m.mirrors.moves m.run_evolves s) (m.mirrors.moves (m.run_moves hrule) s)

/-- What may be done with an overlay: any operation, and transfers, stakes and mints with failing lookups. -/
inductive Act where
  | plain (op : Op)
  | faulty (m : MoneyOp) (f : Faults)

def Act.exec (crypto : Crypto) (db : StateTables) : Act → UpdatedState → UpdatedState
  | .plain op, s => op.exec crypto db s
  | .faulty m f, s => ((m.runFaulty db f).run s).2

def runActs (crypto : Crypto) (db : StateTables) (acts : List Act) (s : UpdatedState) : UpdatedState :=
  acts.foldl (fun s act => act.exec crypto db s) s

theorem Overlays.exec (h : s.Overlays db) (crypto : Crypto) (act : Act) :
    (act.exec crypto db s).Overlays db := by
  cases act with
  | plain op =>
    have hrule : StepRule db (CachesFrom db) := cachesFrom_rule fun _ _ hv => hv
    exact h.step (op.exec_evolves crypto s) (hrule.keyed.exec crypto op s)
  | faulty m f => exact h.runFaulty f m

/-- **Every run** leaves an overlay over the tables. -/
theorem overlays_runActs {crypto : Crypto} {acts : List Act} : (runActs crypto db acts .new).Overlays db := by
  have hrun : ∀ s, s.Overlays db → (runActs crypto db acts s).Overlays db := by
    induction acts with
    | nil =>
      intro s hs
      exact hs
    | cons act acts ih =>
      intro s hs
      exact ih _ (hs.exec crypto act)
  exact hrun .new overlays_new

end UpdatedState

end L1xCore
