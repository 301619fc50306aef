import L1xCore.State.Records

/-!
# `State.Commit` — writing an overlay to the tables

`UpdatedState::commit` goes through the maps one after the other and writes every pending entry. It
stops at the first statement that fails. The maps are hash maps, so the order of the entries is
arbitrary; the result below does not depend on it.

## Contents

* `commit`, as the source has it, one function per kind of record;
* the **effect** of one entry on its row, for each kind (`accountEffect`, …), undefined where the
  statement fails;
* `commit_ok`/`commit_error` — a commit succeeds exactly when every effect is defined, and then every
  row has become the effect of its entry.
-/

namespace L1xCore.UpdatedState

variable {db : StateTables} {a : Address} {self : UpdatedState} {c : CachedStatus Account}

open Fallible CachedStatus List AList Option

/-! ## The source -/

def commitAccount : CachedStatus Account → StateTables.Write
  | .updated (some account) => StateTables.updateAccount account
  | .updated none => fail "Should never happen: Account is None"
  | .cached _ => pure ()

def commitContract : CachedStatus Contract → StateTables.Write
  | .updated (some contract) => StateTables.storeContract contract
  | .updated none => fail "Should never happen: Contract is None"
  | .cached _ => pure ()

def commitContractInstance : CachedStatus ContractInstance → StateTables.Write
  | .updated (some contractInstance) => StateTables.storeContractInstance contractInstance
  | .updated none => fail "Should never happen: ContractInstance is None"
  | .cached _ => pure ()

def commitContractState (instanceAddress : Address) (key : ContractInstanceKey) :
    CachedStatus (Option ContractInstanceValue) → StateTables.Write
  | .updated (some (some value)) => StateTables.storeStateKeyValue instanceAddress key value
  | .updated (some none) => StateTables.deleteStateKeyValue instanceAddress key
  | .updated none => StateTables.deleteStateKeyValue instanceAddress key
  | .cached _ => pure ()

def commitEvent : CachedStatus Event → StateTables.Write
  | .updated (some event) => StateTables.createEvent event
  | _ => pure ()

/-- An existing pool only gets its block number and, if it has one, its contract written. -/
def commitStakingPool (poolAddress : Address) : CachedStatus StakingPool → StateTables.Write
  | .updated (some pool) => do
    let db ← state
    if db.isStakingPoolExists poolAddress then
      StateTables.updateStakingPoolBlockNumber poolAddress pool.updatedBlockNumber
      match pool.contractInstanceAddress with
      | some contractInstanceAddress =>
        StateTables.updateContract contractInstanceAddress poolAddress pool.updatedBlockNumber
      | none => pure ()
    else
      StateTables.insertStakingPool pool
  | _ => pure ()

def commitStakingAccount : CachedStatus StakingAccount → StateTables.Write
  | .updated (some account) => do
    let db ← state
    if db.isStakingAccountExists account.accountAddress account.poolAddress then
      StateTables.updateStakingAccount account
    else
      StateTables.insertStakingAccount account.accountAddress account.poolAddress account.balance
  | _ => pure ()

def commitTransactionMetadata : CachedStatus TransactionMetadata → StateTables.Write
  | .updated (some metadata) => StateTables.storeTransactionMetadata metadata
  | _ => pure ()

def commit (self : UpdatedState) : StateTables.Write := do
  forEach self.accounts.entries fun e => commitAccount e.2
  forEach self.contracts.entries fun e => commitContract e.2
  forEach self.contractInstances.entries fun e => commitContractInstance e.2
  forEach self.contractStates.entries₂ fun e => commitContractState e.1.1 e.1.2 e.2
  forEach self.contractEvents commitEvent
  forEach self.stakingPools.entries fun e => commitStakingPool e.1 e.2
  forEach self.stakingAccounts.entries₂ fun e => commitStakingAccount e.2
  forEach self.transactionMetadatas commitTransactionMetadata

/-! ## The effect of one entry on its row -/

def accountEffect : CachedStatus Account → Option AccountRow → Option (Option AccountRow)
  | .updated (some acc), some row =>
    some (some { row with balance := acc.balance, nonce := acc.nonce })
  | .updated (some acc), none => some (some ⟨acc.accountType, acc.balance, acc.nonce⟩)
  | .updated none, _ => none
  | .cached _, row => some row

def contractEffect : CachedStatus Contract → Option ContractRow → Option (Option ContractRow)
  | .updated (some _), some _ => none
  | .updated (some c), none => some (some ⟨c.access, c.type, c.code, c.ownerAddress⟩)
  | .updated none, _ => none
  | .cached _, row => some row

/-- The rows of an instance are contracts with their owners, the latest row first. -/
def contractInstanceEffect :
    CachedStatus ContractInstance → List (Address × Address) → Option (List (Address × Address))
  | .updated (some i), rows =>
    match rows.lookup i.contractAddress with
    | some _ => none
    | none => some ((i.contractAddress, i.ownerAddress) :: rows)
  | .updated none, _ => none
  | .cached _, rows => some rows

def storageEffect : CachedStatus (Option ContractInstanceValue) →
    Option ContractInstanceValue → Option (Option ContractInstanceValue)
  | .updated v, _ => some v.join
  | .cached _, row => some row

def stakingPoolEffect :
    CachedStatus StakingPool → Option StakingPoolRow → Option (Option StakingPoolRow)
  | .updated (some pool), some row =>
    some (some { row with
      updatedBlockNumber := pool.updatedBlockNumber,
      contractInstanceAddress := pool.contractInstanceAddress.or row.contractInstanceAddress })
  | .updated (some pool), none => some (some (StakingPoolRow.ofPool pool))
  | _, row => some row

def stakingAccountEffect : CachedStatus StakingAccount → Option Balance → Option (Option Balance)
  | .updated (some a), _ => some (some a.balance)
  | _, row => some row

/-- A row after the commit of its entry, if it has one. -/
def applied {γ ν : Type} (effect : γ → ν → Option ν) (entry : Option γ) (row : ν) : ν :=
  entry.elim row fun c => (effect c row).getD row

/-! ## Each round of the loops has the effect of its entry -/

/-- The rows of an instance, in the order of the table. -/
def instanceRows (db : StateTables) (instanceAddress : Address) : List (Address × Address) :=
  db.contractInstanceContractCodeMap.entries.filterMap fun row =>
    if row.1.1 = instanceAddress then some (row.1.2, row.2) else none

theorem lookup_instanceRows (db : StateTables) (i c : Address) :
    (instanceRows db i).lookup c = db.contractInstanceContractCodeMap.lookup (i, c) := by
  show _ = db.contractInstanceContractCodeMap.entries.dlookup (i, c)
  unfold instanceRows
  induction db.contractInstanceContractCodeMap.entries with
  | nil => rfl
  | cons row rows ih =>
    obtain ⟨⟨i', c'⟩, owner⟩ := row
    by_cases hi : i' = i
    · subst hi
      rw [filterMap_cons, if_pos rfl]
      by_cases hc : c = c'
      · subst hc; rw [lookup_cons_self, dlookup_cons_eq]
      · rw [lookup_cons, beq_false_of_ne hc, ih, dlookup_cons_ne]
        simp [hc]
    · rw [filterMap_cons, if_neg hi, ih, dlookup_cons_ne]
      simp [Ne.symm hi]

theorem commitAccount_keyed (hc : Filed Account.address a c) :
    KeyedStep (fun (db : StateTables) a => db.account.lookup a)
      (fun db => { db with account := ∅ }) (fun e => commitAccount e.2)
      (fun _ c row => accountEffect c row) ⟨a, c⟩ := by
  intro db
  rcases c with (_ | acc) | v
  · exact ⟨_, db, rfl⟩
  · obtain rfl : acc.address = a := hc.key_eq
    cases hrow : db.account.lookup acc.address <;>
      · simp only [hrow, accountEffect]
        refine ⟨_, rfl, lookup_upsert_eq_update.trans ?_, rfl⟩
        rw [hrow]
        rfl
  · exact ⟨db, rfl, by simp, rfl⟩

theorem commitContract_keyed {c : CachedStatus Contract} (hc : Filed Contract.address a c) :
    KeyedStep (fun (db : StateTables) a => db.contract.lookup a)
      (fun db => { db with contract := ∅ }) (fun e => commitContract e.2)
      (fun _ c row => contractEffect c row) ⟨a, c⟩ := by
  intro db
  rcases c with (_ | contract) | v
  · exact ⟨_, db, rfl⟩
  · obtain rfl : contract.address = a := hc.key_eq
    simp only [contractEffect, commitContract, StateTables.storeContract, run_bind, run_state]
    cases hrow : db.contract.lookup contract.address with
    | some row => exact ⟨_, db, rfl⟩
    | none => exact ⟨_, rfl, lookup_insert_eq_update db.contract contract.address _, rfl⟩
  · exact ⟨db, rfl, by simp, rfl⟩

theorem commitContractInstance_keyed {c : CachedStatus ContractInstance}
    (hc : Filed ContractInstance.instanceAddress a c) :
    KeyedStep instanceRows (fun db => { db with contractInstanceContractCodeMap := ∅ })
      (fun e => commitContractInstance e.2) (fun _ c rows => contractInstanceEffect c rows)
      ⟨a, c⟩ := by
  intro db
  rcases c with (_ | i) | v
  · exact ⟨_, db, rfl⟩
  · obtain rfl : i.instanceAddress = a := hc.key_eq
    simp only [contractInstanceEffect, lookup_instanceRows, commitContractInstance,
      StateTables.storeContractInstance, run_bind, run_state]
    cases hrow : db.contractInstanceContractCodeMap.lookup
        (i.instanceAddress, i.contractAddress) with
    | some owner => exact ⟨_, db, rfl⟩
    | none =>
      refine ⟨_, rfl, ?_, rfl⟩
      funext a
      unfold instanceRows
      rw [entries_insert_of_notMem (lookup_eq_none.mp hrow), filterMap_cons, Function.update_apply]
      by_cases ha : a = i.instanceAddress
      · subst ha; simp
      · simp [ha, Ne.symm ha]
  · exact ⟨db, rfl, by simp, rfl⟩

theorem commitContractState_keyed {k : Address × ContractInstanceKey}
    {c : CachedStatus (Option ContractInstanceValue)} :
    KeyedStep (fun (db : StateTables) k => db.contractInstance.lookup k)
      (fun db => { db with contractInstance := ∅ }) (fun e => commitContractState e.1.1 e.1.2 e.2)
      (fun _ c row => storageEffect c row) ⟨k, c⟩ := by
  intro db
  rcases c with (_ | _ | value) | v
  · exact ⟨_, rfl, lookup_erase_eq_update, rfl⟩
  · exact ⟨_, rfl, lookup_erase_eq_update, rfl⟩
  · exact ⟨_, rfl, lookup_insert_eq_update db.contractInstance k value, rfl⟩
  · exact ⟨db, rfl, by simp, rfl⟩

theorem commitStakingPool_keyed {c : CachedStatus StakingPool} (hc : Filed StakingPool.poolAddress a c) :
    KeyedStep (fun (db : StateTables) a => db.stakingPool.lookup a)
      (fun db => { db with stakingPool := ∅ }) (fun e => commitStakingPool e.1 e.2)
      (fun _ c row => stakingPoolEffect c row) ⟨a, c⟩ := by
  intro db
  rcases c with (_ | pool) | v
  · exact ⟨db, rfl, by simp, rfl⟩
  · obtain rfl : pool.poolAddress = a := hc.key_eq
    cases hrow : db.stakingPool.lookup pool.poolAddress with
    | none =>
      simp only [stakingPoolEffect, commitStakingPool, StateTables.isStakingPoolExists,
        StateTables.insertStakingPool, run_bind, run_state, hrow, isSome_none, Bool.false_eq_true, if_false]
      exact ⟨_, rfl, lookup_insert_eq_update db.stakingPool pool.poolAddress _, rfl⟩
    | some row =>
      -- with a contract address the row is written twice
      simp only [stakingPoolEffect, commitStakingPool, StateTables.isStakingPoolExists,
        StateTables.updateStakingPoolBlockNumber, StateTables.updateStakingPoolRow, run_bind, run_state, hrow,
        isSome_some, if_true, run_update]
      have htwice : ∀ r r' : StakingPoolRow, (fun a' => ((db.stakingPool.insert pool.poolAddress
          r').insert pool.poolAddress r).lookup a') =
          Function.update (fun a' => db.stakingPool.lookup a') pool.poolAddress (some r) := by
        intro r r'
        rw [lookup_insert_eq_update, lookup_insert_eq_update, Function.update_idem]
      cases hci : pool.contractInstanceAddress with
      | none =>
        simp only [run_pure, none_or]
        exact ⟨_, rfl, lookup_insert_eq_update db.stakingPool pool.poolAddress _, rfl⟩
      | some address =>
        simp only [StateTables.updateContract, StateTables.updateStakingPoolRow, run_update, lookup_insert,
          some_or]
        exact ⟨_, rfl, htwice _ _, rfl⟩
  · exact ⟨db, rfl, by simp, rfl⟩

theorem commitStakingAccount_keyed {k : Address × Address} {c : CachedStatus StakingAccount}
    (hc : Filed (fun v => (v.poolAddress, v.accountAddress)) k c) :
    KeyedStep (fun (db : StateTables) k => db.stakingAccount.lookup k)
      (fun db => { db with stakingAccount := ∅ }) (fun e => commitStakingAccount e.2)
      (fun _ c row => stakingAccountEffect c row) ⟨k, c⟩ := by
  intro db
  rcases c with (_ | a) | v
  · exact ⟨db, rfl, by simp, rfl⟩
  · obtain rfl : (a.poolAddress, a.accountAddress) = k := hc.key_eq
    have hins := lookup_insert_eq_update db.stakingAccount (a.poolAddress, a.accountAddress)
      a.balance
    cases hrow : db.stakingAccount.lookup (a.poolAddress, a.accountAddress) <;>
      · simp only [stakingAccountEffect, commitStakingAccount, StateTables.isStakingAccountExists,
          StateTables.insertStakingAccount, StateTables.updateStakingAccount, run_bind, run_state, run_update,
          hrow, isSome_none, isSome_some, Bool.false_eq_true, if_false, if_true]
        exact ⟨_, rfl, hins, rfl⟩
  · exact ⟨db, rfl, by simp, rfl⟩

/-! ## The two lists -/

/-- The row written for an event. -/
def eventRow (event : Event) : EventRow :=
  ⟨event.transactionHash, event.blockNumber, event.contractAddress, event.eventData,
    event.eventType, (event.topics.getD []).take 4⟩

theorem run_commitEvent {c : CachedStatus Event} :
    (commitEvent c).run db = (.ok (), { db with event := db.event ++ c.pending.toList.map eventRow }) := by
  rcases c with (_ | event) | v
  · simp [commitEvent, pending]
  · rfl
  · simp [commitEvent, pending]

theorem run_forEach_commitEvent (l : List (CachedStatus Event)) (db : StateTables) :
    (forEach l commitEvent).run db =
      (.ok (), { db with event := db.event ++ (l.filterMap pending).map eventRow }) := by
  induction l generalizing db with
  | nil => simp [forEach]
  | cons c l ih =>
    rw [forEach, run_bind_of_ok run_commitEvent, ih]
    cases hc : c.pending <;> simp [hc]

theorem run_forEach_commitTransactionMetadata (l : List (CachedStatus TransactionMetadata))
    (db : StateTables) :
    ∃ db', (forEach l commitTransactionMetadata).run db = (.ok (), db') ∧
      { db' with transactionMetadata := ∅ } = { db with transactionMetadata := ∅ } ∧
      ∀ h, db'.transactionMetadata.lookup h = (db.transactionMetadata.lookup h).or
        ((l.filterMap pending).find? (·.transactionHash = h)) := by
  induction l generalizing db with
  | nil => exact ⟨db, rfl, rfl, fun h => by simp⟩
  | cons c l ih =>
    rcases c with (_ | metadata) | v
    · exact ih db
    · obtain ⟨db', hrun, hrest, hget⟩ := ih { db with
        transactionMetadata := db.transactionMetadata.upsert metadata.transactionHash id metadata }
      refine ⟨db', hrun, hrest, fun h => ?_⟩
      rw [hget, lookup_upsert]
      by_cases hh : h = metadata.transactionHash
      · subst hh
        cases db.transactionMetadata.lookup metadata.transactionHash <;> simp [pending]
      · have hne : ¬ metadata.transactionHash = h := fun e => hh e.symm
        simp [pending, hh, hne]
    · exact ih db

/-! ## The whole commit -/

/-- No pending contract or instance has its row already. -/
structure Committable (s : UpdatedState) (db : StateTables) : Prop where
  contract : ∀ a c, s.contracts.lookup a = some c → (contractEffect c (db.contract.lookup a)).isSome
  contractInstance : ∀ a c, s.contractInstances.lookup a = some c →
    (contractInstanceEffect c (instanceRows db a)).isSome

/-- `db'` is `db` with every entry of the overlay put into effect. -/
structure Committed (s : UpdatedState) (db db' : StateTables) : Prop where
  account : ∀ a, db'.account.lookup a = applied accountEffect (s.accounts.lookup a) (db.account.lookup a)
  contract : ∀ a, db'.contract.lookup a = applied contractEffect (s.contracts.lookup a) (db.contract.lookup a)
  contractInstance : ∀ a, instanceRows db' a =
    applied contractInstanceEffect (s.contractInstances.lookup a) (instanceRows db a)
  storage : ∀ k, db'.contractInstance.lookup k =
    applied storageEffect (s.contractStates.lookup₂ k.1 k.2) (db.contractInstance.lookup k)
  stakingPool : ∀ a, db'.stakingPool.lookup a =
    applied stakingPoolEffect (s.stakingPools.lookup a) (db.stakingPool.lookup a)
  stakingAccount : ∀ k, db'.stakingAccount.lookup k =
    applied stakingAccountEffect (s.stakingAccounts.lookup₂ k.1 k.2)
      (db.stakingAccount.lookup k)
  event : db'.event = db.event ++ (s.contractEvents.filterMap pending).map eventRow
  transactionMetadata : ∀ h, db'.transactionMetadata.lookup h =
    (db.transactionMetadata.lookup h).or
      ((s.transactionMetadatas.filterMap pending).find? (·.transactionHash = h))

theorem accountEffect_isSome (hc : Filed Account.address a c) (row : Option AccountRow) :
    (accountEffect c row).isSome := by
  rcases c with (_ | acc) | v
  · obtain ⟨_, hv, -⟩ := hc; cases hv
  · cases row <;> rfl
  · rfl

theorem stakingPoolEffect_isSome {c : CachedStatus StakingPool} {row : Option StakingPoolRow} :
    (stakingPoolEffect c row).isSome := by
  rcases c with (_ | pool) | v <;> cases row <;> rfl

theorem stakingAccountEffect_isSome {c : CachedStatus StakingAccount} {row : Option Balance} :
    (stakingAccountEffect c row).isSome := by
  rcases c with (_ | a) | v <;> rfl

theorem storageEffect_isSome {c : CachedStatus (Option ContractInstanceValue)}
    {row : Option ContractInstanceValue} : (storageEffect c row).isSome := by
  cases c <;> rfl

variable (hs : self.WellKeyed)

include hs

theorem run_commitAccounts (db : StateTables) :
    ∃ db', (forEach self.accounts.entries fun e => commitAccount e.2).run db = (.ok (), db') ∧
      { db' with account := ∅ } = { db with account := ∅ } ∧
      ∀ a, db'.account.lookup a = applied accountEffect (self.accounts.lookup a) (db.account.lookup a) :=
  run_forEach_keyed self.accounts.nodupKeys
    (fun _ he => commitAccount_keyed (hs (.account _) _ (mem_entries.mp he))) db
    (fun _ he => accountEffect_isSome (hs (.account _) _ (mem_entries.mp he)) _)

/-- The loop over the contracts, when every contract can be written. -/
theorem run_commitContracts
    (hok : ∀ e ∈ self.contracts.entries, (contractEffect e.2 (db.contract.lookup e.1)).isSome) :
    ∃ db', (forEach self.contracts.entries fun e => commitContract e.2).run db = (.ok (), db') ∧
      { db' with contract := ∅ } = { db with contract := ∅ } ∧
      ∀ a, db'.contract.lookup a = applied contractEffect (self.contracts.lookup a) (db.contract.lookup a) :=
  run_forEach_keyed self.contracts.nodupKeys
    (fun _ he => commitContract_keyed (hs (.contract _) _ (mem_entries.mp he))) db hok

/-- **A commit that succeeds.** The loops touch one table each, so every loop finds its table as it was
    before the commit. -/
theorem commit_ok (hc : self.Committable db) :
    ∃ db', (commit self).run db = (.ok (), db') ∧ Committed self db db' := by
  obtain ⟨db₁, run₁, rest₁, get₁⟩ := run_commitAccounts hs db
  simp only [StateTables.mk.injEq, true_and] at rest₁
  obtain ⟨c₁, i₁, v₁, p₁, a₁, e₁, m₁⟩ := rest₁
  have hcontracts : ∀ e ∈ self.contracts.entries, (contractEffect e.2 (db₁.contract.lookup e.1)).isSome := by
    intro e he
    rw [c₁]
    exact hc.contract e.1 e.2 (mem_entries.mp he)
  obtain ⟨db₂, run₂, rest₂, get₂⟩ := run_commitContracts hs hcontracts
  simp only [StateTables.mk.injEq, true_and] at rest₂
  obtain ⟨u₂, i₂, v₂, p₂, a₂, e₂, m₂⟩ := rest₂
  have rows₂ : instanceRows db₂ = instanceRows db := by
    funext a; simp only [instanceRows, i₂, i₁]
  obtain ⟨db₃, run₃, rest₃, get₃⟩ := run_forEach_keyed self.contractInstances.nodupKeys
    (fun _ he => commitContractInstance_keyed (hs (.contractInstance _) _ (mem_entries.mp he))) db₂
    (fun e he => by rw [rows₂]; exact hc.contractInstance e.1 e.2 (mem_entries.mp he))
  simp only [StateTables.mk.injEq, true_and] at rest₃
  obtain ⟨u₃, c₃, v₃, p₃, a₃, e₃, m₃⟩ := rest₃
  obtain ⟨db₄, run₄, rest₄, get₄⟩ := run_forEach_keyed self.contractStates.nodupKeys_entries₂
    (fun e _ => commitContractState_keyed) db₃ (fun e _ => storageEffect_isSome)
  simp only [StateTables.mk.injEq, true_and] at rest₄
  obtain ⟨u₄, c₄, i₄, p₄, a₄, e₄, m₄⟩ := rest₄
  have run₅ := run_forEach_commitEvent self.contractEvents db₄
  obtain ⟨db₆, run₆, rest₆, get₆⟩ := run_forEach_keyed self.stakingPools.nodupKeys
    (fun _ he => commitStakingPool_keyed (hs (.stakingPool _) _ (mem_entries.mp he)))
    { db₄ with event := db₄.event ++
        (self.contractEvents.filterMap pending).map eventRow }
    (fun e _ => stakingPoolEffect_isSome)
  simp only [StateTables.mk.injEq, true_and] at rest₆
  obtain ⟨u₆, c₆, i₆, v₆, a₆, e₆, m₆⟩ := rest₆
  obtain ⟨db₇, run₇, rest₇, get₇⟩ := run_forEach_keyed self.stakingAccounts.nodupKeys_entries₂
    (fun _ he => commitStakingAccount_keyed (hs (.stakingAccount _ _) _ (mem_entries₂.mp he))) db₆
    (fun e _ => stakingAccountEffect_isSome)
  simp only [StateTables.mk.injEq, true_and] at rest₇
  obtain ⟨u₇, c₇, i₇, v₇, p₇, e₇, m₇⟩ := rest₇
  obtain ⟨db₈, run₈, rest₈, get₈⟩ := run_forEach_commitTransactionMetadata self.transactionMetadatas db₇
  simp only [StateTables.mk.injEq, and_true] at rest₈
  obtain ⟨u₈, c₈, i₈, v₈, p₈, a₈, e₈⟩ := rest₈
  refine ⟨db₈, ?_, ?_, ?_, ?_, ?_, ?_, ?_, ?_, ?_⟩
  · rw [commit, run_bind_of_ok run₁, run_bind_of_ok run₂, run_bind_of_ok run₃, run_bind_of_ok run₄,
      run_bind_of_ok run₅, run_bind_of_ok run₆, run_bind_of_ok run₇, run₈]
  · intro a; rw [u₈, u₇, u₆]; exact (congrArg _ (u₄.trans (u₃.trans u₂))).trans (get₁ a)
  · intro a; rw [c₈, c₇, c₆]
    refine (congrArg _ (c₄.trans c₃)).trans ((get₂ a).trans ?_)
    rw [c₁]
  · intro a
    have hrows : instanceRows db₈ a = instanceRows db₃ a := by
      simp only [instanceRows, i₈, i₇, i₆, i₄]
    rw [hrows, get₃, rows₂]; rfl
  · intro k; rw [v₈, v₇, v₆, get₄ k, v₃, v₂, v₁, dlookup_entries₂]; rfl
  · intro a; rw [p₈, p₇, get₆ a]
    show applied stakingPoolEffect _ (db₄.stakingPool.lookup a) = _
    rw [p₄, p₃, p₂, p₁]; rfl
  · intro k; rw [a₈, get₇ k, dlookup_entries₂, a₆]
    show applied stakingAccountEffect _ (db₄.stakingAccount.lookup k) = _
    rw [a₄, a₃, a₂, a₁]
  · rw [e₈, e₇, e₆, e₄, e₃, e₂, e₁]
  · intro h; rw [get₈ h, m₇, m₆]
    show (db₄.transactionMetadata.lookup h).or _ = _
    rw [m₄, m₃, m₂, m₁]

/-- **A commit that fails**: at the first contract, or else instance, whose row is there already. -/
theorem commit_error (hc : ¬ self.Committable db) : ∃ e db', (commit self).run db = (.error e, db') := by
  obtain ⟨db₁, run₁, rest₁, -⟩ := run_commitAccounts hs db
  simp only [StateTables.mk.injEq, true_and] at rest₁
  obtain ⟨c₁, i₁, -⟩ := rest₁
  by_cases hcon : ∀ e ∈ self.contracts.entries, (contractEffect e.2 (db.contract.lookup e.1)).isSome
  · have hcontracts : ∀ e ∈ self.contracts.entries,
        (contractEffect e.2 (db₁.contract.lookup e.1)).isSome := by
      intro e he
      rw [c₁]
      exact hcon e he
    obtain ⟨db₂, run₂, rest₂, -⟩ := run_commitContracts hs hcontracts
    simp only [StateTables.mk.injEq, true_and] at rest₂
    obtain ⟨-, i₂, -⟩ := rest₂
    have rows₂ : instanceRows db₂ = instanceRows db := by
      funext a; simp only [instanceRows, i₂, i₁]
    have hbad : ∃ e ∈ self.contractInstances.entries,
        contractInstanceEffect e.2 (instanceRows db₂ e.1) = none := by
      by_contra hall
      refine hc ⟨fun a c h => hcon ⟨a, c⟩ (mem_entries.mpr h), fun a c h => ?_⟩
      rw [← rows₂, isSome_iff_ne_none]
      exact fun hnone => hall ⟨⟨a, c⟩, mem_entries.mpr h, hnone⟩
    obtain ⟨e, db₃, run₃⟩ := run_forEach_keyed_error self.contractInstances.nodupKeys
      (fun _ he => commitContractInstance_keyed (hs (.contractInstance _) _ (mem_entries.mp he)))
      db₂ hbad
    exact ⟨e, db₃, by
      rw [commit, run_bind_of_ok run₁, run_bind_of_ok run₂, run_bind_of_error run₃]⟩
  · have hbad : ∃ e ∈ self.contracts.entries, contractEffect e.2 (db₁.contract.lookup e.1) = none := by
      rw [c₁]
      by_contra hall
      refine hcon fun e he => isSome_iff_ne_none.mpr fun hnone => hall ⟨e, he, hnone⟩
    obtain ⟨e, db₂, run₂⟩ := run_forEach_keyed_error self.contracts.nodupKeys
      (fun _ he => commitContract_keyed (hs (.contract _) _ (mem_entries.mp he))) db₁ hbad
    exact ⟨e, db₂, by rw [commit, run_bind_of_ok run₁, run_bind_of_error run₂]⟩

end L1xCore.UpdatedState
