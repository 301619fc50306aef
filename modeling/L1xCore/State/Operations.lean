import L1xCore.State.Records

/-!
# `State.Operations` — every operation of the overlay, and what all of them keep

The public interface of `UpdatedState` as a type: the record reads and writes (`ReadOp`, `WriteOp`), the
other questions (`Query`), and all operations together with nested checkpoints (`Op`). Contracts call
each other on clones of the overlay, so a checkpoint is itself an operation.
-/

namespace L1xCore

open AList

variable {k : RecordKey} {removed : Error} {s s' c : UpdatedState} {f : StakingPool → StakingPool}
  {p a : Address} {fetch : Except Error k.Value} {remember : k.Value → UpdatedState → UpdatedState}

/-- The records that token and staking operations write. -/
def RecordKey.isToken : RecordKey → Bool
  | .account _ => true
  | .stakingPool _ => true
  | .stakingAccount _ _ => true
  | _ => false

namespace UpdatedState

open Fallible

variable {db : StateTables} {α : Type} (crypto : Crypto)

/-! ## Reads -/

theorem readThrough_remembers (hfetch : db.record k = fetch.toOption)
    (hr : ∀ s v, s.entry k = none → Sets s k (.cached v) (remember v s)) :
    Moves (Remembers db) (readThrough (·.entry k) removed fetch remember) := by
  intro s
  unfold readThrough
  cases he : s.entry k with
  | some cached =>
    cases hg : cached.getInner <;> simp only [run_bind, run_state, he, hg] <;>
      exact refl_of (Remembers db) s
  | none =>
    cases hf : fetch with
    | error e => simp only [run_bind, run_state, he]; exact refl_of (Remembers db) s
    | ok v =>
      simp only [run_bind, run_state, he]
      exact (hr s v he).remembers he (by rw [hfetch, hf]; rfl)

/-- After a successful read there is an entry, and it holds what was answered. -/
theorem readThrough_entry (hr : ∀ s v, s.entry k = none → Sets s k (.cached v) (remember v s)) {v : k.Value}
    (h : (readThrough (·.entry k) removed fetch remember).run s = (.ok v, s')) :
    ∃ c, s'.entry k = some c ∧ c.getInner = some v := by
  unfold readThrough at h
  cases he : s.entry k with
  | some cached =>
    cases hg : cached.getInner <;> simp only [run_bind, run_state, he, hg] at h <;> cases h
    exact ⟨cached, he, hg⟩
  | none =>
    cases hf : fetch <;> simp only [run_bind, run_state, he, hf] at h <;> cases h
    exact ⟨_, (hr s v he).entry_self, rfl⟩

section

variable (a : Address)

theorem getAccount_remembers : Moves (Remembers db) (getAccount db a) :=
  readThrough_remembers (k := .account a) rfl fun s v _ => sets_account s a (.cached v)

theorem getContract_remembers : Moves (Remembers db) (getContract db a) :=
  readThrough_remembers (k := .contract a) rfl fun s v he => by
    rw [upsert_of_none he]; exact sets_contract s a (.cached v)

theorem getContractInstance_remembers : Moves (Remembers db) (getContractInstance db a) :=
  readThrough_remembers (k := .contractInstance a) rfl fun s v he => by
    rw [upsert_of_none he]; exact sets_contractInstance s a (.cached v)

theorem getStateKeyValue_remembers (key : ContractInstanceKey) :
    Moves (Remembers db) (getStateKeyValue db a key) := by
  intro s
  cases he : s.contractStates.lookup₂ a key with
  | some c =>
    simp only [getStateKeyValue, run_bind, run_state, he]; exact refl_of (Remembers db) s
  | none =>
    simp only [getStateKeyValue, run_bind, run_state, he, run_update, run_pure, upsert₂_of_none he]
    exact (sets_storage s a key _).remembers he rfl

theorem getStakingPool_remembers : Moves (Remembers db) (getStakingPool db a) :=
  readThrough_remembers (k := .stakingPool a) rfl fun s v he => by
    rw [upsert_of_none he]; exact sets_stakingPool s a (.cached v)

end

theorem getStakingAccount_remembers (a p : Address) : Moves (Remembers db) (getStakingAccount db a p) :=
  readThrough_remembers (k := .stakingAccount p a) rfl fun s v he => by
    rw [upsert₂_of_none he]; exact sets_stakingAccount s p a (.cached v)

/-- The six record reads. -/
inductive ReadOp where
  | getAccount (address : Address)
  | getContract (address : Address)
  | getContractInstance (instanceAddress : Address)
  | getStateKeyValue (instanceAddress : Address) (key : ContractInstanceKey)
  | getStakingPool (poolAddress : Address)
  | getStakingAccount (accountAddress poolAddress : Address)

/-- What an operation on a record answers. -/
inductive Reply where
  | account (v : Account)
  | contract (v : Contract)
  | contractInstance (v : ContractInstance)
  | value (v : Option ContractInstanceValue)
  | stakingPool (v : StakingPool)
  | stakingAccount (v : StakingAccount)
  | done
  deriving DecidableEq

def ReadOp.run (db : StateTables) : ReadOp → StateOp Reply
  | .getAccount a => do
    let v ← UpdatedState.getAccount db a
    pure (.account v)
  | .getContract a => do
    let v ← UpdatedState.getContract db a
    pure (.contract v)
  | .getContractInstance a => do
    let v ← UpdatedState.getContractInstance db a
    pure (.contractInstance v)
  | .getStateKeyValue a key => do
    let v ← UpdatedState.getStateKeyValue db a key
    pure (.value v)
  | .getStakingPool a => do
    let v ← UpdatedState.getStakingPool db a
    pure (.stakingPool v)
  | .getStakingAccount a p => do
    let v ← UpdatedState.getStakingAccount db a p
    pure (.stakingAccount v)

theorem ReadOp.run_remembers (read : ReadOp) : Moves (Remembers db) (read.run db) := by
  cases read with
  | getAccount a => exact (getAccount_remembers a).bind fun _ => .pure _
  | getContract a => exact (getContract_remembers a).bind fun _ => .pure _
  | getContractInstance a => exact (getContractInstance_remembers a).bind fun _ => .pure _
  | getStateKeyValue a key => exact (getStateKeyValue_remembers a key).bind fun _ => .pure _
  | getStakingPool a => exact (getStakingPool_remembers a).bind fun _ => .pure _
  | getStakingAccount a p => exact (getStakingAccount_remembers a p).bind fun _ => .pure _

/-- All questions that can be put to an overlay. -/
inductive Query where
  | record (read : ReadOp)
  | getNonce (address : Address)
  | getBalance (address : Address)
  | isValidAccount (address : Address)
  | getContractOwner (address : Address)
  | isValidContractInstance (instanceAddress : Address)
  | isStakingAccountExists (accountAddress poolAddress : Address)

/-- The state after a question; the answer is a matter of the view. -/
def Query.exec (db : StateTables) (self : UpdatedState) : Query → UpdatedState
  | .record read => ((read.run db).run self).2
  | .getNonce a => ((UpdatedState.getNonce db a).run self).2
  | .getBalance a => ((UpdatedState.getBalance db a).run self).2
  | .isValidAccount a => ((UpdatedState.isValidAccount db a).run self).2
  | .getContractOwner a => ((UpdatedState.getContractOwner db a).run self).2
  | .isValidContractInstance a => ((UpdatedState.isValidContractInstance db a).run self).2
  | .isStakingAccountExists a p => ((UpdatedState.isStakingAccountExists db a p).run self).2

/-- **A question only makes the overlay remember values of the database.** -/
theorem Query.exec_remembers (q : Query) (s : UpdatedState) : Remembers db s (q.exec db s) := by
  cases q with
  | record read => exact read.run_remembers s
  | getNonce a => exact ((getAccount_remembers a).bind fun _ => .pure _) s
  | getBalance a => exact ((getAccount_remembers a).bind fun _ => .pure _) s
  | isValidAccount a => exact ((getAccount_remembers a).outcome.bind fun _ => .pure _) s
  | getContractOwner a => exact ((getContract_remembers a).bind fun _ => .pure _) s
  | isValidContractInstance a =>
    exact ((getContractInstance_remembers a).outcome.bind fun _ => .pure _) s
  | isStakingAccountExists a p =>
    exact ((getStakingAccount_remembers a p).outcome.bind fun _ => .pure _) s

theorem checkPoolBalance_remembers {pool : StakingPool} {amount : Balance} :
    Moves (Remembers db) (checkPoolBalance db pool p amount) := by
  unfold checkPoolBalance
  cases pool.maxPoolBalance with
  | none => exact .pure _
  | some maxPoolBalance =>
    exact .bind ((getAccount_remembers p).bind fun _ => .pure _) fun balance => .lift _

/-! ## Writes -/

/-- `CachedStatus::update` with a record of the key leaves a record of the key, the old or the new. -/
theorem Filed.update {κ : Type} {key : α → κ} {v : α} {c : CachedStatus α}
    (hc : Filed key (key v) c) : Filed key (key v) (c.update (some v)) := by
  cases c with
  | cached old =>
    obtain ⟨w, hw, hk⟩ := hc
    cases hw; exact ⟨old, rfl, hk⟩
  | updated pending => cases pending <;> exact ⟨v, rfl, rfl⟩

/-- The writes of one record. -/
inductive WriteOp where
  | updateAccount (account : Account)
  | storeContract (contract : Contract)
  | storeContractInstance (contractInstance : ContractInstance)
  | storeStateKeyValue (instanceAddress : Address) (key : ContractInstanceKey)
      (value : ContractInstanceValue)
  | deleteStateKeyValue (instanceAddress : Address) (key : ContractInstanceKey)
  | insertStakingPool (pool : StakingPool)
  | updateStakingPoolBlockNumber (poolAddress : Address) (updatedBlockNumber : BlockNumber)
  | updateContract (contractInstanceAddress poolAddress : Address) (blockNumber : BlockNumber)
  | updateStakingAccount (stakingAccount : StakingAccount)
  | insertStakingAccount (accountAddress poolAddress : Address) (balance : Balance)

def WriteOp.run (db : StateTables) : WriteOp → StateOp Unit
  | .updateAccount account => UpdatedState.updateAccount account
  | .storeContract contract => UpdatedState.storeContract contract
  | .storeContractInstance i => UpdatedState.storeContractInstance i
  | .storeStateKeyValue a key value => UpdatedState.storeStateKeyValue a key value
  | .deleteStateKeyValue a key => UpdatedState.deleteStateKeyValue a key
  | .insertStakingPool pool => UpdatedState.insertStakingPool pool
  | .updateStakingPoolBlockNumber a n => UpdatedState.updateStakingPoolBlockNumber db a n
  | .updateContract i p n => UpdatedState.updateContract db i p n
  | .updateStakingAccount a => UpdatedState.updateStakingAccount a
  | .insertStakingAccount a p balance => UpdatedState.insertStakingAccount a p balance

/-! ## All operations, with nested checkpoints -/

/-- The operations of an overlay. A `checkpoint` runs operations on a clone, which is then merged or
    dropped. -/
inductive Op where
  | query (q : Query)
  | write (w : WriteOp)
  | incrementNonce (address : Address)
  | mint (amount : Balance) (toAddress : Address)
  | transfer (fromAddress toAddress : Address) (amount : Balance)
  | createAccount (account : Account)
  | createSystemAccount (address : Address)
  | createPool (accountAddress clusterAddress : Address) (nonce : Nonce)
      (createdBlockNumber : BlockNumber) (contractInstanceAddress : Option Address)
      (minStake maxStake minPoolBalance maxPoolBalance : Option Balance)
      (stakingPeriod : Option BlockNumber)
  | stake (poolAddress accountAddress : Address) (blockNumber : BlockNumber) (amount : Balance)
  | unStake (poolAddress accountAddress : Address) (blockNumber : BlockNumber) (amount : Balance)
  | createEvent (event : Event)
  | storeTransactionMetadata (metadata : TransactionMetadata)
  | checkpoint (ops : List Op) (keep : Bool)

section

variable (db : StateTables)

mutual

/-- The state after an operation, successful or not. -/
def Op.exec : Op → UpdatedState → UpdatedState
  | .query q, self => q.exec db self
  | .write w, self => ((w.run db).run self).2
  | .incrementNonce a, self => ((UpdatedState.incrementNonce db a).run self).2
  | .mint amount a, self => ((UpdatedState.mint db amount a).run self).2
  | .transfer a b amount, self => ((UpdatedState.transfer db a b amount).run self).2
  | .createAccount account, self => ((UpdatedState.createAccount db account).run self).2
  | .createSystemAccount a, self => ((UpdatedState.createSystemAccount db a).run self).2
  | .createPool a cluster nonce n i minStake maxStake minPool maxPool period, self =>
    ((UpdatedState.createPool db crypto a cluster nonce n i minStake maxStake minPool maxPool
      period).run self).2
  | .stake p a n amount, self => ((UpdatedState.stake db p a n amount).run self).2
  | .unStake p a n amount, self => ((UpdatedState.unStake db p a n amount).run self).2
  | .createEvent event, self => ((UpdatedState.createEvent event).run self).2
  | .storeTransactionMetadata m, self => ((UpdatedState.storeTransactionMetadata m).run self).2
  | .checkpoint ops keep, self =>
    let clone := runOps ops self
    if keep then self.merge clone else self

/-- The state after a sequence of operations. -/
def runOps : List Op → UpdatedState → UpdatedState
  | [], self => self
  | op :: ops, self => runOps ops (op.exec self)

end

end

theorem evolves_of_entry_eq (h : ∀ k, s'.entry k = s.entry k) : Evolves s s' where
  grows k hk := by rwa [h k] at hk
  wellKeyed hs k c hc := hs k c (by rwa [h k] at hc)

theorem entry_merge (s c : UpdatedState) (k : RecordKey) :
    (s.merge c).entry k = (c.entry k).or (s.entry k) := by
  cases k with
  | account a => exact lookup_extend _ _ a
  | contract a => exact lookup_extend _ _ a
  | contractInstance a => exact lookup_extend _ _ a
  | storage a key => exact lookup₂_extend₂
  | stakingPool a => exact lookup_extend _ _ a
  | stakingAccount p a => exact lookup₂_extend₂

theorem merge_evolves (h : Evolves s c) : Evolves s (s.merge c) where
  grows k hk := by
    rw [entry_merge, Option.or_eq_none_iff] at hk
    exact hk.2
  wellKeyed hs k e he := by
    rw [entry_merge, Option.or_eq_some_iff] at he
    rcases he with he | ⟨-, he⟩
    · exact h.wellKeyed hs k e he
    · exact hs k e he

/-- What is merged has the entries of the clone, so going on from the clone is going on from it. -/
theorem evolves_of_merge (h : Evolves s c) : Evolves (s.merge c) c where
  grows k hk := by rw [entry_merge, hk, h.grows k hk]; rfl
  wellKeyed hs k e he := hs k e (by rw [entry_merge, he]; rfl)

/-! ## What the operations are made of

Every operation reads records, sets entries to pending writes of records with the right key, appends to the
lists and merges clones; nothing else happens to an overlay. So a reflexive and transitive relation between
overlays holds of every operation as soon as it holds of these steps. -/

section

variable {R : UpdatedState → UpdatedState → Prop}

/-- `R` contains reads, and the writes of pools and staking accounts. -/
structure PoolRule (db : StateTables) (R : UpdatedState → UpdatedState → Prop) : Prop where
  remembers : ∀ {s s'}, Remembers db s s' → R s s'
  sets : ∀ {s s' k} {v : RecordKey.Value k}, k.isToken = true → (∀ a, k ≠ .account a) →
    Sets s k (.updated (some v)) s' → (s.WellKeyed → Fits k (.updated (some v))) → R s s'

/-- `R` contains reads, and the writes of accounts, pools and staking accounts. -/
structure KeyedTokenRule (db : StateTables) (R : UpdatedState → UpdatedState → Prop) : Prop where
  remembers : ∀ {s s'}, Remembers db s s' → R s s'
  sets : ∀ {s s' k} {v : RecordKey.Value k}, k.isToken = true → Sets s k (.updated (some v)) s' →
    (s.WellKeyed → Fits k (.updated (some v))) → R s s'

/-- `R` contains the steps of all operations. -/
structure KeyedRule (db : StateTables) (R : UpdatedState → UpdatedState → Prop) : Prop where
  remembers : ∀ {s s'}, Remembers db s s' → R s s'
  sets : ∀ {s s' k} {v : Option (RecordKey.Value k)}, Sets s k (.updated v) s' →
    (s.WellKeyed → Fits k (.updated v)) → R s s'
  lists : ∀ {s s' : UpdatedState}, (∀ k, s'.entry k = s.entry k) → R s s'
  merge : ∀ {s c : UpdatedState}, R s c → R s (s.merge c)

namespace PoolRule

variable (h : PoolRule db R)
include h

theorem reads {x : StateOp α} (hx : Moves (Remembers db) x) : Moves R x :=
  hx.mono fun _ _ hr => h.remembers hr

theorem insertStakingPool (pool : StakingPool) : Moves R (insertStakingPool pool) :=
  fun s => h.sets rfl (fun _ hk => by cases hk) (sets_stakingPool s pool.poolAddress _)
    fun _ => ⟨pool, rfl, rfl⟩

theorem updateStakingAccount (account : StakingAccount) : Moves R (updateStakingAccount account) :=
  fun s => h.sets rfl (fun _ hk => by cases hk)
    (sets_stakingAccount s account.poolAddress account.accountAddress _) fun _ => ⟨account, rfl, rfl⟩

variable [IsTrans UpdatedState R]

theorem modifyStakingPool (p : Address) (hf : ∀ pool, (f pool).poolAddress = pool.poolAddress) :
    Moves R (modifyStakingPool db p f) := by
  intro s
  have hread : Remembers db s ((getStakingPool db p).run s).2 := getStakingPool_remembers p s
  rcases hrun : (getStakingPool db p).run s with ⟨e | pool, s₁⟩
  · rw [hrun] at hread
    rw [UpdatedState.modifyStakingPool, run_bind_of_error hrun]
    exact h.remembers hread
  · rw [hrun] at hread
    refine trans_of R (h.remembers hread) ?_
    rw [UpdatedState.modifyStakingPool, run_bind_of_ok hrun]
    refine h.sets rfl (fun _ hk => by cases hk) (sets_stakingPool s₁ p _) fun hs => ?_
    obtain ⟨c, hc, hv⟩ := readThrough_entry (k := .stakingPool p)
      (fun s v he => by rw [upsert_of_none he]; exact sets_stakingPool s p (.cached v)) hrun
    obtain ⟨w, hw, hk⟩ := hs (.stakingPool p) c hc
    rw [hv] at hw
    cases hw
    exact ⟨f pool, rfl, (hf pool).trans hk⟩

theorem updateStakingPoolBlockNumber (p : Address) (n : BlockNumber) :
    Moves R (updateStakingPoolBlockNumber db p n) :=
  h.modifyStakingPool p fun _ => rfl

theorem updateContract (i p : Address) (n : BlockNumber) : Moves R (updateContract db i p n) :=
  h.modifyStakingPool p fun _ => rfl

variable [Std.Refl R]

theorem createPool (hcreate : ∀ a, Moves R (createSystemAccount db a)) (crypto : Crypto)
    (account cluster : Address) (nonce : Nonce) (n : BlockNumber) (i : Option Address)
    (minStake maxStake minPool maxPool : Option Balance) (period : Option BlockNumber) :
    Moves R (createPool db crypto account cluster nonce n i minStake maxStake minPool maxPool period) :=
  (hcreate _).bind fun _ => (h.insertStakingPool _).bind fun _ => .pure _

theorem stake {amount : Balance} (htransfer : Moves R (transfer db a p amount)) (n : BlockNumber) :
    Moves R (stake db p a n amount) :=
  (h.reads (getStakingPool_remembers p)).bind fun _ => (Moves.lift _).bind fun _ =>
    (h.reads checkPoolBalance_remembers).bind fun _ => htransfer.bind fun _ =>
      (h.reads (getStakingAccount_remembers _ _)).outcome.bind fun _ => (Moves.okOr _ _).bind fun _ =>
        (h.updateStakingAccount _).bind fun _ => h.updateStakingPoolBlockNumber _ _

theorem unStake (htransfer : ∀ amount, Moves R (transfer db p a amount)) (n : BlockNumber) (amount : Balance) :
    Moves R (unStake db p a n amount) :=
  (h.reads (getStakingPool_remembers p)).bind fun _ =>
    (h.reads (getStakingAccount_remembers _ _)).bind fun _ => (Moves.okOr _ _).bind fun _ =>
      (h.updateStakingAccount _).bind fun _ =>
        (h.updateStakingPoolBlockNumber _ _).bind fun _ => htransfer _

end PoolRule

namespace KeyedTokenRule

variable (h : KeyedTokenRule db R) (account : Account)
include h

theorem poolRule : PoolRule db R := ⟨h.remembers, fun htoken _ hs hfits => h.sets htoken hs hfits⟩

theorem getAccount (a : Address) : Moves R (getAccount db a) := h.poolRule.reads (getAccount_remembers a)

theorem updateAccount : Moves R (updateAccount account) :=
  fun s => h.sets rfl (sets_account s account.address _) fun _ => ⟨account, rfl, rfl⟩

variable [IsTrans UpdatedState R] [Std.Refl R]

theorem incrementNonce (a : Address) : Moves R (incrementNonce db a) :=
  (h.getAccount a).bind fun _ => (Moves.okOr _ _).bind fun _ => h.updateAccount _

theorem mint (amount : Balance) (a : Address) : Moves R (mint db amount a) :=
  (h.getAccount a).bind fun _ => (Moves.okOr _ _).bind fun _ => h.updateAccount _

theorem transfer (a b : Address) (amount : Balance) : Moves R (transfer db a b amount) := by
  have hreceiver : ∀ debited, Moves R (receiver db debited a b) := by
    intro debited
    refine (h.getAccount b).outcome.bind fun found => ?_
    cases found with
    | ok account => exact .pure _
    | error e => exact (h.updateAccount _).bind fun _ => .pure _
  exact (h.getAccount a).bind fun _ => (Moves.okOr _ _).bind fun _ => (hreceiver _).bind fun _ =>
    (Moves.okOr _ _).bind fun _ => (h.updateAccount _).bind fun _ => h.updateAccount _

theorem createAccount : Moves R (createAccount db account) := by
  refine ((h.getAccount _).outcome.bind fun _ => .pure _).bind fun valid => ?_
  cases valid with
  | true => exact .fail _
  | false => exact h.updateAccount account

theorem createPool (account cluster : Address) (nonce : Nonce) (n : BlockNumber) (i : Option Address)
    (minStake maxStake minPool maxPool : Option Balance) (period : Option BlockNumber) :
    Moves R (createPool db crypto account cluster nonce n i minStake maxStake minPool maxPool period) :=
  h.poolRule.createPool (fun _ => h.createAccount _) crypto account cluster nonce n i minStake maxStake
    minPool maxPool period

variable (p a : Address) (n : BlockNumber) (amount : Balance)

theorem stake : Moves R (stake db p a n amount) :=
  h.poolRule.stake (h.transfer a p amount) n

theorem unStake : Moves R (unStake db p a n amount) :=
  h.poolRule.unStake (h.transfer p a) n amount

end KeyedTokenRule

namespace KeyedRule

variable (h : KeyedRule db R)
include h

theorem tokenRule : KeyedTokenRule db R := ⟨h.remembers, fun _ hs hfits => h.sets hs hfits⟩

theorem storeContract (contract : Contract) : Moves R (storeContract contract) := by
  intro s
  show R s { s with contracts := s.contracts.upsert contract.address _ _ }
  cases he : s.contracts.lookup contract.address with
  | none =>
    rw [upsert_of_none he]
    exact h.sets (sets_contract s _ _) fun _ => ⟨contract, rfl, rfl⟩
  | some c =>
    have hfits : s.WellKeyed → Fits (.contract contract.address) (c.update (some contract)) :=
      fun hs => (hs (.contract _) c he).update
    rw [upsert_of_some he]
    -- a pending write stays one, and a cached value becomes one
    rcases c with (_ | old) | old <;> exact h.sets (sets_contract s _ _) hfits

theorem storeContractInstance (i : ContractInstance) : Moves R (storeContractInstance i) := by
  intro s
  show R s { s with contractInstances := s.contractInstances.upsert i.instanceAddress _ _ }
  cases he : s.contractInstances.lookup i.instanceAddress with
  | none =>
    rw [upsert_of_none he]
    exact h.sets (sets_contractInstance s _ _) fun _ => ⟨i, rfl, rfl⟩
  | some c =>
    have hfits : s.WellKeyed → Fits (.contractInstance i.instanceAddress) (c.update (some i)) :=
      fun hs => (hs (.contractInstance _) c he).update
    rw [upsert_of_some he]
    rcases c with (_ | old) | old <;> exact h.sets (sets_contractInstance s _ _) hfits

variable [IsTrans UpdatedState R]

theorem write (w : WriteOp) : Moves R (w.run db) := by
  have hpools := h.tokenRule.poolRule
  cases w with
  | updateAccount account => exact h.tokenRule.updateAccount account
  | storeContract contract => exact h.storeContract contract
  | storeContractInstance i => exact h.storeContractInstance i
  | storeStateKeyValue a key value => exact fun s => h.sets (sets_storage s a key _) fun _ => trivial
  | deleteStateKeyValue a key => exact fun s => h.sets (sets_storage s a key _) fun _ => trivial
  | insertStakingPool pool => exact hpools.insertStakingPool pool
  | updateStakingPoolBlockNumber p n => exact hpools.updateStakingPoolBlockNumber p n
  | updateContract i p n => exact hpools.updateContract i p n
  | updateStakingAccount account => exact hpools.updateStakingAccount account
  | insertStakingAccount a p balance => exact hpools.updateStakingAccount _

variable [Std.Refl R]

omit h

mutual

/-- **Every operation** is made of these steps. -/
theorem exec (h : KeyedRule db R) (crypto : Crypto) :
    (op : Op) → (s : UpdatedState) → R s (op.exec crypto db s)
  | .query q, s => h.remembers (q.exec_remembers s)
  | .write w, s => h.write w s
  | .incrementNonce a, s => h.tokenRule.incrementNonce a s
  | .mint amount a, s => h.tokenRule.mint amount a s
  | .transfer a b amount, s => h.tokenRule.transfer a b amount s
  | .createAccount account, s => h.tokenRule.createAccount account s
  | .createSystemAccount _, s => h.tokenRule.createAccount _ s
  | .createPool .., s => h.tokenRule.createPool _ _ _ _ _ _ _ _ _ _ _ s
  | .stake p a n amount, s => h.tokenRule.stake p a n amount s
  | .unStake p a n amount, s => h.tokenRule.unStake p a n amount s
  | .createEvent event, s => h.lists fun k => by cases k <;> rfl
  | .storeTransactionMetadata m, s => h.lists fun k => by cases k <;> rfl
  | .checkpoint ops keep, s => by
    have hclone := h.runOps crypto ops s
    cases keep with
    | true => exact h.merge hclone
    | false => exact refl_of R s

/-- **Every run** is. -/
theorem runOps (h : KeyedRule db R) (crypto : Crypto) :
    (ops : List Op) → (s : UpdatedState) → R s (runOps crypto db ops s)
  | [], s => refl_of R s
  | op :: ops, s => trans_of R (h.exec crypto op s) (h.runOps crypto ops _)

end

end KeyedRule

end

/-! ## What all operations keep -/

theorem evolves_rule : KeyedRule db Evolves where
  remembers := Remembers.evolves
  sets hs hfits := hs.evolves hfits
  lists := evolves_of_entry_eq
  merge := merge_evolves

theorem tokens_evolve : KeyedTokenRule db Evolves := evolves_rule.tokenRule

theorem pools_evolve (db : StateTables) : PoolRule db Evolves := tokens_evolve.poolRule

/-- **Every operation** keeps every entry and files records under their own keys. -/
theorem Op.exec_evolves (op : Op) (s : UpdatedState) : Evolves s (op.exec crypto db s) :=
  evolves_rule.exec crypto op s

/-- **Every run** does. -/
theorem runOps_evolves (ops : List Op) (s : UpdatedState) : Evolves s (runOps crypto db ops s) :=
  evolves_rule.runOps crypto ops s

theorem wellKeyed_runOps (db : StateTables) (ops : List Op) : WellKeyed (runOps crypto db ops new) :=
  (runOps_evolves crypto ops new).wellKeyed wellKeyed_new

end UpdatedState

end L1xCore
