import L1xCore.State.Commit
import L1xCore.State.Operations
import L1xCore.State.View

/-!
# `State.Checkpoint` — cloning, merging and dropping an overlay

A transaction, and every contract call inside it, works on a clone of the overlay it was started with.
Afterwards the clone is merged into the original, or dropped. In the meantime the original may be read,
which fills its cache. This module shows that none of that can be seen: **after a merge the original
shows what the clone showed, and after a drop it shows what it showed before**.

What can be seen of an overlay (`SameObservations`) is its view, whether the storage of an instance has
pending writes, and the effect of `commit`. The maps are hash maps: `Reordered` is the same overlay
iterated in another order, and the effect of `commit` is compared for every order.
-/

namespace L1xCore

/-- The same rows in every table. -/
structure StateTables.SameRows (d d' : StateTables) : Prop where
  account : ∀ a, d.account.lookup a = d'.account.lookup a
  contract : ∀ a, d.contract.lookup a = d'.contract.lookup a
  contractInstanceContractCodeMap : ∀ k, d.contractInstanceContractCodeMap.lookup k =
    d'.contractInstanceContractCodeMap.lookup k
  contractInstance : ∀ k, d.contractInstance.lookup k = d'.contractInstance.lookup k
  stakingPool : ∀ a, d.stakingPool.lookup a = d'.stakingPool.lookup a
  stakingAccount : ∀ k, d.stakingAccount.lookup k = d'.stakingAccount.lookup k
  event : d.event = d'.event
  transactionMetadata : ∀ h, d.transactionMetadata.lookup h = d'.transactionMetadata.lookup h

namespace UpdatedState

variable {db : StateTables} {s s' : UpdatedState}

/-! ## Observations -/

/-- The same overlay, its maps iterated in some other order. -/
structure Reordered (s s' : UpdatedState) : Prop where
  entry : ∀ k, s'.entry k = s.entry k
  events : s'.contractEvents = s.contractEvents
  metadatas : s'.transactionMetadatas = s.transactionMetadatas

/-- In whichever order the maps are gone through, both commits fail, or both succeed and leave the same
    rows. -/
def SameCommit (db : StateTables) (s s' : UpdatedState) : Prop :=
  ∀ u u', Reordered s u → Reordered s' u' →
    (∃ d d', (commit u).run db = (.ok (), d) ∧ (commit u').run db = (.ok (), d') ∧ d.SameRows d') ∨
    (∃ e d e' d', (commit u).run db = (.error e, d) ∧ (commit u').run db = (.error e', d'))

/-- Nothing that can be observed tells `s` and `s'` apart. -/
structure SameObservations (db : StateTables) (s s' : UpdatedState) : Prop where
  view : view db s = view db s'
  isContractStateUpdated : ∀ a, s.isContractStateUpdated a = s'.isContractStateUpdated a
  commit : SameCommit db s s'

/-! ## Remembered values cannot be observed -/

theorem Recalled.overlaid {α : Type} {base : Option α} {e e' : Option (CachedStatus α)}
    (h : Recalled base e e') : overlaid e base = overlaid e' base := by
  rcases h with rfl | ⟨rfl, v, rfl, hv⟩
  · rfl
  · rw [hv]; rfl

theorem Remembers.view (h : Remembers db s s') : view db s = view db s' := by
  apply StateView.ext
  · funext a; exact (h.entry (.account a)).overlaid
  · funext a; exact (h.entry (.contract a)).overlaid
  · funext a; exact (h.entry (.contractInstance a)).overlaid
  · funext k; exact congrArg Option.join (h.entry (.storage k.1 k.2)).overlaid
  · funext a; exact (h.entry (.stakingPool a)).overlaid
  · funext k; exact (h.entry (.stakingAccount k.1 k.2)).overlaid
  · simp only [UpdatedState.view, h.events]
  · simp only [UpdatedState.view, h.metadatas]

theorem isContractStateUpdated_iff (s : UpdatedState) (a : Address) :
    s.isContractStateUpdated a = true ↔ ∃ key c, s.entry (.storage a key) = some c ∧ c.isUpdated = true := by
  unfold isContractStateUpdated
  show _ ↔ ∃ key c, s.contractStates.lookup₂ a key = some c ∧ c.isUpdated = true
  cases h : s.contractStates.lookup a with
  | none => simp [AList.lookup₂, h]
  | some map =>
    simp only [AList.lookup₂, h, Option.bind_some, List.any_eq_true]
    constructor
    · rintro ⟨e, he, hu⟩; exact ⟨e.1, e.2, AList.mem_entries.mp he, hu⟩
    · rintro ⟨key, c, hc, hu⟩; exact ⟨⟨key, c⟩, AList.mem_entries.mpr hc, hu⟩

theorem Remembers.isContractStateUpdated (h : Remembers db s s') (a : Address) :
    s.isContractStateUpdated a = s'.isContractStateUpdated a := by
  rw [Bool.eq_iff_iff, isContractStateUpdated_iff, isContractStateUpdated_iff]
  refine exists_congr fun key => exists_congr fun c => ?_
  rcases h.entry (.storage a key) with he | ⟨he, v, he', -⟩
  · rw [he]
  · -- a remembered value is not a pending write
    rw [he, he']
    constructor
    · rintro ⟨hc, -⟩; cases hc
    · rintro ⟨hc, hu⟩; cases hc; cases hu

theorem Recalled.applied {α ν : Type} {effect : CachedStatus α → ν → Option ν}
    (heff : ∀ v row, effect (.cached v) row = some row) {base : Option α}
    {e e' : Option (CachedStatus α)} (h : Recalled base e e') (row : ν) :
    applied effect e row = applied effect e' row := by
  rcases h with rfl | ⟨rfl, v, rfl, -⟩
  · rfl
  · simp [UpdatedState.applied, heff]

theorem Remembers.committable (h : Remembers db s s') (hc : s.Committable db) : s'.Committable db where
  contract a c he := by
    rcases h.entry (.contract a) with heq | ⟨-, v, heq, -⟩
    · exact hc.contract a c (heq.symm.trans he)
    · cases heq.symm.trans he; rfl
  contractInstance a c he := by
    rcases h.entry (.contractInstance a) with heq | ⟨-, v, heq, -⟩
    · exact hc.contractInstance a c (heq.symm.trans he)
    · cases heq.symm.trans he; rfl

theorem Remembers.committable_of (h : Remembers db s s') (hc : s'.Committable db) : s.Committable db where
  contract a c he := by
    rcases h.entry (.contract a) with heq | ⟨hnone, -⟩
    · exact hc.contract a c (heq.trans he)
    · cases hnone.symm.trans he
  contractInstance a c he := by
    rcases h.entry (.contractInstance a) with heq | ⟨hnone, -⟩
    · exact hc.contractInstance a c (heq.trans he)
    · cases hnone.symm.trans he

theorem Remembers.sameRows (h : Remembers db s s') {d d' : StateTables}
    (hd : Committed s db d) (hd' : Committed s' db d') : d.SameRows d' where
  account a := by
    rw [hd.account, hd'.account]
    exact (h.entry (.account a)).applied (fun _ _ => rfl) _
  contract a := by
    rw [hd.contract, hd'.contract]
    exact (h.entry (.contract a)).applied (fun _ _ => rfl) _
  contractInstanceContractCodeMap k := by
    have hrows : instanceRows d k.1 = instanceRows d' k.1 := by
      rw [hd.contractInstance, hd'.contractInstance]
      exact (h.entry (.contractInstance k.1)).applied (fun _ _ => rfl) _
    rw [← lookup_instanceRows, ← lookup_instanceRows, hrows]
  contractInstance k := by
    rw [hd.storage, hd'.storage]
    exact (h.entry (.storage k.1 k.2)).applied (fun _ _ => rfl) _
  stakingPool a := by
    rw [hd.stakingPool, hd'.stakingPool]
    exact (h.entry (.stakingPool a)).applied (fun _ _ => rfl) _
  stakingAccount k := by
    rw [hd.stakingAccount, hd'.stakingAccount]
    exact (h.entry (.stakingAccount k.1 k.2)).applied (fun _ _ => rfl) _
  event := by rw [hd.event, hd'.event, h.events]
  transactionMetadata x := by rw [hd.transactionMetadata, hd'.transactionMetadata, h.metadatas]

theorem Reordered.remembers (h : Reordered s s') : Remembers db s s' :=
  ⟨fun k => .inl (h.entry k), h.events, h.metadatas⟩

theorem Reordered.symm (h : Reordered s s') : Reordered s' s :=
  ⟨fun k => (h.entry k).symm, h.events.symm, h.metadatas.symm⟩

/-- **Remembering values of the database cannot be observed.** -/
theorem Remembers.sameObservations (h : Remembers db s s') (hs : WellKeyed s) : SameObservations db s s' where
  view := h.view
  isContractStateUpdated := h.isContractStateUpdated
  commit u u' hu hu' := by
    -- `u'` is `u` with some values remembered, whatever the two orders are
    have hrem : Remembers db u u' :=
      trans_of (Remembers db) (trans_of (Remembers db) hu.symm.remembers h) hu'.remembers
    have hru : Remembers db s u := hu.remembers
    have hku : WellKeyed u := hru.evolves.wellKeyed hs
    have hku' : WellKeyed u' := hrem.evolves.wellKeyed hku
    by_cases hc : u.Committable db
    · obtain ⟨d, hrun, hd⟩ := commit_ok hku hc
      obtain ⟨d', hrun', hd'⟩ := commit_ok hku' (hrem.committable hc)
      exact .inl ⟨d, d', hrun, hrun', hrem.sameRows hd hd'⟩
    · obtain ⟨e, d, hrun⟩ := commit_error hku hc
      obtain ⟨e', d', hrun'⟩ := commit_error hku' fun hc' => hc (hrem.committable_of hc')
      exact .inr ⟨e, d, e', d', hrun, hrun'⟩

/-! ## Working on a clone -/

/-- What may happen between a clone and its merge: an operation on the clone, or a question to the
    original. -/
inductive CheckpointStep where
  | onClone (op : Op)
  | onOriginal (q : Query)

/-- The original and the clone after some steps. -/
def runCheckpoint (crypto : Crypto) (db : StateTables) :
    List CheckpointStep → UpdatedState × UpdatedState → UpdatedState × UpdatedState
  | [], sc => sc
  | .onClone op :: steps, (s, c) => runCheckpoint crypto db steps (s, op.exec crypto db c)
  | .onOriginal q :: steps, (s, c) => runCheckpoint crypto db steps (q.exec db s, c)

theorem runCheckpoint_invariant {crypto : Crypto} {steps : List CheckpointStep} :
    ∀ s₀ s c, Remembers db s₀ s → Evolves s₀ c →
      Remembers db s₀ (runCheckpoint crypto db steps (s, c)).1 ∧
      Evolves s₀ (runCheckpoint crypto db steps (s, c)).2 := by
  induction steps with
  | nil => intro s₀ s c hs hc; exact ⟨hs, hc⟩
  | cons step steps ih =>
    intro s₀ s c hs hc
    cases step with
    | onClone op => exact ih s₀ s _ hs (trans_of Evolves hc (op.exec_evolves crypto c))
    | onOriginal q => exact ih s₀ _ c (trans_of (Remembers db) hs (q.exec_remembers s)) hc

/-- **Merging a clone back.** The clone has an entry wherever the original had one, so the merged state is
    the clone with what the original remembered in the meantime. -/
theorem merge_remembers {s₀ s c : UpdatedState} (hs : Remembers db s₀ s) (hc : Evolves s₀ c) :
    Remembers db c (s.merge c) where
  entry k := by
    rw [entry_merge]
    cases hk : c.entry k with
    | some e => exact .inl rfl
    | none =>
      have h₀ := hc.grows k hk
      have hrec := hs.entry k
      rw [h₀] at hrec
      exact hrec
  events := rfl
  metadatas := rfl

theorem remembers_merge {s c : UpdatedState} (h : Evolves s c) : Remembers db c (s.merge c) :=
  merge_remembers (refl_of (Remembers db) s) h

/-- **Checkpoint and merge are transparent.** Start from any overlay that operations have made, clone it,
    and let any operations run on the clone, calls nested in them included, while the original is only
    read. After a merge the original cannot be told from the clone; if the clone is dropped instead, the
    original cannot be told from what it was. -/
theorem checkpoint_transparent (crypto : Crypto) (db₀ db : StateTables) (before : List Op)
    (steps : List CheckpointStep) :
    let s₀ := runOps crypto db₀ before new
    let (s, c) := runCheckpoint crypto db steps (s₀, s₀)
    SameObservations db c (s.merge c) ∧ SameObservations db s₀ s := by
  intro s₀
  obtain ⟨hs, hc⟩ := runCheckpoint_invariant s₀ s₀ s₀
    (refl_of (Remembers db) s₀) (refl_of Evolves s₀)
  have hkeyed : WellKeyed s₀ := wellKeyed_runOps crypto db₀ before
  exact ⟨(merge_remembers hs hc).sameObservations (hc.wellKeyed hkeyed), hs.sameObservations hkeyed⟩

end UpdatedState

end L1xCore
