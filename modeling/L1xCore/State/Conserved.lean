import L1xCore.Lib.Drops
import L1xCore.State.Ledger

/-!
# `State.Conserved` — quantities of the accounts that token operations conserve

Some facts about the accounts hold however tokens move: the sum of all balances, the nonce of every
account. Such a quantity `q` is carried through an overlay together with an invariant `I` of the overlay.
`Conserved db I q` lists the few things to know about `I` and `q`; from them follows, for **every** token
and staking operation and on every path through it, that `I` stays true and `q` stays the same (`Keeps`).
A quantity that only must not go down, or by no more than an amount, is followed in the same way (`Drops`).
-/

namespace L1xCore.UpdatedState

open Fallible

/-- The step from `s` to `s'` keeps the invariant `I`, and with it the quantity `q` of the view. -/
def Keeps {β : Type} (db : StateTables) (I : UpdatedState → Prop) (q : Store → β)
    (s s' : UpdatedState) : Prop :=
  I s → I s' ∧ q (s'.view db).toStore = q (s.view db).toStore

/-- An invariant that reads keep, and writes of accounts, pools and staking accounts. -/
structure TokenInvariant (db : StateTables) (I : UpdatedState → Prop) : Prop where
  wellKeyed : ∀ {s}, I s → s.WellKeyed
  /-- The invariant is about the entries. -/
  entry : ∀ {s s' : UpdatedState}, I s → (∀ k, s'.entry k = s.entry k) → I s'
  remembers : ∀ {s s'}, I s → Remembers db s s' → I s'
  sets : ∀ {s s' k} {v : Option (RecordKey.Value k)}, I s → Sets s k (.updated v) s' →
    Fits k (.updated v) → k.isToken = true → I s'

/-- What makes `q` a conserved quantity of the accounts under the invariant `I`. -/
structure Conserved {β : Type} (db : StateTables) (I : UpdatedState → Prop) (q : Store → β) : Prop
    extends TokenInvariant db I where
  /-- The quantity depends on the accounts only. -/
  congr : ∀ {st st' : Store}, st'.account = st.account → q st' = q st
  transfer : ∀ {st st' : Store} {a b amount}, st.AccountsFiled →
    st.transfer a b amount = some st' → q st' = q st
  createAccount : ∀ {st st' : Store} {a}, st.createAccount (.newSystem a) = some st' → q st' = q st

section

variable {β : Type} {db : StateTables} {I : UpdatedState → Prop} {q : Store → β}
  {s s' : UpdatedState}

instance : Std.Refl (Keeps db I q) := ⟨fun _ h => ⟨h, rfl⟩⟩

instance : IsTrans UpdatedState (Keeps db I q) :=
  ⟨fun _ _ _ h₁ h₂ h => ⟨(h₂ (h₁ h).1).1, (h₂ (h₁ h).1).2.trans (h₁ h).2⟩⟩

theorem account_of_sets {k : RecordKey} {v : Option k.Value} (hs : Sets s k (.updated v) s')
    (haccount : ∀ a, k ≠ .account a) : (s'.view db).account = (s.view db).account := by
  funext a
  have he : s'.entry (.account a) = s.entry (.account a) := hs.entry_of_ne _ fun hk => haccount a hk.symm
  exact congrArg (overlaid · (db.store.account a)) he

namespace TokenInvariant

variable (hI : TokenInvariant db I)
include hI

theorem preserves : KeyedTokenRule db (Preserves I) where
  remembers hr h := hI.remembers h hr
  sets htoken hs hfits h := hI.sets h hs (hfits (hI.wellKeyed h)) htoken

variable {p : Store → Nat} {n : Nat}

theorem drops_of_remembers (hr : Remembers db s s') : Drops I (fun s => p (s.view db).toStore) n s s' :=
  .of_eq (fun h => hI.remembers h hr) (by simp only [hr.view])

/-- What loses at most `n` in a plain store does so in the overlay, and a failure changes nothing. -/
theorem drops_of_transacts {x : StateOp Unit} {g : Store → Option Store} (hx : Transacts db x g)
    (hinv : Moves (Preserves I) x) (hg : ∀ {st st'}, st.AccountsFiled → g st = some st' → p st ≤ p st' + n) :
    Moves (Drops I (fun s => p (s.view db).toStore) n) x := by
  intro s h
  refine ⟨hinv s h, ?_⟩
  dsimp only
  cases hst : g (s.view db).toStore with
  | some st =>
    obtain ⟨s', hrun, hv⟩ := hx.defined hst
    have hle := hg (accountsFiled_view (hI.wellKeyed h)) hst
    rw [hrun, hv]
    exact hle
  | none =>
    obtain ⟨e, s', hrun, hv⟩ := hx.undefined hst
    rw [hrun, hv]
    exact Nat.le_add_right _ _

/-- Writing a pool or a staking account leaves the accounts alone. -/
theorem drops_pools (hcongr : ∀ {st st' : Store}, st'.account = st.account → p st' = p st) :
    PoolRule db (Drops I (fun s => p (s.view db).toStore) 0) where
  remembers := hI.drops_of_remembers
  sets htoken haccount hs hfits := .of_eq (fun h => hI.sets h hs (hfits (hI.wellKeyed h)) htoken)
    (hcongr (account_of_sets hs haccount))

end TokenInvariant

theorem wellKeyed_invariant : TokenInvariant db WellKeyed where
  wellKeyed h := h
  entry h he := fun k c hc => h k c ((he k).symm.trans hc)
  remembers h hr := hr.evolves.wellKeyed h
  sets h hs hfits _ := (hs.evolves fun _ => hfits).wellKeyed h

namespace Conserved

variable (hq : Conserved db I q)
include hq

theorem keeps_of_remembers (hr : Remembers db s s') : Keeps db I q s s' := by
  intro h
  refine ⟨hq.remembers h hr, ?_⟩
  rw [hr.view]

theorem storeTransactionMetadata_keeps (metadata : TransactionMetadata) :
    Moves (Keeps db I q) (storeTransactionMetadata metadata) := by
  intro s h
  exact ⟨hq.entry h fun k => by cases k <;> rfl, rfl⟩

/-! ### Operations on accounts

A write of a single account keeps the invariant but not the quantity. So the invariant is followed through
the steps of an operation first, and the quantity is taken from the plain store. -/

/-- **From the plain store to the overlay**: what keeps the quantity there keeps it here, and a failure
    changes nothing. -/
theorem keeps_of_transacts {x : StateOp Unit} {g : Store → Option Store} (hx : Transacts db x g)
    (hinv : Moves (Preserves I) x) (hg : ∀ {st st'}, st.AccountsFiled → g st = some st' → q st' = q st) :
    Moves (Keeps db I q) x := by
  intro s h
  refine ⟨hinv s h, ?_⟩
  cases hst : g (s.view db).toStore with
  | some st =>
    obtain ⟨s', hrun, hv⟩ := hx.defined hst
    have hsame := hg (accountsFiled_view (hq.wellKeyed h)) hst
    rw [hrun, hv]
    exact hsame
  | none =>
    obtain ⟨e, s', hrun, hv⟩ := hx.undefined hst
    rw [hrun, hv]

theorem transfer_keeps (a b : Address) (amount : Balance) :
    Moves (Keeps db I q) (UpdatedState.transfer db a b amount) :=
  hq.keeps_of_transacts transfer_transacts (hq.preserves.transfer a b amount)
    fun hf h => hq.transfer hf h

theorem createSystemAccount_keeps (a : Address) : Moves (Keeps db I q) (createSystemAccount db a) :=
  hq.keeps_of_transacts createAccount_transacts (hq.preserves.createAccount _)
    fun _ h => hq.createAccount h

/-! ### Operations on pools -/

/-- Writing a pool or a staking account leaves the accounts alone. -/
theorem keeps_of_sets {k : RecordKey} {v : Option k.Value} (hs : Sets s k (.updated v) s')
    (hfits : s.WellKeyed → Fits k (.updated v)) (htoken : k.isToken = true)
    (haccount : ∀ a, k ≠ .account a) : Keeps db I q s s' := by
  intro h
  exact ⟨hq.sets h hs (hfits (hq.wellKeyed h)) htoken, hq.congr (account_of_sets hs haccount)⟩

theorem pools : PoolRule db (Keeps db I q) where
  remembers := hq.keeps_of_remembers
  sets htoken haccount hs hfits := hq.keeps_of_sets hs hfits htoken haccount

end Conserved

end

end L1xCore.UpdatedState
