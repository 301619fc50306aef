import L1xCore.ContractInstanceManager.ContractInstanceEvm

/-!
# `ContractInstanceManager.StorageFaults` — contract storage on a database that fails

The statements on `contract_instance` may fail without effect. `store_state_key_value` takes a failed insert for a
row that is there, and then sets the rows of the instance, all of them, to the key and the value.
`get_state_key_value` takes a failed select for a missing row.
-/

namespace L1xCore

open Fallible AList

/-- The statements that fail. -/
structure StorageFaults where
  insert : Bool
  update : Bool
  select : Bool

namespace StorageFaults

section

variable (f : StorageFaults) (db : StateTables) (instanceAddress : Address) (key : ContractInstanceKey)
  (value : ContractInstanceValue)

/-- The keys of the rows of an instance. -/
def keys : List ContractInstanceKey :=
  (db.contractInstance.keys.filter (·.1 = instanceAddress)).map (·.2)

/-- The filter names the instance and not the key. Two rows cannot have one key. -/
def updateStateKeyValue : StateTables.Write := do
  if f.update then fail "the update failed"
  else
    let db ← state
    match keys db instanceAddress with
    | [] => pure ()
    | [old] => do
      StateTables.deleteStateKeyValue instanceAddress old
      StateTables.storeStateKeyValue instanceAddress key value
    | _ => fail "duplicate key value violates unique constraint"

def storeStateKeyValue : StateTables.Write :=
  if f.insert then f.updateStateKeyValue instanceAddress key value
  else StateTables.storeStateKeyValue instanceAddress key value

/-- What a select shows. Its failure is answered as by an empty table: `Err(_e) => Ok(None)`. -/
def shown : StateTables :=
  if f.select then { db with contractInstance := ∅ } else db

/-- A write that returns `Ok` has set the one entry and left the others. -/
def Stores : Prop :=
  ∀ db', (f.storeStateKeyValue instanceAddress key value).run db = (.ok (), db') →
    ∀ row, db'.contractInstance.lookup row =
      if row = (instanceAddress, key) then some value else db.contractInstance.lookup row

/-- **Faults are not silent**: neither in a write, nor in a read, nor in what the EVM is told of its storage. -/
structure NotSilent : Prop where
  stored : f.Stores db instanceAddress key value
  read : (f.shown db).getStateKeyValue instanceAddress key = db.getStateKeyValue instanceAddress key
  word : ∀ index, toBytes 32 index = key → ∀ self,
    ((Handler.storage (f.shown db) instanceAddress index).run self).1 =
      ((Handler.storage db instanceAddress index).run self).1

/-- No fault is mistaken: an update that stands in for an insert fails, or meets no other row than that of the
    key, or more than one; and a select that fails has no row to find. -/
def Recognised : Prop :=
  (f.insert → f.update ∨ keys db instanceAddress = [key] ∨ 2 ≤ (keys db instanceAddress).length) ∧
    (f.select → db.contractInstance.lookup (instanceAddress, key) = none)

end

variable {f : StorageFaults} {db : StateTables} {i : Address} {key : ContractInstanceKey}
  {value : ContractInstanceValue}

theorem mem_keys : key ∈ keys db i ↔ (db.contractInstance.lookup (i, key)).isSome := by
  rw [AList.lookup_isSome, AList.mem_keys]
  simp [keys]

theorem stores_iff : f.Stores db i key value ↔
    (f.insert → f.update ∨ keys db i = [key] ∨ 2 ≤ (keys db i).length) := by
  unfold Stores storeStateKeyValue
  by_cases hinsert : f.insert = true
  swap
  · simp only [hinsert, Bool.false_eq_true, if_false, false_imp_iff, iff_true]
    intro db' hrun row
    cases hrun
    exact lookup_insert_ite _ _ _ _
  rw [if_pos hinsert]
  simp only [hinsert, true_imp_iff]
  unfold updateStateKeyValue
  by_cases hupdate : f.update = true
  · rw [if_pos hupdate]
    exact ⟨fun _ => .inl hupdate, fun _ db' hrun => by cases hrun⟩
  rw [if_neg hupdate, run_bind_of_ok (run_state db)]
  rcases hkeys : keys db i with - | ⟨old, - | ⟨next, rest⟩⟩
  · -- no row was set
    refine ⟨fun h => ?_, fun h => by simp [hupdate] at h⟩
    have hrow := h db rfl (i, key)
    rw [if_pos rfl] at hrow
    have hmem : key ∈ keys db i := mem_keys.mpr (Option.isSome_of_eq_some hrow)
    rw [hkeys] at hmem
    cases hmem
  · have hold : (db.contractInstance.lookup (i, old)).isSome := by
      rw [← mem_keys, hkeys]
      exact List.mem_singleton_self old
    constructor
    · intro h
      by_cases hkey : old = key
      · rw [hkey]
        exact .inr (.inl rfl)
      -- the row of another key is gone
      have hrow := h _ rfl (i, old)
      have hne : (i, old) ≠ (i, key) := fun heq => hkey (congrArg Prod.snd heq)
      rw [lookup_insert_ite, if_neg hne, lookup_erase_ite, if_pos rfl, if_neg hne] at hrow
      rw [← hrow] at hold
      cases hold
    · intro h db' hrun row
      cases hrun
      obtain rfl : old = key := by simpa [hupdate] using h
      rw [lookup_insert_ite, lookup_erase_ite]
      split <;> rfl
  · refine ⟨fun _ => .inr (.inr (by simp)), fun _ db' hrun => ?_⟩
    cases hrun

theorem read_iff : (f.shown db).getStateKeyValue i key = db.getStateKeyValue i key ↔
    (f.select → db.contractInstance.lookup (i, key) = none) := by
  unfold shown StateTables.getStateKeyValue
  by_cases hselect : f.select = true
  · simp [hselect, eq_comm]
  · simp [hselect]

/-- **When faults are not silent.** -/
theorem notSilent_iff (f : StorageFaults) (db : StateTables) (i : Address) (key : ContractInstanceKey)
    (value : ContractInstanceValue) : NotSilent f db i key value ↔ Recognised f db i key := by
  constructor
  · intro h
    exact ⟨stores_iff.mp h.stored, read_iff.mp h.read⟩
  · rintro ⟨hwrite, hread⟩
    have hread := read_iff.mpr hread
    refine ⟨stores_iff.mpr hwrite, hread, fun index hindex self => ?_⟩
    -- the handler sees the row through the overlay
    subst hindex
    have hshown : UpdatedState.getStateKeyValue (f.shown db) i (toBytes 32 index) =
        UpdatedState.getStateKeyValue db i (toBytes 32 index) := by
      unfold UpdatedState.getStateKeyValue
      rw [hread]
    unfold Handler.storage
    rw [hshown]

/-- The only key 1 of an instance is lost when the insert of the key 2 fails and the write returns `Ok`. -/
theorem key_lost : ∃ db : StateTables, db.getStateKeyValue 9 [1] = some [7] ∧
    ((storeStateKeyValue ⟨true, false, false⟩ 9 [2] [8]).run db).1 = .ok () ∧
    ¬ NotSilent ⟨true, false, false⟩ db 9 [2] [8] := by
  refine ⟨{ StateTables.empty with contractInstance := singleton (9, [1]) [7] }, by decide, by decide,
    fun h => ?_⟩
  have hrow := h.stored _ (run_eq_of_fst (by decide)) (9, [1])
  exact absurd hrow (by decide)

end StorageFaults

end L1xCore
