import Mathlib.Data.List.AList
import Mathlib.Data.Fintype.BigOperators
import Mathlib.Algebra.GroupWithZero.Nat

/-!
# `Lib.Table` — finite maps as they are used by programs

A **table** is a finite map from keys to values, kept as Mathlib's `AList`: an association list with
distinct keys. The order of the entries stands for the iteration order of a hash map or the row order
of a relation; nothing about it is promised, and the lemmas below speak of `lookup` only.

## Contents

* `upsert` — modify the entry of a key, or insert a default;
* `extend` — overwrite one table by the entries of another, one after the other;
* `retain` — drop or change every entry; `unlessEmpty` — none instead of an empty table;
* `lookup₂`/`upsert₂`/`extend₂` — the same for a table of tables;
* `indexBy` — the rows of a list under a key of their own, a later row replacing an earlier one;
* `sumBy` — the sum of a weight over the rows, and its form as a sum over all keys.
-/

/-- A finite map from `κ` to `ν`. -/
abbrev Table (κ ν : Type) : Type := AList (fun _ : κ => ν)

namespace AList

variable {κ ι ν : Type} [DecidableEq κ] [DecidableEq ι] {t : Table κ ν} {k : κ} {v : ν}
  (f : κ → ν → Option ν) (g : ν → ν → ν) (l : List (Sigma fun _ : κ => ν)) (w : ν → Nat) {p : κ → Bool}
  {i : ι}

theorem lookup_insert_ite (t : Table κ ν) (k k' : κ) (v : ν) :
    (t.insert k v).lookup k' = if k' = k then some v else t.lookup k' := by
  by_cases h : k' = k
  · subst h; simp
  · rw [lookup_insert_ne h, if_neg h]

theorem lookup_erase_ite (t : Table κ ν) (k k' : κ) :
    (t.erase k).lookup k' = if k' = k then none else t.lookup k' := by
  by_cases h : k' = k
  · subst h; simp
  · rw [lookup_erase_ne h, if_neg h]

theorem lookup_singleton_ite (k k' : κ) (v : ν) :
    (singleton k v : Table κ ν).lookup k' = if k' = k then some v else none := by
  rw [← insert_empty, lookup_insert_ite, lookup_empty]

/-- The entry with the value that `f` gives it, if it does. -/
def keepEntry (f : κ → ν → Option ν) (e : Sigma fun _ : κ => ν) : Option (Sigma fun _ : κ => ν) :=
  (f e.1 e.2).map fun v => ⟨e.1, v⟩

omit [DecidableEq κ] in
theorem keys_keepEntry_sublist : List.Sublist (l.filterMap (keepEntry f)).keys l.keys := by
  induction l with
  | nil => exact List.Sublist.slnil
  | cons e l ih =>
    cases h : f e.1 e.2 with
    | none =>
      rw [List.filterMap_cons_none (by rw [keepEntry, h]; rfl)]
      exact ih.cons _
    | some v =>
      rw [List.filterMap_cons_some (by rw [keepEntry, h]; rfl)]
      exact ih.cons_cons _

/-- Keep the entries with the values that `f` gives them, and drop the others. -/
def retain (f : κ → ν → Option ν) (t : Table κ ν) : Table κ ν where
  entries := t.entries.filterMap (keepEntry f)
  nodupKeys := (keys_keepEntry_sublist f t.entries).nodup t.nodupKeys

/-- The table, if it has an entry. -/
def unlessEmpty (t : Table κ ν) : Option (Table κ ν) := if t.entries.isEmpty then none else some t

omit [DecidableEq κ] in
theorem unlessEmpty_eq_some {t' : Table κ ν} : t.unlessEmpty = some t' ↔ t = t' ∧ ¬ t.entries.isEmpty := by
  unfold unlessEmpty
  by_cases hempty : t.entries.isEmpty
  · simp [hempty]
  · simp [hempty]

theorem unlessEmpty_bind_lookup (t : Table κ ν) (k : κ) : t.unlessEmpty.bind (·.lookup k) = t.lookup k := by
  unfold unlessEmpty
  by_cases hempty : t.entries.isEmpty
  · rw [if_pos hempty, lookup, List.isEmpty_iff.mp hempty]
    rfl
  · rw [if_neg hempty]
    rfl

/-! ## Modify or insert -/

/-- Apply `f` to the value stored at `k`; if there is none, store `v`. -/
def upsert (k : κ) (f : ν → ν) (v : ν) (t : Table κ ν) : Table κ ν :=
  match t.lookup k with
  | some x => t.insert k (f x)
  | none => t.insert k v

theorem lookup_upsert (t : Table κ ν) (k k' : κ) (f : ν → ν) (v : ν) :
    (t.upsert k f v).lookup k' =
      if k' = k then some ((t.lookup k).elim v f) else t.lookup k' := by
  unfold upsert
  cases h : t.lookup k <;> exact lookup_insert_ite t k k' _

/-! The lookups after a write, as functions of the key. -/

theorem lookup_insert_eq_update (t : Table κ ν) (k : κ) (v : ν) :
    (fun k' => (t.insert k v).lookup k') = Function.update (fun k' => t.lookup k') k (some v) := by
  funext k'
  rw [lookup_insert_ite, Function.update_apply]

theorem lookup_erase_eq_update :
    (fun k' => (t.erase k).lookup k') = Function.update (fun k' => t.lookup k') k none := by
  funext k'
  rw [lookup_erase_ite, Function.update_apply]

theorem lookup_upsert_eq_update {f : ν → ν} :
    (fun k' => (t.upsert k f v).lookup k') =
      Function.update (fun k' => t.lookup k') k (some ((t.lookup k).elim v f)) := by
  funext k'
  rw [lookup_upsert, Function.update_apply]

/-- A write at a key that a query does not ask for leaves the rows of the query as they are. -/
theorem filter_entries_insert (hp : p k = false) (t : Table κ ν) (v : ν) :
    (t.insert k v).entries.filter (fun row => p row.1) = t.entries.filter fun row => p row.1 := by
  have herase : ∀ l : List (Sigma fun _ : κ => ν),
      (l.kerase k).filter (fun row => p row.1) = l.filter fun row => p row.1 := by
    intro l
    induction l with
    | nil => rfl
    | cons row l ih =>
      by_cases hkey : k = row.1
      · rw [List.kerase_cons_eq hkey, List.filter_cons_of_neg]
        rw [← hkey, hp]
        exact Bool.false_ne_true
      · rw [List.kerase_cons_ne hkey, List.filter_cons, List.filter_cons, ih]
  rw [entries_insert, List.filter_cons_of_neg, herase]
  rw [hp]
  exact Bool.false_ne_true

theorem filter_entries_upsert (hp : p k = false) (t : Table κ ν) (f : ν → ν) (v : ν) :
    (t.upsert k f v).entries.filter (fun row => p row.1) = t.entries.filter fun row => p row.1 := by
  unfold upsert
  split
  · exact filter_entries_insert hp t _
  · exact filter_entries_insert hp t _

theorem upsert_of_none (h : t.lookup k = none) (f : ν → ν) (v : ν) : t.upsert k f v = t.insert k v := by
  rw [upsert, h]

theorem upsert_of_some {x : ν} (h : t.lookup k = some x) (f : ν → ν) (v : ν) :
    t.upsert k f v = t.insert k (f x) := by
  rw [upsert, h]

/-! ## Overwriting a table by another -/

/-- Go through the entries of `other`, combining each with the entry `t` has at that key (`g new old`)
    or adding it to `t`. -/
def mergeWith (g : ν → ν → ν) (t other : Table κ ν) : Table κ ν :=
  other.entries.foldl (fun acc e => acc.upsert e.1 (g e.2) e.2) t

/-- `t` with the entry of every key of `other` replaced by, or set to, the one in `other`. -/
def extend (t other : Table κ ν) : Table κ ν := t.mergeWith (fun new _ => new) other

private theorem lookup_foldl_upsert (hl : l.NodupKeys) (t : Table κ ν) (k : κ) :
    (l.foldl (fun acc e => acc.upsert e.1 (g e.2) e.2) t).lookup k =
      (l.dlookup k).elim (t.lookup k) (fun new => some ((t.lookup k).elim new (g new))) := by
  induction l generalizing t with
  | nil => rfl
  | cons e l ih =>
    obtain ⟨he, hl'⟩ := List.nodupKeys_cons.mp hl
    rw [List.foldl_cons, ih hl', lookup_upsert]
    by_cases hk : k = e.1
    · -- the key of the head entry does not come again, so the tail leaves it alone
      subst hk
      have hnone : l.dlookup e.1 = none := List.dlookup_eq_none.mpr he
      have hsome : (e :: l).dlookup e.1 = some e.2 := List.dlookup_cons_eq l e.1 e.2
      rw [hnone, hsome, if_pos rfl]
      rfl
    · have hcons : (e :: l).dlookup k = l.dlookup k := List.dlookup_cons_ne l e hk
      rw [if_neg hk, hcons]

/-- **Merging, key by key.** The order of the entries of `other` plays no part. -/
theorem lookup_mergeWith (t other : Table κ ν) (k : κ) :
    (t.mergeWith g other).lookup k =
      (other.lookup k).elim (t.lookup k) (fun new => some ((t.lookup k).elim new (g new))) :=
  lookup_foldl_upsert g other.entries other.nodupKeys t k

/-- After `t.extend other` a key reads as in `other` if it is there, and as in `t` otherwise. -/
theorem lookup_extend (t other : Table κ ν) (k : κ) :
    (t.extend other).lookup k = (other.lookup k).or (t.lookup k) := by
  rw [extend, lookup_mergeWith]
  cases other.lookup k <;> cases t.lookup k <;> rfl

/-! ## Tables of tables -/

/-- The value at `i` in the inner table at `k`. -/
def lookup₂ (k : κ) (i : ι) (t : Table κ (Table ι ν)) : Option ν :=
  (t.lookup k).bind (·.lookup i)

/-- `upsert` at `i` in the inner table at `k`, which is started if there is none. -/
def upsert₂ (k : κ) (i : ι) (f : ν → ν) (v : ν) (t : Table κ (Table ι ν)) : Table κ (Table ι ν) :=
  t.upsert k (fun inner => inner.upsert i f v) (singleton i v)

/-- Store `v` at `i` in the inner table at `k`, which is started if there is none. -/
def insert₂ (k : κ) (i : ι) (v : ν) (t : Table κ (Table ι ν)) : Table κ (Table ι ν) :=
  t.upsert k (fun inner => inner.insert i v) (singleton i v)

/-- Overwrite the inner tables of `t` by those of `other`, entry by entry. -/
def extend₂ (t other : Table κ (Table ι ν)) : Table κ (Table ι ν) :=
  t.mergeWith (fun new old => old.extend new) other

theorem lookup₂_upsert₂ (t : Table κ (Table ι ν)) (k k' : κ) (i i' : ι) (f : ν → ν) (v : ν) :
    (t.upsert₂ k i f v).lookup₂ k' i' =
      if k' = k ∧ i' = i then some ((t.lookup₂ k i).elim v f) else t.lookup₂ k' i' := by
  unfold upsert₂ lookup₂
  rw [lookup_upsert]
  by_cases hk : k' = k
  · subst hk
    cases h : t.lookup k' with
    | none => simp [lookup_singleton_ite]
    | some inner => simpa using lookup_upsert inner i i' f v
  · simp [hk]

theorem mem_upsert₂ {t : Table κ (Table ι ν)} {k' : κ} {f : ν → ν} :
    k' ∈ t.upsert₂ k i f v ↔ k' = k ∨ k' ∈ t := by
  rw [← lookup_isSome, ← lookup_isSome, upsert₂, lookup_upsert]
  by_cases hk : k' = k
  · simp [hk]
  · simp [hk]

theorem insert₂_eq_upsert₂ (t : Table κ (Table ι ν)) (k : κ) (i : ι) (v : ν) :
    t.insert₂ k i v = t.upsert₂ k i (fun _ => v) v := by
  unfold insert₂ upsert₂
  congr 1
  funext inner
  unfold upsert
  cases inner.lookup i <;> rfl

theorem lookup₂_insert₂ (t : Table κ (Table ι ν)) (k k' : κ) (i i' : ι) (v : ν) :
    (t.insert₂ k i v).lookup₂ k' i' =
      if k' = k ∧ i' = i then some v else t.lookup₂ k' i' := by
  rw [insert₂_eq_upsert₂, lookup₂_upsert₂]
  cases t.lookup₂ k i <;> rfl

theorem upsert₂_of_none {t : Table κ (Table ι ν)} (h : t.lookup₂ k i = none) (f : ν → ν) (v : ν) :
    t.upsert₂ k i f v = t.insert₂ k i v := by
  unfold upsert₂ insert₂ upsert
  cases hk : t.lookup k with
  | none => rfl
  | some inner =>
    have hi : inner.lookup i = none := by simpa [lookup₂, hk] using h
    simp only [hi]

theorem lookup₂_extend₂ {t other : Table κ (Table ι ν)} :
    (t.extend₂ other).lookup₂ k i = (other.lookup₂ k i).or (t.lookup₂ k i) := by
  unfold extend₂ lookup₂
  rw [lookup_mergeWith]
  cases other.lookup k <;> cases t.lookup k <;> simp [lookup_extend]

/-- All entries of a table of tables, under their pairs of keys. -/
def entries₂ (t : Table κ (Table ι ν)) : List (Sigma fun _ : κ × ι => ν) :=
  t.entries.flatMap fun e => e.2.entries.map fun f => ⟨(e.1, f.1), f.2⟩

theorem mem_entries : (⟨k, v⟩ : Sigma fun _ : κ => ν) ∈ t.entries ↔ t.lookup k = some v :=
  (List.mem_dlookup_iff t.nodupKeys).symm

theorem lookup_retain (t : Table κ ν) (k : κ) : (t.retain f).lookup k = (t.lookup k).bind (f k) := by
  ext v
  rw [Option.bind_eq_some_iff, ← mem_entries]
  simp only [retain, List.mem_filterMap, keepEntry, Option.map_eq_some_iff]
  constructor
  · rintro ⟨⟨k', v'⟩, hmem, w, hw, heq⟩
    cases heq
    exact ⟨v', mem_entries.mp hmem, hw⟩
  · rintro ⟨v', hlookup, hv⟩
    exact ⟨⟨k, v'⟩, mem_entries.mpr hlookup, v, hv, rfl⟩

theorem mem_entries₂ {t : Table κ (Table ι ν)} {k : κ × ι} :
    (⟨k, v⟩ : Sigma fun _ : κ × ι => ν) ∈ t.entries₂ ↔ t.lookup₂ k.1 k.2 = some v := by
  obtain ⟨a, i⟩ := k
  simp only [entries₂, List.mem_flatMap, List.mem_map, lookup₂, Option.bind_eq_some_iff]
  constructor
  · rintro ⟨⟨a', inner⟩, hinner, ⟨i', v'⟩, hv, heq⟩
    cases heq
    exact ⟨inner, mem_entries.mp hinner, mem_entries.mp hv⟩
  · rintro ⟨inner, hinner, hv⟩
    exact ⟨⟨a, inner⟩, mem_entries.mpr hinner, ⟨i, v⟩, mem_entries.mpr hv, rfl⟩

omit [DecidableEq κ] [DecidableEq ι] in
theorem nodupKeys_entries₂ (t : Table κ (Table ι ν)) : t.entries₂.NodupKeys := by
  rw [List.nodupKeys_iff_pairwise, entries₂, List.pairwise_flatMap]
  constructor
  · -- within one inner table the second keys differ
    intro e _
    rw [List.pairwise_map]
    exact e.2.nodupKeys.pairwise_ne.imp fun hne h => hne (congrArg Prod.snd h)
  · -- between two inner tables the first keys differ
    refine t.nodupKeys.pairwise_ne.imp fun {e e'} hne x hx y hy h => ?_
    obtain ⟨f, -, rfl⟩ := List.mem_map.mp hx
    obtain ⟨f', -, rfl⟩ := List.mem_map.mp hy
    exact hne (congrArg Prod.fst h)

theorem dlookup_entries₂ (t : Table κ (Table ι ν)) (k : κ × ι) :
    t.entries₂.dlookup k = t.lookup₂ k.1 k.2 := by
  ext v
  rw [← mem_entries₂]
  exact List.mem_dlookup_iff t.nodupKeys_entries₂

/-! ## Indexing a list -/

section

variable {ρ : Type} (key : ρ → κ) (val : ρ → ν) (rows : List ρ)

/-- The values of the rows of a list under their keys. -/
def indexBy (rows : List ρ) : Table κ ν :=
  rows.foldl (fun table row => table.insert (key row) (val row)) ∅

private theorem lookup_foldl_insert (table : Table κ ν) (k : κ) :
    (rows.foldl (fun table row => table.insert (key row) (val row)) table).lookup k =
      ((rows.reverse.find? fun row => key row = k).map val).or (table.lookup k) := by
  induction rows generalizing table with
  | nil => rfl
  | cons row rows ih =>
    rw [List.foldl_cons, ih, List.reverse_cons, List.find?_append, lookup_insert_ite]
    cases hlater : rows.reverse.find? fun row => key row = k with
    | some later => rfl
    | none =>
      by_cases hk : k = key row
      · simp [hk]
      · have hne : ¬ key row = k := fun h => hk h.symm
        simp [hk, hne]

/-- The index has the last row with the key. -/
theorem lookup_indexBy (k : κ) :
    (indexBy key val rows).lookup k = (rows.reverse.find? fun row => key row = k).map val := by
  rw [indexBy, lookup_foldl_insert, lookup_empty, Option.or_none]

theorem isSome_lookup_indexBy {rows : List ρ} {row : ρ} (h : row ∈ rows) :
    ((indexBy key val rows).lookup (key row)).isSome := by
  rw [lookup_indexBy, Option.isSome_map, List.find?_isSome]
  exact ⟨row, List.mem_reverse.mpr h, decide_eq_true rfl⟩

variable {key val}

theorem exists_of_lookup_indexBy {rows : List ρ} (h : (indexBy key val rows).lookup k = some v) :
    ∃ row ∈ rows, key row = k ∧ val row = v := by
  rw [lookup_indexBy, Option.map_eq_some_iff] at h
  obtain ⟨row, hfound, hval⟩ := h
  have hkey : key row = k := by simpa using List.find?_some hfound
  exact ⟨row, List.mem_reverse.mp (List.mem_of_find?_eq_some hfound), hkey, hval⟩

end

/-! ## Sums over the rows -/

/-- The sum of the weight `w` over the rows of a table. -/
def sumBy (w : ν → Nat) (t : Table κ ν) : Nat := (t.entries.map fun e => w e.2).sum

private theorem sum_map_entries [Fintype κ] (l : List (Sigma fun _ : κ => ν))
    (hl : l.NodupKeys) : (l.map fun e => w e.2).sum = ∑ k, ((l.dlookup k).map w).getD 0 := by
  induction l with
  | nil => simp
  | cons e l ih =>
    obtain ⟨he, hl'⟩ := List.nodupKeys_cons.mp hl
    have hnone : l.dlookup e.1 = none := List.dlookup_eq_none.mpr he
    have hsplit : ∀ k, (((e :: l).dlookup k).map w).getD 0 =
        (if k = e.1 then w e.2 else 0) + ((l.dlookup k).map w).getD 0 := by
      intro k
      by_cases hk : k = e.1
      · subst hk
        have hsome : (e :: l).dlookup e.1 = some e.2 := List.dlookup_cons_eq l e.1 e.2
        simp [hsome, hnone]
      · have hcons : (e :: l).dlookup k = l.dlookup k := List.dlookup_cons_ne l e hk
        simp [hcons, hk]
    rw [List.map_cons, List.sum_cons, ih hl', Finset.sum_congr rfl fun k _ => hsplit k,
      Finset.sum_add_distrib, Finset.sum_ite_eq' Finset.univ e.1, if_pos (Finset.mem_univ _)]

/-- The sum over the rows is the sum over **all** keys, an absent key counting zero. -/
theorem sumBy_eq_sum [Fintype κ] (t : Table κ ν) : t.sumBy w = ∑ k, ((t.lookup k).map w).getD 0 :=
  sum_map_entries w t.entries t.nodupKeys

end AList

/-- Two functions that differ at one point only have sums that differ by the change there. -/
theorem Fintype.sum_add_eq_of_eq_off {κ : Type} [Fintype κ] [DecidableEq κ] {f g : κ → Nat} (k : κ)
    (h : ∀ k', k' ≠ k → f k' = g k') : (∑ k', f k') + g k = (∑ k', g k') + f k := by
  have hrest : ∑ k' ∈ Finset.univ.erase k, f k' = ∑ k' ∈ Finset.univ.erase k, g k' :=
    Finset.sum_congr rfl fun k' hk' => h k' (Finset.ne_of_mem_erase hk')
  have hf := Finset.add_sum_erase .univ f (Finset.mem_univ k)
  have hg := Finset.add_sum_erase .univ g (Finset.mem_univ k)
  omega
