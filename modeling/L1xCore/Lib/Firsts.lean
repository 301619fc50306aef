import Mathlib.Algebra.BigOperators.Group.Finset.Basic
import Mathlib.Algebra.GroupWithZero.Nat

/-!
# `Lib.Firsts` — the first element for every key, over all orders of a list

A program that keeps the first element for every key makes a choice that depends on the order of its input.
What the choice can be is said here by **keys**: for a predicate `p`, the keys whose first element satisfies
it (`keysLed`), those all of whose elements do (`keysFirm`), and those with elements of both kinds
(`keysTorn`). The first set is between the second and the union of the two others, and reordering the list
gives every set in between (`exists_perm_keysLed`).
-/

namespace List

variable {α κ : Type} [DecidableEq κ] {key : α → κ} {p : α → Bool} {l l' : List α} {k : κ}

theorem key_of_first {x : α} (h : l.find? (key · = k) = some x) : key x = k := by
  simpa using find?_some h

theorem exists_first {x : α} (hx : x ∈ l) (hkey : key x = k) : ∃ first, l.find? (key · = k) = some first :=
  Option.isSome_iff_exists.mp (find?_isSome.mpr ⟨x, hx, decide_eq_true hkey⟩)

/-! ## Three sets of keys -/

/-- The keys whose first element satisfies `p`. -/
def keysLed (key : α → κ) (p : α → Bool) (l : List α) : Finset κ :=
  (l.map key).toFinset.filter fun k => (l.find? (key · = k)).any p

/-- The keys all of whose elements satisfy `p`. -/
def keysFirm (key : α → κ) (p : α → Bool) (l : List α) : Finset κ :=
  (l.map key).toFinset.filter fun k => ∀ x ∈ l, key x = k → p x

/-- The keys with elements that satisfy `p` and elements that do not. -/
def keysTorn (key : α → κ) (p : α → Bool) (l : List α) : Finset κ :=
  (l.map key).toFinset.filter fun k => (∃ x ∈ l, key x = k ∧ p x) ∧ ∃ x ∈ l, key x = k ∧ ¬ p x

theorem mem_keysLed : k ∈ keysLed key p l ↔ ∃ x, l.find? (key · = k) = some x ∧ p x := by
  rw [keysLed, Finset.mem_filter, Option.any_eq_true]
  refine and_iff_right_of_imp ?_
  rintro ⟨x, hfirst, -⟩
  exact mem_toFinset.mpr (mem_map.mpr ⟨x, mem_of_find?_eq_some hfirst, key_of_first hfirst⟩)

theorem mem_keysFirm : k ∈ keysFirm key p l ↔ (∃ x ∈ l, key x = k) ∧ ∀ x ∈ l, key x = k → p x := by
  rw [keysFirm, Finset.mem_filter, mem_toFinset, mem_map]

theorem mem_keysTorn : k ∈ keysTorn key p l ↔ (∃ x ∈ l, key x = k ∧ p x) ∧ ∃ x ∈ l, key x = k ∧ ¬ p x := by
  rw [keysTorn, Finset.mem_filter, mem_toFinset, mem_map]
  refine and_iff_right_of_imp ?_
  rintro ⟨⟨x, hx, hkey, -⟩, -⟩
  exact ⟨x, hx, hkey⟩

/-! ## What does not depend on the order -/

theorem Perm.keys_eq (h : l' ~ l) : (l'.map key).toFinset = (l.map key).toFinset :=
  toFinset_eq_of_perm _ _ (h.map key)

theorem Perm.keysFirm_eq (h : l' ~ l) : keysFirm key p l' = keysFirm key p l := by
  ext k
  simp only [mem_keysFirm, h.mem_iff]

theorem Perm.keysTorn_eq (h : l' ~ l) : keysTorn key p l' = keysTorn key p l := by
  ext k
  simp only [mem_keysTorn, h.mem_iff]

/-! ## What an order chooses -/

theorem keysFirm_subset_keysLed : keysFirm key p l ⊆ keysLed key p l := by
  intro k hk
  obtain ⟨⟨x, hx, hkey⟩, hall⟩ := mem_keysFirm.mp hk
  obtain ⟨first, hfirst⟩ := exists_first hx hkey
  have hp := hall first (mem_of_find?_eq_some hfirst) (key_of_first hfirst)
  exact mem_keysLed.mpr ⟨first, hfirst, hp⟩

theorem mem_keysTorn_of_led (hk : k ∈ keysLed key p l) (hfirm : k ∉ keysFirm key p l) :
    k ∈ keysTorn key p l := by
  obtain ⟨first, hfirst, hp⟩ := mem_keysLed.mp hk
  have hmem := mem_of_find?_eq_some hfirst
  have hkey := key_of_first hfirst
  refine mem_keysTorn.mpr ⟨⟨first, hmem, hkey, hp⟩, ?_⟩
  by_contra hnone
  apply hfirm
  refine mem_keysFirm.mpr ⟨⟨first, hmem, hkey⟩, fun x hx hxk => ?_⟩
  by_contra hnot
  exact hnone ⟨x, hx, hxk, hnot⟩

/-- The keys led by `p` are the firm ones and some of the torn ones. -/
theorem keysLed_eq (key : α → κ) (p : α → Bool) (l : List α) :
    keysLed key p l = keysFirm key p l ∪ (keysTorn key p l ∩ keysLed key p l) := by
  ext k
  rw [Finset.mem_union, Finset.mem_inter]
  constructor
  · intro hk
    by_cases hfirm : k ∈ keysFirm key p l
    · exact .inl hfirm
    · exact .inr ⟨mem_keysTorn_of_led hk hfirm, hk⟩
  · rintro (hfirm | ⟨-, hled⟩)
    · exact keysFirm_subset_keysLed hfirm
    · exact hled

/-- **Every choice among the torn keys is made by some order**: the elements that fit the choice go first. -/
theorem exists_perm_keysLed {T : Finset κ} (hT : T ⊆ keysTorn key p l) :
    ∃ l', l' ~ l ∧ keysLed key p l' = keysFirm key p l ∪ T := by
  let fits : α → Bool := fun x => p x == decide (key x ∈ T)
  have hperm : l.filter fits ++ l.filter (fun x => !fits x) ~ l := filter_append_perm fits l
  refine ⟨_, hperm, ?_⟩
  -- a torn key has elements that fit, so one of them is its first
  have hfirst : ∀ {k first}, k ∈ keysTorn key p l →
      (l.filter fits ++ l.filter fun x => !fits x).find? (key · = k) = some first →
        p first = decide (k ∈ T) := by
    intro k first hk hfound
    have hkey := key_of_first hfound
    obtain ⟨⟨x, hx, hxk, hxp⟩, y, hy, hyk, hyp⟩ := mem_keysTorn.mp hk
    obtain ⟨z, hz, hzk, hzfits⟩ : ∃ z ∈ l, key z = k ∧ fits z = true := by
      by_cases hchosen : k ∈ T
      · refine ⟨x, hx, hxk, ?_⟩
        simp [fits, hxk, hxp, hchosen]
      · refine ⟨y, hy, hyk, ?_⟩
        simp [fits, hyk, hyp, hchosen]
    obtain ⟨fitting, hfitting⟩ := exists_first (mem_filter.mpr ⟨hz, hzfits⟩) hzk
    rw [find?_append, hfitting, Option.some_or, ← hfitting] at hfound
    have hfits := (mem_filter.mp (mem_of_find?_eq_some hfound)).2
    rw [← hkey]
    simpa [fits] using hfits
  ext k
  rw [keysLed_eq, hperm.keysFirm_eq, hperm.keysTorn_eq, Finset.mem_union, Finset.mem_union, Finset.mem_inter]
  refine or_congr_right ⟨?_, fun hk => ?_⟩
  · rintro ⟨htorn, hled⟩
    obtain ⟨first, hfound, hp⟩ := mem_keysLed.mp hled
    rw [hfirst htorn hfound] at hp
    exact of_decide_eq_true hp
  · refine ⟨hT hk, mem_keysLed.mpr ?_⟩
    obtain ⟨⟨x, hx, hxk, -⟩, -⟩ := mem_keysTorn.mp (hT hk)
    obtain ⟨first, hfound⟩ := exists_first (hperm.mem_iff.mpr hx) hxk
    refine ⟨first, hfound, ?_⟩
    rw [hfirst (hT hk) hfound]
    exact decide_eq_true hk

/-! ## Lists of first elements -/

/-- `firsts` holds one element for every key of `l`: the first one. -/
structure Firsts (key : α → κ) (l firsts : List α) : Prop where
  mem_iff : ∀ {x}, x ∈ firsts ↔ l.find? (key · = key x) = some x
  nodup : (firsts.map key).Nodup

namespace Firsts

variable {firsts : List α} (h : Firsts key l firsts) (w : κ → Nat)
include h

/-- The elements that satisfy `p` are those of the keys led by it. -/
theorem toFinset_filter : ((firsts.filter p).map key).toFinset = keysLed key p l := by
  ext k
  rw [mem_toFinset, mem_map, mem_keysLed]
  constructor
  · rintro ⟨x, hx, rfl⟩
    obtain ⟨hx, hp⟩ := mem_filter.mp hx
    exact ⟨x, h.mem_iff.mp hx, hp⟩
  · rintro ⟨x, hfirst, hp⟩
    obtain rfl := key_of_first hfirst
    exact ⟨x, mem_filter.mpr ⟨h.mem_iff.mpr hfirst, hp⟩, rfl⟩

theorem toFinset_map : (firsts.map key).toFinset = (l.map key).toFinset := by
  ext k
  rw [mem_toFinset, mem_toFinset, mem_map, mem_map]
  constructor
  · rintro ⟨x, hx, rfl⟩
    exact ⟨x, mem_of_find?_eq_some (h.mem_iff.mp hx), rfl⟩
  · rintro ⟨x, hx, rfl⟩
    obtain ⟨first, hfirst⟩ : ∃ first, l.find? (key · = key x) = some first := exists_first hx rfl
    have hkey := key_of_first hfirst
    refine ⟨first, h.mem_iff.mpr ?_, hkey⟩
    rw [hkey]
    exact hfirst

theorem length_eq : firsts.length = (l.map key).toFinset.card := by
  rw [← h.toFinset_map, toFinset_card_of_nodup h.nodup, length_map]

/-- A sum over the elements with `p` is a sum over the keys led by it. -/
theorem sum_filter : ((firsts.filter p).map fun x => w (key x)).sum = ∑ k ∈ keysLed key p l, w k := by
  have hnodup : ((firsts.filter p).map key).Nodup := h.nodup.sublist (filter_sublist.map key)
  rw [← h.toFinset_filter, sum_toFinset w hnodup, map_map]
  rfl

theorem sum_map : (firsts.map fun x => w (key x)).sum = ∑ k ∈ (l.map key).toFinset, w k := by
  rw [← h.toFinset_map, sum_toFinset w h.nodup, map_map]
  rfl

end Firsts

end List
