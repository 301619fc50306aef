import Mathlib.Algebra.Order.BigOperators.Group.List
import Mathlib.Algebra.Order.Group.Nat
import Mathlib.Algebra.GroupWithZero.Nat

/-!
# `Lib.Tally` — sums over call trees, and what is passed up

Every node of a tree uses some amount of its own account, and has calls. Of what the part of the tree below a
call uses, some is passed on to the account of the caller, where it is counted already; the rest is not. The
`tally` of a node is its own account, with what the calls have used and have not passed on.

The tree is given by a function on nodes and a rank that goes down with every call, so the tally is computed
with the rank for fuel (`tallyUpTo`), and more makes no difference (`tally_eq`). If no call passes on more than
the account of the callee, then a node passes on its whole tally just if every node below it, and itself, passes
on its whole account (`tally_le_iff`).
-/

section

variable {ν : Type} (own : ν → Nat) (calls : ν → List (ν × Nat))

/-- The tally of the first `n` levels. A call comes with what it has passed on. -/
def tallyUpTo : Nat → ν → Nat
  | 0, _ => 0
  | n + 1, x => own x + ((calls x).map fun call => tallyUpTo n call.1 - call.2).sum

def tally (rank : ν → Nat) (x : ν) : Nat := tallyUpTo own calls (rank x + 1) x

/-- A node below the root, with what its call has passed on. -/
inductive Reached (root : ν) (passed : Nat) : ν → Nat → Prop
  | root : Reached root passed root passed
  | call {x y : ν} {p q : Nat} (hx : Reached root passed x p) (hcall : (y, q) ∈ calls x) :
      Reached root passed y q

variable {own} {calls} {rank : ν → Nat} (hrank : ∀ x y q, (y, q) ∈ calls x → rank y < rank x)

include hrank

/-- Enough fuel is as good as more. -/
theorem tallyUpTo_succ :
    ∀ (n : Nat) (x : ν), rank x < n → tallyUpTo own calls (n + 1) x = tallyUpTo own calls n x := by
  intro n
  induction n with
  | zero =>
    intro x hx
    exact absurd hx (Nat.not_lt_zero _)
  | succ n ih =>
    intro x hx
    rw [tallyUpTo, tallyUpTo]
    congr 2
    apply List.map_congr_left
    rintro ⟨y, q⟩ hcall
    have hlt := hrank x y q hcall
    rw [ih y (by omega)]

theorem tallyUpTo_eq (n : Nat) (x : ν)
    (hx : rank x < n) : tallyUpTo own calls n x = tally own calls rank x := by
  induction n, hx using Nat.le_induction with
  | base => rfl
  | succ n hn ih => rw [tallyUpTo_succ hrank n x hn, ih]

/-- **The tally of a node** in terms of the tallies of its calls. -/
theorem tally_eq (x : ν) : tally own calls rank x =
      own x + ((calls x).map fun call => tally own calls rank call.1 - call.2).sum := by
  rw [tally, tallyUpTo]
  congr 2
  apply List.map_congr_left
  rintro ⟨y, q⟩ hcall
  rw [tallyUpTo_eq hrank _ _ (hrank x y q hcall)]

theorem own_le_tally (x : ν) : own x ≤ tally own calls rank x := by
  rw [tally_eq hrank]
  exact Nat.le_add_right _ _

/-- **When everything is passed on.** -/
theorem tally_le_iff (hpassed : ∀ x y q, (y, q) ∈ calls x → q ≤ own y) {root : ν} {passed : Nat}
    (hroot : passed ≤ own root) :
    tally own calls rank root ≤ passed ↔ ∀ x p, Reached calls root passed x p → own x ≤ p := by
  constructor
  · intro hle
    have hbelow : ∀ x p, Reached calls root passed x p → tally own calls rank x ≤ p ∧ p ≤ own x := by
      intro x p hx
      induction hx with
      | root => exact ⟨hle, hroot⟩
      | @call x y p q _ hcall ih =>
        refine ⟨?_, hpassed x y q hcall⟩
        -- the tally of the caller leaves no room for what the call has not passed on
        have hsum : ((calls x).map fun call => tally own calls rank call.1 - call.2).sum = 0 := by
          have heq : tally own calls rank x = own x + _ := tally_eq hrank x
          omega
        have hzero : tally own calls rank y - q = 0 :=
          List.sum_eq_zero_iff.mp hsum _ (List.mem_map.mpr ⟨(y, q), hcall, rfl⟩)
        omega
    intro x p hx
    exact (own_le_tally hrank x).trans (hbelow x p hx).1
  · intro hall
    have hfuel : ∀ n x p, Reached calls root passed x p → tallyUpTo own calls n x ≤ p := by
      intro n
      induction n with
      | zero => exact fun x p _ => Nat.zero_le p
      | succ n ih =>
        intro x p hx
        have hsum : ((calls x).map fun call => tallyUpTo own calls n call.1 - call.2).sum = 0 := by
          apply List.sum_eq_zero
          intro m hm
          obtain ⟨⟨y, q⟩, hcall, rfl⟩ := List.mem_map.mp hm
          exact Nat.sub_eq_zero_of_le (ih y q (.call hx hcall))
        rw [tallyUpTo, hsum, add_zero]
        exact hall x p hx
    exact hfuel _ root passed .root

end
