import Mathlib.Data.BitVec

/-!
# `Lib.Checked` — fixed-width arithmetic that reports overflow

Machine integers are bit vectors; `+`, `-`, `*` on them wrap. The operations here are the other two
families a program uses on fixed-width integers: the **checked** ones, which return nothing when the
exact result does not fit, and the **saturating** subtraction. Every operation comes with the one
lemma that says what it computes on the underlying naturals, so that clients reason with `omega` and
never unfold it. There are finitely many bit vectors of one width, so sums over all of them make sense.
-/

namespace BitVec

variable {w : Nat} {x y z : BitVec w}

/-- Exact sum, or nothing when it does not fit. -/
def checkedAdd (x y : BitVec w) : Option (BitVec w) :=
  if x.toNat + y.toNat < 2 ^ w then some (x + y) else none

/-- Exact difference, or nothing when it would be negative. -/
def checkedSub (x y : BitVec w) : Option (BitVec w) :=
  if y ≤ x then some (x - y) else none

/-- Exact product, or nothing when it does not fit. -/
def checkedMul (x y : BitVec w) : Option (BitVec w) :=
  if x.toNat * y.toNat < 2 ^ w then some (x * y) else none

/-- Difference, clipped at zero. -/
def saturatingSub (x y : BitVec w) : BitVec w :=
  if y ≤ x then x - y else 0

theorem checkedAdd_eq_some : x.checkedAdd y = some z ↔ z.toNat = x.toNat + y.toNat := by
  unfold checkedAdd
  split
  · next h =>
      rw [Option.some.injEq, toNat_eq, toNat_add, Nat.mod_eq_of_lt h]
      exact eq_comm
  · next h =>
      simp only [reduceCtorEq, false_iff]
      omega

theorem checkedAdd_eq_none : x.checkedAdd y = none ↔ 2 ^ w ≤ x.toNat + y.toNat := by
  unfold checkedAdd
  split <;> simp <;> omega

theorem checkedSub_eq_some : x.checkedSub y = some z ↔ z.toNat + y.toNat = x.toNat := by
  unfold checkedSub
  split
  · next h =>
      have hle : y.toNat ≤ x.toNat := le_def.mp h
      rw [Option.some.injEq, toNat_eq, toNat_sub_of_le h]
      omega
  · next h =>
      have hlt : ¬ y.toNat ≤ x.toNat := fun hle => h (le_def.mpr hle)
      simp only [reduceCtorEq, false_iff]
      omega

theorem checkedSub_eq_none : x.checkedSub y = none ↔ x.toNat < y.toNat := by
  unfold checkedSub
  split
  · next h =>
      have hle : y.toNat ≤ x.toNat := le_def.mp h
      simp only [reduceCtorEq, false_iff]
      omega
  · next h =>
      have hlt : ¬ y.toNat ≤ x.toNat := fun hle => h (le_def.mpr hle)
      simp only [true_iff]
      omega

theorem checkedMul_eq_some : x.checkedMul y = some z ↔ z.toNat = x.toNat * y.toNat := by
  unfold checkedMul
  split
  · next h =>
      rw [Option.some.injEq, toNat_eq, toNat_mul, Nat.mod_eq_of_lt h]
      exact eq_comm
  · next h =>
      simp only [reduceCtorEq, false_iff]
      omega

theorem checkedMul_eq_none : x.checkedMul y = none ↔ 2 ^ w ≤ x.toNat * y.toNat := by
  unfold checkedMul
  split <;> simp <;> omega

theorem toNat_saturatingSub (x y : BitVec w) : (x.saturatingSub y).toNat = x.toNat - y.toNat := by
  unfold saturatingSub
  split
  · next h => exact toNat_sub_of_le h
  · next h =>
      have hlt : x.toNat < y.toNat := Nat.lt_of_not_le h
      rw [ofNat_eq_ofNat, toNat_zero]
      omega

theorem exists_toNat_eq {n : Nat} (h : n < 2 ^ w) : ∃ x : BitVec w, x.toNat = n :=
  ⟨.ofNat w n, by rw [toNat_ofNat, Nat.mod_eq_of_lt h]⟩

theorem exists_checkedSub (h : y.toNat ≤ x.toNat) : ∃ z, z.toNat + y.toNat = x.toNat ∧ x.checkedSub y = some z :=
  ⟨x - y, by rw [toNat_sub_of_le h]; omega, if_pos h⟩

instance fintypeOfFin : Fintype (BitVec w) :=
  Fintype.ofBijective (fun i : Fin (2 ^ w) => BitVec.ofFin i)
    ⟨fun _ _ h => BitVec.ofFin.inj h, fun x => ⟨x.toFin, rfl⟩⟩

end BitVec
