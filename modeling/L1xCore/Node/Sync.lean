import L1xCore.Primitives
import Mathlib.Order.Bounds.Basic

/-!
# `Node.Sync` — where a node that restarts goes on

`sync_node` goes down from the highest stored block to the first one that is executed, and execution starts after
it. The search ends at block 1 without asking for it. So block 1 counts as executed when nothing is, and
`execute_blocks` then refuses block 2 because its parent is not executed. A search that starts at block 1 passes the
place where it should end, and subtracts from 0.
-/

namespace L1xCore.Sync

variable (isBlockExecuted : BlockNumber → Except Error Bool)

/-- The loop of `find_highest_local_executed_block` at a number; a lookup that fails counts as a block that is not
    executed. There is no result if the subtraction underflows. -/
def searchDown : Nat → Option Nat
  | 0 => if isBlockExecuted 0 = .ok true then some 0 else none
  | n + 1 =>
    if isBlockExecuted (BitVec.ofNat 128 (n + 1)) = .ok true then some (n + 1)
    else if n = 1 then some n
    else searchDown n

/-- `find_highest_local_executed_block`. -/
def findHighestLocalExecutedBlock (start : BlockNumber) : Option Nat :=
  if start = 0 then some 0 else searchDown isBlockExecuted start.toNat

/-- The numbers up to `start` that are reported as executed. -/
def executedUpTo (start : BlockNumber) : Set Nat :=
  { n | ∃ number ≤ start, number.toNat = n ∧ isBlockExecuted number = .ok true }

/-- **The true executed head** is found: the largest number that is reported, or 0. -/
def FindsHead (start : BlockNumber) : Prop :=
  ∃ head, findHighestLocalExecutedBlock isBlockExecuted start = some head ∧
    (IsGreatest (executedUpTo isBlockExecuted start) head ∨ executedUpTo isBlockExecuted start = ∅ ∧ head = 0)

variable {isBlockExecuted} {last : BlockNumber}
  (hexecuted : ∀ number, isBlockExecuted number = .ok true ↔ 1 ≤ number ∧ number ≤ last)

include hexecuted

theorem executed_ofNat_iff {n : Nat} (hn : n < 2 ^ 128) :
    isBlockExecuted (.ofNat 128 n) = .ok true ↔ 1 ≤ n ∧ n ≤ last.toNat := by
  rw [hexecuted, BitVec.le_def, BitVec.le_def, BitVec.toNat_ofNat, Nat.mod_eq_of_lt hn]
  rfl

/-- Once a block is executed, the search stops at the highest one. -/
theorem searchDown_eq (hlast : 1 ≤ last.toNat) {n : Nat} (hn : n < 2 ^ 128) (hpos : 1 ≤ n) :
    searchDown isBlockExecuted n = some (min n last.toNat) := by
  induction n with
  | zero => cases hpos
  | succ n ih =>
    unfold searchDown
    by_cases hle : n + 1 ≤ last.toNat
    · rw [if_pos ((executed_ofNat_iff hexecuted hn).mpr ⟨hpos, hle⟩), min_eq_left hle]
    rw [if_neg (fun h => hle ((executed_ofNat_iff hexecuted hn).mp h).2)]
    have hmin : min (n + 1) last.toNat = min n last.toNat := by omega
    rw [hmin]
    by_cases hone : n = 1
    · rw [if_pos hone]
      congr 1
      omega
    · rw [if_neg hone]
      exact ih (by omega) (by omega)

/-- When none is executed, the search ends at block 1, or it goes on below 0. -/
theorem searchDown_of_none (hlast : last.toNat = 0) {n : Nat} (hn : n < 2 ^ 128) :
    searchDown isBlockExecuted n = if 2 ≤ n then some 1 else none := by
  have hnot : ∀ k < 2 ^ 128, isBlockExecuted (.ofNat 128 k) ≠ .ok true := by
    intro k hk h
    have hrange := (executed_ofNat_iff hexecuted hk).mp h
    omega
  induction n with
  | zero =>
    unfold searchDown
    exact if_neg (hnot 0 hn)
  | succ n ih =>
    rw [searchDown, if_neg (hnot (n + 1) hn), ih (by omega)]
    by_cases hone : n = 1
    · rw [if_pos hone, if_pos (by omega), hone]
    · rw [if_neg hone]
      exact if_congr (by omega) rfl rfl

/-- **When the search is right**: if it has nothing to do, or block 1 is executed. -/
theorem findsHead_iff (start : BlockNumber) : FindsHead isBlockExecuted start ↔ start = 0 ∨ 1 ≤ last := by
  unfold FindsHead findHighestLocalExecutedBlock
  by_cases hzero : start = 0
  · subst hzero
    refine iff_of_true ⟨0, rfl, .inr ⟨?_, rfl⟩⟩ (.inl rfl)
    refine Set.eq_empty_of_forall_notMem ?_
    rintro _ ⟨number, hle, -, hok⟩
    exact absurd (BitVec.le_trans ((hexecuted number).mp hok).1 hle) (by decide)
  have hstart : 1 ≤ start.toNat := Nat.pos_of_ne_zero fun h => hzero (BitVec.eq_of_toNat_eq h)
  rw [if_neg hzero, or_iff_right hzero]
  by_cases hlast : 1 ≤ last
  · refine iff_of_true ⟨_, searchDown_eq hexecuted hlast start.isLt hstart, .inl ?_⟩ hlast
    constructor
    · rcases le_total start.toNat last.toNat with hle | hle
      · exact ⟨start, BitVec.le_refl start, (min_eq_left hle).symm, (hexecuted start).mpr ⟨hstart, hle⟩⟩
      · exact ⟨last, hle, (min_eq_right hle).symm, (hexecuted last).mpr ⟨hlast, BitVec.le_refl last⟩⟩
    · rintro _ ⟨number, hle, rfl, hok⟩
      exact Nat.le_min.mpr ⟨hle, ((hexecuted number).mp hok).2⟩
  · have hnone : last.toNat = 0 := Nat.eq_zero_of_not_pos hlast
    refine iff_of_false ?_ hlast
    rw [searchDown_of_none hexecuted hnone start.isLt]
    rintro ⟨head, hfound, hhead⟩
    split at hfound
    · cases hfound
      -- block 1 is the result, and it is not executed
      rcases hhead with ⟨⟨number, -, -, hok⟩, -⟩ | ⟨-, hone⟩
      · exact hlast (BitVec.le_trans ((hexecuted number).mp hok).1 ((hexecuted number).mp hok).2)
      · cases hone
    · cases hfound

omit hexecuted

/-- Blocks 1 to 5 are executed, of seven that are stored. -/
theorem findsHead_seven : FindsHead (fun number => .ok (decide (1 ≤ number ∧ number ≤ 5))) 7 := by
  have hexecuted : ∀ number : BlockNumber,
      (.ok (decide (1 ≤ number ∧ number ≤ 5)) : Except Error Bool) = .ok true ↔ 1 ≤ number ∧ number ≤ 5 := by
    simp
  exact (findsHead_iff hexecuted 7).mpr (.inr (by decide))

/-- Nothing is executed: of two stored blocks the first one is taken for executed, and with one stored block the
    search underflows. -/
theorem nothing_executed :
    findHighestLocalExecutedBlock (fun _ => .ok false) 2 = some 1 ∧
      findHighestLocalExecutedBlock (fun _ => .ok false) 1 = none ∧
      ¬ FindsHead (fun _ => .ok false) 2 ∧ ¬ FindsHead (fun _ => .ok false) 1 := by
  have htwo : findHighestLocalExecutedBlock (fun _ => .ok false) 2 = some 1 := by decide
  have hone : findHighestLocalExecutedBlock (fun _ => .ok false) 1 = none := by decide
  refine ⟨htwo, hone, ?_, ?_⟩
  · rintro ⟨head, hfound, hhead⟩
    cases htwo.symm.trans hfound
    rcases hhead with ⟨⟨number, -, -, hok⟩, -⟩ | ⟨-, hzero⟩
    · cases hok
    · cases hzero
  · rintro ⟨head, hfound, -⟩
    cases hone.symm.trans hfound

end L1xCore.Sync
