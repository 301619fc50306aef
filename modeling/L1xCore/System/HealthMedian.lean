import L1xCore.System.NodeRecords
import Mathlib.Data.List.GetD

/-!
# `System.HealthMedian` — which reports a median stands for

The response time of a peer is the median of the reported ones. Reports of fewer than half of the reporters
cannot move a median out of an interval that has the others. But the two middle values of an even number of
reports are added before the sum is halved, and `INVALID_RESPONSE_TIME` is the largest value there is.
-/

namespace L1xCore

namespace NodeHealth

def INVALID_RESPONSE_TIME : BitVec 64 := BitVec.allOnes 64

theorem le_iff {a b : BitVec 64} : Measure.le a b ↔ a ≤ b := Nat.compare_ne_gt

instance : Std.Total (Measure.le (T := BitVec 64)) := ⟨fun a b => by
  rw [le_iff, le_iff]
  exact Nat.le_total _ _⟩

instance : IsTrans (BitVec 64) Measure.le := ⟨fun a b c hab hbc => by
  rw [le_iff] at *
  exact Nat.le_trans hab hbc⟩

section

variable (values : List (BitVec 64))

def sorted : List (BitVec 64) := values.insertionSort Measure.le

/-- The middle values; they are the same one if there is an odd number of values. -/
def lowerMiddle : BitVec 64 := (sorted values).getD ((values.length - 1) / 2) 0

def upperMiddle : BitVec 64 := (sorted values).getD (values.length / 2) 0

/-- The two middle values of an even number of values have a sum of 64 bits. -/
def SumFits : Prop :=
  values.length % 2 = 0 → (lowerMiddle values).toNat + (upperMiddle values).toNat < 2 ^ 64

variable {values}

theorem length_sorted : (sorted values).length = values.length := List.length_insertionSort _ _

theorem sorted_mem {i : Nat} (hi : i < values.length) : (sorted values).getD i 0 ∈ values := by
  rw [List.getD_eq_getElem _ _ (length_sorted.symm ▸ hi)]
  exact (List.mem_insertionSort _).mp (List.getElem_mem _)

theorem sorted_le {i j : Nat} (hij : i ≤ j) (hj : j < values.length) :
    (sorted values).getD i 0 ≤ (sorted values).getD j 0 := by
  rw [← length_sorted] at hj
  rw [List.getD_eq_getElem _ _ hj, List.getD_eq_getElem _ _ (Nat.lt_of_le_of_lt hij hj)]
  rcases Nat.eq_or_lt_of_le hij with rfl | hlt
  · exact Nat.le_refl _
  · exact le_iff.mp (List.pairwise_iff_getElem.mp (List.pairwise_insertionSort _ _) _ _ _ _ hlt)

theorem le_of_mem_drop {i : Nat} {v : BitVec 64} (hv : v ∈ (sorted values).drop i) :
    (sorted values).getD i 0 ≤ v := by
  obtain ⟨k, hk, rfl⟩ := List.mem_drop_iff_getElem.mp hv
  rw [length_sorted] at hk
  rw [← List.getD_eq_getElem _ 0]
  exact sorted_le (Nat.le_add_right i k) (by omega)

theorem countP_sorted (p : BitVec 64 → Bool) (k : Nat) :
    values.countP p = ((sorted values).take k).countP p + ((sorted values).drop k).countP p := by
  rw [← List.countP_append, List.take_append_drop]
  exact ((List.perm_insertionSort _ _).countP_eq p).symm

/-- **Bounds of more than half of the values** from below are bounds of the lower middle. -/
theorem le_lowerMiddle {low : BitVec 64} (h : values.length < 2 * values.countP (low ≤ ·)) :
    low ≤ lowerMiddle values := by
  refine Nat.le_of_not_lt fun hlt => ?_
  have hcount := values.countP_le_length (p := (low ≤ ·))
  -- neither the lower middle nor what is before it is counted
  have hbefore : ((sorted values).take ((values.length - 1) / 2 + 1)).countP (low ≤ ·) = 0 := by
    refine List.countP_eq_zero.mpr fun v hv => mt of_decide_eq_true (Nat.not_le_of_lt ?_)
    obtain ⟨k, hk, rfl⟩ := List.mem_take_iff_getElem.mp hv
    rw [length_sorted] at hk
    rw [← List.getD_eq_getElem _ 0]
    exact Nat.lt_of_le_of_lt (sorted_le (by omega) (by omega)) hlt
  have hafter := ((sorted values).drop ((values.length - 1) / 2 + 1)).countP_le_length (p := (low ≤ ·))
  rw [List.length_drop, length_sorted] at hafter
  rw [countP_sorted _ ((values.length - 1) / 2 + 1), hbefore] at h
  omega

theorem upperMiddle_le {high : BitVec 64} (h : values.length < 2 * values.countP (· ≤ high)) :
    upperMiddle values ≤ high := by
  refine Nat.le_of_not_lt fun hlt => ?_
  have hafter : ((sorted values).drop (values.length / 2)).countP (· ≤ high) = 0 := by
    refine List.countP_eq_zero.mpr fun v hv => mt of_decide_eq_true (Nat.not_le_of_lt ?_)
    exact Nat.lt_of_lt_of_le hlt (le_of_mem_drop hv)
  have hbefore := ((sorted values).take (values.length / 2)).countP_le_length (p := (· ≤ high))
  rw [List.length_take, length_sorted] at hbefore
  rw [countP_sorted _ (values.length / 2), hafter] at h
  omega

theorem median_perm {others : List (BitVec 64)} (hperm : others.Perm values) :
    median others = median values := by
  have hsorted : sorted others = sorted values := by
    refine List.Perm.eq_of_pairwise (fun v v' _ _ hle hge => ?_) (List.pairwise_insertionSort _ _)
      (List.pairwise_insertionSort _ _)
      (((List.perm_insertionSort _ _).trans hperm).trans (List.perm_insertionSort _ _).symm)
    exact BitVec.eq_of_toNat_eq (Nat.le_antisymm (le_iff.mp hle) (le_iff.mp hge))
  unfold median
  change List.insertionSort Measure.le others = List.insertionSort Measure.le values at hsorted
  rw [hsorted]

variable (hpos : 0 < values.length)

include hpos

theorem median_eq : median values =
    if values.length % 2 = 0 then (lowerMiddle values + upperMiddle values) / 2 else upperMiddle values := by
  unfold median
  dsimp only
  rw [List.length_insertionSort, if_neg (Nat.ne_of_gt hpos)]
  split
  · have hlower : values.length / 2 - 1 = (values.length - 1) / 2 := by omega
    rw [hlower]
    rfl
  · rfl

/-- The median is between the middle values unless their sum wraps. -/
theorem median_between (hfits : SumFits values) :
    lowerMiddle values ≤ median values ∧ median values ≤ upperMiddle values := by
  have hle : (lowerMiddle values).toNat ≤ (upperMiddle values).toNat :=
    sorted_le (i := (values.length - 1) / 2) (j := values.length / 2) (by omega) (by omega)
  rw [median_eq hpos]
  split
  · next heven =>
      have hsum := hfits heven
      have hmedian : ((lowerMiddle values + upperMiddle values) / 2).toNat =
          ((lowerMiddle values).toNat + (upperMiddle values).toNat) / 2 := by
        rw [BitVec.toNat_udiv, BitVec.toNat_add, Nat.mod_eq_of_lt hsum]
        rfl
      constructor
      · show (lowerMiddle values).toNat ≤ _
        omega
      · show _ ≤ (upperMiddle values).toNat
        omega
  · exact ⟨hle, Nat.le_refl _⟩

end

variable {F : Type} [Measure F]

/-- The reported response times. -/
def times (reports : List (NodeHealth F)) : List (BitVec 64) := reports.map (·.responseTimeMs)

/-- **What a median of response times is**: one that is in the range of the reported ones, that does not
    depend on their order, and that is where more than half of them are; and the middle values have a sum. -/
structure IsMedian (reports : List (NodeHealth F)) (time : BitVec 64) : Prop where
  above : ∃ report ∈ reports, report.responseTimeMs ≤ time
  below : ∃ report ∈ reports, time ≤ report.responseTimeMs
  order : ∀ others aggregated, others.Perm reports → aggregate others = some aggregated →
    aggregated.responseTimeMs = time
  majority : ∀ low high, reports.length < 2 * (times reports).countP (fun time => low ≤ time ∧ time ≤ high) →
    low ≤ time ∧ time ≤ high
  sum : reports.length % 2 = 0 →
    ((lowerMiddle (times reports)).checkedAdd (upperMiddle (times reports))).isSome

theorem aggregate_time {reports : List (NodeHealth F)} {aggregated : NodeHealth F}
    (h : aggregate reports = some aggregated) : aggregated.responseTimeMs = median (times reports) := by
  cases reports with
  | nil => cases h
  | cons first others =>
      cases h
      rfl

/-- **When the aggregated response time is a median**: if the two middle ones of an even number of response
    times have a sum of 64 bits. -/
theorem aggregate_isMedian_iff (first : NodeHealth F) (others : List (NodeHealth F)) :
    (∃ aggregated, aggregate (first :: others) = some aggregated ∧
        IsMedian (first :: others) aggregated.responseTimeMs) ↔ SumFits (times (first :: others)) := by
  generalize hreports : first :: others = reports
  obtain ⟨aggregated, haggregated⟩ : ∃ aggregated, aggregate reports = some aggregated := hreports ▸ ⟨_, rfl⟩
  have hlength : (times reports).length = reports.length := List.length_map _
  have hpos : 0 < (times reports).length := by
    rw [hlength, ← hreports]
    exact Nat.succ_pos _
  have hle (low high) (p : BitVec 64 → Bool) (hp : ∀ time, low ≤ time ∧ time ≤ high → p time) :
      (times reports).countP (fun time => low ≤ time ∧ time ≤ high) ≤ (times reports).countP p :=
    List.countP_mono_left fun time _ h => hp time (of_decide_eq_true h)
  constructor
  · rintro ⟨_, -, h⟩ heven
    refine Nat.lt_of_not_le fun hwraps => ?_
    rw [hlength] at heven
    exact Option.isSome_iff_ne_none.mp (h.sum heven) (BitVec.checkedAdd_eq_none.mpr hwraps)
  · intro hfits
    obtain ⟨hlower, hupper⟩ := median_between hpos hfits
    refine ⟨aggregated, haggregated, ?_⟩
    rw [aggregate_time haggregated]
    refine ⟨?_, ?_, fun others _ hperm hothers => ?_, fun low high hcount => ?_, fun heven => ?_⟩
    · have hmem : lowerMiddle (times reports) ∈ times reports := sorted_mem (by omega)
      obtain ⟨report, hreport, htime⟩ := List.mem_map.mp hmem
      exact ⟨report, hreport, htime ▸ hlower⟩
    · have hmem : upperMiddle (times reports) ∈ times reports := sorted_mem (by omega)
      obtain ⟨report, hreport, htime⟩ := List.mem_map.mp hmem
      exact ⟨report, hreport, htime ▸ hupper⟩
    · rw [aggregate_time hothers]
      exact median_perm (hperm.map _)
    · rw [← hlength] at hcount
      constructor
      · refine Nat.le_trans (le_lowerMiddle (Nat.lt_of_lt_of_le hcount (Nat.mul_le_mul_left 2 ?_))) hlower
        exact hle low high _ fun time h => decide_eq_true h.1
      · refine Nat.le_trans hupper (upperMiddle_le (Nat.lt_of_lt_of_le hcount (Nat.mul_le_mul_left 2 ?_)))
        exact hle low high _ fun time h => decide_eq_true h.2
    · refine Option.isSome_iff_ne_none.mpr (mt BitVec.checkedAdd_eq_none.mp (Nat.not_le_of_lt (hfits ?_)))
      rwa [hlength]

end NodeHealth

namespace Small

/-- What a node reports of a peer that does not answer. -/
def unanswered : NodeHealth (BitVec 64) := ⟨"", "", 0, 0, 0, NodeHealth.INVALID_RESPONSE_TIME, 0, 0, 0, 0⟩

/-- Two such reports are aggregated to half of the marker. -/
theorem unanswered_not_median :
    ¬ ∃ aggregated, NodeHealth.aggregate [unanswered, unanswered] = some aggregated ∧
      NodeHealth.IsMedian [unanswered, unanswered] aggregated.responseTimeMs := by
  rintro ⟨aggregated, haggregated, h⟩
  obtain ⟨report, hreport, hle⟩ := h.above
  have hmarker : report = unanswered := by simpa using hreport
  have htime : aggregated.responseTimeMs = 2 ^ 63 - 1 := by
    cases haggregated
    decide +kernel
  rw [hmarker, htime] at hle
  exact absurd hle (by decide +kernel)

end Small

end L1xCore
