import Mathlib.Algebra.BigOperators.Ring.List
import Mathlib.Algebra.Order.BigOperators.Group.List
import Mathlib.Algebra.Order.Ring.Abs
import Mathlib.Tactic.Linarith
import Mathlib.Tactic.Ring

/-! # How far apart the values of a list are

The sum of all pairwise gaps does not depend on the order of the values. For an ascending list it
is twice a sum that weights each value by its rank, which also bounds it by the sum of the
values. -/

namespace Dispersion

/-! ## Ranks -/

section Ranks

variable {R : Type*} [CommRing R] (x : R) (xs : List R)

/-- Each value with the weight `2 * rank - n - 1`. -/
def rankSum : R := (xs.zipIdx.map fun p => (2 * ((p.2 : R) + 1) - xs.length - 1) * p.1).sum

/-- The largest value that the sum of an ascending list may have, less the sum itself. -/
def slack : R := (xs.length - 1) * xs.sum - rankSum xs

theorem sum_map_sub : (xs.map fun y => y - x).sum = xs.sum - xs.length * x := by
  induction xs with
  | nil => simp
  | cons y xs ih =>
      simp only [List.map_cons, List.sum_cons, ih, List.length_cons]
      push_cast
      ring

theorem sum_zipIdx (c : R) (k : ℕ) :
    ((xs.zipIdx k).map fun p => (2 * (p.2 : R) + c) * p.1).sum =
      (xs.zipIdx.map fun p => 2 * (p.2 : R) * p.1).sum + (2 * k + c) * xs.sum := by
  induction xs generalizing k c with
  | nil => simp
  | cons y xs ih =>
      have hnext := ih 0 (0 + 1)
      simp only [add_zero] at hnext
      simp only [List.zipIdx_cons, List.map_cons, List.sum_cons, ih c (k + 1), hnext]
      push_cast
      ring

/-- A new first value moves every other value one rank up. -/
theorem rankSum_cons : rankSum (x :: xs) = rankSum xs + (xs.map fun y => y - x).sum := by
  have hweight : ∀ (n : R) (p : R × ℕ),
      (2 * ((p.2 : R) + 1) - n - 1) * p.1 = (2 * (p.2 : R) + (1 - n)) * p.1 := fun n p => by ring
  unfold rankSum
  simp only [hweight, List.zipIdx_cons, List.map_cons, List.sum_cons, List.length_cons,
    sum_zipIdx, sum_map_sub]
  push_cast
  ring

theorem slack_cons : slack (x :: xs) = slack xs + 2 * (xs.length * x) := by
  unfold slack
  rw [rankSum_cons, sum_map_sub, List.length_cons, List.sum_cons]
  push_cast
  ring

end Ranks

/-! ## Gaps -/

variable {R : Type*} [CommRing R] [LinearOrder R] {x : R} {xs ys : List R}

def gapsTo (x : R) (xs : List R) : R := (xs.map fun y => |x - y|).sum

/-- The gaps between all pairs of values. -/
def gaps (xs : List R) : R := (xs.map fun x => gapsTo x xs).sum

theorem gapsTo_perm (h : xs.Perm ys) (x : R) : gapsTo x xs = gapsTo x ys :=
  (h.map _).sum_eq

theorem gaps_perm (h : xs.Perm ys) : gaps xs = gaps ys := by
  calc gaps xs = (xs.map fun x => gapsTo x ys).sum := by
        unfold gaps
        exact congrArg List.sum (List.map_congr_left fun x _ => gapsTo_perm h x)
    _ = gaps ys := (h.map _).sum_eq

variable [IsStrictOrderedRing R]

theorem gapsTo_mul {k : R} (hk : 0 ≤ k) (x : R) (xs : List R) :
    gapsTo (k * x) (xs.map (k * ·)) = k * gapsTo x xs := by
  unfold gapsTo
  rw [List.map_map, ← List.sum_map_mul_left]
  refine congrArg List.sum (List.map_congr_left fun y _ => ?_)
  simp only [Function.comp_apply]
  rw [← mul_sub, abs_mul, abs_of_nonneg hk]

theorem gaps_mul {k : R} (hk : 0 ≤ k) (xs : List R) : gaps (xs.map (k * ·)) = k * gaps xs := by
  unfold gaps
  rw [List.map_map, ← List.sum_map_mul_left]
  exact congrArg List.sum (List.map_congr_left fun x _ => gapsTo_mul hk x xs)

theorem gaps_cons (x : R) (xs : List R) : gaps (x :: xs) = gaps xs + 2 * gapsTo x xs := by
  have hrest : (xs.map fun y => gapsTo y (x :: xs)).sum = gapsTo x xs + gaps xs := by
    unfold gaps gapsTo
    rw [← List.sum_map_add]
    refine congrArg List.sum (List.map_congr_left fun y _ => ?_)
    simp only [List.map_cons, List.sum_cons]
    rw [abs_sub_comm]
  calc gaps (x :: xs) = gapsTo x (x :: xs) + (xs.map fun y => gapsTo y (x :: xs)).sum := rfl
    _ = gaps xs + 2 * gapsTo x xs := by
        rw [hrest]
        simp only [gapsTo, List.map_cons, List.sum_cons, sub_self, abs_zero]
        ring

/-! ## Ascending lists -/

theorem gapsTo_of_le (h : ∀ y ∈ xs, x ≤ y) : gapsTo x xs = (xs.map fun y => y - x).sum := by
  refine congrArg List.sum (List.map_congr_left fun y hy => ?_)
  rw [abs_sub_comm, abs_of_nonneg (sub_nonneg.mpr (h y hy))]

/-- The pairwise gaps of an ascending list, by ranks. -/
theorem gaps_eq_rankSum (h : xs.Pairwise (· ≤ ·)) : gaps xs = 2 * rankSum xs := by
  induction h with
  | nil => simp [gaps, rankSum]
  | cons hle _ ih =>
      rw [gaps_cons, rankSum_cons, gapsTo_of_le hle, ih]
      ring

/-! ## Bounds -/

theorem gapsTo_nonneg (x : R) (xs : List R) : 0 ≤ gapsTo x xs := by
  refine List.sum_nonneg fun gap hgap => ?_
  obtain ⟨y, -, rfl⟩ := List.mem_map.mp hgap
  exact abs_nonneg _

theorem gapsTo_eq_zero_iff : gapsTo x xs = 0 ↔ ∀ y ∈ xs, x = y := by
  induction xs with
  | nil => simp [gapsTo]
  | cons y xs ih =>
      have hsum : gapsTo x (y :: xs) = |x - y| + gapsTo x xs := rfl
      rw [hsum, add_eq_zero_iff_of_nonneg (abs_nonneg _) (gapsTo_nonneg x xs), ih, abs_eq_zero,
        sub_eq_zero, List.forall_mem_cons]

theorem gaps_nonneg (xs : List R) : 0 ≤ gaps xs := by
  refine List.sum_nonneg fun gap hgap => ?_
  obtain ⟨x, -, rfl⟩ := List.mem_map.mp hgap
  exact gapsTo_nonneg x xs

theorem gaps_eq_zero_iff : gaps xs = 0 ↔ ∀ x ∈ xs, ∀ y ∈ xs, x = y := by
  induction xs with
  | nil => simp [gaps]
  | cons x xs ih =>
      rw [gaps_cons, add_eq_zero_iff_of_nonneg (gaps_nonneg xs)
        (mul_nonneg zero_le_two (gapsTo_nonneg x xs)), ih, mul_eq_zero_iff_left two_ne_zero,
        gapsTo_eq_zero_iff]
      constructor
      · rintro ⟨hrest, hx⟩ y hy z hz
        have heq : ∀ y ∈ x :: xs, x = y := List.forall_mem_cons.mpr ⟨rfl, hx⟩
        exact (heq y hy).symm.trans (heq z hz)
      · intro h
        exact ⟨fun y hy z hz => h y (List.mem_cons_of_mem x hy) z (List.mem_cons_of_mem x hz),
          fun y hy => h x List.mem_cons_self y (List.mem_cons_of_mem x hy)⟩

theorem slack_nonneg (h : ∀ x ∈ xs, 0 ≤ x) : 0 ≤ slack xs := by
  induction xs with
  | nil => simp [slack, rankSum]
  | cons x xs ih =>
      obtain ⟨hx, hxs⟩ := List.forall_mem_cons.mp h
      rw [slack_cons]
      have hrest := ih hxs
      positivity

/-- Only the last value of an ascending list may be there when nothing is left. -/
theorem slack_eq_zero_iff (hsorted : xs.Pairwise (· ≤ ·)) (h : ∀ x ∈ xs, 0 ≤ x) :
    slack xs = 0 ↔ xs.countP (· ≠ 0) ≤ 1 := by
  induction hsorted with
  | nil => simp [slack, rankSum]
  | @cons x xs hle hsorted ih =>
      obtain ⟨hx, hxs⟩ := List.forall_mem_cons.mp h
      rw [slack_cons, add_eq_zero_iff_of_nonneg (slack_nonneg hxs) (by positivity), ih hxs,
        mul_eq_zero_iff_left two_ne_zero, mul_eq_zero]
      by_cases hzero : x = 0
      · simp [hzero]
      · have hpos : 0 < x := lt_of_le_of_ne hx (Ne.symm hzero)
        have hall : xs.countP (· ≠ 0) = xs.length := by
          rw [List.countP_eq_length]
          intro y hy
          simpa using (lt_of_lt_of_le hpos (hle y hy)).ne'
        rw [List.countP_cons_of_pos (by simpa using hzero), hall]
        simp only [hzero, or_false, Nat.cast_eq_zero]
        omega

end Dispersion
