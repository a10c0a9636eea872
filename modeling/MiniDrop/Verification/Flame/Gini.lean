import MiniDrop.Library.Dispersion
import MiniDrop.Verification.Flame.Conservation
import Mathlib.Data.List.Sort

/-! # The Gini coefficient

The loop weights the sorted values by their ranks. Twice its sum is the sum of all pairwise gaps,
so neither the order nor the unit of the values counts. -/

namespace MiniDrop

open Dispersion

variable {values : List ℤ}

theorem two_mul_rankSum (values : List ℤ) :
    2 * rankSum (values.mergeSort (· ≤ ·)) = gaps values := by
  rw [← gaps_eq_rankSum (List.pairwise_mergeSort' _ values), gaps_perm (List.mergeSort_perm values _)]

theorem sum_mergeSort (values : List ℤ) : (values.mergeSort (· ≤ ·)).sum = values.sum :=
  (List.mergeSort_perm values _).sum_eq

/-- The loop in exact arithmetic. -/
theorem giniCoefficient_eq_rankSum (hsum : 0 < values.sum) :
    giniCoefficient fractions values =
      ((rankSum (values.mergeSort (· ≤ ·)) : ℤ) : ℚ) /
        ((values.length * values.sum : ℤ) : ℚ) := by
  unfold giniCoefficient
  rw [if_neg hsum.ne']
  dsimp only
  rw [sum_mergeSort, List.length_mergeSort]
  unfold rankSum
  rw [List.length_mergeSort]
  rfl

/-- Half the mean gap of two values, in units of their mean. -/
theorem giniCoefficient_eq_gaps (hsum : 0 < values.sum) :
    giniCoefficient fractions values =
      ((gaps values : ℤ) : ℚ) / (2 * values.length * ((values.sum : ℤ) : ℚ)) := by
  rw [giniCoefficient_eq_rankSum hsum, ← two_mul_rankSum]
  push_cast
  rw [mul_assoc, mul_div_mul_left _ _ two_ne_zero]

theorem length_pos_of_sum (hsum : 0 < values.sum) : 0 < values.length :=
  List.length_pos_of_sum_pos values hsum

/-- The distance to the largest coefficient. -/
theorem giniCoefficient_eq_slack (hsum : 0 < values.sum) :
    giniCoefficient fractions values = ((values.length : ℚ) - 1) / values.length -
      ((slack (values.mergeSort (· ≤ ·)) : ℤ) : ℚ) / ((values.length * values.sum : ℤ) : ℚ) := by
  have hlength : (values.length : ℚ) ≠ 0 := by exact_mod_cast (length_pos_of_sum hsum).ne'
  rw [giniCoefficient_eq_rankSum hsum]
  unfold slack
  rw [sum_mergeSort, List.length_mergeSort]
  generalize values.sum = total at hsum
  have htotal : (total : ℚ) ≠ 0 := by exact_mod_cast hsum.ne'
  push_cast
  field_simp
  ring

section Bounds

variable (hsum : 0 < values.sum)

include hsum

theorem scale_pos : (0 : ℚ) < ((values.length * values.sum : ℤ) : ℚ) := by
  have hlength := length_pos_of_sum hsum
  exact_mod_cast mul_pos (Int.natCast_pos.mpr hlength) hsum

theorem giniCoefficient_nonneg : 0 ≤ giniCoefficient fractions values := by
  rw [giniCoefficient_eq_rankSum hsum]
  have hgaps := gaps_nonneg values
  rw [← two_mul_rankSum] at hgaps
  exact div_nonneg (by exact_mod_cast by omega) (scale_pos hsum).le

theorem giniCoefficient_eq_zero_iff :
    giniCoefficient fractions values = 0 ↔ ∀ x ∈ values, ∀ y ∈ values, x = y := by
  rw [giniCoefficient_eq_rankSum hsum, div_eq_zero_iff, or_iff_left (scale_pos hsum).ne',
    Int.cast_eq_zero, ← gaps_eq_zero_iff, ← two_mul_rankSum, mul_eq_zero_iff_left two_ne_zero]

variable (hnonneg : ∀ x ∈ values, 0 ≤ x)

include hnonneg

omit hsum in
theorem slack_mergeSort_nonneg : 0 ≤ slack (values.mergeSort (· ≤ ·)) :=
  slack_nonneg fun x hx => hnonneg x (List.mem_mergeSort.mp hx)

theorem giniCoefficient_le :
    giniCoefficient fractions values ≤ ((values.length : ℚ) - 1) / values.length := by
  rw [giniCoefficient_eq_slack hsum]
  exact sub_le_self _ (div_nonneg (by exact_mod_cast slack_mergeSort_nonneg hnonneg)
    (scale_pos hsum).le)

theorem giniCoefficient_eq_max_iff :
    giniCoefficient fractions values = ((values.length : ℚ) - 1) / values.length ↔
      values.countP (· ≠ 0) = 1 := by
  have hsome : 0 < values.countP (· ≠ 0) := by
    rw [List.countP_pos_iff]
    by_contra hzero
    push Not at hzero
    exact hsum.ne' (List.sum_eq_zero fun x hx => by simpa using hzero x hx)
  rw [giniCoefficient_eq_slack hsum, sub_eq_self, div_eq_zero_iff,
    or_iff_left (scale_pos hsum).ne', Int.cast_eq_zero,
    slack_eq_zero_iff (List.pairwise_mergeSort' _ values)
      fun x hx => hnonneg x (List.mem_mergeSort.mp hx),
    (List.mergeSort_perm values _).countP_eq]
  omega

end Bounds

/-- The coefficient is the relative mean difference, with its bounds and invariances. -/
structure IsGini (values : List ℤ) (gini : List ℤ → ℚ) : Prop where
  nonneg : 0 ≤ gini values
  le : gini values ≤ ((values.length : ℚ) - 1) / values.length
  eq_zero_iff : gini values = 0 ↔ ∀ x ∈ values, ∀ y ∈ values, x = y
  eq_max_iff : gini values = ((values.length : ℚ) - 1) / values.length ↔
    values.countP (· ≠ 0) = 1
  eq_gaps : gini values = ((values.map fun x => (values.map fun y => |x - y|).sum).sum : ℤ) /
    (2 * (values.length : ℚ) * (values.sum : ℤ))
  perm : ∀ values', values.Perm values' → gini values' = gini values
  scale : ∀ k, 0 < k → gini (values.map (k * ·)) = gini values

theorem isGini_giniCoefficient (hnonneg : ∀ x ∈ values, 0 ≤ x) (hsum : 0 < values.sum) :
    IsGini values (giniCoefficient fractions) where
  nonneg := giniCoefficient_nonneg hsum
  le := giniCoefficient_le hsum hnonneg
  eq_zero_iff := giniCoefficient_eq_zero_iff hsum
  eq_max_iff := giniCoefficient_eq_max_iff hsum hnonneg
  eq_gaps := giniCoefficient_eq_gaps hsum
  perm values' hperm := by
    rw [giniCoefficient_eq_gaps hsum, giniCoefficient_eq_gaps (hperm.sum_eq ▸ hsum),
      gaps_perm hperm, hperm.length_eq, hperm.sum_eq]
  scale k hk := by
    have hscaled : (values.map (k * ·)).sum = k * values.sum := by
      simpa using List.sum_map_mul_left values id k
    have hk' : (k : ℚ) ≠ 0 := by exact_mod_cast hk.ne'
    rw [giniCoefficient_eq_gaps hsum, giniCoefficient_eq_gaps (hscaled ▸ mul_pos hk hsum),
      gaps_mul hk.le, List.length_map, hscaled]
    push_cast
    rw [mul_left_comm, mul_div_mul_left _ _ hk']

theorem isGini_concentrated : IsGini [3, 0, 1] (giniCoefficient fractions) :=
  isGini_giniCoefficient (by decide) (by decide)

end MiniDrop
