import Mathlib.Algebra.BigOperators.Fin
import Mathlib.Algebra.Order.Chebyshev
import Mathlib.Tactic.FieldSimp
import Mathlib.Tactic.Linarith
import Mathlib.Tactic.Positivity
import Mathlib.Tactic.Ring

/-! # How many values of a list lie far above its mean

Of `n` values at most `n / (1 + t ^ 2)` lie `t` standard deviations above the mean. All is said of
squares, so that no root is taken. -/

namespace Deviation

variable {K : Type*} [Field K] [LinearOrder K] [IsStrictOrderedRing K]

def mean (xs : List K) : K := xs.sum / xs.length

def variance (xs : List K) : K := (xs.map fun x => (x - mean xs) ^ 2).sum / xs.length

theorem variance_nonneg (xs : List K) : 0 ≤ variance xs := by
  refine div_nonneg (List.sum_nonneg fun y hy => ?_) (Nat.cast_nonneg _)
  obtain ⟨x, _, rfl⟩ := List.mem_map.mp hy
  exact sq_nonneg _

/-! ## Sums of squares -/

theorem sq_sum_le (xs : List K) : xs.sum ^ 2 ≤ xs.length * (xs.map (· ^ 2)).sum := by
  have h := sq_sum_le_card_mul_sum_sq (s := Finset.univ) (f := fun i : Fin xs.length => xs[i.1])
  rwa [Fin.sum_univ_getElem, Fin.sum_univ_fun_getElem xs (· ^ 2), Finset.card_univ,
    Fintype.card_fin] at h

/-- Products of numbers whose squares reach `c`. -/
theorem le_mul_of_le_sq {a b c : K} (ha : 0 ≤ a) (hb : 0 ≤ b) (hca : c ≤ a ^ 2) (hcb : c ≤ b ^ 2) :
    c ≤ a * b := by
  rcases le_total a b with hle | hle
  · calc c ≤ a ^ 2 := hca
      _ = a * a := sq a
      _ ≤ a * b := mul_le_mul_of_nonneg_left hle ha
  · calc c ≤ b ^ 2 := hcb
      _ = b * b := sq b
      _ ≤ a * b := mul_le_mul_of_nonneg_right hle hb

theorem length_mul_le_sum {c : K} {xs : List K} (h : ∀ x ∈ xs, c ≤ x) : xs.length * c ≤ xs.sum := by
  have hle := List.card_nsmul_le_sum xs c h
  rwa [nsmul_eq_mul] at hle

theorem sq_length_mul_le {c : K} {xs : List K} (hpos : ∀ x ∈ xs, 0 ≤ x)
    (h : ∀ x ∈ xs, c ≤ x ^ 2) : (xs.length : K) ^ 2 * c ≤ xs.sum ^ 2 := by
  have hrow : ∀ x ∈ xs, xs.length * c ≤ x * xs.sum := by
    intro x hx
    have hsum : (xs.map (x * ·)).sum = x * xs.sum := by
      simpa using List.sum_map_mul_left (l := xs) (f := id) (r := x)
    have hlength : (xs.map (x * ·)).length = xs.length := List.length_map _
    rw [← hsum, ← hlength]
    refine length_mul_le_sum fun y hy => ?_
    obtain ⟨z, hz, rfl⟩ := List.mem_map.mp hy
    exact le_mul_of_le_sq (hpos x hx) (hpos z hz) (h x hx) (h z hz)
  calc (xs.length : K) ^ 2 * c = (xs.map (· * xs.sum)).length * (xs.length * c) := by
        rw [List.length_map]
        ring
    _ ≤ (xs.map (· * xs.sum)).sum := by
        refine length_mul_le_sum fun y hy => ?_
        obtain ⟨x, hx, rfl⟩ := List.mem_map.mp hy
        exact hrow x hx
    _ = xs.sum ^ 2 := by
        have hsum : (xs.map (· * xs.sum)).sum = xs.sum * xs.sum := by
          simpa using List.sum_map_mul_right (l := xs) (f := id) (r := xs.sum)
        rw [hsum, sq]

/-! ## Values far above the mean -/

theorem sum_sub_mean (xs : List K) : (xs.map fun x => x - mean xs).sum = 0 := by
  have hsum : ∀ (m : K) (ys : List K), (ys.map fun x => x - m).sum = ys.sum - ys.length * m := by
    intro m ys
    induction ys with
    | nil => simp
    | cons y ys ih =>
        rw [List.map_cons, List.sum_cons, ih, List.sum_cons, List.length_cons]
        push_cast
        ring
  rw [hsum, mean]
  cases xs with
  | nil => simp
  | cons x xs =>
      have hne : ((x :: xs).length : K) ≠ 0 := by
        rw [List.length_cons]
        positivity
      field_simp
      ring

omit [LinearOrder K] [IsStrictOrderedRing K] in
theorem sum_filter_add (p : K → Bool) (f : K → K) (xs : List K) :
    ((xs.filter p).map f).sum + ((xs.filter fun x => !p x).map f).sum = (xs.map f).sum := by
  induction xs with
  | nil => simp
  | cons x xs ih =>
      cases hx : p x <;> simp [hx, ← ih] <;> ring

/-- The values that lie `t` standard deviations above the mean. -/
theorem length_filter_le {t : K} {xs : List K} (hvar : 0 < variance xs) {p : K → Bool}
    (hfar : ∀ x ∈ xs, p x = true → 0 ≤ x - mean xs ∧ t ^ 2 * variance xs ≤ (x - mean xs) ^ 2) :
    (1 + t ^ 2) * (xs.filter p).length ≤ xs.length := by
  have hne : (xs.length : K) ≠ 0 := by
    intro hzero
    rw [variance, hzero, div_zero] at hvar
    exact lt_irrefl 0 hvar
  have hpos : 0 < (xs.length : K) := lt_of_le_of_ne (Nat.cast_nonneg _) hne.symm
  set v := variance xs with hv
  set above := (xs.filter p).map fun x => x - mean xs with habove
  set others := (xs.filter fun x => !p x).map fun x => x - mean xs with hothers
  have hbalance : above.sum + others.sum = 0 := (sum_filter_add p _ xs).trans (sum_sub_mean xs)
  have hsquares : (above.map (· ^ 2)).sum + (others.map (· ^ 2)).sum = xs.length * v := by
    rw [habove, hothers, List.map_map, List.map_map]
    exact (sum_filter_add p _ xs).trans (mul_div_cancel₀ _ hne).symm
  have hlength : (above.length : K) + others.length = xs.length := by
    rw [habove, hothers, List.length_map, List.length_map, ← Nat.cast_add,
      ← List.length_eq_length_filter_add]
  have hmem : ∀ d ∈ above, 0 ≤ d ∧ t ^ 2 * v ≤ d ^ 2 := by
    intro d hd
    obtain ⟨x, hx, rfl⟩ := List.mem_map.mp hd
    exact hfar x (List.mem_of_mem_filter hx) (List.mem_filter.mp hx).2
  have hcross := sq_length_mul_le (fun d hd => (hmem d hd).1) fun d hd => (hmem d hd).2
  have hrest := sq_sum_le others
  have hfirst : (above.map (· ^ 2)).length * (t ^ 2 * v) ≤ (above.map (· ^ 2)).sum :=
    length_mul_le_sum fun y hy => by
      obtain ⟨d, hd, rfl⟩ := List.mem_map.mp hy
      exact (hmem d hd).2
  rw [List.length_map] at hfirst
  -- the values below the mean have to make up for those above
  rw [eq_neg_of_add_eq_zero_right hbalance, neg_sq] at hrest
  have hweighted : (above.length : K) * t ^ 2 * (xs.length * v) ≤ others.length * (xs.length * v) := by
    calc (above.length : K) * t ^ 2 * (xs.length * v) =
          (above.length : K) ^ 2 * (t ^ 2 * v) +
            (others.length : K) * (above.length * (t ^ 2 * v)) := by
          rw [← hlength]
          ring
      _ ≤ (others.length : K) * (others.map (· ^ 2)).sum +
            (others.length : K) * (above.map (· ^ 2)).sum :=
          add_le_add (hcross.trans hrest)
            (mul_le_mul_of_nonneg_left hfirst (Nat.cast_nonneg others.length))
      _ = (others.length : K) * (xs.length * v) := by
          rw [← hsquares]
          ring
  have hfew := le_of_mul_le_mul_right hweighted (mul_pos hpos hvar)
  have hcount : (xs.filter p).length = above.length := (List.length_map _).symm
  rw [hcount, ← hlength]
  linarith

/-! ## Lists of two values -/

omit [LinearOrder K] [IsStrictOrderedRing K] in
theorem sum_map_plateau (f : K → K) (m k : ℕ) (a b : K) :
    ((List.replicate m a ++ List.replicate k b).map f).sum = m * f a + k * f b := by
  rw [List.map_append, List.sum_append, List.map_replicate, List.map_replicate, List.sum_replicate,
    List.sum_replicate, nsmul_eq_mul, nsmul_eq_mul]

theorem mean_plateau {m k : ℕ} (hpos : 0 < m + k) (a d : K) :
    mean (List.replicate m a ++ List.replicate k (a + d)) = a + k * d / (m + k) := by
  have hsum := sum_map_plateau id m k a (a + d)
  rw [List.map_id, id_eq, id_eq] at hsum
  have hpos' : (0 : K) < m + k := by exact_mod_cast hpos
  rw [mean, hsum, List.length_append, List.length_replicate, List.length_replicate]
  push_cast
  field_simp
  ring

theorem variance_plateau {m k : ℕ} (hpos : 0 < m + k) (a d : K) :
    variance (List.replicate m a ++ List.replicate k (a + d)) =
      m * k * d ^ 2 / (m + k) ^ 2 := by
  have hpos' : (0 : K) < m + k := by exact_mod_cast hpos
  rw [variance, mean_plateau hpos, sum_map_plateau, List.length_append, List.length_replicate,
    List.length_replicate]
  push_cast
  field_simp
  ring

end Deviation
