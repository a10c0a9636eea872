import Mathlib.Data.Nat.Notation
import Mathlib.Logic.Basic
import Mathlib.Tactic.ByContra
import Mathlib.Tactic.TypeStar

/-! # One token among many places

A function counts the copies of something at each place. Copies that only move or disappear keep
the fact that there is at most one. -/

namespace Tokens

variable {ι : Type*} [DecidableEq ι] {count count' : ι → ℕ} {place : Option ι}

/-- The only copy is at `place`; without a place there is none. -/
def At (count : ι → ℕ) (place : Option ι) : Prop :=
  ∀ i, count i = if place = some i then 1 else 0

theorem At.eq_of_pos (h : At count place) {i : ι} (hi : 0 < count i) : place = some i := by
  by_contra hne
  have hnone := h i
  rw [if_neg hne] at hnone
  omega

theorem At.congr (h : At count place) (hsame : ∀ i, count' i = count i) : At count' place :=
  fun i => (hsame i).trans (h i)

/-- A copy that moves is the token. -/
theorem At.move (h : At count place) {i j : ι} (hij : i ≠ j) (hi : count i = count' i + 1)
    (hj : count' j = count j + 1) (hsame : ∀ k, k ≠ i → k ≠ j → count' k = count k) :
    place = some i ∧ At count' (some j) := by
  obtain rfl := h.eq_of_pos (i := i) (by omega)
  refine ⟨rfl, fun k => ?_⟩
  have hcount := h k
  by_cases hk : k = i
  · subst hk
    rw [if_pos rfl] at hcount
    rw [if_neg (by simpa using hij.symm)]
    omega
  · rw [if_neg (by simpa using Ne.symm hk)] at hcount
    by_cases hk' : k = j
    · subst hk'
      rw [if_pos rfl]
      omega
    · rw [if_neg (by simpa using Ne.symm hk'), hsame k hk hk', hcount]

/-- A copy that disappears is the token. -/
theorem At.lose (h : At count place) {i : ι} (hi : count i = count' i + 1)
    (hsame : ∀ j, j ≠ i → count' j = count j) : place = some i ∧ At count' none := by
  obtain rfl := h.eq_of_pos (i := i) (by omega)
  refine ⟨rfl, fun k => ?_⟩
  have hcount := h k
  by_cases hk : k = i
  · subst hk
    rw [if_pos rfl] at hcount
    simp
    omega
  · rw [if_neg (by simpa using Ne.symm hk)] at hcount
    rw [hsame k hk, hcount]
    simp

/-- The token disappears with the places that are cleared. -/
theorem At.filter (h : At count place) (keep : ι → Bool)
    (hkeep : ∀ i, count' i = if keep i then count i else 0) : At count' (place.filter keep) := by
  intro i
  rw [hkeep i, h i]
  cases place with
  | none => simp
  | some j =>
      by_cases hj : j = i
      · subst hj
        cases hk : keep j <;> simp [Option.filter, hk]
      · cases hk : keep j <;> simp [Option.filter, hk, hj]

end Tokens
