import Mathlib.Algebra.BigOperators.Group.Finset.Basic
import Mathlib.Algebra.BigOperators.Group.Finset.Piecewise
import Mathlib.Data.Finset.Basic
import Mathlib.Data.List.Infix

/-! # Weighted tries

The nodes of the trie of some keys are their prefixes. What a subtree weighs is the weight of the
keys in it. -/

namespace Trie

open Finset

variable {α M : Type*} [DecidableEq α] (keys : Finset (List α))

/-- The keys in the subtree. -/
def below (path : List α) : Finset (List α) := keys.filter fun key => path <+: key

/-- The subtree holds a key. -/
def Occupied (path : List α) : Prop := ∃ key ∈ keys, path <+: key

/-- The subtree holds a key of nonzero weight. -/
def Weighty [Zero M] (weight : List α → M) (path : List α) : Prop :=
  ∃ key ∈ keys, path <+: key ∧ weight key ≠ 0

def total [AddCommMonoid M] (weight : List α → M) (path : List α) : M :=
  ∑ key ∈ below keys path, weight key

/-- These are the steps from a path to its children. -/
def Steps (path : List α) (steps : List α) : Prop :=
  steps.Nodup ∧ ∀ step, step ∈ steps ↔ Occupied keys (path ++ [step])

variable {keys}

@[simp] theorem mem_below {path key : List α} : key ∈ below keys path ↔ key ∈ keys ∧ path <+: key :=
  mem_filter

omit [DecidableEq α] in
theorem Occupied.of_append {path rest : List α} (h : Occupied keys (path ++ rest)) :
    Occupied keys path := by
  obtain ⟨key, hkey, hpath⟩ := h
  exact ⟨key, hkey, (List.prefix_append path rest).trans hpath⟩

omit [DecidableEq α] in
/-- A longer key takes a step. -/
theorem exists_step {path key : List α} (h : path <+: key) (hne : path ≠ key) :
    ∃ step, path ++ [step] <+: key := by
  obtain ⟨rest, rfl⟩ := h
  cases rest with
  | nil => simp at hne
  | cons step rest => exact ⟨step, rest, by simp⟩

omit [DecidableEq α] in
theorem step_unique {path key : List α} {a b : α} (ha : path ++ [a] <+: key)
    (hb : path ++ [b] <+: key) : a = b := by
  obtain ⟨rest, rfl⟩ := ha
  simpa [List.append_assoc, List.prefix_append_right_inj, List.cons_prefix_cons, eq_comm] using hb

/-- A subtree weighs what its root and the subtrees of the children weigh. -/
theorem total_eq [AddCommMonoid M] {weight : List α → M} {path steps : List α}
    (h : Steps keys path steps) : total keys weight path =
      (if path ∈ keys then weight path else 0) +
        (steps.map fun step => total keys weight (path ++ [step])).sum := by
  have hbelow : below keys path = keys.filter (· = path) ∪
      steps.toFinset.biUnion fun step => below keys (path ++ [step]) := by
    ext key
    simp only [mem_below, mem_union, mem_filter, mem_biUnion, List.mem_toFinset]
    constructor
    · rintro ⟨hkey, hpath⟩
      by_cases hself : path = key
      · exact .inl ⟨hkey, hself.symm⟩
      · obtain ⟨step, hstep⟩ := exists_step hpath hself
        exact .inr ⟨step, (h.2 step).mpr ⟨key, hkey, hstep⟩, hkey, hstep⟩
    · rintro (⟨hkey, rfl⟩ | ⟨step, -, hkey, hstep⟩)
      · exact ⟨hkey, List.prefix_refl _⟩
      · exact ⟨hkey, (List.prefix_append path [step]).trans hstep⟩
  have hself : Disjoint (keys.filter (· = path))
      (steps.toFinset.biUnion fun step => below keys (path ++ [step])) := by
    rw [Finset.disjoint_left]
    intro key hkey hmem
    obtain ⟨step, -, hstep⟩ := mem_biUnion.mp hmem
    rw [(mem_filter.mp hkey).2] at hstep
    have hlength := (mem_below.mp hstep).2.length_le
    rw [List.length_append, List.length_singleton] at hlength
    omega
  have hchildren : (↑steps.toFinset : Set α).PairwiseDisjoint
      fun step => below keys (path ++ [step]) := by
    intro a _ b _ hab
    rw [Function.onFun, Finset.disjoint_left]
    intro key ha hb
    exact hab (step_unique (mem_below.mp ha).2 (mem_below.mp hb).2)
  rw [total, hbelow, sum_union hself, sum_biUnion hchildren, sum_filter, sum_ite_eq',
    List.sum_toFinset _ h.1]
  rfl

theorem total_eq_zero [AddCommMonoid M] {weight : List α → M} {path : List α}
    (h : ¬ Weighty keys weight path) : total keys weight path = 0 := by
  refine sum_eq_zero fun key hkey => ?_
  by_contra hne
  exact h ⟨key, (mem_below.mp hkey).1, (mem_below.mp hkey).2, hne⟩

/-- A subtree holds weight where it weighs something, or where a child's does. -/
theorem weighty_iff [AddCommMonoid M] {weight : List α → M} {path steps : List α}
    (h : Steps keys path steps) : Weighty keys weight path ↔
      total keys weight path ≠ 0 ∨ ∃ step ∈ steps, Weighty keys weight (path ++ [step]) := by
  constructor
  · rintro ⟨key, hkey, hpath, hne⟩
    by_cases hchild : ∃ step ∈ steps, Weighty keys weight (path ++ [step])
    · exact .inr hchild
    · refine .inl ?_
      have hself : path = key := by
        by_contra hlonger
        obtain ⟨step, hstep⟩ := exists_step hpath hlonger
        exact hchild ⟨step, (h.2 step).mpr ⟨key, hkey, hstep⟩, key, hkey, hstep, hne⟩
      have hzero : (steps.map fun step => total keys weight (path ++ [step])).sum = 0 := by
        refine List.sum_eq_zero fun m hm => ?_
        obtain ⟨step, hstep, rfl⟩ := List.mem_map.mp hm
        exact total_eq_zero fun hweighty => hchild ⟨step, hstep, hweighty⟩
      subst hself
      rwa [total_eq h, hzero, if_pos hkey, add_zero]
  · rintro (hne | ⟨step, -, key, hkey, hpath, hne⟩)
    · by_contra hnot
      exact hne (total_eq_zero hnot)
    · exact ⟨key, hkey, (List.prefix_append path [step]).trans hpath, hne⟩

end Trie
