import Mathlib.Data.List.Basic
import Mathlib.Tactic.TypeStar

/-! # Searching a text from left to right

A matcher reads the beginning of a text, knowing the character before it, and answers what it reads
and what it leaves. -/

namespace Scan

variable {α β : Type*}

abbrev Matcher (α β : Type*) := Option α → List α → Option (β × List α)

/-- All matches that do not overlap; the first `skip` characters belong to a match already found. -/
def findAll (m : Matcher α β) : Option α → ℕ → List α → List β
  | _, _, [] => []
  | _, skip + 1, c :: cs => findAll m (some c) skip cs
  | prev, 0, c :: cs =>
    match m prev (c :: cs) with
    | some (value, rest) => value :: findAll m (some c) (cs.length - rest.length) cs
    | none => findAll m (some c) 0 cs

/-- The character before what follows the text. -/
def lastOf (prev : Option α) (s : List α) : Option α := s.getLast?.or prev

@[simp] theorem lastOf_nil (prev : Option α) : lastOf prev [] = prev := rfl

@[simp] theorem lastOf_cons (prev : Option α) (c : α) (s : List α) :
    lastOf prev (c :: s) = lastOf (some c) s := by
  cases s with
  | nil => rfl
  | cons d s =>
      rw [lastOf, List.getLast?_cons_cons, lastOf, List.getLast?_eq_some_getLast (by simp)]
      rfl

/-- Only what comes last counts. -/
theorem lastOf_append (prev : Option α) (a : List α) {s : List α} (h : s ≠ []) :
    lastOf prev (a ++ s) = s.getLast? := by
  rw [lastOf, List.getLast?_append_of_ne_nil a h, List.getLast?_eq_some_getLast h]
  rfl

variable {m : Matcher α β}

theorem findAll_skip (prev : Option α) (a s : List α) :
    findAll m prev a.length (a ++ s) = findAll m (lastOf prev a) 0 s := by
  induction a generalizing prev with
  | nil => rfl
  | cons c a ih => simpa [findAll] using ih (some c)

/-- A matcher that does not look at the character before. -/
theorem findAll_congr {m : Matcher α β} (h : ∀ prev prev' s, m prev s = m prev' s)
    (prev prev' : Option α) (skip : ℕ) (s : List α) :
    findAll m prev skip s = findAll m prev' skip s := by
  cases s with
  | nil => cases skip <;> rfl
  | cons c s =>
      cases skip with
      | zero => rw [findAll, findAll, h prev prev']
      | succ skip => rfl

/-- Nothing is found where the matcher fails everywhere. -/
theorem findAll_append {prev : Option α} {a s : List α}
    (hnone : ∀ x y, a = x ++ y → y ≠ [] → m (lastOf prev x) (y ++ s) = none) :
    findAll m prev 0 (a ++ s) = findAll m (lastOf prev a) 0 s := by
  induction a generalizing prev with
  | nil => rfl
  | cons c a ih =>
      have hhead := hnone [] (c :: a) rfl (by simp)
      rw [lastOf_nil, List.cons_append] at hhead
      rw [List.cons_append, findAll, hhead, lastOf_cons]
      refine ih fun x y hsplit hne => ?_
      have h := hnone (c :: x) y (by rw [hsplit, List.cons_append]) hne
      rwa [lastOf_cons] at h

/-- A match, and what is found in the rest. -/
theorem findAll_match {prev : Option α} {a s : List α} {value : β} (ha : a ≠ [])
    (hm : m prev (a ++ s) = some (value, s)) :
    findAll m prev 0 (a ++ s) = value :: findAll m (lastOf prev a) 0 s := by
  obtain ⟨c, a, rfl⟩ := List.exists_cons_of_ne_nil ha
  rw [List.cons_append] at hm ⊢
  rw [findAll, hm, lastOf_cons, ← findAll_skip (some c) a s]
  simp

end Scan
