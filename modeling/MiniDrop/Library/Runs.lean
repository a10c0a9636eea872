import Mathlib.Logic.Basic
import Mathlib.Data.Nat.Notation
import Mathlib.Tactic.TypeStar

/-! # Runs of a labelled transition function

A step function answers `none` where a label is not enabled. A guarded run only takes
labels that satisfy a condition in the state they start from. -/

namespace Transition

variable {σ α : Type*}

/-- The state after the labels `as`, provided that each of them is enabled. -/
def run (step : σ → α → Option σ) (s : σ) (as : List α) : Option σ :=
  as.foldlM step s

@[simp] theorem run_nil (step : σ → α → Option σ) (s : σ) : run step s [] = some s := rfl

@[simp] theorem run_cons (step : σ → α → Option σ) (s : σ) (a : α) (as : List α) :
    run step s (a :: as) = (step s a).bind fun t => run step t as := rfl

theorem run_append (step : σ → α → Option σ) (s : σ) (as bs : List α) :
    run step s (as ++ bs) = (run step s as).bind fun t => run step t bs := by
  simp only [run, List.foldlM_append]
  rfl

/-- Each label satisfies `ok` in the state that the run takes it from. -/
def Along (step : σ → α → Option σ) (ok : σ → α → Prop) : σ → List α → Prop
  | _, [] => True
  | s, a :: as => ok s a ∧ ∀ t, step s a = some t → Along step ok t as

instance Along.decidable (step : σ → α → Option σ) (ok : σ → α → Prop)
    [∀ s a, Decidable (ok s a)] : ∀ s as, Decidable (Along step ok s as)
  | _, [] => inferInstanceAs (Decidable True)
  | s, a :: as =>
    haveI : Decidable (∀ t, step s a = some t → Along step ok t as) :=
      match h : step s a with
      | none => isTrue (by intro t ht; simp at ht)
      | some t =>
        haveI := Along.decidable step ok t as
        decidable_of_iff (Along step ok t as) (by simp)
    inferInstanceAs (Decidable (ok s a ∧ ∀ t, step s a = some t → Along step ok t as))

/-- States reached from `s₀` by labels that satisfy `ok`. -/
inductive Reachable (step : σ → α → Option σ) (ok : σ → α → Prop) (s₀ : σ) : σ → Prop where
  | start : Reachable step ok s₀ s₀
  | next {s t : σ} (a : α) : Reachable step ok s₀ s → ok s a → step s a = some t →
      Reachable step ok s₀ t

variable {step : σ → α → Option σ} {ok : σ → α → Prop}

theorem Reachable.trans {s t u : σ} (h₁ : Reachable step ok s t)
    (h₂ : Reachable step ok t u) : Reachable step ok s u := by
  induction h₂ with
  | start => exact h₁
  | next a _ hok hs ih => exact .next a ih hok hs

theorem Reachable.mono {ok' : σ → α → Prop} {s t : σ} (h : Reachable step ok s t)
    (himp : ∀ s a, ok s a → ok' s a) : Reachable step ok' s t := by
  induction h with
  | start => exact .start
  | next a _ hok hs ih => exact .next a ih (himp _ _ hok) hs

/-- A predicate that holds initially and survives every permitted step holds in every
reachable state. -/
theorem Reachable.invariant {I : σ → Prop} {s₀ s : σ} (h : Reachable step ok s₀ s)
    (hinit : I s₀) (hstep : ∀ s a t, I s → ok s a → step s a = some t → I t) : I s := by
  induction h with
  | start => exact hinit
  | next a _ hok hs ih => exact hstep _ a _ ih hok hs

theorem along_append {s : σ} {as bs : List α} :
    Along step ok s (as ++ bs) ↔
      Along step ok s as ∧ ∀ t, run step s as = some t → Along step ok t bs := by
  induction as generalizing s with
  | nil => simp [Along]
  | cons a as ih =>
      cases hs : step s a with
      | none => simp [Along, hs]
      | some u => simp [Along, hs, ih, and_assoc]

theorem along_true (step : σ → α → Option σ) (s : σ) (as : List α) :
    Along step (fun _ _ => True) s as := by
  induction as generalizing s with
  | nil => trivial
  | cons a as ih => exact ⟨trivial, fun t _ => ih t⟩

/-- Conditions that agree under an invariant agree along a run. -/
theorem along_congr {I : σ → Prop} {P Q : σ → α → Prop}
    (hiff : ∀ s a, I s → ok s a → (P s a ↔ Q s a))
    (hnext : ∀ s a t, I s → ok s a → P s a → step s a = some t → I t) {s : σ} {as : List α}
    (hs : I s) (hok : Along step ok s as) : Along step P s as ↔ Along step Q s as := by
  induction as generalizing s with
  | nil => exact Iff.rfl
  | cons a as ih =>
      have hhead := hiff s a hs hok.1
      constructor
      · rintro ⟨hP, hrest⟩
        exact ⟨hhead.mp hP, fun t ht =>
          (ih (hnext s a t hs hok.1 hP ht) (hok.2 t ht)).mp (hrest t ht)⟩
      · rintro ⟨hQ, hrest⟩
        have hP := hhead.mpr hQ
        exact ⟨hP, fun t ht =>
          (ih (hnext s a t hs hok.1 hP ht) (hok.2 t ht)).mpr (hrest t ht)⟩

/-- Reachability is the existence of a permitted run. -/
theorem reachable_iff_run {s t : σ} :
    Reachable step ok s t ↔ ∃ as, Along step ok s as ∧ run step s as = some t := by
  constructor
  · intro h
    induction h with
    | start => exact ⟨[], trivial, rfl⟩
    | next a _ hok hs ih =>
        obtain ⟨as, halong, hrun⟩ := ih
        refine ⟨as ++ [a], along_append.mpr ⟨halong, ?_⟩, by simp [run_append, hrun, hs]⟩
        intro u hu
        obtain rfl := Option.some.inj (hrun.symm.trans hu)
        exact ⟨hok, fun _ _ => trivial⟩
  · rintro ⟨as, halong, hrun⟩
    induction as generalizing s with
    | nil =>
        obtain rfl : s = t := by simpa using hrun
        exact .start
    | cons a as ih =>
        rw [run_cons] at hrun
        cases hs : step s a with
        | none => simp [hs] at hrun
        | some u =>
            rw [hs] at hrun
            exact (Reachable.next a .start halong.1 hs).trans (ih (halong.2 u hs) hrun)

/-- The state after the labels `as`, or `s` where one of them is not enabled. -/
def after (step : σ → α → Option σ) (s : σ) (as : List α) : σ := (run step s as).getD s

/-- A permitted run ends in a reachable state. -/
theorem Along.reachable {s : σ} {as : List α} (halong : Along step ok s as)
    (hsome : (run step s as).isSome) : Reachable step ok s (after step s as) := by
  obtain ⟨t, ht⟩ := Option.isSome_iff_exists.mp hsome
  exact reachable_iff_run.mpr ⟨as, halong, by simp [after, ht]⟩

/-! ## Bounded runs -/

/-- Labels that use up a budget, which no other label fills up. -/
theorem countP_le_of_budget {I : σ → Prop} {budget : σ → ℕ} {p : α → Bool}
    (hstep : ∀ s a t, I s → step s a = some t → I t ∧ budget t + (p a).toNat ≤ budget s) {s t : σ}
    {as : List α} (hs : I s) (hrun : run step s as = some t) :
    as.countP p + budget t ≤ budget s := by
  induction as generalizing s with
  | nil =>
      obtain rfl : s = t := by simpa using hrun
      simp
  | cons a as ih =>
      rw [run_cons, Option.bind_eq_some_iff] at hrun
      obtain ⟨u, hu, hrun⟩ := hrun
      obtain ⟨hI, hle⟩ := hstep s a u hs hu
      have hrest := ih hI hrun
      cases hp : p a <;> simp only [hp, Bool.toNat_true, Bool.toNat_false] at hle <;>
        simp only [List.countP_cons, hp, if_true, Bool.false_eq_true, if_false] <;> omega

end Transition
