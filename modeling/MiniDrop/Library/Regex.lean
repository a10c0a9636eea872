import MiniDrop.Library.Text
import Mathlib.Data.List.TakeWhile
import Mathlib.Data.Nat.Notation
import Mathlib.Tactic.Common

/-! # Regular expressions

Expressions of Python's `re` module whose repetitions are over a class of characters. A match is
searched for with backtracking, so the first one in the order of the choices is found. -/

inductive Regex where
  | empty
  /-- A character of a class. -/
  | one (p : Char → Bool)
  | seq (a b : Regex)
  | alt (a b : Regex)
  /-- `*`, which takes as many as it can. -/
  | many (p : Char → Bool)
  /-- `*?`, which takes as few as it can. -/
  | few (p : Char → Bool)
  | group (a : Regex)
  /-- `$`, which is also before a newline at the end. -/
  | atEnd

namespace Regex

/-! ## Notation -/

def cat (parts : List Regex) : Regex := parts.foldr seq empty

/-- `?`. -/
def opt (a : Regex) : Regex := alt a empty

/-- `+`. -/
def plus (p : Char → Bool) : Regex := seq (one p) (many p)

/-- `+?`. -/
def plusFew (p : Char → Bool) : Regex := seq (one p) (few p)

def char (c : Char) : Regex := one fun d => d = c

def text (s : List Char) : Regex := cat (s.map char)

/-- `.`. -/
def dot (c : Char) : Bool := c ≠ '\n'

/-! ## Matching -/

section Run

variable {α : Type} {p : Char → Bool} {k : List Char → Option α} {s t u : List Char}

/-- Goes on behind as many characters of the class as possible. -/
def longest (p : Char → Bool) (k : List Char → Option α) : List Char → Option α
  | [] => k []
  | c :: s => if p c then (longest p k s).orElse fun _ => k (c :: s) else k (c :: s)

/-- Goes on behind as few characters of the class as possible. -/
def shortest (p : Char → Bool) (k : List Char → Option α) : List Char → Option α
  | [] => k []
  | c :: s => (k (c :: s)).orElse fun _ => if p c then shortest p k s else none

/-- Goes on with the groups and the rest of the text behind a match, until that succeeds. -/
def run : Regex → List (List Char) → List Char → (List (List Char) → List Char → Option α) →
    Option α
  | empty, groups, s, k => k groups s
  | one p, groups, s, k =>
    match s with
    | [] => none
    | c :: s => if p c then k groups s else none
  | seq a b, groups, s, k => a.run groups s fun groups s => b.run groups s k
  | alt a b, groups, s, k => (a.run groups s k).orElse fun _ => b.run groups s k
  | many p, groups, s, k => longest p (k groups) s
  | few p, groups, s, k => shortest p (k groups) s
  | group a, groups, s, k =>
    a.run groups s fun groups t => k (groups ++ [s.take (s.length - t.length)]) t
  | atEnd, groups, s, k => if s = [] ∨ s = ['\n'] then k groups s else none

/-- The groups of `re.match`. -/
def groups? (r : Regex) (s : List Char) : Option (List (List Char)) :=
  r.run [] s fun groups _ => some groups

/-- The length of a match at the front. -/
def matchLength? (r : Regex) (s : List Char) : Option ℕ :=
  r.run [] s fun _ t => some (s.length - t.length)

/-- `re.sub` with nothing in the place of a match; the first characters may belong to one. -/
def remove (r : Regex) : ℕ → List Char → List Char
  | _, [] => []
  | n + 1, _ :: s => remove r n s
  | 0, c :: s =>
    match r.matchLength? (c :: s) with
    | some (n + 1) => remove r n s
    | _ => c :: remove r 0 s

/-- The groups of `re.search`. -/
def searchGroups? (r : Regex) : List Char → Option (List (List Char))
  | [] => r.groups? []
  | c :: s => (r.groups? (c :: s)).orElse fun _ => searchGroups? r s

@[simp] theorem run_cat_nil (groups : List (List Char)) (s : List Char)
    (k : List (List Char) → List Char → Option α) : (cat []).run groups s k = k groups s := rfl

@[simp] theorem run_cat_cons (r : Regex) (parts : List Regex) (groups : List (List Char))
    (s : List Char) (k : List (List Char) → List Char → Option α) :
    (cat (r :: parts)).run groups s k =
      r.run groups s fun groups s => (cat parts).run groups s k := rfl

@[simp] theorem run_char (c : Char) (groups : List (List Char)) (s : List Char)
    (k : List (List Char) → List Char → Option α) :
    (char c).run groups (c :: s) k = k groups s := by
  rw [char, run, if_pos (decide_eq_true rfl)]

theorem run_char_of_ne {c d : Char} (h : c ≠ d) (groups : List (List Char)) (s : List Char)
    (k : List (List Char) → List Char → Option α) : (char d).run groups (c :: s) k = none := by
  rw [char, run, if_neg (by simpa using h)]

@[simp] theorem run_text (u : List Char) (groups : List (List Char)) (s : List Char)
    (k : List (List Char) → List Char → Option α) :
    (text u).run groups (u ++ s) k = k groups s := by
  induction u with
  | nil => rfl
  | cons c u ih =>
      rw [text, List.map_cons, run_cat_cons, List.cons_append, run_char]
      exact ih

theorem run_text_of_ne {c d : Char} (h : c ≠ d) (u : List Char) (groups : List (List Char))
    (s : List Char) (k : List (List Char) → List Char → Option α) :
    (text (d :: u)).run groups (c :: s) k = none := by
  rw [text, List.map_cons, run_cat_cons, run_char_of_ne h]

theorem run_opt_of_some {r : Regex} {groups : List (List Char)}
    {k : List (List Char) → List Char → Option α} {a : α} (h : r.run groups s k = some a) :
    (opt r).run groups s k = some a := by
  rw [opt, run, h]
  rfl

theorem run_opt_of_none {r : Regex} {groups : List (List Char)}
    {k : List (List Char) → List Char → Option α} (h : r.run groups s k = none) :
    (opt r).run groups s k = k groups s := by
  rw [opt, run, h]
  rfl

/-! ### Repetitions -/

/-- What goes on behind the class cannot go on within it. -/
theorem longest_eq (h : ∀ c s, p c = true → k (c :: s) = none) (s : List Char) :
    longest p k s = k (s.dropWhile p) := by
  induction s with
  | nil => rfl
  | cons c s ih =>
      by_cases hc : p c = true
      · rw [longest, if_pos hc, h c s hc, ih, List.dropWhile_cons_of_pos hc]
        cases k (s.dropWhile p) <;> rfl
      · rw [longest, if_neg hc, List.dropWhile_cons_of_neg hc]

theorem longest_of_some {a : α} (h : k (s.dropWhile p) = some a) : longest p k s = some a := by
  induction s with
  | nil => exact h
  | cons c s ih =>
      by_cases hc : p c = true
      · rw [List.dropWhile_cons_of_pos hc] at h
        rw [longest, if_pos hc, ih h]
        rfl
      · rw [List.dropWhile_cons_of_neg hc] at h
        rw [longest, if_neg hc, h]

theorem longest_eq_none (h : ∀ v w, s = v ++ w → k w = none) : longest p k s = none := by
  induction s with
  | nil => exact h [] [] rfl
  | cons c s ih =>
      have hrest := ih fun v w hvw => h (c :: v) w (by rw [hvw]; rfl)
      rw [longest, hrest, h [] (c :: s) rfl]
      split <;> rfl

/-- It goes on at the last place where it can. -/
theorem longest_append {a : α} (hp : ∀ c ∈ u, p c = true) (ht : k t = some a)
    (hk : ∀ v w, t = v ++ w → v ≠ [] → k w = none) : longest p k (u ++ t) = some a := by
  induction u with
  | nil =>
      cases t with
      | nil => exact ht
      | cons c t =>
          have hrest : longest p k t = none := longest_eq_none fun v w hvw =>
            hk (c :: v) w (by rw [hvw]; rfl) (List.cons_ne_nil _ _)
          rw [List.nil_append, longest, hrest, ht]
          split <;> rfl
  | cons c u ih =>
      obtain ⟨hc, hu⟩ := List.forall_mem_cons.mp hp
      rw [List.cons_append, longest, if_pos hc, ih hu]
      rfl

/-- Characters of the class are passed where it does not go on. -/
theorem shortest_append (hp : ∀ c ∈ u, p c = true)
    (hk : ∀ v w, u = v ++ w → w ≠ [] → k (w ++ t) = none) :
    shortest p k (u ++ t) = shortest p k t := by
  induction u with
  | nil => rfl
  | cons c u ih =>
      obtain ⟨hc, hu⟩ := List.forall_mem_cons.mp hp
      have hfirst := hk [] (c :: u) rfl (by simp)
      rw [List.cons_append] at hfirst ⊢
      rw [shortest, hfirst, if_pos hc]
      refine ih hu fun v w huw hw => hk (c :: v) w ?_ hw
      rw [huw]
      rfl

theorem shortest_of_some {a : α} (h : k s = some a) : shortest p k s = some a := by
  cases s with
  | nil => exact h
  | cons c s =>
      rw [shortest, h]
      rfl

/-- Where it went on, and nowhere before. -/
theorem of_shortest_eq_some {a : α} (h : shortest p k s = some a) :
    ∃ u t, s = u ++ t ∧ (∀ c ∈ u, p c = true) ∧ k t = some a ∧
      ∀ v w, u = v ++ w → w ≠ [] → k (w ++ t) = none := by
  induction s with
  | nil => exact ⟨[], [], rfl, by simp, h, by simp⟩
  | cons c s ih =>
      cases hk : k (c :: s) with
      | some b =>
          rw [shortest, hk] at h
          refine ⟨[], c :: s, rfl, by simp, hk.trans h, ?_⟩
          intro v w hvw hw
          exact absurd (List.append_eq_nil_iff.mp hvw.symm).2 hw
      | none =>
          rw [shortest, hk] at h
          by_cases hc : p c = true
          · have hrest : shortest p k s = some a := by simpa [hc] using h
            obtain ⟨u, t, rfl, hu, ht, hnone⟩ := ih hrest
            refine ⟨c :: u, t, rfl, List.forall_mem_cons.mpr ⟨hc, hu⟩, ht, ?_⟩
            intro v w hvw hw
            cases v with
            | nil =>
                rw [List.nil_append] at hvw
                rw [← hvw]
                exact hk
            | cons d v =>
                rw [List.cons_append, List.cons.injEq] at hvw
                exact hnone v w hvw.2 hw
          · simp [hc] at h

end Run

theorem remove_of_length_le {r : Regex} {n : ℕ} {s : List Char} (h : s.length ≤ n) :
    r.remove n s = [] := by
  induction s generalizing n with
  | nil => cases n <;> rfl
  | cons c s ih =>
      rw [List.length_cons] at h
      cases n with
      | zero => exact absurd h (Nat.not_succ_le_zero _)
      | succ n => exact ih (Nat.le_of_succ_le_succ h)

/-! ## What a match takes -/

section Takes

variable {α : Type} {p : Char → Bool} {r : Regex} {groups groups' : List (List Char)}
  {s t : List Char}

/-- The expression goes from a text to the rest of it, with more groups. -/
def Takes : Regex → List (List Char) → List Char → List (List Char) → List Char → Prop
  | empty, groups, s, groups', t => groups' = groups ∧ t = s
  | one p, groups, s, groups', t => groups' = groups ∧ ∃ c, s = c :: t ∧ p c = true
  | seq a b, groups, s, groups', t =>
    ∃ between m, a.Takes groups s between m ∧ b.Takes between m groups' t
  | alt a b, groups, s, groups', t => a.Takes groups s groups' t ∨ b.Takes groups s groups' t
  | many p, groups, s, groups', t => groups' = groups ∧ ∃ u, s = u ++ t ∧ ∀ c ∈ u, p c = true
  | few p, groups, s, groups', t => groups' = groups ∧ ∃ u, s = u ++ t ∧ ∀ c ∈ u, p c = true
  | group a, groups, s, groups', t =>
    ∃ inner, a.Takes groups s inner t ∧ groups' = inner ++ [s.take (s.length - t.length)]
  | atEnd, groups, s, groups', t => groups' = groups ∧ t = s ∧ (s = [] ∨ s = ['\n'])

theorem of_longest_eq_some {k : List Char → Option α} {a : α} (h : longest p k s = some a) :
    ∃ u t, s = u ++ t ∧ (∀ c ∈ u, p c = true) ∧ k t = some a := by
  induction s with
  | nil => exact ⟨[], [], rfl, by simp, h⟩
  | cons c s ih =>
      rw [longest] at h
      by_cases hc : p c = true
      · rw [if_pos hc] at h
        cases hrest : longest p k s with
        | some b =>
            rw [hrest] at h
            obtain ⟨u, t, rfl, hu, ht⟩ := ih (hrest.trans h)
            exact ⟨c :: u, t, rfl, List.forall_mem_cons.mpr ⟨hc, hu⟩, ht⟩
        | none =>
            rw [hrest] at h
            exact ⟨[], c :: s, rfl, by simp, h⟩
      · rw [if_neg hc] at h
        exact ⟨[], c :: s, rfl, by simp, h⟩

theorem longest_isSome {k : List Char → Option α} {u : List Char} (hu : ∀ c ∈ u, p c = true)
    (h : (k t).isSome = true) : (longest p k (u ++ t)).isSome = true := by
  induction u with
  | nil =>
      rw [List.nil_append]
      cases t with
      | nil => exact h
      | cons c t =>
          rw [longest]
          split
          · cases longest p k t with
            | some a => rfl
            | none => exact h
          · exact h
  | cons c u ih =>
      obtain ⟨hc, hu⟩ := List.forall_mem_cons.mp hu
      obtain ⟨a, ha⟩ := Option.isSome_iff_exists.mp (ih hu)
      rw [List.cons_append, longest, if_pos hc, ha]
      rfl

theorem shortest_isSome {k : List Char → Option α} {u : List Char} (hu : ∀ c ∈ u, p c = true)
    (h : (k t).isSome = true) : (shortest p k (u ++ t)).isSome = true := by
  induction u with
  | nil =>
      obtain ⟨a, ha⟩ := Option.isSome_iff_exists.mp h
      rw [List.nil_append, shortest_of_some ha]
      rfl
  | cons c u ih =>
      obtain ⟨hc, hu⟩ := List.forall_mem_cons.mp hu
      rw [List.cons_append, shortest, if_pos hc]
      cases k (c :: (u ++ t)) with
      | some a => rfl
      | none => exact ih hu

/-- What is found is a match. -/
theorem of_run_eq_some {k : List (List Char) → List Char → Option α} {x : α}
    (h : r.run groups s k = some x) :
    ∃ groups' t, r.Takes groups s groups' t ∧ k groups' t = some x := by
  induction r generalizing groups s k x with
  | empty => exact ⟨groups, s, ⟨rfl, rfl⟩, h⟩
  | one p =>
      cases s with
      | nil => cases h
      | cons c s =>
          rw [run] at h
          split at h
          · next hc => exact ⟨groups, s, ⟨rfl, c, rfl, hc⟩, h⟩
          · cases h
  | seq a b iha ihb =>
      obtain ⟨between, m, ha, hb⟩ := iha h
      obtain ⟨groups', t, hb, hk⟩ := ihb hb
      exact ⟨groups', t, ⟨between, m, ha, hb⟩, hk⟩
  | alt a b iha ihb =>
      rw [run] at h
      cases hrun : a.run groups s k with
      | some y =>
          rw [hrun] at h
          obtain ⟨groups', t, ha, hk⟩ := iha hrun
          exact ⟨groups', t, .inl ha, hk.trans h⟩
      | none =>
          rw [hrun] at h
          obtain ⟨groups', t, hb, hk⟩ := ihb h
          exact ⟨groups', t, .inr hb, hk⟩
  | many p =>
      obtain ⟨u, t, hs, hu, hk⟩ := of_longest_eq_some h
      exact ⟨groups, t, ⟨rfl, u, hs, hu⟩, hk⟩
  | few p =>
      obtain ⟨u, t, hs, hu, hk, -⟩ := of_shortest_eq_some h
      exact ⟨groups, t, ⟨rfl, u, hs, hu⟩, hk⟩
  | group a ih =>
      obtain ⟨inner, t, ha, hk⟩ := ih h
      exact ⟨_, t, ⟨inner, ha, rfl⟩, hk⟩
  | atEnd =>
      rw [run] at h
      split at h
      · next hend => exact ⟨groups, s, ⟨rfl, rfl, hend⟩, h⟩
      · cases h

/-- A match is found if there is one. -/
theorem Takes.run_isSome {k : List (List Char) → List Char → Option α}
    (h : r.Takes groups s groups' t) (hk : (k groups' t).isSome = true) :
    (r.run groups s k).isSome = true := by
  induction r generalizing groups s groups' t k with
  | empty =>
      obtain ⟨rfl, rfl⟩ := h
      exact hk
  | one p =>
      obtain ⟨rfl, c, rfl, hc⟩ := h
      rw [run, if_pos hc]
      exact hk
  | seq a b iha ihb =>
      obtain ⟨between, m, ha, hb⟩ := h
      exact iha ha (ihb hb hk)
  | alt a b iha ihb =>
      rw [run]
      cases hrun : a.run groups s k with
      | some x => rfl
      | none =>
          rcases h with h | h
          · have hsome := iha h hk
            rw [hrun] at hsome
            cases hsome
          · exact ihb h hk
  | many p =>
      obtain ⟨rfl, u, rfl, hu⟩ := h
      exact longest_isSome hu hk
  | few p =>
      obtain ⟨rfl, u, rfl, hu⟩ := h
      exact shortest_isSome hu hk
  | group a ih =>
      obtain ⟨inner, ha, rfl⟩ := h
      exact ih ha hk
  | atEnd =>
      obtain ⟨rfl, rfl, hend⟩ := h
      rw [run, if_pos hend]
      exact hk

theorem Takes.suffix (h : r.Takes groups s groups' t) : t <:+ s := by
  induction r generalizing groups s groups' t with
  | empty => exact h.2 ▸ List.suffix_refl t
  | one p =>
      obtain ⟨-, c, rfl, -⟩ := h
      exact List.suffix_cons c t
  | seq a b iha ihb =>
      obtain ⟨between, m, ha, hb⟩ := h
      exact (ihb hb).trans (iha ha)
  | alt a b iha ihb => exact h.elim iha ihb
  | many p =>
      obtain ⟨-, u, rfl, -⟩ := h
      exact List.suffix_append u t
  | few p =>
      obtain ⟨-, u, rfl, -⟩ := h
      exact List.suffix_append u t
  | group a ih =>
      obtain ⟨inner, ha, -⟩ := h
      exact ih ha
  | atEnd => exact h.2.1 ▸ List.suffix_refl t

/-- A group is a part of the text. -/
theorem Takes.sublist_of_mem (h : r.Takes groups s groups' t) {g : List Char} (hg : g ∈ groups') :
    g ∈ groups ∨ g.Sublist s := by
  induction r generalizing groups s groups' t with
  | empty => exact .inl (h.1 ▸ hg)
  | one p => exact .inl (h.1 ▸ hg)
  | seq a b iha ihb =>
      obtain ⟨between, m, ha, hb⟩ := h
      rcases ihb hb hg with hg | hg
      · exact iha ha hg
      · exact .inr (hg.trans ha.suffix.sublist)
  | alt a b iha ihb => exact h.elim (fun ha => iha ha hg) fun hb => ihb hb hg
  | many p => exact .inl (h.1 ▸ hg)
  | few p => exact .inl (h.1 ▸ hg)
  | group a ih =>
      obtain ⟨inner, ha, rfl⟩ := h
      rcases List.mem_append.mp hg with hg | hg
      · exact ih ha hg
      · rw [List.mem_singleton.mp hg]
        exact .inr (List.take_sublist _ s)
  | atEnd => exact .inl (h.1 ▸ hg)

theorem sublist_of_groups? (h : r.groups? s = some groups) {g : List Char} (hg : g ∈ groups) :
    g.Sublist s := by
  obtain ⟨groups', t, htakes, heq⟩ := of_run_eq_some h
  rw [← Option.some.inj heq] at hg
  exact (htakes.sublist_of_mem hg).resolve_left List.not_mem_nil

/-- An expression that adds no groups, and matches under a condition. -/
theorem run_groups_eq_some_iff {Q : Prop}
    (h : ∀ groups', (∃ t, r.Takes groups s groups' t) ↔ groups' = groups ∧ Q)
    {x : List (List Char)} :
    r.run groups s (fun groups _ => some groups) = some x ↔ x = groups ∧ Q := by
  constructor
  · intro hrun
    obtain ⟨groups', t, htakes, heq⟩ := of_run_eq_some hrun
    obtain ⟨rfl, hq⟩ := (h groups').mp ⟨t, htakes⟩
    exact ⟨(Option.some.inj heq).symm, hq⟩
  · rintro ⟨rfl, hq⟩
    obtain ⟨t, htakes⟩ := (h x).mpr ⟨rfl, hq⟩
    obtain ⟨y, hy⟩ := Option.isSome_iff_exists.mp
      (htakes.run_isSome (k := fun groups _ => some groups) rfl)
    obtain ⟨groups', t', htakes', heq⟩ := of_run_eq_some hy
    obtain ⟨rfl, -⟩ := (h groups').mp ⟨t', htakes'⟩
    exact hy.trans heq.symm

theorem run_groups_eq_none_iff {Q : Prop}
    (h : ∀ groups', (∃ t, r.Takes groups s groups' t) ↔ groups' = groups ∧ Q) :
    r.run groups s (fun groups _ => some groups) = none ↔ ¬Q := by
  rw [Option.eq_none_iff_forall_ne_some]
  constructor
  · exact fun hrun hq => hrun groups ((run_groups_eq_some_iff h).mpr ⟨rfl, hq⟩)
  · exact fun hq x hx => hq ((run_groups_eq_some_iff h).mp hx).2

end Takes

/-! ## Repetitions that are not empty -/

section Filled

variable {α : Type} {p : Char → Bool} {groups groups' : List (List Char)} {s t u : List Char}
  {k : List (List Char) → List Char → Option α}

/-- A text of one class. -/
structure Filled (p : Char → Bool) (u : List Char) : Prop where
  ne : u ≠ []
  all : ∀ c ∈ u, p c = true

theorem takes_plus :
    (plus p).Takes groups s groups' t ↔ groups' = groups ∧ ∃ u, Filled p u ∧ s = u ++ t := by
  constructor
  · rintro ⟨_, m, ⟨rfl, c, rfl, hc⟩, rfl, u, rfl, hu⟩
    exact ⟨rfl, c :: u, ⟨List.cons_ne_nil _ _, List.forall_mem_cons.mpr ⟨hc, hu⟩⟩, rfl⟩
  · rintro ⟨rfl, u, ⟨hne, hu⟩, rfl⟩
    obtain ⟨c, u, rfl⟩ := List.exists_cons_of_ne_nil hne
    obtain ⟨hc, hu⟩ := List.forall_mem_cons.mp hu
    exact ⟨_, u ++ t, ⟨rfl, c, rfl, hc⟩, rfl, u, rfl, hu⟩

theorem takes_char {c : Char} :
    (char c).Takes groups s groups' t ↔ groups' = groups ∧ s = c :: t := by
  constructor
  · rintro ⟨rfl, d, rfl, hd⟩
    exact ⟨rfl, by rw [of_decide_eq_true hd]⟩
  · rintro ⟨rfl, rfl⟩
    exact ⟨rfl, c, rfl, decide_eq_true rfl⟩

theorem takes_cat_cons {r : Regex} {parts : List Regex} :
    (cat (r :: parts)).Takes groups s groups' t ↔
      ∃ between m, r.Takes groups s between m ∧ (cat parts).Takes between m groups' t := .rfl

theorem takes_cat_nil : (cat []).Takes groups s groups' t ↔ groups' = groups ∧ t = s := .rfl

theorem dropWhile_filled (hu : ∀ c ∈ u, p c = true) (ht : ∀ c ∈ t.head?, p c = false) :
    (u ++ t).dropWhile p = t := by
  rw [List.dropWhile_append_of_pos hu]
  cases t with
  | nil => rfl
  | cons c t => exact List.dropWhile_cons_of_neg (by simp [ht c rfl])

/-- All of the class is passed, since the rest of the expression cannot begin within it. -/
theorem run_plus (hu : Filled p u) (ht : ∀ c ∈ t.head?, p c = false)
    (hk : ∀ c s, p c = true → k groups (c :: s) = none) :
    (plus p).run groups (u ++ t) k = k groups t := by
  obtain ⟨c, u, rfl⟩ := List.exists_cons_of_ne_nil hu.ne
  obtain ⟨hc, hall⟩ := List.forall_mem_cons.mp hu.all
  rw [plus, run, List.cons_append, run, if_pos hc, run, longest_eq hk, dropWhile_filled hall ht]

/-- All of the class is passed, where the rest of the expression matches then. -/
theorem run_plus_of_some (hu : Filled p u) (ht : ∀ c ∈ t.head?, p c = false) {x : α}
    (hk : k groups t = some x) : (plus p).run groups (u ++ t) k = some x := by
  obtain ⟨c, u, rfl⟩ := List.exists_cons_of_ne_nil hu.ne
  obtain ⟨hc, hall⟩ := List.forall_mem_cons.mp hu.all
  rw [plus, run, List.cons_append, run, if_pos hc, run]
  exact longest_of_some (by rw [dropWhile_filled hall ht]; exact hk)

theorem run_plus_of_neg {c : Char} (h : p c = false) :
    (plus p).run groups (c :: s) k = none := by
  rw [plus, run, run, if_neg (by simp [h])]

/-- A group up to the last place where the rest of the expression matches. -/
theorem run_group_plus_append (hu : Filled p u) {x : α} (ht : k (groups ++ [u]) t = some x)
    (hk : ∀ groups v w, t = v ++ w → v ≠ [] → k groups w = none) :
    (group (plus p)).run groups (u ++ t) k = some x := by
  obtain ⟨c, u, rfl⟩ := List.exists_cons_of_ne_nil hu.ne
  obtain ⟨hc, hall⟩ := List.forall_mem_cons.mp hu.all
  rw [run, plus, run, List.cons_append, run, if_pos hc, run]
  refine longest_append hall ?_ fun v w hvw hv => hk _ v w hvw hv
  rw [← List.cons_append, List.length_append, Nat.add_sub_cancel, List.take_left]
  exact ht

/-- A group of all characters of the class, where the rest of the expression matches then. -/
theorem run_group_plus_of_some (hu : Filled p u) (ht : ∀ c ∈ t.head?, p c = false) {x : α}
    (hk : k (groups ++ [u]) t = some x) : (group (plus p)).run groups (u ++ t) k = some x := by
  rw [run]
  refine run_plus_of_some hu ht ?_
  rw [List.length_append, Nat.add_sub_cancel, List.take_left]
  exact hk

end Filled

/-! ## Searching -/

section Search

variable {r : Regex} {s : List Char} {x : List (List Char)}

theorem searchGroups?_of_some (h : r.groups? s = some x) : r.searchGroups? s = some x := by
  cases s with
  | nil => exact h
  | cons c s =>
      rw [searchGroups?, h]
      rfl

/-- Nothing is found where no character can be the first of a match. -/
theorem searchGroups?_eq_none (hnil : r.groups? [] = none)
    (h : ∀ c ∈ s, ∀ t, r.groups? (c :: t) = none) : r.searchGroups? s = none := by
  induction s with
  | nil => exact hnil
  | cons c s ih =>
      obtain ⟨hc, hs⟩ := List.forall_mem_cons.mp h
      rw [searchGroups?, hc, ih hs]
      rfl

end Search

/-! ## Groups that are as short as possible -/

section Shortest

variable {α : Type} {groups : List (List Char)} {s t : List Char} {c : Char}
  {k : List (List Char) → List Char → Option α}

theorem take_consumed (s t : List Char) : (s ++ t).take ((s ++ t).length - t.length) = s := by
  rw [List.length_append, Nat.add_sub_cancel, List.take_left]

theorem run_group_plusFew (hc : dot c = true) :
    (group (plusFew dot)).run groups (c :: s) k =
      shortest dot (fun t => k (groups ++ [(c :: s).take ((c :: s).length - t.length)]) t) s := by
  rw [run, plusFew, run, run, if_pos hc, run]

/-- The group is up to the first such character. -/
theorem run_group_plusFew_char {u : List Char} (hne : u ≠ []) (hclear : '\n' ∉ u) (hc : c ∉ u) {x : α}
    (hk : k (groups ++ [u]) s = some x) :
    (group (plusFew dot)).run groups (u ++ c :: s) (fun groups s => (char c).run groups s k) =
      some x := by
  obtain ⟨d, u, rfl⟩ := List.exists_cons_of_ne_nil hne
  have hdot : ∀ e ∈ d :: u, dot e = true := fun e he => decide_eq_true fun heq => hclear (heq ▸ he)
  rw [List.cons_append, run_group_plusFew (hdot d List.mem_cons_self)]
  refine (shortest_append (fun e he => hdot e (List.mem_cons_of_mem d he)) ?_).trans
    (shortest_of_some ?_)
  · intro v w huw hw
    obtain ⟨e, w, rfl⟩ := List.exists_cons_of_ne_nil hw
    have he : e ≠ c := by
      rintro rfl
      exact hc (List.mem_cons_of_mem d (huw ▸ List.mem_append_right v List.mem_cons_self))
    exact run_char_of_ne he _ _ _
  · rw [run_char, ← List.cons_append, take_consumed]
    exact hk

/-- What follows the group adds no groups and matches under a condition: the group is up to the
first place that meets it. -/
theorem exists_run_group {r : Regex} {Q : List Char → Prop}
    (hr : ∀ groups groups' s, '\n' ∉ s →
      ((∃ t, r.Takes groups s groups' t) ↔ groups' = groups ∧ Q s))
    (hnil : Q []) (hclear : '\n' ∉ c :: s) (groups : List (List Char)) :
    ∃ u t, s = u ++ t ∧ Q t ∧ (∀ v w, u = v ++ w → w ≠ [] → ¬Q (w ++ t)) ∧
      (cat [group (plusFew dot), r]).run groups (c :: s) (fun groups _ => some groups) =
        some (groups ++ [c :: u]) := by
  have hdot : ∀ d ∈ c :: s, dot d = true := fun d hd =>
    decide_eq_true fun heq => hclear (heq ▸ hd)
  have hend : r.run (groups ++ [c :: s]) [] (fun groups _ => some groups) =
      some (groups ++ [c :: s]) := (run_groups_eq_some_iff fun _ => hr _ _ [] (by simp)).mpr ⟨rfl, hnil⟩
  -- The group goes on to the end at the latest.
  obtain ⟨x, hx⟩ := Option.isSome_iff_exists.mp (shortest_isSome
    (k := fun t => r.run (groups ++ [(c :: s).take ((c :: s).length - t.length)]) t
      fun groups _ => some groups) (t := [])
    (fun d hd => hdot d (List.mem_cons_of_mem c hd))
    (by rw [List.length_nil, Nat.sub_zero, List.take_length, hend]; rfl))
  rw [List.append_nil] at hx
  obtain ⟨u, t, rfl, -, ht, hfirst⟩ := of_shortest_eq_some hx
  have hrest : ∀ v w, u = v ++ w → '\n' ∉ w ++ t := by
    rintro v w rfl hmem
    refine hclear (List.mem_cons_of_mem c ?_)
    rw [List.append_assoc]
    exact List.mem_append_right v hmem
  rw [← List.cons_append, take_consumed] at ht
  obtain ⟨rfl, hq⟩ := (run_groups_eq_some_iff fun _ => hr _ _ _ (hrest u [] (by simp))).mp ht
  rw [List.nil_append] at hq
  refine ⟨u, t, rfl, hq, fun v w huw hw => ?_, ?_⟩
  · exact (run_groups_eq_none_iff fun _ => hr _ _ _ (hrest v w huw)).mp (hfirst v w huw hw)
  · rw [run_cat_cons, run_group_plusFew (hdot c List.mem_cons_self)]
    exact hx

end Shortest

/-! ## Columns -/

section Columns

variable {α : Type} {p q : Char → Bool} {r : Regex} {groups : List (List Char)}
  {s t u x : List Char} {c : Char} {words : List (List Char)}
  {k : List (List Char) → List Char → Option α}

/-- One of some words. -/
def oneOf (words : List (List Char)) : Regex :=
  words.foldr (fun w r => alt (text w) r) (one fun _ => false)

/-- Nothing goes on from a character of the class. -/
def Refuses (q : Char → Bool) (k : List (List Char) → List Char → Option α) : Prop :=
  ∀ groups c s, q c = true → k groups (c :: s) = none

theorem Refuses.group (hk : Refuses q k) (s : List Char) :
    Refuses q fun groups t => k (groups ++ [s.take (s.length - t.length)]) t :=
  fun _ c t hc => hk _ c t hc

theorem refuses_plus (h : ∀ c, q c = true → p c = false) :
    Refuses q fun groups s => (plus p).run groups s k :=
  fun _ c _ hc => run_plus_of_neg (h c hc)

/-- All of the class is a group, since the rest of the expression cannot begin within it. -/
theorem run_group_plus (hu : Filled p u) (ht : ∀ c ∈ t.head?, p c = false) (hk : Refuses p k) :
    (group (plus p)).run groups (u ++ t) k = k (groups ++ [u]) t := by
  refine (run_plus hu ht fun c s hc => hk.group (u ++ t) groups c s hc).trans ?_
  rw [take_consumed]

theorem run_text_eq (w : List Char) :
    (text w).run groups x k = if w <+: x then k groups (x.drop w.length) else none := by
  induction w generalizing x with
  | nil => rw [if_pos (List.nil_prefix)]; rfl
  | cons d w ih =>
      cases x with
      | nil => rw [if_neg (by simp)]; rfl
      | cons c x =>
          by_cases hc : c = d
          · subst hc
            rw [text, List.map_cons, run_cat_cons, run_char]
            simp only [List.cons_prefix_cons, true_and, List.length_cons, List.drop_succ_cons]
            exact ih
          · rw [run_text_of_ne hc, if_neg fun h => hc (List.cons_prefix_cons.mp h).1.symm]

/-- A word is there up to a character that belongs to no word. -/
theorem run_text_append_cons {w : List Char} (hu : ∀ d ∈ u, p d = false) (hc : p c = true)
    (hw : ∀ d ∈ w, p d = false) (hk : Refuses (fun d => !p d) k) (s : List Char) :
    (text w).run groups (u ++ c :: s) k = if u = w then k groups (c :: s) else none := by
  have hnotMem : c ∉ w := fun hmem => by
    rw [hw c hmem] at hc
    cases hc
  have hfront := Text.prefix_append_cons_of_notMem hnotMem u s
  rw [run_text_eq]
  by_cases hprefix : w <+: u
  · rw [if_pos (hfront.mpr hprefix)]
    obtain ⟨v, rfl⟩ := hprefix
    rw [List.append_assoc, List.drop_left]
    cases v with
    | nil => rw [List.append_nil, List.nil_append, if_pos rfl]
    | cons d v =>
        have hd := hu d (List.mem_append_right w List.mem_cons_self)
        rw [List.cons_append, hk _ _ _ (by simp [hd]), if_neg (by simp)]
  · rw [if_neg (mt hfront.mp hprefix), if_neg fun heq : u = w =>
      hprefix (heq ▸ List.prefix_rfl)]

theorem run_oneOf (hu : ∀ d ∈ u, p d = false) (hc : p c = true)
    (hwords : ∀ w ∈ words, ∀ d ∈ w, p d = false) (hk : Refuses (fun d => !p d) k) (s : List Char) :
    (oneOf words).run groups (u ++ c :: s) k = if u ∈ words then k groups (c :: s) else none := by
  induction words with
  | nil =>
      rw [if_neg List.not_mem_nil]
      cases u <;> rfl
  | cons w words ih =>
      obtain ⟨hw, hwords⟩ := List.forall_mem_cons.mp hwords
      rw [oneOf, List.foldr_cons, run, run_text_append_cons hu hc hw hk]
      refine (congrArg (fun other => Option.orElse _ fun _ => other) (ih hwords)).trans ?_
      by_cases heq : u = w
      · rw [if_pos heq, if_pos (List.mem_cons.mpr (.inl heq))]
        cases k groups (c :: s) with
        | some a => rfl
        | none => split <;> rfl
      · rw [if_neg heq]
        simp only [List.mem_cons, heq, false_or]
        rfl

theorem run_group_oneOf (hu : ∀ d ∈ u, p d = false) (hc : p c = true)
    (hwords : ∀ w ∈ words, ∀ d ∈ w, p d = false) (hk : Refuses (fun d => !p d) k) (s : List Char) :
    (group (oneOf words)).run groups (u ++ c :: s) k =
      if u ∈ words then k (groups ++ [u]) (c :: s) else none := by
  refine (run_oneOf hu hc hwords (hk.group (u ++ c :: s)) s).trans ?_
  rw [take_consumed]

theorem run_group_opt_oneOf (hu : ∀ d ∈ u, p d = false) (hc : p c = true)
    (hwords : ∀ w ∈ words, ∀ d ∈ w, p d = false) (hk : Refuses (fun d => !p d) k) (s : List Char) :
    (group (opt (oneOf words))).run groups (u ++ c :: s) k =
      if u = [] ∨ u ∈ words then k (groups ++ [u]) (c :: s) else none := by
  have hwhole : (oneOf words).run groups (u ++ c :: s) _ = _ :=
    run_oneOf hu hc hwords (hk.group (u ++ c :: s)) s
  rw [take_consumed] at hwhole
  rw [run, opt, run, hwhole, run]
  cases u with
  | nil =>
      have hempty : ([] : List Char) = [] ∨ [] ∈ words := .inl rfl
      rw [List.nil_append, Nat.sub_self, List.take_zero, if_pos hempty]
      split
      · cases k (groups ++ [[]]) (c :: s) <;> rfl
      · rfl
  | cons d u =>
      have hd := hu d List.mem_cons_self
      rw [List.cons_append, hk _ d _ (by simp [hd])]
      simp only [reduceCtorEq, false_or]
      split
      · cases k (groups ++ [d :: u]) (c :: s) <;> rfl
      · rfl

theorem run_oneOf_of_head (h : ∀ w ∈ words, w ≠ [] ∧ c ∉ w.head?) (s : List Char) :
    (oneOf words).run groups (c :: s) k = none := by
  induction words with
  | nil => rfl
  | cons w words ih =>
      obtain ⟨⟨hne, hhead⟩, hwords⟩ := List.forall_mem_cons.mp h
      obtain ⟨d, w, rfl⟩ := List.exists_cons_of_ne_nil hne
      have hd : c ≠ d := fun heq => hhead (heq ▸ rfl)
      rw [oneOf, List.foldr_cons, run, run_text_of_ne hd]
      exact ih hwords

theorem refuses_group_opt_oneOf (h : ∀ w ∈ words, w ≠ [] ∧ ∀ c ∈ w.head?, q c = false)
    (hk : Refuses q k) : Refuses q fun groups s => (group (opt (oneOf words))).run groups s k := by
  intro groups c s hc
  have hhead : ∀ w ∈ words, w ≠ [] ∧ c ∉ w.head? := fun w hw => ⟨(h w hw).1, fun hmem => by
    rw [(h w hw).2 c hmem] at hc
    cases hc⟩
  change (group (opt (oneOf words))).run groups (c :: s) k = none
  rw [run, opt, run, run_oneOf_of_head hhead, run, hk _ c s hc]
  rfl

theorem refuses_group_oneOf (h : ∀ w ∈ words, w ≠ [] ∧ ∀ c ∈ w.head?, q c = false) :
    Refuses q fun groups s => (group (oneOf words)).run groups s k := by
  intro groups c s hc
  refine run_oneOf_of_head (fun w hw => ⟨(h w hw).1, fun hmem => ?_⟩) s
  rw [(h w hw).2 c hmem] at hc
  cases hc

/-- The rest of a line is a group. -/
theorem run_group_plus_atEnd (hne : s ≠ []) (h : ∀ c ∈ s, p c = true) :
    (cat [group (plus p), atEnd]).run groups s (fun groups _ => some groups) =
      some (groups ++ [s]) := by
  rw [run_cat_cons]
  have hend : (cat [atEnd]).run (groups ++ [s]) [] (fun groups _ => some groups) =
      some (groups ++ [s]) := rfl
  simpa using run_group_plus_of_some (t := []) ⟨hne, h⟩ (by simp) hend

end Columns

end Regex
