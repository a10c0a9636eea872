import MiniDrop.Model.Attribution
import MiniDrop.Verification.Hotmethod.WindowTid

/-! # What a text cites

A citation does not cross a character that is no part of one. -/

namespace MiniDrop

/-- No citation has this character. -/
def isPlain (c : Char) : Bool := c ∉ ['[', 'E', '.', ']'] && !isReDigit c

section Plain

variable {c : Char}

theorem ne_of_isPlain (hc : isPlain c = true) : c ≠ '[' ∧ c ≠ 'E' ∧ c ≠ '.' ∧ c ≠ ']' := by
  simpa using (Bool.and_eq_true_iff.mp hc).1

theorem isReDigit_of_isPlain (hc : isPlain c = true) : isReDigit c = false := by
  simpa using (Bool.and_eq_true_iff.mp hc).2

theorem takeWhile_append_of_neg {p : Char → Bool} (hc : p c = false) (s b : List Char) :
    (s ++ c :: b).takeWhile p = s.takeWhile p := by
  induction s with
  | nil => simp [hc]
  | cons d s ih => rw [List.cons_append, List.takeWhile_cons, List.takeWhile_cons, ih]

theorem citationHere_cons_of_ne (hc : c ≠ '[') (s : List Char) : citationHere (c :: s) = none := by
  rw [citationHere]
  rintro _ ⟨⟩
  exact hc rfl

theorem citationHere_append (hc : isPlain c = true) (s b : List Char) :
    citationHere (s ++ c :: b) = citationHere s := by
  obtain ⟨hopen, he, hdot, hclose⟩ := ne_of_isPlain hc
  have hdigit := isReDigit_of_isPlain hc
  match s with
  | [] => rw [List.nil_append, citationHere_cons_of_ne hopen]; rfl
  | [d] =>
    by_cases hd : d = '['
    · subst hd
      simp [citationHere, he]
    · rw [List.singleton_append, citationHere_cons_of_ne hd, citationHere_cons_of_ne hd]
  | d :: e :: s =>
    by_cases hd : d = '['
    · subst hd
      by_cases hE : e = 'E'
      · subst hE
        simp only [List.cons_append, citationHere, takeWhile_append_of_neg hdigit,
          Text.dropWhile_append_of_neg isReDigit hdigit]
        split
        · rfl
        · cases hrest : s.dropWhile isReDigit with
          | nil => simp [hdot, hclose]
          | cons f t =>
              by_cases hf : f = '.'
              · subst hf
                simp only [List.cons_append, takeWhile_append_of_neg hdigit,
                  Text.dropWhile_append_of_neg isReDigit hdigit]
                cases t.dropWhile isReDigit with
                | nil => simp [hclose]
                | cons g u =>
                    by_cases hg : g = ']'
                    · subst hg
                      rfl
                    · simp [hg]
              · by_cases hf' : f = ']'
                · subst hf'
                  rfl
                · simp [hf, hf']
      · simp [citationHere, hE]
    · rw [List.cons_append, citationHere_cons_of_ne hd, citationHere_cons_of_ne hd]

/-- A plain character divides the citations. -/
theorem citations_append_cons (hc : isPlain c = true) (a b : List Char) :
    citations (a ++ c :: b) = citations a ++ citations b := by
  induction a with
  | nil =>
      change (citationHere (c :: b)).toList ++ citations b = citations b
      rw [citationHere_cons_of_ne (ne_of_isPlain hc).1]
      rfl
  | cons d a ih =>
      have hhere := citationHere_append hc (d :: a) b
      rw [List.cons_append] at hhere
      rw [List.cons_append, citations, citations, hhere, ih, List.append_assoc]

end Plain

theorem citations_of_notMem {s : List Char} (h : '[' ∉ s) : citations s = [] := by
  induction s with
  | nil => rfl
  | cons c s ih =>
      obtain ⟨hne, hnot⟩ := List.ne_and_not_mem_of_not_mem_cons h
      rw [citations, citationHere_cons_of_ne hne.symm, ih hnot]
      rfl

theorem citations_toString (n : ℤ) : citations (toString n).toList = [] := by
  refine citations_of_notMem fun hmem => ?_
  have hdigits : ∀ m : ℕ, '[' ∉ Nat.toDigits 10 m := fun m hc =>
    absurd (Nat.isDigit_of_mem_toDigits (by omega) (by omega) hc) (by decide)
  rw [toList_toString_int] at hmem
  split at hmem
  · exact hdigits _ (by simpa using hmem)
  · exact hdigits _ hmem

/-! ## Phrases that divide a text -/

/-- A phrase between which and anything no citation lies. -/
def IsPhrase (s : List Char) : Prop := s.head?.any isPlain = true ∧ s.getLast?.any isPlain = true

instance (s : List Char) : Decidable (IsPhrase s) := inferInstanceAs (Decidable (_ ∧ _))

theorem citations_append_of_head {a b : List Char} (hb : b.head?.any isPlain = true) :
    citations (a ++ b) = citations a ++ citations b := by
  cases b with
  | nil => cases hb
  | cons c b =>
      have hnil := citations_append_cons hb [] b
      rw [citations_append_cons hb, show citations (c :: b) = citations b from hnil]

theorem citations_append_of_getLast {a b : List Char} (ha : a.getLast?.any isPlain = true) :
    citations (a ++ b) = citations a ++ citations b := by
  induction a using List.reverseRecOn with
  | nil => cases ha
  | append_singleton a c _ =>
      rw [List.getLast?_concat] at ha
      rw [List.append_assoc, List.singleton_append, citations_append_cons ha,
        citations_append_cons ha, show citations [] = [] from rfl, List.append_nil]

theorem citations_phrase_append {p : List Char} (hp : IsPhrase p) (b : List Char) :
    citations (p ++ b) = citations p ++ citations b := citations_append_of_getLast hp.2

theorem citations_append_phrase {p : List Char} (hp : IsPhrase p) (a : List Char) :
    citations (a ++ p) = citations a ++ citations p := citations_append_of_head hp.1

/-- What stands before a phrase is read for itself. -/
theorem citations_append_phrase_append {p : List Char} (hp : IsPhrase p) (a b : List Char) :
    citations (a ++ (p ++ b)) = citations a ++ citations (p ++ b) := by
  refine citations_append_of_head ?_
  cases p with
  | nil => cases hp.1
  | cons c p => exact hp.1

/-- Joining by a phrase without citations makes no new ones. -/
theorem citations_intercalate {p : List Char} (hp : IsPhrase p) (hnone : citations p = [])
    (parts : List (List Char)) : citations (p.intercalate parts) = parts.flatMap citations := by
  induction parts with
  | nil => rfl
  | cons part parts ih =>
      cases parts with
      | nil => simp [List.intercalate]
      | cons next parts =>
          have hjoin : p.intercalate (part :: next :: parts) =
              part ++ (p ++ p.intercalate (next :: parts)) := by simp [List.intercalate]
          rw [hjoin, citations_append_phrase_append hp, citations_phrase_append hp, hnone, ih]
          rfl

end MiniDrop
