import Mathlib.Data.List.Basic
import MiniDrop.Model.Descriptions

/-! # What the expressions find next to a number

Between two numbers there are no digits, so a match is about the digits that come next: an
expression for a unit looks at what follows them, and one for a process id at what comes before. -/

namespace MiniDrop

open Scan

/-- There are no digits. -/
def DigitFree (s : List Char) : Prop := ∀ c ∈ s, c.isDigit = false

instance (s : List Char) : Decidable (DigitFree s) := List.decidableBAll _ s

/-- The digits of one number, and what follows it. -/
structure IsNumber (digits after : List Char) : Prop where
  nonempty : digits ≠ []
  digits : ∀ c ∈ digits, c.isDigit = true
  ends : ∀ c ∈ after.head?, c.isDigit = false

theorem DigitFree.append {s t : List Char} (hs : DigitFree s) (ht : DigitFree t) :
    DigitFree (s ++ t) := by
  intro c hc
  exact (List.mem_append.mp hc).elim (hs c) (ht c)

theorem DigitFree.of_append {s t : List Char} (h : DigitFree (s ++ t)) :
    DigitFree s ∧ DigitFree t :=
  ⟨fun c hc => h c (List.mem_append_left t hc), fun c hc => h c (List.mem_append_right s hc)⟩

theorem DigitFree.tail {c : Char} {s : List Char} (h : DigitFree (c :: s)) : DigitFree s :=
  fun d hd => h d (List.mem_cons_of_mem c hd)

/-! ## Digits -/

theorem digitsAt_of_head {c : Char} (hc : c.isDigit = false) (most : ℕ) (s : List Char) :
    digitsAt most (c :: s) = none := by
  cases most <;> simp [digitsAt, hc]

theorem digitsAt_of_digitFree {s : List Char} (h : DigitFree s) (most : ℕ) :
    digitsAt most s = none := by
  cases s with
  | nil => simp [digitsAt]
  | cons c s => exact digitsAt_of_head (h c List.mem_cons_self) most s

theorem takeWhile_isDigit {digits after : List Char} (h : IsNumber digits after) :
    (digits ++ after).takeWhile Char.isDigit = digits := by
  rw [List.takeWhile_append_of_pos h.digits]
  cases after with
  | nil => simp
  | cons c after => simp [h.ends c rfl]

/-- A number that is short enough is read to its end. -/
theorem digitsAt_of_length_le {digits after : List Char} (h : IsNumber digits after) {most : ℕ}
    (hlength : digits.length ≤ most) : digitsAt most (digits ++ after) = some (digits, after) := by
  have htake : ((digits ++ after).take most).takeWhile Char.isDigit = digits := by
    rw [List.take_append, List.take_of_length_le hlength]
    refine takeWhile_isDigit ⟨h.nonempty, h.digits, fun c hc => h.ends c ?_⟩
    cases after with
    | nil => simp at hc
    | cons d after =>
        cases hleft : most - digits.length with
        | zero => simp [hleft] at hc
        | succ left => simpa [hleft] using hc
  simp only [digitsAt, htake, if_neg h.nonempty, List.drop_left]

/-- A longer one is not, and a digit comes next. -/
theorem digitsAt_of_lt_length {digits after : List Char} (hdigits : ∀ c ∈ digits, c.isDigit = true)
    {most : ℕ} (hmost : 0 < most) (hlength : most < digits.length) :
    digitsAt most (digits ++ after) = some (digits.take most, digits.drop most ++ after) := by
  have htake : ((digits ++ after).take most).takeWhile Char.isDigit = digits.take most := by
    rw [List.take_append_of_le_length hlength.le]
    refine List.takeWhile_eq_self_iff.mpr fun c hc => hdigits c (List.mem_of_mem_take hc)
  have hne : digits.take most ≠ [] := by
    rw [ne_eq, List.take_eq_nil_iff]
    rintro (h | rfl)
    · omega
    · simp at hlength
  have hdrop : (digits ++ after).drop (digits.take most).length = digits.drop most ++ after := by
    rw [List.length_take, Nat.min_eq_left hlength.le, List.drop_append_of_le_length hlength.le]
  simp only [digitsAt, htake, if_neg hne, hdrop]

/-! ## Words and blanks -/

theorem not_foldsTo {letter c : Char} (hletter : letter.isDigit = false) (hc : c.isDigit = true) :
    foldsTo letter c = false := by
  have hlong : c ≠ 'ſ' := by
    rintro rfl
    exact absurd hc (by decide)
  have hne : c ≠ letter := by
    rintro rfl
    rw [hc] at hletter
    cases hletter
  simp [foldsTo, hlong, hne]

theorem not_isRegexSpace {c : Char} (hc : c.isDigit = true) : isRegexSpace c = false := by
  have hspaces : DigitFree ['\t', '\n', '\x0c', '\r', ' '] := by decide
  rw [isRegexSpace, decide_eq_false_iff_not]
  intro hmem
  rw [hspaces c hmem] at hc
  cases hc

/-- A word is read from characters that are no digits. -/
theorem dropWord_eq_some {word s rest : List Char} (hword : DigitFree word)
    (h : dropWord word s = some rest) : ∃ read, s = read ++ rest ∧ DigitFree read := by
  induction word generalizing s with
  | nil => exact ⟨[], by simpa [dropWord] using h, by simp [DigitFree]⟩
  | cons letter word ih =>
      cases s with
      | nil => simp [dropWord] at h
      | cons c s =>
          rw [dropWord] at h
          split at h
          · rename_i hfold
            obtain ⟨read, rfl, hread⟩ := ih hword.tail h
            refine ⟨c :: read, rfl, List.forall_mem_cons.mpr ⟨?_, hread⟩⟩
            by_contra hdigit
            rw [not_foldsTo (hword letter List.mem_cons_self) (by simpa using hdigit)] at hfold
            cases hfold
          · cases h

/-- A word ends before a digit. -/
theorem dropWord_append {word : List Char} (hword : DigitFree word) {c : Char}
    (hc : c.isDigit = true) (s t : List Char) :
    dropWord word (s ++ c :: t) = (dropWord word s).map (· ++ c :: t) := by
  induction word generalizing s with
  | nil => rfl
  | cons letter word ih =>
      have hletter := hword letter List.mem_cons_self
      cases s with
      | nil => simp [dropWord, not_foldsTo hletter hc]
      | cons d s =>
          rw [List.cons_append, dropWord, dropWord, ih hword.tail]
          split <;> rfl

theorem skipSpace_append (s : List Char) {c : Char} (hc : c.isDigit = true) (t : List Char) :
    skipSpace (s ++ c :: t) = skipSpace s ++ c :: t := by
  rw [skipSpace, skipSpace, List.dropWhile_append]
  split
  · rename_i hempty
    rw [List.isEmpty_iff.mp hempty, List.dropWhile_cons_of_neg (by simp [not_isRegexSpace hc])]
    rfl
  · rfl

theorem skipSpace_digit {c : Char} (hc : c.isDigit = true) (t : List Char) :
    skipSpace (c :: t) = c :: t := skipSpace_append [] hc t

/-- The blanks that are skipped are no digits. -/
theorem exists_skipSpace (s : List Char) : ∃ blanks, s = blanks ++ skipSpace s ∧ DigitFree blanks := by
  refine ⟨s.takeWhile isRegexSpace, List.takeWhile_append_dropWhile.symm, fun c hc => ?_⟩
  by_contra hdigit
  have hspace := List.mem_takeWhile_imp hc
  rw [not_isRegexSpace (by simpa using hdigit)] at hspace
  cases hspace

/-! ## Numbers with a unit -/

/-- Units that are words. -/
def AreWords (units : List String) : Prop :=
  ∀ unit ∈ units, unit.toList ≠ [] ∧ DigitFree unit.toList

instance (units : List String) : Decidable (AreWords units) := List.decidableBAll _ units

section Units

variable {units : List String} {digits after : List Char}

theorem firstOf_digit (hunits : AreWords units) {c : Char} (hc : c.isDigit = true)
    (s : List Char) : firstOf units (c :: s) = none := by
  rw [firstOf, List.findSome?_eq_none_iff]
  intro unit hunit
  obtain ⟨hne, hword⟩ := hunits unit hunit
  obtain ⟨letter, word, hunit⟩ := List.exists_cons_of_ne_nil hne
  rw [hunit] at hword ⊢
  simp [dropWord, not_foldsTo (hword letter List.mem_cons_self) hc]

theorem firstOf_eq_some (hunits : AreWords units) {s rest : List Char} {unit : String}
    (h : firstOf units s = some (unit, rest)) : ∃ read, s = read ++ rest ∧ DigitFree read := by
  obtain ⟨word, hword, hdrop⟩ := List.exists_of_findSome?_eq_some h
  obtain ⟨rest', hrest, heq⟩ := Option.map_eq_some_iff.mp hdrop
  obtain ⟨rfl, rfl⟩ := Prod.mk.inj heq
  exact dropWord_eq_some (hunits word hword).2 hrest

/-- What is read of a number with a unit. -/
def readUnit (units : List String) (digits after : List Char) : Option (Reading × String) :=
  (firstOf units (skipSpace after)).map fun found =>
    (⟨digitsValue (digits.drop (digits.length - 4)), after⟩, found.1)

theorem numberWithUnit_of_head {c : Char} (hc : c.isDigit = false) (prev : Option Char)
    (s : List Char) : numberWithUnit units prev (c :: s) = none := by
  simp [numberWithUnit, digitsAt_of_head hc]

/-- No match begins where more than four digits are left. -/
theorem numberWithUnit_of_lt_length (hunits : AreWords units)
    (hdigits : ∀ c ∈ digits, c.isDigit = true) (hlength : 4 < digits.length) (prev : Option Char) :
    numberWithUnit units prev (digits ++ after) = none := by
  have hne : digits.drop 4 ≠ [] := by
    rw [ne_eq, List.drop_eq_nil_iff]
    omega
  obtain ⟨c, cs, hdrop⟩ := List.exists_cons_of_ne_nil hne
  have hc : c.isDigit = true := by
    refine hdigits c (List.mem_of_mem_drop (i := 4) ?_)
    rw [hdrop]
    exact List.mem_cons_self
  simp [numberWithUnit, digitsAt_of_lt_length hdigits (by decide) hlength, hdrop,
    skipSpace_digit hc, firstOf_digit hunits hc]

theorem numberWithUnit_of_length_le (h : IsNumber digits after) (hlength : digits.length ≤ 4)
    (prev : Option Char) :
    numberWithUnit units prev (digits ++ after) = (firstOf units (skipSpace after)).map fun found =>
      ((⟨digitsValue digits, after⟩, found.1), found.2) := by
  simp only [numberWithUnit, digitsAt_of_length_le h hlength, Option.bind_eq_bind, Option.bind_some]
  cases firstOf units (skipSpace after) <;> rfl

theorem findAll_words (prev : Option Char) {words : List Char} (h : DigitFree words)
    (s : List Char) :
    findAll (numberWithUnit units) prev 0 (words ++ s) =
      findAll (numberWithUnit units) none 0 s := by
  rw [findAll_append, findAll_congr (fun _ _ _ => rfl) _ none]
  intro x y hsplit hne
  obtain ⟨c, y, rfl⟩ := List.exists_cons_of_ne_nil hne
  refine numberWithUnit_of_head (h c ?_) _ _
  rw [hsplit]
  simp

/-- A number is found when a unit follows, by its last four digits. -/
theorem findAll_number (hunits : AreWords units) (h : IsNumber digits after)
    (prev : Option Char) :
    findAll (numberWithUnit units) prev 0 (digits ++ after) =
      (readUnit units digits after).toList ++ findAll (numberWithUnit units) none 0 after := by
  cases hfound : firstOf units (skipSpace after) with
  | none =>
      rw [findAll_append, findAll_congr (fun _ _ _ => rfl) _ none]
      · simp [readUnit, hfound]
      · intro x y hsplit hne
        have hy : ∀ c ∈ y, c.isDigit = true := fun c hc => h.digits c (by simp [hsplit, hc])
        by_cases hlength : y.length ≤ 4
        · rw [numberWithUnit_of_length_le ⟨hne, hy, h.ends⟩ hlength, hfound, Option.map_none]
        · exact numberWithUnit_of_lt_length hunits hy (by omega) _
  | some found =>
      obtain ⟨unit, rest⟩ := found
      have hpos := List.length_pos_iff.mpr h.nonempty
      generalize hinit : digits.take (digits.length - 4) = init
      generalize hlast : digits.drop (digits.length - 4) = last
      have hdigits : digits = init ++ last := by rw [← hinit, ← hlast, List.take_append_drop]
      have hlength : last.length ≤ 4 := by
        rw [← hlast, List.length_drop]
        omega
      have hnumber : IsNumber last after := by
        refine ⟨?_, fun c hc => h.digits c (by simp [hdigits, hc]), h.ends⟩
        rw [ne_eq, ← hlast, List.drop_eq_nil_iff]
        omega
      -- what is read after the digits
      obtain ⟨blanks, hafter, hblanks⟩ := exists_skipSpace after
      obtain ⟨word, hskip, hword⟩ := firstOf_eq_some hunits hfound
      have hread : after = (blanks ++ word) ++ rest := by rw [List.append_assoc, ← hskip, ← hafter]
      have hmatch : numberWithUnit units (lastOf prev init) ((last ++ (blanks ++ word)) ++ rest) =
          some ((⟨digitsValue last, after⟩, unit), rest) := by
        rw [List.append_assoc, ← hread, numberWithUnit_of_length_le hnumber hlength, hfound]
        rfl
      have htail : findAll (numberWithUnit units) none 0 after =
          findAll (numberWithUnit units) none 0 rest := by
        rw [hread, findAll_words _ (hblanks.append hword)]
      rw [htail, readUnit, hfound, hlast, hdigits, List.append_assoc, findAll_append, hread,
        ← List.append_assoc last, findAll_match (by simp [hnumber.nonempty]) hmatch, ← hread,
        findAll_congr (fun _ _ _ => rfl) _ none]
      · rfl
      · intro x y hsplit hne
        rw [← List.append_assoc]
        refine numberWithUnit_of_lt_length hunits (fun c hc => h.digits c ?_) ?_ _
        · rw [hdigits, hsplit]
          simpa [or_assoc] using Or.inr (List.mem_append.mp hc)
        · have hsum : digits.length = init.length + last.length := by
            rw [hdigits, List.length_append]
          have hinit' : init.length = digits.length - 4 := by
            rw [← hinit, List.length_take]
            omega
          have hy := List.length_pos_iff.mpr hne
          have hle : 0 < init.length := by
            rw [hsplit, List.length_append]
            omega
          rw [List.length_append]
          omega

end Units

/-! ## Process ids -/

namespace PidPattern

variable {p : PidPattern} {prev : Option Char} {digits after words : List Char}

/-- The pattern's word is not empty and has no digits. -/
def HasWord (p : PidPattern) : Prop := p.word.toList ≠ [] ∧ DigitFree p.word.toList

instance (p : PidPattern) : Decidable p.HasWord := inferInstanceAs (Decidable (_ ∧ DigitFree _))

/-- What follows the word and the blanks. -/
def behind (p : PidPattern) (s : List Char) : Option (List Char) :=
  (dropWord p.word.toList s).bind p.skip

/-- The digits end where the pattern wants them to. -/
def bounds (p : PidPattern) (after : List Char) : Bool := !p.bounded || endsWord after

/-- The text is the word and what may stand behind it, after the character `prev`. -/
def asksAt (p : PidPattern) (prev : Option Char) (words : List Char) : Bool :=
  (!p.bounded || !prev.any isWordChar) && p.behind words == some []

/-- The text ends so. -/
def asks (p : PidPattern) : Option Char → List Char → Bool
  | _, [] => false
  | prev, c :: words => p.asksAt prev (c :: words) || p.asks (some c) words

/-- What is read of a number behind these words. -/
def readPid (p : PidPattern) (prev : Option Char) (words digits after : List Char) :
    Option Reading :=
  if p.asks prev words && p.bounds after then some ⟨digitsValue digits, after⟩ else none

/-- Blanks end before a digit. -/
theorem skip_append (p : PidPattern) (s : List Char) {c : Char} (hc : c.isDigit = true)
    (t : List Char) : p.skip (s ++ c :: t) = (p.skip s).map (· ++ c :: t) := by
  have hhead : (s ++ c :: t).head?.any isRegexSpace = s.head?.any isRegexSpace := by
    cases s <;> simp [not_isRegexSpace hc]
  have hcolon : c ≠ ':' ∧ c ≠ '=' := by
    constructor <;>
      · rintro rfl
        exact absurd hc (by decide)
  rw [skip, skip, hhead, skipSpace_append s hc]
  split
  · rfl
  split
  · cases skipSpace s with
    | nil => simp [hcolon]
    | cons d rest =>
        rw [List.cons_append]
        split
        · rename_i heq
          obtain ⟨rfl, rfl⟩ := List.cons.inj heq
          simp [skipSpace_append rest hc]
        · rename_i heq
          obtain ⟨rfl, rfl⟩ := List.cons.inj heq
          simp [skipSpace_append rest hc]
        · rename_i hcol heq
          have hd : d ≠ ':' ∧ d ≠ '=' :=
            ⟨fun h => hcol (rest ++ c :: t) (by rw [h]), fun h => heq (rest ++ c :: t) (by rw [h])⟩
          simp [hd]
  · rfl

theorem exists_skip {s rest : List Char} (h : p.skip s = some rest) : ∃ read, s = read ++ rest := by
  have hsuffix : ∀ t : List Char, ∃ read, t = read ++ skipSpace t := fun t =>
    ⟨_, (exists_skipSpace t).choose_spec.1⟩
  obtain ⟨blanks, hblanks⟩ := hsuffix s
  rw [skip] at h
  split at h
  · cases h
  split at h
  · split at h
    · rename_i rest' heq
      obtain ⟨more, hmore⟩ := hsuffix rest'
      obtain rfl := Option.some.inj h
      refine ⟨blanks ++ ':' :: more, ?_⟩
      rw [List.append_assoc, List.cons_append, ← hmore, ← heq]
      exact hblanks
    · rename_i rest' heq
      obtain ⟨more, hmore⟩ := hsuffix rest'
      obtain rfl := Option.some.inj h
      refine ⟨blanks ++ '=' :: more, ?_⟩
      rw [List.append_assoc, List.cons_append, ← hmore, ← heq]
      exact hblanks
    · obtain rfl := Option.some.inj h
      exact ⟨blanks, hblanks⟩
  · obtain rfl := Option.some.inj h
    exact ⟨blanks, hblanks⟩

theorem exists_behind (hp : p.HasWord) {s rest : List Char} (h : p.behind s = some rest) :
    ∃ read, s = read ++ rest := by
  obtain ⟨more, hdrop, hskip⟩ := Option.bind_eq_some_iff.mp h
  obtain ⟨read, rfl, -⟩ := dropWord_eq_some hp.2 hdrop
  obtain ⟨blanks, rfl⟩ := exists_skip hskip
  exact ⟨read ++ blanks, (List.append_assoc ..).symm⟩

theorem behind_append (hp : p.HasWord) (s : List Char) {c : Char} (hc : c.isDigit = true)
    (t : List Char) : p.behind (s ++ c :: t) = (p.behind s).map (· ++ c :: t) := by
  rw [behind, behind, dropWord_append hp.2 hc]
  cases dropWord p.word.toList s with
  | none => rfl
  | some rest => exact p.skip_append rest hc t

theorem matchAt_eq (p : PidPattern) (prev : Option Char) (s : List Char) :
    p.matchAt prev s = if !p.bounded || !prev.any isWordChar then
      (p.behind s).bind fun rest => (digitsAt 10 rest).bind fun found =>
        if p.bounds found.2 then some (⟨digitsValue found.1, found.2⟩, found.2) else none
      else none := by
  rw [matchAt, behind, Option.bind_assoc]
  cases !p.bounded || !prev.any isWordChar with
  | false => rfl
  | true =>
      rw [if_pos rfl]
      change Option.bind (some ()) _ = _
      rw [Option.bind_some]
      refine congrArg _ (funext fun rest => congrArg _ (funext fun more => congrArg _ (funext ?_)))
      intro found
      change Option.bind (guard (p.bounds found.2 = true)) _ = _
      cases p.bounds found.2 <;> rfl

theorem matchAt_of_digitFree (hp : p.HasWord) (h : DigitFree words) :
    p.matchAt prev words = none := by
  rw [matchAt_eq]
  split
  · cases hbehind : p.behind words with
    | none => rfl
    | some rest =>
        obtain ⟨read, rfl⟩ := exists_behind hp hbehind
        rw [Option.bind_some, digitsAt_of_digitFree h.of_append.2, Option.bind_none]
  · rfl

theorem matchAt_of_digit (hp : p.HasWord) {c : Char} (hc : c.isDigit = true) (s : List Char) :
    p.matchAt prev (c :: s) = none := by
  obtain ⟨letter, word, hword⟩ := List.exists_cons_of_ne_nil hp.1
  have hletter := hp.2 letter (by rw [hword]; exact List.mem_cons_self)
  have hbehind : p.behind (c :: s) = none := by
    rw [behind, hword, dropWord, not_foldsTo hletter hc]
    rfl
  rw [matchAt_eq, hbehind]
  split <;> rfl

/-- A match that begins between two numbers is about the second one. -/
theorem matchAt_append (hp : p.HasWord) (hwords : DigitFree words) (h : IsNumber digits after)
    (hlength : digits.length ≤ 10) :
    p.matchAt prev (words ++ (digits ++ after)) =
      if p.asksAt prev words && p.bounds after then some (⟨digitsValue digits, after⟩, after)
      else none := by
  obtain ⟨c, cs, hdigits⟩ := List.exists_cons_of_ne_nil h.nonempty
  have hbehind : p.behind (words ++ (digits ++ after)) =
      (p.behind words).map (· ++ (digits ++ after)) := by
    rw [hdigits]
    exact behind_append hp words (h.digits c (by rw [hdigits]; exact List.mem_cons_self)) _
  rw [matchAt_eq, asksAt, hbehind]
  cases hrest : p.behind words with
  | none => simp
  | some rest =>
      obtain ⟨read, rfl⟩ := exists_behind hp hrest
      cases rest with
      | nil => simp [digitsAt_of_length_le h hlength, ← ite_and]
      | cons d rest =>
          simp [digitsAt_of_head (hwords.of_append.2 d List.mem_cons_self)]

/-- A number is found when a word for it comes before. -/
theorem findAll_matchAt (hp : p.HasWord) (hwords : DigitFree words) (h : IsNumber digits after)
    (hlength : digits.length ≤ 10) :
    findAll p.matchAt prev 0 (words ++ (digits ++ after)) =
      (p.readPid prev words digits after).toList ++
        findAll p.matchAt digits.getLast? 0 after := by
  induction words generalizing prev with
  | nil =>
      rw [List.nil_append, findAll_append, ← List.nil_append digits,
        lastOf_append prev [] h.nonempty]
      · rfl
      · intro x y hsplit hne
        obtain ⟨c, y, rfl⟩ := List.exists_cons_of_ne_nil hne
        exact matchAt_of_digit hp (h.digits c (by simp [hsplit])) _
  | cons c words ih =>
      have hmatch : p.matchAt prev _ = _ := matchAt_append hp hwords h hlength
      have hrest := @ih (some c) hwords.tail
      by_cases hasks : (p.asksAt prev (c :: words) && p.bounds after) = true
      · rw [if_pos hasks, ← List.append_assoc] at hmatch
        rw [← List.append_assoc, findAll_match (by simp) hmatch, lastOf_append _ _ h.nonempty]
        rw [Bool.and_eq_true] at hasks
        simp [readPid, asks, hasks]
      · rw [if_neg hasks, List.cons_append] at hmatch
        rw [List.cons_append, findAll, hmatch]
        refine hrest.trans ?_
        rw [Bool.and_eq_true, not_and] at hasks
        cases hbounds : p.bounds after with
        | false => simp [readPid, hbounds]
        | true =>
            have hnot : p.asksAt prev (c :: words) = false := by
              by_contra h
              exact hasks (by simpa using h) hbounds
            simp [readPid, asks, hnot]

end PidPattern

end MiniDrop
