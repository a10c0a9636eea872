import MiniDrop.Model.SuggestionMarkdown

/-! # Headings

What the reader takes of a heading: the function is up to the first parenthesis that opens behind
blanks, and backquotes around it are left out. -/

namespace MiniDrop

open Regex (Filled)

/-! ## Where a function ends -/

/-- Blanks and a parenthesis, behind a backquote at most. -/
def OpensParen (s : List Char) : Prop :=
  ∃ tick blanks rest, s = tick ++ (blanks ++ '(' :: rest) ∧ (tick = [] ∨ tick = ['`']) ∧
    Filled Python.isSpace blanks

def TitleEnds (s : List Char) : Prop := s = [] ∨ s = ['`'] ∨ OpensParen s

section Ends

variable {groups groups' : List (List Char)} {s t b : List Char} {c : Char}

theorem OpensParen.append (h : OpensParen s) (t : List Char) : OpensParen (s ++ t) := by
  obtain ⟨tick, blanks, rest, rfl, htick, hblanks⟩ := h
  exact ⟨tick, blanks, rest ++ t, by simp, htick, hblanks⟩

/-- The parenthesis is before the last character, unless it is that. -/
theorem OpensParen.of_concat (h : OpensParen (s ++ [c])) (hc : c ≠ '(') : OpensParen s := by
  obtain ⟨tick, blanks, rest, heq, htick, hblanks⟩ := h
  rcases List.eq_nil_or_concat' rest with rfl | ⟨rest, d, rfl⟩
  · rw [← List.append_assoc] at heq
    exact absurd (List.append_inj_right' heq rfl) (by simpa using hc)
  · refine ⟨tick, blanks, rest, ?_, htick, hblanks⟩
    have hassoc : tick ++ (blanks ++ '(' :: (rest ++ [d])) =
        (tick ++ (blanks ++ '(' :: rest)) ++ [d] := by simp
    exact List.append_inj_left' (heq.trans hassoc) rfl

/-- A parenthesis that opens behind the text opens in it, unless blanks or a backquote go on. -/
theorem OpensParen.of_append (h : OpensParen (b ++ ' ' :: '(' :: t)) (hb : b ≠ [])
    (hlast : ∀ c ∈ b.getLast?, Python.isSpace c = false) : OpensParen b ∨ b = ['`'] := by
  obtain ⟨tick, blanks, rest, heq, htick, hblanks⟩ := h
  rw [← List.append_assoc] at heq
  rcases List.append_eq_append_iff.mp heq with ⟨m, hm, hrest⟩ | ⟨m, hm, hrest⟩
  · -- The text ends within the backquote and the blanks.
    right
    rcases htick with rfl | rfl
    · have hmem : b.getLast hb ∈ blanks := by
        rw [← List.nil_append blanks, hm]
        exact List.mem_append_left m (List.getLast_mem hb)
      have hspace := hlast _ (List.getLast?_eq_some_getLast hb)
      rw [hblanks.all _ hmem] at hspace
      cases hspace
    · obtain ⟨d, b, rfl⟩ := List.exists_cons_of_ne_nil hb
      rw [List.singleton_append, List.cons_append, List.cons.injEq] at hm
      obtain ⟨rfl, hm⟩ := hm
      rcases List.eq_nil_or_concat' b with rfl | ⟨b, d, rfl⟩
      · rfl
      · have hspace := hlast d (by rw [← List.cons_append, List.getLast?_concat]; rfl)
        rw [hblanks.all d (by rw [hm]; simp)] at hspace
        cases hspace
  · cases m with
    | nil =>
        rw [List.nil_append, List.cons.injEq] at hrest
        exact absurd hrest.1 (by decide)
    | cons d m =>
        rw [List.cons_append, List.cons.injEq] at hrest
        obtain ⟨rfl, -⟩ := hrest
        exact .inl ⟨tick, blanks, m, by rw [hm, List.append_assoc], htick, hblanks⟩

theorem takes_titleEndPattern (hclear : '\n' ∉ s) :
    (∃ t, titleEndPattern.Takes groups s groups' t) ↔ groups' = groups ∧ TitleEnds s := by
  have hend : ∀ u : List Char, '\n' ∉ u → (u = [] ∨ u = ['\n'] ↔ u = []) := fun u hu =>
    or_iff_left fun heq => hu (heq ▸ List.mem_singleton_self _)
  constructor
  · rintro ⟨t, between, m, htick, _, m', hclose, rfl, rfl⟩
    have htick' : groups = between ∧ ∃ tick, s = tick ++ m ∧ (tick = [] ∨ tick = ['`']) := by
      rcases htick with htick | ⟨rfl, rfl⟩
      · obtain ⟨rfl, rfl⟩ := Regex.takes_char.mp htick
        exact ⟨rfl, ['`'], rfl, .inr rfl⟩
      · exact ⟨rfl, [], rfl, .inl rfl⟩
    obtain ⟨rfl, tick, rfl, hshape⟩ := htick'
    rcases hclose with ⟨_, m₁, hblanks, _, m₂, hopen, rfl, rfl⟩ | ⟨rfl, rfl, hm⟩
    · obtain ⟨rfl, blanks, hfilled, rfl⟩ := Regex.takes_plus.mp hblanks
      obtain ⟨rfl, rfl⟩ := Regex.takes_char.mp hopen
      exact ⟨rfl, .inr (.inr ⟨tick, blanks, _, rfl, hshape, hfilled⟩)⟩
    · obtain rfl := (hend _ fun hmem => hclear (List.mem_append_right tick hmem)).mp hm
      rw [List.append_nil]
      exact ⟨rfl, hshape.imp_right .inl⟩
  · rintro ⟨rfl, rfl | rfl | ⟨tick, blanks, rest, rfl, htick, hfilled⟩⟩
    · exact ⟨[], _, [], .inr ⟨rfl, rfl⟩, _, [], .inr ⟨rfl, rfl, .inl rfl⟩, rfl, rfl⟩
    · exact ⟨[], _, [], .inl (Regex.takes_char.mpr ⟨rfl, rfl⟩), _, [],
        .inr ⟨rfl, rfl, .inl rfl⟩, rfl, rfl⟩
    · have hopen : ∃ t, (Regex.alt (.cat [.plus Python.isSpace, .char '(']) .atEnd).Takes groups'
          (blanks ++ '(' :: rest) groups' t :=
        ⟨rest, .inl ⟨_, _, Regex.takes_plus.mpr ⟨rfl, blanks, hfilled, rfl⟩, _, _,
          Regex.takes_char.mpr ⟨rfl, rfl⟩, rfl, rfl⟩⟩
      obtain ⟨t, hopen⟩ := hopen
      rcases htick with rfl | rfl
      · exact ⟨t, _, _, .inr ⟨rfl, rfl⟩, _, t, hopen, rfl, rfl⟩
      · exact ⟨t, _, _, .inl (Regex.takes_char.mpr ⟨rfl, rfl⟩), _, t, hopen, rfl, rfl⟩

end Ends

/-! ## Function names -/

/-- A name that is not empty, without newlines and without blanks around it. -/
structure IsFuncName (f : List Char) : Prop where
  ne : f ≠ []
  clear : '\n' ∉ f
  strip : Python.strip f = f

/-- No parenthesis opens behind blanks, other than at the front. -/
def Uncut (f : List Char) : Prop := ∀ a b, f = a ++ b → a ≠ [] → ¬OpensParen b

section Names

variable {f : List Char}

theorem IsFuncName.head (h : IsFuncName f) : ∀ c ∈ f.head?, Python.isSpace c = false := by
  rw [← h.strip]
  exact Text.head_trim f

theorem IsFuncName.last (h : IsFuncName f) : ∀ c ∈ f.getLast?, Python.isSpace c = false := by
  rw [← h.strip]
  exact Text.getLast_trim f

end Names

/-! ## The pattern -/

section Pattern

variable {hash ds rest f tail : List Char} {c : Char}

/-- The numbered front of a heading. -/
def headingFront (hash : List Char) (i : ℕ) : List Char :=
  '#' :: '#' :: (hash ++ ' ' :: (Python.str i ++ ['.', ' ']))

/-- What is behind the number. -/
def namePattern : Regex := .cat [.opt (.char '`'),
  .cat [.group (.plusFew Regex.dot), titleEndPattern]]

theorem filled_str (i : ℕ) : Filled Python.isDecimal (Python.str i) := by
  rw [Python.str_natCast]
  exact ⟨Nat.toDigits_ne_nil, fun c hc => Python.isDecimal_of_isDigit (Python.isDigit_of_mem_toDigits c hc)⟩

theorem groups?_headingPattern (hhash : hash = [] ∨ hash = ['#']) (i : ℕ)
    (hrest : ∀ c ∈ rest.head?, Python.isSpace c = false) {x : List (List Char)}
    (hname : namePattern.run [] rest (fun groups _ => some groups) = some x) :
    headingPattern.groups? (headingFront hash i ++ rest) = some x := by
  have hblank : Filled Python.isSpace [' '] := ⟨by simp, by simp; decide⟩
  -- From the blank behind the number signs on.
  have hnumber : (Regex.cat [.plus Python.isSpace, .plus Python.isDecimal, .char '.',
      .plus Python.isSpace, .opt (.char '`'),
      .cat [.group (.plusFew Regex.dot), titleEndPattern]]).run []
        ([' '] ++ (Python.str i ++ ('.' :: ([' '] ++ rest)))) (fun groups _ => some groups) =
          some x := by
    rw [Regex.run_cat_cons]
    refine Regex.run_plus_of_some hblank (fun d hd => ?_) ?_
    · rw [List.head?_append_of_ne_nil _ (Python.str_ne_nil _)] at hd
      exact Python.not_isSpace_of_mem_str (List.mem_of_mem_head? hd)
    · rw [Regex.run_cat_cons]
      refine Regex.run_plus_of_some (filled_str i) (by simp; decide) ?_
      rw [Regex.run_cat_cons, Regex.run_char, Regex.run_cat_cons]
      exact Regex.run_plus_of_some hblank hrest hname
  have hline : headingFront hash i ++ rest =
      '#' :: '#' :: (hash ++ ([' '] ++ (Python.str i ++ ('.' :: ([' '] ++ rest))))) := by
    simp [headingFront]
  rw [hline, Regex.groups?, headingPattern, Regex.run_cat_cons, Regex.run_char, Regex.run_cat_cons,
    Regex.run_char, Regex.run_cat_cons]
  rcases hhash with rfl | rfl
  · rw [Regex.run_opt_of_none]
    · exact hnumber
    · exact Regex.run_char_of_ne (by decide) _ _ _
  · exact Regex.run_opt_of_some ((Regex.run_char _ _ _ _).trans hnumber)

/-- The name behind a backquote, or without one. -/
theorem exists_run_namePattern (hclear : '\n' ∉ c :: rest) :
    ∃ u t, rest = u ++ t ∧ TitleEnds t ∧ (∀ v w, u = v ++ w → w ≠ [] → ¬TitleEnds (w ++ t)) ∧
      namePattern.run [] ('`' :: c :: rest) (fun groups _ => some groups) = some [c :: u] ∧
      (c ≠ '`' → namePattern.run [] (c :: rest) (fun groups _ => some groups) = some [c :: u]) := by
  obtain ⟨u, t, hut, ht, hfirst, hrun⟩ := Regex.exists_run_group (r := titleEndPattern)
    (Q := TitleEnds) (fun _ _ _ => takes_titleEndPattern) (.inl rfl) hclear []
  rw [List.nil_append] at hrun
  refine ⟨u, t, hut, ht, hfirst, ?_, fun hc => ?_⟩
  · rw [namePattern, Regex.run_cat_cons]
    exact Regex.run_opt_of_some ((Regex.run_char _ _ _ _).trans hrun)
  · rw [namePattern, Regex.run_cat_cons, Regex.run_opt_of_none]
    · exact hrun
    · exact Regex.run_char_of_ne hc _ _ _

end Pattern

/-! ## The headings of the writers -/

section Writers

variable {f tail u t : List Char} {c : Char}

theorem headingFunc?_eq {hash s : List Char} (hhash : hash = [] ∨ hash = ['#']) (i : ℕ)
    (hhead : ∀ d ∈ s.head?, Python.isSpace d = false)
    (hlast : ∀ d ∈ s.getLast?, Python.isSpace d = false) (hne : s ≠ [])
    (hname : namePattern.run [] s (fun groups _ => some groups) = some [c :: u]) :
    headingFunc? (headingFront hash i ++ s) = some (Python.strip (c :: u)) := by
  have hstrip : Python.strip (headingFront hash i ++ s) = headingFront hash i ++ s := by
    refine Text.trim_of_ends (fun d hd => ?_) fun d hd => ?_
    · rw [headingFront, List.cons_append, List.head?_cons, Option.mem_some_iff] at hd
      rw [← hd]
      decide
    · rw [List.getLast?_append_of_ne_nil _ hne] at hd
      exact hlast d hd
  rw [headingFunc?, hstrip, groups?_headingPattern hhash i hhead hname]
  rfl

/-- A name that may only end behind it is not cut. -/
theorem uncut_of_forall (hfirst : ∀ v w, u = v ++ w → w ≠ [] → ¬TitleEnds (w ++ t)) :
    Uncut (c :: u) := by
  intro a b hab ha hopen
  obtain ⟨d, a, rfl⟩ := List.exists_cons_of_ne_nil ha
  rw [List.cons_append, List.cons.injEq] at hab
  refine hfirst a b hab.2 ?_ (.inr (.inr (hopen.append t)))
  rintro rfl
  obtain ⟨tick, blanks, rest, hnil, -⟩ := hopen
  simp at hnil

/-- The heading of a rule: the name is read unless it is cut. -/
theorem exists_headingFunc?_rule (hf : IsFuncName f) (i : ℕ) :
    ∃ g, headingFunc? (headingFront [] i ++ ('`' :: (f ++ ['`']))) = some g ∧ g ≠ [] ∧
      (g = f ↔ Uncut f) := by
  obtain ⟨c, body, rfl⟩ := List.exists_cons_of_ne_nil hf.ne
  have hc : Python.isSpace c = false := hf.head c rfl
  have hclear : '\n' ∉ c :: (body ++ ['`']) := by
    have hbody := hf.clear
    simp_all
  obtain ⟨u, t, hut, ht, hfirst, hrun, -⟩ := exists_run_namePattern hclear
  have hfunc := headingFunc?_eq (.inl rfl) i (s := '`' :: (c :: body ++ ['`']))
    (by simp; decide) (by rw [← List.cons_append, List.getLast?_concat]; simp; decide)
    (List.cons_ne_nil _ _) hrun
  refine ⟨_, hfunc, Python.strip_ne_nil List.mem_cons_self hc, ?_⟩
  -- The closing backquote is never taken.
  obtain ⟨b, rfl, hbody⟩ : ∃ b, t = b ++ ['`'] ∧ body = u ++ b := by
    rcases List.eq_nil_or_concat' t with rfl | ⟨b, d, rfl⟩
    · rw [List.append_nil] at hut
      exact absurd (.inr (.inl rfl)) (hfirst body ['`'] hut.symm (by simp))
    · rw [← List.append_assoc] at hut
      obtain ⟨hbody, hd⟩ := List.append_inj' hut rfl
      rw [← hd]
      exact ⟨b, rfl, hbody⟩
  constructor
  · intro heq
    have hle := Python.length_strip_le (c :: u)
    rw [heq, hbody, List.length_cons, List.length_cons, List.length_append] at hle
    obtain rfl : b = [] := List.length_eq_zero_iff.mp (by omega)
    rw [hbody, List.append_nil]
    exact uncut_of_forall hfirst
  · intro huncut
    have hb : b = [] := by
      by_contra hb
      rcases ht with hnil | htick | hopen
      · simp at hnil
      · exact hb (List.append_inj_left' (htick.trans (List.nil_append _).symm) rfl)
      · exact huncut (c :: u) b (by rw [hbody, List.cons_append]) (List.cons_ne_nil c u)
          (hopen.of_concat (by decide))
    rw [hb, List.append_nil] at hbody
    rw [← hbody, hf.strip]

/-- The name does not go on behind a place where it may end. -/
theorem exists_of_titleEnds {body ending : List Char} (hut : body ++ ending = u ++ t)
    (hends : TitleEnds ending) (hfirst : ∀ v w, u = v ++ w → w ≠ [] → ¬TitleEnds (w ++ t)) :
    ∃ b, body = u ++ b ∧ t = b ++ ending := by
  rcases List.append_eq_append_iff.mp hut with ⟨w, hu, hending⟩ | h
  · have hw : w = [] := by
      by_contra hw
      exact hfirst body w hu hw (hending ▸ hends)
    rw [hw, List.append_nil] at hu
    rw [hw, List.nil_append] at hending
    exact ⟨[], by rw [hu, List.append_nil], hending.symm⟩
  · exact h

/-- What the writer puts behind the name of a leak. -/
def leakEnding (tail : List Char) : List Char := ' ' :: '(' :: (tail ++ [')'])

theorem opensParen_leakEnding {tick : List Char} (htick : tick = [] ∨ tick = ['`']) (tail : List Char) :
    OpensParen (tick ++ leakEnding tail) :=
  ⟨tick, [' '], tail ++ [')'], rfl, htick, by simp, by simp; decide⟩

theorem headingFunc?_leak {rest : List Char} (i : ℕ)
    (hhead : ∀ d ∈ rest.head?, Python.isSpace d = false) (hne : rest ≠ [])
    (hname : namePattern.run [] (rest ++ leakEnding tail) (fun groups _ => some groups) =
      some [c :: u]) :
    headingFunc? (headingFront ['#'] i ++ (rest ++ leakEnding tail)) =
      some (Python.strip (c :: u)) := by
  refine headingFunc?_eq (.inr rfl) i (fun d hd => ?_) (fun d hd => ?_) (by simp [hne]) hname
  · rw [List.head?_append_of_ne_nil _ hne] at hd
    exact hhead d hd
  · have hconcat : rest ++ leakEnding tail = (rest ++ ' ' :: '(' :: tail) ++ [')'] := by
      simp [leakEnding]
    rw [hconcat, List.getLast?_concat, Option.mem_some_iff] at hd
    rw [← hd]
    decide

/-- A backquote at the front is left out, so that the name is not read. -/
theorem exists_headingFunc?_quote {body : List Char} (hbody : '\n' ∉ body) (i : ℕ)
    (htick : '`' ∉ tail) (hnewline : '\n' ∉ tail) :
    ∃ g, headingFunc? (headingFront ['#'] i ++ ('`' :: body ++ leakEnding tail)) = some g ∧
      g ≠ '`' :: body := by
  have hending : '\n' ∉ leakEnding tail := by simp [leakEnding, hnewline]
  obtain ⟨d, rest, hrest⟩ := List.exists_cons_of_ne_nil
    (List.append_ne_nil_of_right_ne_nil body (List.cons_ne_nil ' ' ('(' :: (tail ++ [')']))))
  have hclear : '\n' ∉ d :: rest := by
    rw [← hrest]
    exact fun hmem => (List.mem_append.mp hmem).elim hbody hending
  obtain ⟨u, t, hut, -, hfirst, hrun, -⟩ := exists_run_namePattern hclear
  rw [← hrest] at hrun
  refine ⟨_, headingFunc?_leak i (by simp; decide) (List.cons_ne_nil _ _) hrun, fun heq => ?_⟩
  cases body with
  | nil =>
      have hmem : '`' ∈ d :: rest := by
        have hstrip : '`' ∈ Python.strip (d :: u) := by
          rw [heq]
          exact List.mem_cons_self
        rw [hut, ← List.cons_append]
        exact List.mem_append_left t (Text.mem_of_mem_trim hstrip)
      rw [← hrest] at hmem
      simp [htick] at hmem
  | cons e body =>
      rw [List.cons_append, List.cons.injEq] at hrest
      obtain ⟨rfl, hrest⟩ := hrest
      obtain ⟨b, rfl, -⟩ := exists_of_titleEnds (hrest.trans hut)
        (.inr (.inr (opensParen_leakEnding (.inl rfl) tail))) hfirst
      have hlength := Python.length_strip_le (e :: u)
      rw [heq] at hlength
      simp only [List.length_cons, List.length_append] at hlength
      omega

/-- Any other name is read if it does not end with a backquote and is not cut. -/
theorem exists_headingFunc?_plain {body : List Char} (hf : IsFuncName (c :: body)) (hc : c ≠ '`')
    (i : ℕ) (hnewline : '\n' ∉ tail) :
    ∃ g, headingFunc? (headingFront ['#'] i ++ (c :: body ++ leakEnding tail)) = some g ∧
      (g = c :: body ↔ Uncut (c :: body) ∧ (c :: body).getLast? ≠ some '`') := by
  have hending : '\n' ∉ leakEnding tail := by simp [leakEnding, hnewline]
  have hclear : '\n' ∉ c :: (body ++ leakEnding tail) := by
    rw [← List.cons_append]
    exact fun hmem => (List.mem_append.mp hmem).elim hf.clear hending
  obtain ⟨u, t, hut, ht, hfirst, -, hrun⟩ := exists_run_namePattern hclear
  refine ⟨_, headingFunc?_leak i hf.head (List.cons_ne_nil _ _) (hrun hc), ?_⟩
  obtain ⟨b, rfl, rfl⟩ := exists_of_titleEnds hut
    (.inr (.inr (opensParen_leakEnding (.inl rfl) tail))) hfirst
  constructor
  · intro heq
    have hle := Python.length_strip_le (c :: u)
    rw [heq, List.length_cons, List.length_cons, List.length_append] at hle
    obtain rfl : b = [] := List.length_eq_zero_iff.mp (by omega)
    rw [List.append_nil]
    constructor
    · exact uncut_of_forall hfirst
    · intro hlast
      rcases List.eq_nil_or_concat' u with rfl | ⟨u, d, rfl⟩
      · exact hc (by simpa using hlast)
      · rw [← List.cons_append, List.getLast?_concat, Option.some.injEq] at hlast
        subst hlast
        exact hfirst u ['`'] rfl (by simp) (.inr (.inr (opensParen_leakEnding (.inr rfl) tail)))
  · rintro ⟨huncut, hlast⟩
    have hb : b = [] := by
      by_contra hb
      have hlastB : ∀ d ∈ b.getLast?, Python.isSpace d = false := fun d hd =>
        hf.last d (by rwa [← List.cons_append, List.getLast?_append_of_ne_nil _ hb])
      have hopen : OpensParen (b ++ leakEnding tail) := by
        rcases ht with hnil | htick | hopen
        · simp [leakEnding] at hnil
        · have hlength := congrArg List.length htick
          simp only [leakEnding, List.length_append, List.length_cons, List.length_nil] at hlength
          omega
        · exact hopen
      rcases hopen.of_append hb hlastB with hopen | rfl
      · exact huncut (c :: u) b List.cons_append.symm (List.cons_ne_nil c u) hopen
      · exact hlast (by rw [← List.cons_append, List.getLast?_concat])
    rw [hb, List.append_nil] at hf ⊢
    exact hf.strip

/-- The heading of a leak: backquotes of the name are taken for the writer's. -/
theorem exists_headingFunc?_leak (hf : IsFuncName f) (i : ℕ) (htick : '`' ∉ tail)
    (hnewline : '\n' ∉ tail) :
    ∃ g, headingFunc? (headingFront ['#'] i ++ (f ++ leakEnding tail)) = some g ∧
      (g = f ↔ Uncut f ∧ f.head? ≠ some '`' ∧ f.getLast? ≠ some '`') := by
  obtain ⟨c, body, rfl⟩ := List.exists_cons_of_ne_nil hf.ne
  by_cases hc : c = '`'
  · subst hc
    obtain ⟨g, hg, hne⟩ := exists_headingFunc?_quote
      (fun hmem => hf.clear (List.mem_cons_of_mem _ hmem)) i htick hnewline
    exact ⟨g, hg, fun heq => absurd heq hne, fun h => absurd rfl h.2.1⟩
  · obtain ⟨g, hg, hiff⟩ := exists_headingFunc?_plain hf hc i hnewline
    refine ⟨g, hg, hiff.trans (and_congr_right fun _ => (and_iff_right ?_).symm)⟩
    simpa using hc

end Writers

end MiniDrop
