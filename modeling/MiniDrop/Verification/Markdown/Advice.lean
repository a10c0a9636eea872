import MiniDrop.Verification.Markdown.Lines

/-! # Lines of suggestions

The text of a suggestion is read as it was written, without the blanks around it. -/

namespace MiniDrop

section Advice

variable {advice : List Char}

/-- A line with something other than blanks on it. -/
structure IsAdvice (advice : List Char) : Prop where
  oneLine : OneLine advice
  filled : ∃ c ∈ advice, Python.isSpace c = false

theorem IsAdvice.strip_ne_nil (h : IsAdvice advice) : Python.strip advice ≠ [] := by
  obtain ⟨c, hmem, hc⟩ := h.filled
  exact Python.strip_ne_nil hmem hc

/-- Blanks are stripped off the end of the line only. -/
theorem strip_append_advice {front : List Char} {c : Char} (hc : Python.isSpace c = false)
    (h : Python.strip advice ≠ []) :
    Python.strip (c :: front ++ advice) =
      c :: front ++ (advice.takeWhile Python.isSpace ++ Python.strip advice) := by
  have hparts := advice.takeWhile_append_dropWhile (p := Python.isSpace)
  have hback : advice.rdropWhile Python.isSpace =
      advice.takeWhile Python.isSpace ++ Python.strip advice := by
    conv_lhs => rw [← hparts]
    exact Text.rdropWhile_append_of_ne_nil h
  rw [Python.strip, Text.trim, List.cons_append, List.dropWhile_cons_of_neg (by simp [hc]),
    ← List.cons_append, Text.rdropWhile_append_of_ne_nil, hback]
  rw [hback]
  exact List.append_ne_nil_of_right_ne_nil _ h

/-- What follows the colon. -/
theorem run_adviceText (h : IsAdvice advice) {blanks : List Char}
    (hblanks : ∀ c ∈ blanks, Python.isSpace c = true) :
    (Regex.cat [.many Python.isSpace, .group (.plus Regex.dot), .atEnd]).run []
      (blanks ++ Python.strip advice) (fun groups _ => some groups) =
        some [Python.strip advice] := by
  obtain ⟨c, rest, hcore⟩ := List.exists_cons_of_ne_nil h.strip_ne_nil
  have hc : Python.isSpace c = false := Text.head_trim advice c (by
    have hhead : (Python.strip advice).head? = some c := by rw [hcore]; rfl
    exact hhead)
  have hdot : ∀ d ∈ c :: rest, Regex.dot d = true := fun d hd => decide_eq_true fun heq => by
    rw [← hcore, heq] at hd
    exact h.oneLine.newline_notMem (Text.mem_of_mem_trim hd)
  have hgroup : (Regex.cat [.group (.plus Regex.dot), .atEnd]).run [] (c :: rest)
      (fun groups _ => some groups) = some [c :: rest] := by
    rw [Regex.run_cat_cons, Regex.run, ← List.append_nil (c :: rest)]
    refine Regex.run_plus_of_some ⟨List.cons_ne_nil c rest, hdot⟩ (by simp) ?_
    rw [Regex.take_consumed, List.append_nil]
    rfl
  rw [hcore, Regex.run_cat_cons, Regex.run]
  refine Regex.longest_of_some ?_
  rw [Regex.dropWhile_filled hblanks (by simpa using hc)]
  exact hgroup

/-- The line of a suggestion, from the dash or the asterisks on. -/
theorem adviceText?_eq (c : Char) (front : List Char) (hc : Python.isSpace c = false)
    (h : IsAdvice advice)
    (hfront : ∀ (s : List Char) (x : List (List Char)),
      (Regex.cat [.many Python.isSpace, .group (.plus Regex.dot), .atEnd]).run [] (' ' :: s)
        (fun groups _ => some groups) = some x →
      advicePattern.groups? (c :: front ++ ' ' :: s) = some x) :
    adviceText? (c :: front ++ ' ' :: advice) = some (Python.strip advice) := by
  have hblank : (' ' :: advice).takeWhile Python.isSpace = ' ' :: advice.takeWhile Python.isSpace :=
    List.takeWhile_cons_of_pos rfl
  have hstrip : Python.strip (' ' :: advice) = Python.strip advice := by
    rw [Python.strip, Text.trim, List.dropWhile_cons_of_pos rfl]
    rfl
  have hblanks : ∀ d ∈ ' ' :: advice.takeWhile Python.isSpace, Python.isSpace d = true :=
    List.forall_mem_cons.mpr ⟨rfl, fun d hd => List.mem_takeWhile_imp hd⟩
  have hline : ' ' :: advice.takeWhile Python.isSpace ++ Python.strip advice =
      ' ' :: (advice.takeWhile Python.isSpace ++ Python.strip advice) := rfl
  have hrun := run_adviceText h hblanks
  rw [hline] at hrun
  rw [adviceText?, strip_append_advice hc (hstrip ▸ h.strip_ne_nil), hstrip, hblank, hline,
    hfront _ _ hrun]
  simp [Python.strip_strip]

section Fronts

variable {s : List Char} {x : List (List Char)}

theorem run_colon
    (h : (Regex.cat [.many Python.isSpace, .group (.plus Regex.dot), .atEnd]).run [] (' ' :: s)
      (fun groups _ => some groups) = some x) :
    (Regex.cat [.many Python.isSpace, .one fun c => c = ':' || c = '：', .many Python.isSpace,
      .group (.plus Regex.dot), .atEnd]).run [] (':' :: ' ' :: s)
        (fun groups _ => some groups) = some x := by
  rw [Regex.run_cat_cons, Regex.run]
  exact Regex.longest_of_some h

theorem groups?_dash
    (h : (Regex.cat [.many Python.isSpace, .group (.plus Regex.dot), .atEnd]).run [] (' ' :: s)
      (fun groups _ => some groups) = some x) :
    advicePattern.groups? ('-' :: [' ', '建', '议', ':'] ++ ' ' :: s) = some x := by
  have hline : '-' :: [' ', '建', '议', ':'] ++ ' ' :: s =
      '-' :: ([' '] ++ '建' :: '议' :: ':' :: ' ' :: s) := rfl
  rw [hline, Regex.groups?, advicePattern, Regex.run_cat_cons]
  refine Regex.run_opt_of_some ?_
  rw [Regex.run_cat_cons, Regex.run_char, Regex.run_cat_cons]
  refine Regex.run_plus_of_some ⟨by simp, by simp; decide⟩ (by simp; decide) ?_
  rw [Regex.run_cat_nil, Regex.run_cat_cons, Regex.run_opt_of_none rfl]
  rw [Regex.run_cat_cons]
  exact (Regex.run_text ['建', '议'] _ _ _).trans ((Regex.run_opt_of_none rfl).trans (run_colon h))

theorem groups?_stars
    (h : (Regex.cat [.many Python.isSpace, .group (.plus Regex.dot), .atEnd]).run [] (' ' :: s)
      (fun groups _ => some groups) = some x) :
    advicePattern.groups? ('*' :: ['*', '建', '议', '*', '*', ':'] ++ ' ' :: s) = some x := by
  have hstars : ∀ k : List (List Char) → List Char → Option (List (List Char)),
      ∀ t y, k [] t = some y → (Regex.opt (.text ['*', '*'])).run [] (['*', '*'] ++ t) k = some y :=
    fun k t y hk => Regex.run_opt_of_some ((Regex.run_text _ _ _ _).trans hk)
  rw [Regex.groups?, advicePattern, Regex.run_cat_cons, Regex.run_opt_of_none rfl,
    Regex.run_cat_cons]
  refine hstars _ (['建', '议', '*', '*', ':'] ++ ' ' :: s) x ?_
  rw [Regex.run_cat_cons]
  refine (Regex.run_text ['建', '议'] _ _ _).trans (hstars _ (':' :: ' ' :: s) x ?_)
  exact run_colon h

end Fronts

end Advice

/-! ## Suggestions for leaks -/

section Leaks

variable {s t : List Char}

theorem oneLine_of_all (h : (s.all fun c => !Python.isLineBreak c) = true) : OneLine s :=
  fun c hc => by simpa using List.all_eq_true.mp h c hc

theorem oneLine_literal {text : String} (htext : text = String.ofList s)
    (h : (s.all fun c => !Python.isLineBreak c) = true) : OneLine text.toList := by
  rw [htext, String.toList_ofList]
  exact oneLine_of_all h

theorem isAdvice_literal {text : String} (htext : text = String.ofList s)
    (h : (s.all fun c => !Python.isLineBreak c) = true)
    (hfilled : (s.any fun c => !Python.isSpace c) = true) : IsAdvice text.toList := by
  rw [htext, String.toList_ofList]
  exact ⟨oneLine_of_all h, by simpa using hfilled⟩

theorem IsAdvice.append (hs : IsAdvice s) (ht : OneLine t) : IsAdvice (s ++ t) where
  oneLine := hs.oneLine.append ht
  filled := by
    obtain ⟨c, hmem, hc⟩ := hs.filled
    exact ⟨c, List.mem_append_left t hmem, hc⟩

theorem isAdvice_suggestForLeak {leak : LeakRecord} (h : ∀ f ∈ leak.stack.head?, OneLine f) :
    IsAdvice (suggestForLeak leak) := by
  have hfunc : OneLine (leak.stack.head?.getD []) := by
    cases hhead : leak.stack.head? with
    | none => simp [OneLine]
    | some f => exact h f hhead
  unfold suggestForLeak
  dsimp only
  split_ifs
  iterate 9 exact isAdvice_literal rfl rfl rfl
  cases leak.leakType with
  | definite =>
      exact (((isAdvice_literal rfl rfl rfl).append (oneLine_str _)).append (oneLine_literal rfl rfl)
        |>.append hfunc).append (oneLine_literal rfl rfl)
  | possible =>
      exact ((isAdvice_literal rfl rfl rfl).append (oneLine_str _)).append (oneLine_literal rfl rfl)
  | indirect =>
      exact ((isAdvice_literal rfl rfl rfl).append (oneLine_str _)).append (oneLine_literal rfl rfl)
  | unreachable =>
      exact (((isAdvice_literal rfl rfl rfl).append (oneLine_str _)).append (oneLine_literal rfl rfl)
        |>.append hfunc).append (oneLine_literal rfl rfl)

theorem oneLine_leakType (leakType : LeakType) : OneLine leakType.chars := by
  cases leakType <;> exact oneLine_literal rfl rfl

end Leaks

end MiniDrop
