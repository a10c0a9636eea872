import MiniDrop.Library.Characters
import MiniDrop.Library.Lines

/-! # Words and lines

A text is cut at its white space, as Python's `str.split` does, or at the ends of its lines, as
`str.splitlines` does. -/

namespace Python

theorem strip_eq_nil_iff {s : List Char} :
    strip s = [] ↔ ∀ c ∈ s, isSpace c = true := by
  constructor
  · intro h c hc
    by_contra hspace
    have hcount := Text.count_trim (eq_false_of_ne_true hspace) s
    have hnone : (Text.trim isSpace s).count c = 0 := by
      have htrim : Text.trim isSpace s = [] := h
      rw [htrim, List.count_nil]
    exact (List.count_eq_zero.mp (hcount.symm.trans hnone)) hc
  · intro h
    have hdrop : s.dropWhile isSpace = [] := List.dropWhile_eq_nil_iff.mpr h
    rw [strip, Text.trim, hdrop]
    rfl

theorem strip_ne_nil {s : List Char} {c : Char} (hmem : c ∈ s) (hc : isSpace c = false) :
    strip s ≠ [] := fun hnil => by
  rw [strip_eq_nil_iff.mp hnil c hmem] at hc
  cases hc

theorem length_strip_le (s : List Char) : (strip s).length ≤ s.length :=
  (Text.trim_sublist _ s).length_le

theorem strip_strip (s : List Char) : strip (strip s) = strip s :=
  Text.trim_of_ends (Text.head_trim s) (Text.getLast_trim s)

/-! ## Loops over stripped lines -/

/-- A line without the white space at its ends, unless there is nothing else. -/
def content? (line : List Char) : Option (List Char) :=
  if strip line = [] then none else some (strip line)

theorem trimmable_content? : Text.Trimmable isSpace (fun _ => True) content? where
  nil := rfl
  front c line hc _ := by
    have hstrip : strip (c :: line) = strip line := by
      rw [strip, strip, Text.trim, Text.trim, List.dropWhile_cons_of_pos hc]
    exact ⟨trivial, by rw [content?, content?, hstrip]⟩
  back c line hc _ := by
    have hstrip : strip (line ++ [c]) = strip line := Text.trim_concat hc line
    exact ⟨trivial, by rw [content?, content?, hstrip]⟩

theorem foldlM_content? {σ : Type} {m : Type → Type} [Monad m] [LawfulMonad m]
    {body : σ → List Char → m σ} (hblank : ∀ x, body x [] = pure x) (lines : List (List Char))
    (x : σ) : (lines.filterMap content?).foldlM body x =
      lines.foldlM (fun x line => body x (strip line)) x := by
  rw [List.foldlM_filterMap]
  refine congrArg (fun f => lines.foldlM f x) (funext fun x => funext fun line => ?_)
  by_cases hnil : strip line = []
  · rw [content?, if_pos hnil, hnil, hblank]
  · rw [content?, if_neg hnil]

/-- White space around the whole text does not matter to a loop that passes blank lines. -/
theorem foldlM_strip {σ : Type} {m : Type → Type} [Monad m] [LawfulMonad m]
    {body : σ → List Char → m σ} (hblank : ∀ x, body x [] = pure x) (text : List Char) (x : σ) :
    ((strip text).splitOn '\n').foldlM (fun x line => body x (strip line)) x =
      (text.splitOn '\n').foldlM (fun x line => body x (strip line)) x := by
  rw [← foldlM_content? hblank, strip, Text.filterMap_trim trimmable_content? fun _ _ => trivial,
    foldlM_content? hblank]

/-- `str.split` at white space. -/
def split (s : List Char) : List (List Char) := (s.splitOnP isSpace).filter (· ≠ [])

variable {c : Char} {s t u : List Char}

theorem split_append_cons (hc : isSpace c = true) (s t : List Char) :
    split (s ++ c :: t) = split s ++ split t := by
  rw [split, List.splitOnP_append_cons s t hc, List.filter_append]
  rfl

theorem split_cons (hc : isSpace c = true) (t : List Char) : split (c :: t) = split t :=
  split_append_cons hc [] t

theorem split_concat (hc : isSpace c = true) (s : List Char) : split (s ++ [c]) = split s := by
  rw [split_append_cons hc]
  exact List.append_nil _

theorem split_of_forall (h : ∀ c ∈ s, isSpace c = false) : split s = [s].filter (· ≠ []) := by
  rw [split, List.splitOnP_eq_singleton h]

theorem split_blank_append (h : ∀ c ∈ s, isSpace c = true) (t : List Char) :
    split (s ++ t) = split t := by
  induction s with
  | nil => rfl
  | cons c s ih =>
      obtain ⟨hc, hs⟩ := List.forall_mem_cons.mp h
      rw [List.cons_append, split_cons hc, ih hs]

theorem split_of_blank (h : ∀ c ∈ s, isSpace c = true) : split s = [] := by
  have hsplit := split_blank_append h []
  rwa [List.append_nil] at hsplit

/-- A word is followed by white space, if by anything. -/
theorem split_word_append (hne : s ≠ []) (h : ∀ c ∈ s, isSpace c = false)
    (ht : ∀ c ∈ t.head?, isSpace c = true) : split (s ++ t) = s :: split t := by
  have hs : split s = [s] := by
    rw [split_of_forall h]
    simp [hne]
  cases t with
  | nil =>
      rw [List.append_nil, hs]
      rfl
  | cons c t =>
      have hc := ht c rfl
      rw [split_append_cons hc, split_cons hc, hs, List.singleton_append]

/-- The first word, with white space around it. -/
theorem exists_of_split_cons {ws : List (List Char)} (h : split s = u :: ws) :
    ∃ blanks t, s = blanks ++ u ++ t ∧ (∀ c ∈ blanks, isSpace c = true) ∧
      (∀ c ∈ t.head?, isSpace c = true) ∧ split t = ws := by
  have hblanks : ∀ c ∈ s.takeWhile isSpace, isSpace c = true := fun c hc =>
    List.mem_takeWhile_imp hc
  have hparts := s.takeWhile_append_dropWhile (p := isSpace)
  have hword : ∀ c ∈ (s.dropWhile isSpace).takeWhile (fun c => !isSpace c),
      isSpace c = false := fun c hc => by
    simpa using List.mem_takeWhile_imp hc
  have hrest := (s.dropWhile isSpace).takeWhile_append_dropWhile (p := fun c => !isSpace c)
  have hhead : ∀ c ∈ ((s.dropWhile isSpace).dropWhile fun c => !isSpace c).head?,
      isSpace c = true := by
    intro c hc
    have hnot := List.head?_dropWhile_not (fun c => !isSpace c) (s.dropWhile isSpace)
    rw [Option.mem_def.mp hc] at hnot
    simpa using hnot
  have hne : (s.dropWhile isSpace).takeWhile (fun c => !isSpace c) ≠ [] := by
    intro hnil
    cases hdrop : s.dropWhile isSpace with
    | nil =>
        rw [split_of_blank fun c hc => List.dropWhile_eq_nil_iff.mp hdrop c hc] at h
        cases h
    | cons c rest =>
        have hc := List.head?_dropWhile_not isSpace s
        rw [hdrop] at hc hnil
        simp only [List.head?_cons] at hc
        simp [hc] at hnil
  have hsplit := split_word_append hne hword hhead
  rw [hrest, ← split_blank_append hblanks, hparts, h] at hsplit
  obtain ⟨hu, hws⟩ := List.cons.inj hsplit
  refine ⟨_, _, ?_, hblanks, hhead, hws.symm⟩
  rw [hu, List.append_assoc, hrest, hparts]

theorem split_eq_nil_iff : split s = [] ↔ ∀ c ∈ s, isSpace c = true := by
  refine ⟨fun h => ?_, split_of_blank⟩
  induction s with
  | nil => simp
  | cons c s ih =>
      by_cases hc : isSpace c = true
      · rw [split_cons hc] at h
        exact List.forall_mem_cons.mpr ⟨hc, ih h⟩
      · have hc := eq_false_of_ne_true hc
        have hparts := s.takeWhile_append_dropWhile (p := fun c => !isSpace c)
        have hword : ∀ d ∈ c :: s.takeWhile (fun c => !isSpace c), isSpace d = false := by
          refine List.forall_mem_cons.mpr ⟨hc, fun d hd => ?_⟩
          simpa using List.mem_takeWhile_imp hd
        have hrest : ∀ d ∈ (s.dropWhile fun c => !isSpace c).head?, isSpace d = true := by
          intro d hd
          have hnot := List.head?_dropWhile_not (fun c => !isSpace c) s
          rw [Option.mem_def.mp hd] at hnot
          simpa using hnot
        have hsplit := split_word_append (List.cons_ne_nil _ _) hword hrest
        rw [List.cons_append, hparts, h] at hsplit
        cases hsplit

/-! ## Lines -/

/-- The characters that end a line for `str.splitlines`. -/
def isLineBreak (c : Char) : Bool :=
  (10 ≤ c.toNat ∧ c.toNat ≤ 13) ∨ (0x1C ≤ c.toNat ∧ c.toNat ≤ 0x1E) ∨
    c.toNat ∈ [0x85, 0x2028, 0x2029]

/-- `str.splitlines`, behind the front of the first line. -/
def linesFrom (line : List Char) : List Char → List (List Char)
  | [] => if line = [] then [] else [line]
  | '\r' :: '\n' :: s => line :: linesFrom [] s
  | c :: s => if isLineBreak c then line :: linesFrom [] s else linesFrom (line ++ [c]) s

def splitlines (s : List Char) : List (List Char) := linesFrom [] s

theorem filter_linesFrom {line : List Char} (h : ∀ c ∈ line, isLineBreak c = false)
    (s : List Char) :
    (linesFrom line s).filter (· ≠ []) = ((line ++ s).splitOnP isLineBreak).filter (· ≠ []) := by
  fun_induction linesFrom line s with
  | case1 =>
      rw [List.append_nil, List.splitOnP_eq_singleton h]
      rfl
  | case2 line hne => rw [List.append_nil, List.splitOnP_eq_singleton h]
  | case3 line s ih =>
      have hfirst : isLineBreak '\r' = true := rfl
      have hsecond : isLineBreak '\n' = true := rfl
      have hrest := ih (by simp)
      rw [List.nil_append] at hrest
      rw [List.splitOnP_append_cons _ _ hfirst, List.splitOnP_eq_singleton h,
        ← List.nil_append ('\n' :: s), List.splitOnP_append_cons _ _ hsecond,
        List.filter_cons, hrest]
      simp [List.filter_cons]
  | case4 line c s _ hc ih =>
      have hrest := ih (by simp)
      rw [List.nil_append] at hrest
      rw [List.splitOnP_append_cons _ _ hc, List.splitOnP_eq_singleton h, List.filter_cons, hrest]
      simp [List.filter_cons]
  | case5 line c s _ hc ih =>
      have hline : ∀ d ∈ line ++ [c], isLineBreak d = false := by
        intro d hd
        rcases List.mem_append.mp hd with hd | hd
        · exact h d hd
        · rw [List.mem_singleton.mp hd]
          exact eq_false_of_ne_true hc
      rw [ih hline, List.append_assoc, List.singleton_append]

/-- Where empty lines do not matter, the text is cut at each character that ends a line. -/
theorem filter_splitlines (s : List Char) :
    (splitlines s).filter (· ≠ []) = (s.splitOnP isLineBreak).filter (· ≠ []) :=
  filter_linesFrom (by simp) s

/-- No line holds a character that ends one. -/
theorem not_isLineBreak_of_mem {line : List Char} (h : line ∈ s.splitOnP isLineBreak) :
    ∀ c ∈ line, isLineBreak c = false := by
  induction s generalizing line with
  | nil =>
      rw [List.splitOnP_nil, List.mem_singleton] at h
      simp [h]
  | cons c s ih =>
      rw [List.splitOnP_cons_eq_if_modifyHead] at h
      split at h
      · rcases List.mem_cons.mp h with rfl | h
        · simp
        · exact ih h
      · next hc =>
        obtain ⟨first, rest, hsplit⟩ :=
          List.exists_cons_of_ne_nil (List.splitOnP_ne_nil isLineBreak s)
        rw [hsplit, List.modifyHead_cons] at h
        rw [hsplit] at ih
        rcases List.mem_cons.mp h with rfl | h
        · exact List.forall_mem_cons.mpr
            ⟨eq_false_of_ne_true hc, ih List.mem_cons_self⟩
        · exact ih (List.mem_cons_of_mem _ h)

theorem isSpace_of_isLineBreak (h : isLineBreak c = true) : isSpace c = true := by
  simp only [isLineBreak, decide_eq_true_eq, List.mem_cons, List.not_mem_nil, or_false] at h
  simp only [isSpace, isCommonSpace, Bool.or_eq_true, decide_eq_true_eq, List.mem_cons,
    List.not_mem_nil, or_false]
  omega

/-! ## Ends of lines in a file -/

/-- What is read of a text file with universal newlines. -/
def universalNewlines : List Char → List Char
  | [] => []
  | '\r' :: '\n' :: s => '\n' :: universalNewlines s
  | '\r' :: s => '\n' :: universalNewlines s
  | c :: s => c :: universalNewlines s

theorem universalNewlines_cons (hc : c ≠ '\r') (s : List Char) :
    universalNewlines (c :: s) = c :: universalNewlines s := by
  rw [universalNewlines]
  · rintro s rfl
    exact absurd rfl hc
  · exact fun heq => absurd heq hc

theorem universalNewlines_of_notMem (h : '\r' ∉ s) : universalNewlines s = s := by
  induction s with
  | nil => rfl
  | cons c s ih =>
      rw [List.mem_cons, not_or] at h
      rw [universalNewlines_cons (Ne.symm h.1), ih h.2]

theorem carriage_notMem_universalNewlines (s : List Char) : '\r' ∉ universalNewlines s := by
  fun_induction universalNewlines s with
  | case1 => exact List.not_mem_nil
  | case2 s ih => exact List.not_mem_cons_of_ne_of_not_mem (by decide) ih
  | case3 s _ ih => exact List.not_mem_cons_of_ne_of_not_mem (by decide) ih
  | case4 c s _ hc ih => exact List.not_mem_cons_of_ne_of_not_mem (fun heq => hc heq.symm) ih

/-- A text with CRLF at the ends of its lines. -/
def withCrlf (s : List Char) : List Char := s.flatMap fun c => if c = '\n' then ['\r', '\n'] else [c]

theorem universalNewlines_withCrlf (h : '\r' ∉ s) : universalNewlines (withCrlf s) = s := by
  induction s with
  | nil => rfl
  | cons c s ih =>
      rw [List.mem_cons, not_or] at h
      rw [withCrlf, List.flatMap_cons]
      split
      · next hc =>
        subst hc
        exact congrArg ('\n' :: ·) (ih h.2)
      · rw [List.singleton_append, universalNewlines_cons (Ne.symm h.1)]
        exact congrArg (c :: ·) (ih h.2)

end Python
