import MiniDrop.Verification.Markdown.Headings

/-! # Reading line by line

The lines of a report are read one after the other; empty ones change nothing, so that a text may
be cut at every character that ends a line. -/

namespace MiniDrop

/-- A text without characters that end a line. -/
def OneLine (s : List Char) : Prop := ∀ c ∈ s, Python.isLineBreak c = false

theorem OneLine.append {s t : List Char} (hs : OneLine s) (ht : OneLine t) : OneLine (s ++ t) :=
  List.forall_mem_append.mpr ⟨hs, ht⟩

theorem OneLine.sublist {s t : List Char} (hs : OneLine s) (h : t.Sublist s) : OneLine t :=
  fun c hc => hs c (h.subset hc)

theorem OneLine.newline_notMem {s : List Char} (h : OneLine s) : '\n' ∉ s := fun hmem =>
  absurd (h _ hmem) (by decide)

theorem oneLine_str (n : ℤ) : OneLine (Python.str n) := fun c hc => by
  by_contra hbreak
  have hspace := Python.isSpace_of_isLineBreak (eq_true_of_ne_false hbreak)
  rw [Python.not_isSpace_of_mem_str hc] at hspace
  cases hspace

/-! ## Lines that are no heading and no suggestion -/

section Plain

variable {line rest : List Char} {c : Char}

theorem headingFunc?_of_ne (h : Python.strip line = c :: rest) (hc : c ≠ '#') :
    headingFunc? line = none := by
  rw [headingFunc?, h, Regex.groups?, headingPattern, Regex.run_cat_cons,
    Regex.run_char_of_ne hc]
  rfl

theorem adviceLine_of_none {s : AdviceFold} (hheading : headingFunc? line = none)
    (hadvice : adviceText? line = none) : adviceLine s line = s := by
  rw [adviceLine, hheading, hadvice]

@[simp] theorem adviceLine_nil (s : AdviceFold) : adviceLine s [] = s := rfl

end Plain

/-! ## Texts of several lines -/

/-- Reads the lines of a text. -/
def adviceLinesOf (s : AdviceFold) (text : List Char) : AdviceFold :=
  (text.splitOnP Python.isLineBreak).foldl adviceLine s

section Texts

variable {s : AdviceFold} {text : List Char}

theorem parseSuggestionsMarkdown_eq (content : List Char) :
    parseSuggestionsMarkdown content = (adviceLinesOf {} content).suggestions := by
  have hskip : ∀ (lines : List (List Char)) (s : AdviceFold),
      lines.foldl adviceLine s = (lines.filter (· ≠ [])).foldl adviceLine s := by
    intro lines s
    rw [List.foldl_filter]
    refine List.foldl_ext _ _ s fun s line _ => ?_
    split
    · rfl
    · next hline =>
      have hnil : line = [] := by simpa using hline
      rw [hnil, adviceLine_nil]
  rw [parseSuggestionsMarkdown, adviceLinesOf, hskip, Python.filter_splitlines, ← hskip]

theorem adviceLinesOf_append_cons {c : Char} (hc : Python.isLineBreak c = true)
    (front back : List Char) :
    adviceLinesOf s (front ++ c :: back) = adviceLinesOf (adviceLinesOf s front) back := by
  rw [adviceLinesOf, List.splitOnP_append_cons _ _ hc, List.foldl_append]
  rfl

theorem adviceLinesOf_of_oneLine (h : OneLine text) : adviceLinesOf s text = adviceLine s text := by
  rw [adviceLinesOf, List.splitOnP_eq_singleton h]
  rfl

@[simp] theorem adviceLinesOf_nil : adviceLinesOf s [] = s := rfl

theorem adviceLinesOf_intercalate {lines : List (List Char)} (h : lines ≠ []) :
    adviceLinesOf s (['\n'].intercalate lines) = lines.foldl adviceLinesOf s := by
  induction lines generalizing s with
  | nil => exact absurd rfl h
  | cons line lines ih =>
      cases lines with
      | nil => simp [List.intercalate]
      | cons next lines =>
          rw [List.intercalate_cons_cons, List.append_assoc, List.singleton_append,
            adviceLinesOf_append_cons rfl, ih (List.cons_ne_nil _ _)]
          rfl

end Texts

/-! ## What is read has no line breaks -/

/-- The functions that have been read. -/
structure AdviceFold.OneLined (s : AdviceFold) : Prop where
  suggestions : ∀ p ∈ s.suggestions, OneLine p.func
  currentFunc : OneLine s.currentFunc

theorem oneLine_of_headingFunc? {line func : List Char} (hline : OneLine line)
    (h : headingFunc? line = some func) : OneLine func := by
  obtain ⟨groups, hgroups, hhead⟩ := Option.bind_eq_some_iff.mp h
  obtain ⟨g, hg, rfl⟩ := Option.map_eq_some_iff.mp hhead
  have hsub := Regex.sublist_of_groups? hgroups (List.mem_of_mem_head? hg)
  exact ((hline.sublist (Text.trim_sublist _ line)).sublist hsub).sublist (Text.trim_sublist _ g)

theorem AdviceFold.OneLined.adviceLine {s : AdviceFold} (h : s.OneLined) {line : List Char}
    (hline : OneLine line) : (MiniDrop.adviceLine s line).OneLined := by
  rw [MiniDrop.adviceLine]
  split
  · next func hfunc => exact ⟨h.suggestions, oneLine_of_headingFunc? hline hfunc⟩
  · split
    · exact h
    · split
      · exact h
      · refine ⟨fun p hp => ?_, h.currentFunc⟩
        rcases List.mem_append.mp hp with hp | hp
        · exact h.suggestions p hp
        · rw [List.mem_singleton.mp hp]
          exact h.currentFunc

theorem AdviceFold.OneLined.foldl {s : AdviceFold} (h : s.OneLined) {lines : List (List Char)}
    (hlines : ∀ line ∈ lines, OneLine line) : (lines.foldl MiniDrop.adviceLine s).OneLined := by
  induction lines generalizing s with
  | nil => exact h
  | cons line lines ih =>
      obtain ⟨hline, hlines⟩ := List.forall_mem_cons.mp hlines
      exact ih (h.adviceLine hline) hlines

theorem oneLine_of_mem_parse {content : List Char} {p : FuncAdvice}
    (h : p ∈ parseSuggestionsMarkdown content) : OneLine p.func := by
  rw [parseSuggestionsMarkdown_eq] at h
  have hstart : AdviceFold.OneLined {} := ⟨by simp, by simp [OneLine]⟩
  exact (hstart.foldl fun line hline => Python.not_isLineBreak_of_mem hline).suggestions p h

end MiniDrop
