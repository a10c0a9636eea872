import MiniDrop.Verification.Markdown.Advice

/-! # The way through Markdown

The suggestions of a report are read back exactly where every function is read out of its heading. -/

namespace MiniDrop

/-! ## Reports -/

/-- A suggestion for a function that has a name. -/
structure NamedAdvice extends RuleAdvice where
  named : IsFuncName func
  advised : IsAdvice advice

/-- A leak whose first frame has a name. -/
structure NamedLeak extends LeakRecord where
  named : ∀ f ∈ stack.head?, IsFuncName f

/-- The id of a task, which is taken from a UUID. -/
structure ReportTid where
  chars : List Char
  oneLine : OneLine chars

inductive MarkdownReport where
  | rules (suggestions : List NamedAdvice)
  | memleak (format : LeakFormat) (leaks : List NamedLeak)

namespace MarkdownReport

def leakResult (format : LeakFormat) (leaks : List NamedLeak) : MemleakResult :=
  MiniDrop.leakResult format (leaks.map NamedLeak.toLeakRecord)

/-- The suggestions.md. -/
def content (tid : ReportTid) : MarkdownReport → List Char
  | rules suggestions =>
    suggestionsToMarkdown (suggestions.map NamedAdvice.toRuleAdvice) tid.chars
  | memleak format leaks => memleakMarkdown (leakResult format leaks) tid.chars

/-- The functions of the report with their suggestions. -/
def pairs : MarkdownReport → List FuncAdvice
  | rules suggestions => suggestions.map fun s =>
    { func := s.func, suggestion := Python.strip s.advice }
  | memleak format leaks => ((leakResult format leaks).suggestions.take 20).map fun s =>
    { func := s.func, suggestion := Python.strip s.suggestion }

def SurvivesMarkdown (tid : ReportTid) (r : MarkdownReport) : Prop :=
  parseSuggestionsMarkdown (r.content tid) = r.pairs

/-- Every name is on one line and not cut; no name of a leak begins or ends with a backquote. -/
def Legible : MarkdownReport → Prop
  | rules suggestions => ∀ s ∈ suggestions, OneLine s.func ∧ Uncut s.func
  | memleak _ leaks => ∀ leak ∈ leaks.take 20, OneLine leak.leakFunc ∧ Uncut leak.leakFunc ∧
      leak.leakFunc.head? ≠ some '`' ∧ leak.leakFunc.getLast? ≠ some '`'

end MarkdownReport

/-! ## Sections -/

/-- A heading and the text below it. -/
def AdviceFold.enter (s : AdviceFold) (func text : List Char) : AdviceFold where
  suggestions := if func = [] then s.suggestions
    else s.suggestions ++ [{ func := func, suggestion := text }]
  currentFunc := func

section Sections

variable {s : AdviceFold} {line func text : List Char}

theorem adviceLine_heading (h : headingFunc? line = some func) :
    adviceLine s line = { s with currentFunc := func } := by
  rw [adviceLine, h]

theorem adviceLine_advice (hheading : headingFunc? line = none)
    (h : adviceText? line = some text) :
    adviceLine { s with currentFunc := func } line = s.enter func text := by
  rw [adviceLine, hheading, h, AdviceFold.enter]
  dsimp only
  split <;> rfl

/-- A line of a suggestion is no heading. -/
theorem headingFunc?_advice (c : Char) (front : List Char) {advice : List Char} (hc : Python.isSpace c = false)
    (hhash : c ≠ '#') (h : IsAdvice advice) : headingFunc? (c :: front ++ advice) = none :=
  headingFunc?_of_ne (strip_append_advice hc h.strip_ne_nil) hhash

theorem adviceLine_dash {advice : List Char} (h : IsAdvice advice) :
    adviceLine { s with currentFunc := func } ("- 建议: ".toList ++ advice) =
      s.enter func (Python.strip advice) := by
  have hfront : "- 建议: ".toList = '-' :: [' ', '建', '议', ':', ' '] := rfl
  have hcolon : '-' :: [' ', '建', '议', ':', ' '] ++ advice =
      '-' :: [' ', '建', '议', ':'] ++ ' ' :: advice := rfl
  have hheading := headingFunc?_advice '-' [' ', '建', '议', ':', ' '] rfl (by decide) h
  have htext := adviceText?_eq '-' [' ', '建', '议', ':'] rfl h fun _ _ => groups?_dash
  rw [← hcolon] at htext
  rw [hfront]
  exact adviceLine_advice hheading htext

theorem adviceLine_stars {advice : List Char} (h : IsAdvice advice) :
    adviceLine { s with currentFunc := func } ("**建议**: ".toList ++ advice) =
      s.enter func (Python.strip advice) := by
  have hfront : "**建议**: ".toList = '*' :: ['*', '建', '议', '*', '*', ':', ' '] := rfl
  have hcolon : '*' :: ['*', '建', '议', '*', '*', ':', ' '] ++ advice =
      '*' :: ['*', '建', '议', '*', '*', ':'] ++ ' ' :: advice := rfl
  have hheading := headingFunc?_advice '*' ['*', '建', '议', '*', '*', ':', ' '] rfl (by decide) h
  have htext := adviceText?_eq '*' ['*', '建', '议', '*', '*', ':'] rfl h
    fun _ _ => groups?_stars
  rw [← hcolon] at htext
  rw [hfront]
  exact adviceLine_advice hheading htext

/-- A line that neither pattern matches from its front on. -/
theorem adviceLine_front (front : List Char) (c : Char) (t : List Char)
    (hfront : front.dropWhile Python.isSpace = front) (hc : Python.isSpace c = false)
    (hheading : ∀ u, headingPattern.groups? (front ++ c :: u) = none)
    (hadvice : ∀ u, advicePattern.groups? (front ++ c :: u) = none) :
    adviceLine s (front ++ c :: t) = s := by
  have hstrip : Python.strip (front ++ c :: t) = front ++ c :: t.rdropWhile Python.isSpace := by
    rw [Python.strip, Text.trim_append_cons _ hc, hfront]
  refine adviceLine_of_none ?_ ?_
  · rw [headingFunc?, hstrip, hheading]
    rfl
  · rw [adviceText?, hstrip, hadvice]
    rfl

theorem adviceLine_title (t : List Char) : adviceLine s ("# 分析建议".toList ++ t) = s := by
  have hfront : "# 分析建议".toList = ['#', ' ', '分', '析', '建', '议'] := rfl
  rw [hfront]
  exact adviceLine_front ['#', ' '] '分' _ rfl rfl (fun _ => rfl) fun _ => rfl

theorem adviceLine_memleakTitle (t : List Char) :
    adviceLine s ("# 内存泄漏分析 - ".toList ++ t) = s := by
  have hfront : "# 内存泄漏分析 - ".toList =
      ['#', ' ', '内', '存', '泄', '漏', '分', '析', ' ', '-', ' '] := rfl
  rw [hfront]
  exact adviceLine_front ['#', ' '] '内' _ rfl rfl (fun _ => rfl) fun _ => rfl

theorem adviceLine_self (t : List Char) : adviceLine s ("- Self 采样: ".toList ++ t) = s := by
  have hfront : "- Self 采样: ".toList = ['-', ' ', 'S', 'e', 'l', 'f', ' ', '采', '样', ':', ' '] := rfl
  rw [hfront]
  exact adviceLine_front ['-', ' '] 'S' _ rfl rfl (fun _ => rfl) fun _ => rfl

theorem adviceLine_total (t : List Char) : adviceLine s ("- Inclusive 采样: ".toList ++ t) = s := by
  have hfront : "- Inclusive 采样: ".toList =
      ['-', ' ', 'I', 'n', 'c', 'l', 'u', 's', 'i', 'v', 'e', ' ', '采', '样', ':', ' '] := rfl
  rw [hfront]
  exact adviceLine_front ['-', ' '] 'I' _ rfl rfl (fun _ => rfl) fun _ => rfl

theorem adviceLine_summary (t : List Char) : adviceLine s ("## 发现 ".toList ++ t) = s := by
  have hfront : "## 发现 ".toList = ['#', '#', ' ', '发', '现', ' '] := rfl
  rw [hfront]
  exact adviceLine_front ['#', '#', ' '] '发' _ rfl rfl (fun _ => rfl) fun _ => rfl

/-! ### The two kinds of sections -/

/-- A section of the rules. -/
theorem exists_foldl_adviceLines (a : NamedAdvice) (hline : OneLine a.func) (i : ℕ) :
    ∃ g, (∀ s, (adviceLines a.toRuleAdvice i).foldl adviceLinesOf s =
      s.enter g (Python.strip a.advice)) ∧ (g = a.func ↔ Uncut a.func) := by
  obtain ⟨g, hg, -, hiff⟩ := exists_headingFunc?_rule a.named i
  refine ⟨g, fun s => ?_, hiff⟩
  have hheading : "## ".toList ++ Python.str i ++ ". `".toList ++ a.func ++ ['`'] =
      headingFront [] i ++ '`' :: (a.func ++ ['`']) := by
    have hfront : ". `".toList = ['.', ' ', '`'] := rfl
    have hhashes : "## ".toList = ['#', '#', ' '] := rfl
    simp [headingFront, hfront, hhashes]
  have hone : OneLine (headingFront [] i ++ '`' :: (a.func ++ ['`'])) := by
    rw [← hheading]
    exact ((((oneLine_of_all rfl).append (oneLine_str _)).append (oneLine_of_all rfl)).append
      hline).append (oneLine_of_all rfl)
  rw [adviceLines, List.foldl_cons, hheading, adviceLinesOf_of_oneLine hone,
    adviceLine_heading hg, List.foldl_cons,
    adviceLinesOf_of_oneLine ((oneLine_of_all rfl).append (oneLine_str _)), adviceLine_self,
    List.foldl_cons, adviceLinesOf_of_oneLine ((oneLine_of_all rfl).append (oneLine_str _)),
    adviceLine_total, List.foldl_cons,
    adviceLinesOf_of_oneLine ((oneLine_of_all rfl).append a.advised.oneLine),
    adviceLine_dash a.advised]
  rfl

/-- A section of a leak report. -/
theorem exists_adviceLinesOf_leakSection (leak : LeakSuggestion) (hname : IsFuncName leak.func)
    (hline : OneLine leak.func) (hadvice : IsAdvice leak.suggestion) (i : ℕ) :
    ∃ g, (∀ s, adviceLinesOf s (leakSection leak i) = s.enter g (Python.strip leak.suggestion)) ∧
      (g = leak.func ↔ Uncut leak.func ∧ leak.func.head? ≠ some '`' ∧
        leak.func.getLast? ≠ some '`') := by
  have htail : OneLine (leak.leakType.chars ++ ", ".toList ++ Python.str leak.size ++
      " bytes".toList) :=
    (((oneLine_leakType _).append (oneLine_of_all rfl)).append (oneLine_str _)).append
      (oneLine_of_all rfl)
  have htick : '`' ∉ leak.leakType.chars ++ ", ".toList ++ Python.str leak.size ++
      " bytes".toList := by
    have htype : '`' ∉ leak.leakType.chars := by cases leak.leakType <;> decide
    have hsize : '`' ∉ Python.str leak.size := fun hmem =>
      Python.ne_of_mem_str hmem (by decide) (by decide) rfl
    have hcomma : '`' ∉ ", ".toList := by decide
    have hbytes : '`' ∉ " bytes".toList := by decide
    simp only [List.mem_append]
    tauto
  obtain ⟨g, hg, hiff⟩ := exists_headingFunc?_leak hname (i + 1) htick htail.newline_notMem
  refine ⟨g, fun s => ?_, hiff⟩
  have hsection : leakSection leak i =
      (headingFront ['#'] (i + 1) ++ (leak.func ++ leakEnding (leak.leakType.chars ++ ", ".toList ++
        Python.str leak.size ++ " bytes".toList))) ++
        '\n' :: (("**建议**: ".toList ++ leak.suggestion) ++ '\n' :: ([] ++ '\n' :: [])) := by
    have hhashes : "### ".toList = ['#', '#', '#', ' '] := rfl
    have hdot : ". ".toList = ['.', ' '] := rfl
    have hopen : " (".toList = [' ', '('] := rfl
    have hclose : " bytes)\n".toList = " bytes".toList ++ [')', '\n'] := rfl
    have hend : "\n\n".toList = ['\n', '\n'] := rfl
    unfold leakSection headingFront leakEnding
    generalize ", ".toList = comma, "**建议**: ".toList = stars
    simp only [hhashes, hdot, hopen, hclose, hend, Int.natCast_add, Int.natCast_one, List.append_assoc,
      List.cons_append, List.nil_append]
  have hone : OneLine (headingFront ['#'] (i + 1) ++ (leak.func ++ leakEnding
      (leak.leakType.chars ++ ", ".toList ++ Python.str leak.size ++ " bytes".toList))) := by
    have hfront : OneLine (headingFront ['#'] (i + 1)) := by
      have heq : headingFront ['#'] (i + 1) =
          "### ".toList ++ Python.str (i + 1 : ℕ) ++ ". ".toList := by
        have hhashes : "### ".toList = ['#', '#', '#', ' '] := rfl
        have hdot : ". ".toList = ['.', ' '] := rfl
        simp [headingFront, hhashes, hdot]
      rw [heq]
      exact ((oneLine_of_all rfl).append (oneLine_str _)).append (oneLine_of_all rfl)
    have hopen : OneLine [' ', '('] := oneLine_of_all rfl
    exact hfront.append (hline.append (hopen.append (htail.append (oneLine_of_all rfl))))
  rw [hsection, adviceLinesOf_append_cons rfl, adviceLinesOf_of_oneLine hone,
    adviceLine_heading hg, adviceLinesOf_append_cons rfl,
    adviceLinesOf_of_oneLine ((oneLine_of_all rfl).append hadvice.oneLine),
    adviceLine_stars hadvice, adviceLinesOf_append_cons rfl]
  rfl

end Sections

/-! ## Lists of sections -/

section Lists

/-- All sections are read back if and only if each of them is. -/
theorem exists_foldl_sections {α : Type} {step : AdviceFold → α → AdviceFold}
    {pair : α → FuncAdvice} {Read : α → Prop} {xs : List α}
    (h : ∀ x ∈ xs, (pair x).func ≠ [] ∧ ∃ g, (∀ s, step s x = s.enter g (pair x).suggestion) ∧
      (g = (pair x).func ↔ Read x)) (s : AdviceFold) :
    ∃ read, (xs.foldl step s).suggestions = s.suggestions ++ read ∧ read.length ≤ xs.length ∧
      (read = xs.map pair ↔ ∀ x ∈ xs, Read x) := by
  induction xs generalizing s with
  | nil => exact ⟨[], by simp, Nat.le_refl _, by simp⟩
  | cons x xs ih =>
      obtain ⟨⟨hne, g, hstep, hg⟩, hxs⟩ := List.forall_mem_cons.mp h
      obtain ⟨read, hread, hlength, hiff⟩ := ih hxs (s.enter g (pair x).suggestion)
      rw [List.foldl_cons, hstep, hread, AdviceFold.enter]
      by_cases hnil : g = []
      · -- Nothing is read of the section, and so too little of all.
        refine ⟨read, by rw [if_pos hnil], Nat.le_succ_of_le hlength, fun heq => ?_, fun hall => ?_⟩
        · rw [heq, List.length_map, List.length_cons] at hlength
          exact absurd hlength (Nat.not_succ_le_self _)
        · exact absurd ((hg.mpr (hall x List.mem_cons_self)).symm.trans hnil) hne
      · refine ⟨{ func := g, suggestion := (pair x).suggestion } :: read, ?_,
          Nat.succ_le_succ hlength, ?_⟩
        · rw [if_neg hnil, List.append_assoc, List.singleton_append]
        · have hpair : (FuncAdvice.mk g (pair x).suggestion = pair x) ↔ Read x := by
            rw [← hg, FuncAdvice.ext_iff]
            simp
          rw [List.map_cons, List.cons.injEq, hpair, hiff, List.forall_mem_cons]

theorem forall_mem_zipIdx {α : Type} {P : α → Prop} {xs : List α} {n : ℕ} :
    (∀ x ∈ xs.zipIdx n, P x.1) ↔ ∀ x ∈ xs, P x := by
  conv_rhs => rw [← List.zipIdx_map_fst n xs]
  exact List.forall_mem_map.symm

/-- The same for numbered sections, where nothing is read that has line breaks. -/
theorem sections_iff {α : Type} {step : AdviceFold → α × ℕ → AdviceFold} {pair : α → FuncAdvice}
    {Read : α → Prop} {xs : List α} {n : ℕ}
    (hone : ∀ p ∈ ((xs.zipIdx n).foldl step {}).suggestions, OneLine p.func)
    (h : ∀ x ∈ xs, OneLine (pair x).func → (pair x).func ≠ [] ∧ ∀ i, ∃ g,
      (∀ s, step s (x, i) = s.enter g (pair x).suggestion) ∧ (g = (pair x).func ↔ Read x)) :
    ((xs.zipIdx n).foldl step {}).suggestions = xs.map pair ↔
      ∀ x ∈ xs, OneLine (pair x).func ∧ Read x := by
  by_cases hlines : ∀ x ∈ xs, OneLine (pair x).func
  · have hsections : ∀ x ∈ xs.zipIdx n, (pair x.1).func ≠ [] ∧ ∃ g,
        (∀ s, step s x = s.enter g (pair x.1).suggestion) ∧ (g = (pair x.1).func ↔ Read x.1) := by
      intro x hx
      have hmem : x.1 ∈ xs := by
        rw [← List.zipIdx_map_fst n xs]
        exact List.mem_map_of_mem hx
      obtain ⟨hne, hstep⟩ := h x.1 hmem (hlines x.1 hmem)
      exact ⟨hne, hstep x.2⟩
    obtain ⟨read, hread, -, hiff⟩ := exists_foldl_sections hsections {}
    have hpairs : (xs.zipIdx n).map (fun x => pair x.1) = xs.map pair := by
      conv_rhs => rw [← List.zipIdx_map_fst n xs, List.map_map]
      rfl
    rw [hpairs, forall_mem_zipIdx] at hiff
    rw [hread, List.nil_append, hiff]
    exact forall₂_congr fun x hx => (and_iff_right (hlines x hx)).symm
  · refine ⟨fun heq => absurd (fun x hx => ?_) hlines, fun hall => absurd (fun x hx => ?_) hlines⟩
    · exact hone (pair x) (by rw [heq]; exact List.mem_map_of_mem hx)
    · exact (hall x hx).1

theorem adviceLinesOf_flatten {sections : List (List Char)}
    (h : ∀ text ∈ sections, ∃ front, text = front ++ ['\n']) (s : AdviceFold) :
    adviceLinesOf s sections.flatten = sections.foldl adviceLinesOf s := by
  induction sections generalizing s with
  | nil => rfl
  | cons text sections ih =>
      obtain ⟨⟨front, rfl⟩, hsections⟩ := List.forall_mem_cons.mp h
      have hfront : adviceLinesOf s (front ++ ['\n']) = adviceLinesOf s front :=
        adviceLinesOf_append_cons rfl front []
      rw [List.flatten_cons, List.append_assoc, List.singleton_append,
        adviceLinesOf_append_cons rfl, ih hsections, List.foldl_cons, hfront]

end Lists

/-! ## The reports -/

section Reports

variable {tid : ReportTid}

theorem parse_rules (tid : ReportTid) (suggestions : List NamedAdvice) :
    parseSuggestionsMarkdown ((MarkdownReport.rules suggestions).content tid) =
      ((suggestions.zipIdx 1).foldl
        (fun s x => (adviceLines x.1.toRuleAdvice x.2).foldl adviceLinesOf s) {}).suggestions := by
  have htitle : ∀ s, adviceLinesOf s (if tid.chars = [] then "# 分析建议".toList
      else "# 分析建议 [".toList ++ tid.chars ++ [']']) = s := by
    intro s
    split
    · rw [adviceLinesOf_of_oneLine (oneLine_of_all rfl)]
      have htitle := adviceLine_title (s := s) []
      rwa [List.append_nil] at htitle
    · have hfront : "# 分析建议 [".toList = "# 分析建议".toList ++ [' ', '['] := rfl
      rw [adviceLinesOf_of_oneLine
        (((oneLine_of_all rfl).append tid.oneLine).append (oneLine_of_all rfl)), hfront,
        List.append_assoc, List.append_assoc]
      exact adviceLine_title _
  rw [parseSuggestionsMarkdown_eq, MarkdownReport.content, suggestionsToMarkdown,
    adviceLinesOf_intercalate (by split <;> exact List.cons_ne_nil _ _)]
  by_cases hnil : suggestions = []
  · subst hnil
    have hnone : adviceLinesOf {} "未发现需要优化的热点函数。".toList = {} := by
      have hfront : "未发现需要优化的热点函数。".toList =
          ['未', '发', '现', '需', '要', '优', '化', '的', '热', '点', '函', '数', '。'] := rfl
      rw [adviceLinesOf_of_oneLine (oneLine_of_all rfl), hfront]
      exact adviceLine_front [] '未' _ rfl rfl (fun _ => rfl) fun _ => rfl
    rw [List.map_nil, if_pos rfl, List.foldl_cons, htitle, List.foldl_cons, adviceLinesOf_nil,
      List.foldl_cons, hnone]
    rfl
  · rw [if_neg (by simpa using hnil), List.foldl_cons, htitle, List.foldl_cons, adviceLinesOf_nil,
      List.zipIdx_map, List.flatMap_map, List.foldl_flatMap]
    rfl

theorem oneLine_summary (format : LeakFormat) (leaks : List LeakRecord) :
    ∃ t, (leakResult format leaks).summary = "发现 ".toList ++ t ∧ OneLine t := by
  cases format with
  | memray =>
      exact ⟨_, List.append_assoc _ _ _, (oneLine_str _).append
        (((oneLine_literal rfl rfl).append (oneLine_str _)).append (oneLine_literal rfl rfl))⟩
  | _ =>
      exact ⟨_, List.append_assoc _ _ _, (oneLine_str _).append
        (((((oneLine_literal rfl rfl).append (oneLine_str _)).append (oneLine_literal rfl rfl)).append
          (oneLine_str _)).append (oneLine_literal rfl rfl))⟩

theorem suggestions_leakResult (format : LeakFormat) (leaks : List NamedLeak) :
    (MarkdownReport.leakResult format leaks).suggestions.take 20 =
      (leaks.take 20).map fun leak => leak.toLeakRecord.leakSuggestion := by
  have htake : (MarkdownReport.leakResult format leaks).suggestions =
      ((leaks.map NamedLeak.toLeakRecord).take 50).map LeakRecord.leakSuggestion := rfl
  rw [htake, ← List.map_take, List.take_take, ← List.map_take, List.map_map]
  rfl

theorem exists_leakSection_eq (leak : LeakSuggestion) (i : ℕ) :
    ∃ front, leakSection leak i = front ++ ['\n'] := by
  have hend : "\n\n".toList = ['\n'] ++ ['\n'] := rfl
  unfold leakSection
  rw [hend, ← List.append_assoc]
  exact ⟨_, rfl⟩

/-- The sections of the report, behind the title and the summary. -/
theorem adviceLinesOf_memleakMarkdown {result : MemleakResult} {t : List Char}
    (hsummary : result.summary = "发现 ".toList ++ t) (ht : OneLine t) :
    adviceLinesOf {} (memleakMarkdown result tid.chars) =
      (result.suggestions.take 20).zipIdx.foldl
        (fun s x => adviceLinesOf s (leakSection x.1 x.2)) {} := by
  have htitle : adviceLinesOf {} ("# 内存泄漏分析 - ".toList ++ tid.chars) = {} := by
    rw [adviceLinesOf_of_oneLine ((oneLine_of_all rfl).append tid.oneLine),
      adviceLine_memleakTitle]
  have hfound : adviceLinesOf {} ("## ".toList ++ result.summary) = {} := by
    have hheading : "## ".toList ++ "发现 ".toList = "## 发现 ".toList := rfl
    rw [hsummary, ← List.append_assoc, hheading,
      adviceLinesOf_of_oneLine ((oneLine_of_all rfl).append ht), adviceLine_summary]
  have hend : "\n\n".toList = ['\n', '\n'] := rfl
  unfold memleakMarkdown
  rw [hend]
  generalize "# 内存泄漏分析 - ".toList ++ tid.chars = title at htitle ⊢
  generalize "## ".toList = hashes at hfound ⊢
  have hcut : ∀ rest : List Char, title ++ ['\n', '\n'] ++ hashes ++ result.summary ++ ['\n', '\n'] ++
      rest = title ++ '\n' :: ([] ++ '\n' :: ((hashes ++ result.summary) ++ '\n' ::
        ([] ++ '\n' :: rest))) := by simp
  rw [hcut, adviceLinesOf_append_cons rfl, htitle, adviceLinesOf_append_cons rfl,
    adviceLinesOf_nil, adviceLinesOf_append_cons rfl, hfound, adviceLinesOf_append_cons rfl,
    adviceLinesOf_nil, adviceLinesOf_flatten, List.foldl_map]
  intro text htext
  obtain ⟨x, -, rfl⟩ := List.mem_map.mp htext
  exact exists_leakSection_eq x.1 x.2

theorem parse_memleak (tid : ReportTid) (format : LeakFormat) (leaks : List NamedLeak) :
    parseSuggestionsMarkdown ((MarkdownReport.memleak format leaks).content tid) =
      (((leaks.take 20).zipIdx).foldl (fun s x =>
        adviceLinesOf s (leakSection x.1.toLeakRecord.leakSuggestion x.2)) {}).suggestions := by
  obtain ⟨t, hsummary, ht⟩ : ∃ t, (MarkdownReport.leakResult format leaks).summary =
      "发现 ".toList ++ t ∧ OneLine t := oneLine_summary format _
  rw [parseSuggestionsMarkdown_eq, MarkdownReport.content,
    adviceLinesOf_memleakMarkdown hsummary ht, suggestions_leakResult, List.zipIdx_map,
    List.foldl_map]
  rfl

theorem NamedLeak.isFuncName (leak : NamedLeak) : IsFuncName leak.leakFunc := by
  rw [LeakRecord.leakFunc]
  cases hhead : leak.stack.head? with
  | none => exact ⟨by decide, by decide, rfl⟩
  | some f => exact leak.named f hhead

theorem NamedLeak.isAdvice (leak : NamedLeak) (h : OneLine leak.leakFunc) :
    IsAdvice (suggestForLeak leak.toLeakRecord) := by
  refine isAdvice_suggestForLeak fun f hf => ?_
  rw [LeakRecord.leakFunc, Option.mem_def.mp hf] at h
  exact h

/-- Suggestions are read back out of a report exactly if every name is on one line and uncut, and
no name of a leak begins or ends with a backquote. -/
theorem survivesMarkdown_iff (tid : ReportTid) (r : MarkdownReport) :
    r.SurvivesMarkdown tid ↔ r.Legible := by
  cases r with
  | rules suggestions =>
      have hparse := parse_rules tid suggestions
      rw [MarkdownReport.SurvivesMarkdown, hparse, MarkdownReport.pairs]
      refine sections_iff (fun p hp => ?_) fun a _ hline => ?_
      · rw [← hparse] at hp
        exact oneLine_of_mem_parse hp
      · refine ⟨a.named.ne, fun i => ?_⟩
        obtain ⟨g, hstep, hg⟩ := exists_foldl_adviceLines a hline i
        exact ⟨g, fun s => hstep s, hg⟩
  | memleak format leaks =>
      have hparse := parse_memleak tid format leaks
      rw [MarkdownReport.SurvivesMarkdown, hparse, MarkdownReport.pairs, suggestions_leakResult,
        List.map_map]
      refine sections_iff (fun p hp => ?_) fun leak _ hline => ?_
      · rw [← hparse] at hp
        exact oneLine_of_mem_parse hp
      · exact ⟨leak.isFuncName.ne, exists_adviceLinesOf_leakSection leak.leakSuggestion
          leak.isFuncName hline (leak.isAdvice hline)⟩

end Reports

/-- An instance of a template whose argument is a function type. -/
def callbackAdvice : NamedAdvice where
  func := "std::function<void (int)>::operator()".toList
  self := 120
  total := 300
  advice := "避免在热点路径上使用 std::function".toList
  named := ⟨by decide, by decide, by decide⟩
  advised := isAdvice_literal rfl rfl rfl

/-- The function is read as std::function<void. -/
theorem not_survivesMarkdown : ¬(MarkdownReport.rules [callbackAdvice]).SurvivesMarkdown
    { chars := "3f2a9c1e-77b".toList, oneLine := oneLine_of_all rfl } := by
  unfold MarkdownReport.SurvivesMarkdown
  decide +kernel

end MiniDrop
