import MiniDrop.Verification.Memleak.Formats

/-! # The choice of a parser

The analyzer looks for texts anywhere in a document, and a parser that fails answers with an error
that ends the search. -/

namespace MiniDrop

section Detection

variable {N : Type} (num : Numbers N) (repr : Json N → String) {parsers : LeakParsers N}
  {content : List Char} {format : LeakFormat} {records : List LeakRecord}

/-- What begins a document that the parsers of the standard library accept; XML may have a byte
order mark. -/
structure LeakParsers.Documented (parsers : LeakParsers N) : Prop where
  xml : ∀ s e, parsers.fromstring s = .ok e →
    ∃ c ∈ (s.dropWhile Python.isSpace).head?, c = '<' ∨ c = '\ufeff'
  list : ∀ s items, parsers.loads s = .ok (.list items) →
    (s.dropWhile Python.isSpace).head? = some '['
  dict : ∀ s entries, parsers.loads s = .ok (.dict entries) →
    (s.dropWhile Python.isSpace).head? = some '{'

/-- The front of the text names the root of a Valgrind document. -/
def NamesValgrind (content : List Char) : Prop := "<valgrindoutput".toList <:+: content.take 500

/-- The text names LeakSanitizer or a direct leak. -/
def NamesSanitizer (content : List Char) : Prop :=
  "ERROR: LeakSanitizer".toList <:+: content ∨ "Direct leak".toList <:+: content

instance (content : List Char) : Decidable (NamesValgrind content) :=
  inferInstanceAs (Decidable (_ <:+: _))

instance (content : List Char) : Decidable (NamesSanitizer content) :=
  inferInstanceAs (Decidable (_ ∨ _))

/-- A text that does not begin as XML. -/
def NotXml (content : List Char) : Prop :=
  ∀ c ∈ (content.dropWhile Python.isSpace).head?, c ≠ '<' ∧ c ≠ '\ufeff'

/-- Failure is an answer, not an exception. -/
theorem exists_parseValgrindXml (hparsers : parsers.Documented) (h : NotXml content) :
    ∃ e, parseValgrindXml parsers content = some { error := e } := by
  unfold parseValgrindXml
  cases hroot : parsers.fromstring content with
  | error e => exact ⟨_, rfl⟩
  | ok root =>
      obtain ⟨c, hc, hxml⟩ := hparsers.xml content root hroot
      obtain ⟨hopen, hmark⟩ := h c hc
      exact absurd hxml (by tauto)

theorem error_ne_leakResult (e : List Char) :
    some ({ error := e } : MemleakResult) ≠ some (leakResult format records) := fun h =>
  Bool.false_ne_true (congrArg MemleakResult.success (Option.some.inj h))

theorem not_prefix_of_head {c : Char} {pat s : List Char} (h : ∀ d ∈ s.head?, d ≠ c) :
    ¬c :: pat <+: s := by
  rintro ⟨t, rfl⟩
  exact h c rfl rfl

theorem not_declared (h : NotXml content) :
    ¬"<?xml".toList <+: content.dropWhile Python.isSpace := by
  have hxml : "<?xml".toList = ['<', '?', 'x', 'm', 'l'] := rfl
  rw [hxml]
  exact not_prefix_of_head fun d hd => (h d hd).1

/-- The order in which the formats are tried. -/
theorem analyzeLeakText_eq (content : List Char) : analyzeLeakText num repr parsers content =
    if "<?xml".toList <+: content.dropWhile Python.isSpace ∨ NamesValgrind content then
      parseValgrindXml parsers content
    else if NamesSanitizer content then parseAsanText content
    else if ['{'] <+: content.dropWhile Python.isSpace ∨ ['['] <+: content.dropWhile Python.isSpace
      then parseMemrayJson num repr parsers content
    else
      match parseValgrindXml parsers content with
      | some result => some result
      | none =>
        if "leak".toList <:+: Python.lower content ∨ "allocated".toList <:+: Python.lower content then
          parseAsanText content
        else
          match parseMemrayJson num repr parsers content with
          | some result => some result
          | none => some
              { error := "无法识别的内存泄漏数据格式".toList
                detail := "支持 Valgrind XML、ASan/LSan 文本、memray JSON 格式".toList } := rfl

/-- What looks like a Valgrind document is not tried as anything else. -/
theorem analyzeLeakText_of_namesValgrind (hparsers : parsers.Documented) (h : NotXml content)
    (hnames : NamesValgrind content) :
    analyzeLeakText num repr parsers content ≠ some (leakResult format records) := by
  obtain ⟨e, he⟩ := exists_parseValgrindXml hparsers h
  rw [analyzeLeakText_eq, if_pos (.inr hnames), he]
  exact error_ne_leakResult e

theorem analyzeLeakText_of_namesSanitizer (h : NotXml content) (hvalgrind : ¬NamesValgrind content)
    (hnames : NamesSanitizer content) :
    analyzeLeakText num repr parsers content = parseAsanText content := by
  rw [analyzeLeakText_eq, if_neg (not_or.mpr ⟨not_declared h, hvalgrind⟩), if_pos hnames]

/-- Nothing but the text of JSON is read when no format is named. -/
theorem analyzeLeakText_of_none (hparsers : parsers.Documented) (h : NotXml content)
    (hvalgrind : ¬NamesValgrind content) (hnames : ¬NamesSanitizer content)
    (hhead : ∀ c ∈ (content.dropWhile Python.isSpace).head?, c ≠ '{' ∧ c ≠ '[') :
    analyzeLeakText num repr parsers content ≠ some (leakResult format records) := by
  obtain ⟨e, he⟩ := exists_parseValgrindXml hparsers h
  have hjson : ¬(['{'] <+: content.dropWhile Python.isSpace ∨
      ['['] <+: content.dropWhile Python.isSpace) :=
    not_or.mpr ⟨not_prefix_of_head fun d hd => (hhead d hd).1,
      not_prefix_of_head fun d hd => (hhead d hd).2⟩
  rw [analyzeLeakText_eq, if_neg (not_or.mpr ⟨not_declared h, hvalgrind⟩), if_neg hnames, if_neg hjson, he]
  exact error_ne_leakResult e

end Detection

/-! ## Text reports -/

section Sanitizer

variable {r : AsanReport}

theorem carriage_notMem_title (leak : AsanLeak) : '\r' ∉ leak.title :=
  notMem_title (by decide) (by decide) (fun kind => by cases kind <;> decide) (by decide)
    (by decide) (by decide) leak

theorem carriage_notMem_block (leak : AsanLeak) : '\r' ∉ leak.block := by
  intro h
  rcases Text.mem_intercalate h with h | ⟨line, hline, h⟩
  · exact absurd h (by decide)
  rcases List.mem_cons.mp hline with rfl | hline
  · exact carriage_notMem_title leak h
  · obtain ⟨⟨f, i⟩, -, rfl⟩ := List.mem_map.mp hline
    have haddr : '\r' ∉ f.addr := fun h => absurd (f.hex.2 _ h) (by decide)
    have hname := f.func.carriageless
    have hnumber : '\r' ∉ Python.str i := fun h =>
      Python.ne_of_mem_str h (by decide) (by decide) rfl
    dsimp only at h
    rw [AsanFrame.line_eq] at h
    simp [haddr, hname, hnumber] at h

theorem carriage_notMem_content (r : AsanReport) : '\r' ∉ r.content := by
  intro h
  rcases List.mem_append.mp h with h | h
  · rcases Text.mem_intercalate h with h | ⟨b, hb, h⟩
    · exact absurd h (by decide)
    rcases List.mem_append.mp hb with hb | hb
    · obtain ⟨pid, -, rfl⟩ := List.mem_map.mp hb
      exact notMem_banner (by decide) (by decide) (by decide) (by decide) (by decide) pid h
    · obtain ⟨leak, -, rfl⟩ := List.mem_map.mp hb
      exact carriage_notMem_block leak h
  · exact absurd (List.eq_of_mem_replicate h) (by decide)

/-- Both line ends read the same. -/
theorem universalNewlines_file (r : AsanReport) : Python.universalNewlines r.file = r.content := by
  unfold AsanReport.file
  split
  · exact Python.universalNewlines_withCrlf (carriage_notMem_content r)
  · exact Python.universalNewlines_of_notMem (carriage_notMem_content r)

/-- A report that is not empty begins with a banner or with a kind. -/
theorem head_front (r : AsanReport) : ∀ c ∈ (r.content.dropWhile Python.isSpace).head?,
    c ∈ ['=', 'D', 'I', 'P'] := by
  have hblock : ∀ b ∈ r.blocks, ∃ c s, b = c :: s ∧ c ∈ ['=', 'D', 'I', 'P'] := by
    intro b hb
    rcases List.mem_append.mp hb with hb | hb
    · obtain ⟨pid, -, rfl⟩ := List.mem_map.mp hb
      exact ⟨'=', _, rfl, by decide⟩
    · obtain ⟨leak, -, rfl⟩ := List.mem_map.mp hb
      obtain ⟨c, s, hchars, hc⟩ : ∃ c s, leak.kind.chars = c :: s ∧ c ∈ ['=', 'D', 'I', 'P'] := by
        cases leak.kind with
        | direct => exact ⟨'D', _, rfl, by decide⟩
        | indirect => exact ⟨'I', _, rfl, by decide⟩
        | potential => exact ⟨'P', _, rfl, by decide⟩
      have htitle := title_eq leak
      rw [hchars, List.cons_append] at htitle
      unfold AsanLeak.block
      cases leak.frameLines with
      | nil => exact ⟨c, _, by rw [List.intercalate_singleton, htitle], hc⟩
      | cons line lines => exact ⟨c, _, by rw [List.intercalate_cons_cons, htitle, List.cons_append,
          List.cons_append], hc⟩
  have hspace : ∀ n, (List.replicate n '\n').dropWhile Python.isSpace = [] := fun n => by
    rw [List.dropWhile_eq_nil_iff]
    intro c hc
    rw [List.eq_of_mem_replicate hc]
    rfl
  unfold AsanReport.content
  cases hblocks : r.blocks with
  | nil => rw [List.intercalate_nil, List.nil_append, hspace]; nofun
  | cons b blocks =>
      obtain ⟨c, s, rfl, hc⟩ := hblock b (hblocks ▸ List.mem_cons_self)
      have hvisible : Python.isSpace c = false := by
        simp only [List.mem_cons, List.not_mem_nil, or_false] at hc
        rcases hc with rfl | rfl | rfl | rfl <;> decide
      obtain ⟨t, ht⟩ : ∃ t, ['\n', '\n'].intercalate ((c :: s) :: blocks) ++
          List.replicate r.ending '\n' = c :: t := by
        cases blocks with
        | nil => exact ⟨_, by rw [List.intercalate_singleton, List.cons_append]⟩
        | cons next blocks => exact ⟨_, by rw [List.intercalate_cons_cons, List.cons_append,
            List.cons_append, List.cons_append]⟩
      rw [ht, List.dropWhile_cons_of_neg (by simp [hvisible])]
      intro d hd
      obtain rfl : c = d := Option.some.inj hd
      exact hc

theorem notXml_content (r : AsanReport) : NotXml r.content := by
  intro c hc
  have hhead := head_front r c hc
  constructor <;>
    · rintro rfl
      exact absurd hhead (by decide)

end Sanitizer

/-! ## All formats -/

/-- A document in one of the formats. -/
inductive LeakDocument {N : Type} (parsers : LeakParsers N) where
  | valgrind (d : ValgrindDocument parsers)
  | sanitizer (r : AsanReport)
  | memray (d : MemrayDocument parsers)

namespace LeakDocument

variable {N : Type} {parsers : LeakParsers N}

def file : LeakDocument parsers → List Char
  | valgrind d => d.file
  | sanitizer r => r.file
  | memray d => d.file

def format : LeakDocument parsers → LeakFormat
  | valgrind _ => .valgrind
  | sanitizer _ => .asan
  | memray _ => .memray

/-- The leaks that the document is written for. -/
def records : LeakDocument parsers → List LeakRecord
  | valgrind d => d.leaks.map ValgrindLeak.record
  | sanitizer r => r.leaks.map AsanLeak.record
  | memray d => d.leaks.map MemrayLeak.record

/-- The text tells the format, and the parser reads every record as it is. -/
def Recognizable : LeakDocument parsers → Prop
  | valgrind d => ∀ leak ∈ d.leaks, leak.Legible
  | sanitizer r => ¬NamesValgrind r.content ∧ NamesSanitizer r.content ∧
      ∀ leak ∈ r.leaks, leak.Legible
  | memray d => ¬NamesValgrind (Python.universalNewlines d.file) ∧
      ¬NamesSanitizer (Python.universalNewlines d.file)

end LeakDocument

section Documents

variable {N : Type} (num : Numbers N) (repr : Json N → String) {parsers : LeakParsers N}

theorem analyzeLeakText_valgrind (d : ValgrindDocument parsers) :
    analyzeLeakText num repr parsers (Python.universalNewlines d.file) =
      parseValgrindXml parsers (Python.universalNewlines d.file) := by
  have hdeclared : "<?xml".toList <+: (Python.universalNewlines d.file).dropWhile Python.isSpace := by
    obtain ⟨t, ht⟩ := d.declared
    have hfile : d.file = '<' :: '?' :: 'x' :: 'm' :: 'l' :: t := ht.symm
    rw [hfile, Python.universalNewlines_cons (by decide), Python.universalNewlines_cons (by decide),
      Python.universalNewlines_cons (by decide), Python.universalNewlines_cons (by decide),
      Python.universalNewlines_cons (by decide)]
    exact ⟨_, rfl⟩
  rw [analyzeLeakText_eq, if_pos (.inl hdeclared)]

theorem analyzeLeakText_sanitizer_iff (hparsers : parsers.Documented) (r : AsanReport) :
    analyzeLeakText num repr parsers r.content =
        some (leakResult .asan (r.leaks.map AsanLeak.record)) ↔
      ¬NamesValgrind r.content ∧ NamesSanitizer r.content ∧ ∀ leak ∈ r.leaks, leak.Legible := by
  by_cases hvalgrind : NamesValgrind r.content
  · exact iff_of_false (analyzeLeakText_of_namesValgrind num repr hparsers (notXml_content r)
      hvalgrind) fun h => h.1 hvalgrind
  by_cases hnames : NamesSanitizer r.content
  · rw [analyzeLeakText_of_namesSanitizer num repr (notXml_content r) hvalgrind hnames,
      parseAsanText_eq_iff]
    simp only [hvalgrind, hnames, not_false_eq_true, true_and]
  · refine iff_of_false (analyzeLeakText_of_none num repr hparsers (notXml_content r) hvalgrind
      hnames fun c hc => ?_) fun h => hnames h.2.1
    have hhead := head_front r c hc
    constructor <;>
      · rintro rfl
        exact absurd hhead (by decide)

/-- The summary tells how a document was read. -/
theorem parseAsanText_ne_memray (content : List Char) (records : List LeakRecord) :
    parseAsanText content ≠ some (leakResult .memray records) := by
  intro h
  obtain ⟨leaks, -, hresult⟩ := Option.map_eq_some_iff.mp h
  obtain rfl : leaks.reduceOption = records := congrArg MemleakResult.leaks hresult
  have hsummary := congrArg MemleakResult.summary hresult
  have hasan : " 处泄漏，共 ".toList = [' ', '处', '泄', '漏', '，', '共', ' '] := rfl
  have hmemray : " 处未释放分配，共 ".toList =
      [' ', '处', '未', '释', '放', '分', '配', '，', '共', ' '] := rfl
  unfold leakResult at hsummary
  dsimp only at hsummary
  rw [hasan, hmemray] at hsummary
  generalize "发现 ".toList = front at hsummary
  generalize " 块 ".toList = unit at hsummary
  generalize " 字节".toList = unit' at hsummary
  simp at hsummary

theorem analyzeLeakText_memray_iff (hparsers : parsers.Documented) (d : MemrayDocument parsers) :
    analyzeLeakText num repr parsers (Python.universalNewlines d.file) =
        some (leakResult .memray (d.leaks.map MemrayLeak.record)) ↔
      ¬NamesValgrind (Python.universalNewlines d.file) ∧
        ¬NamesSanitizer (Python.universalNewlines d.file) := by
  have hhead : ((Python.universalNewlines d.file).dropWhile Python.isSpace).head? = some '[' ∨
      ((Python.universalNewlines d.file).dropWhile Python.isSpace).head? = some '{' := by
    have hparsed := d.parsed
    cases hothers : d.others with
    | none =>
        rw [hothers] at hparsed
        exact .inl (hparsers.list _ _ hparsed)
    | some others =>
        rw [hothers] at hparsed
        exact .inr (hparsers.dict _ _ hparsed)
  have hxml : NotXml (Python.universalNewlines d.file) := by
    intro c hc
    rcases hhead with hhead | hhead
    · obtain rfl : '[' = c := Option.some.inj (hhead.symm.trans hc)
      decide
    · obtain rfl : '{' = c := Option.some.inj (hhead.symm.trans hc)
      decide
  by_cases hvalgrind : NamesValgrind (Python.universalNewlines d.file)
  · exact iff_of_false (analyzeLeakText_of_namesValgrind num repr hparsers hxml hvalgrind)
      fun h => h.1 hvalgrind
  by_cases hnames : NamesSanitizer (Python.universalNewlines d.file)
  · refine iff_of_false ?_ fun h => h.2 hnames
    rw [analyzeLeakText_of_namesSanitizer num repr hxml hvalgrind hnames]
    exact parseAsanText_ne_memray _ _
  · refine iff_of_true ?_ ⟨hvalgrind, hnames⟩
    have hjson : ['{'] <+: (Python.universalNewlines d.file).dropWhile Python.isSpace ∨
        ['['] <+: (Python.universalNewlines d.file).dropWhile Python.isSpace := by
      rcases hhead with hhead | hhead
      · obtain ⟨t, ht⟩ := List.head?_eq_some_iff.mp hhead
        exact .inr ⟨t, ht.symm⟩
      · obtain ⟨t, ht⟩ := List.head?_eq_some_iff.mp hhead
        exact .inl ⟨t, ht.symm⟩
    rw [analyzeLeakText_eq, if_neg (not_or.mpr ⟨not_declared hxml, hvalgrind⟩), if_neg hnames,
      if_pos hjson, parseMemrayJson_document]

end Documents

/-- A report of an indirect leak that does not name LeakSanitizer. -/
def indirectReport : AsanReport where
  pid := none
  leaks := [{ kind := .indirect, bytes := 8, blocks := 1, frames := [] }]
  ending := 1
  crlf := false

/-- Parsers that accept nothing, as the real ones do with a text report. -/
def noParsers : LeakParsers ℚ where
  fromstring _ := .error []
  loads _ := .error []

theorem noParsers_documented : noParsers.Documented where
  xml := nofun
  list := nofun
  dict := nofun

/-- The indirect leak is not found. -/
theorem not_analyzeMemleak : ¬ ∀ (parsers : LeakParsers ℚ), parsers.Documented →
    ∀ (doc : LeakDocument parsers) (dataPath : List Char),
      analyzeMemleak .exact (fun _ => "") parsers dataPath (.text doc.file) =
        some (leakResult doc.format doc.records) := by
  intro h
  have hread := h noParsers noParsers_documented (.sanitizer indirectReport) []
  change analyzeLeakText .exact (fun _ => "") noParsers
    (Python.universalNewlines indirectReport.file) = _ at hread
  rw [universalNewlines_file] at hread
  have hnames := ((analyzeLeakText_sanitizer_iff .exact (fun _ => "") noParsers_documented
    indirectReport).mp hread).2.1
  exact absurd hnames (by decide +kernel)

/-- When a document is read completely. -/
theorem analyzeMemleak_iff {N : Type} (num : Numbers N) (repr : Json N → String)
    {parsers : LeakParsers N} (hparsers : parsers.Documented) (doc : LeakDocument parsers)
    (dataPath : List Char) :
    analyzeMemleak num repr parsers dataPath (.text doc.file) =
      some (leakResult doc.format doc.records) ↔ doc.Recognizable := by
  cases doc with
  | valgrind d =>
      change analyzeLeakText num repr parsers (Python.universalNewlines d.file) = _ ↔ _
      rw [analyzeLeakText_valgrind]
      exact parseValgrindXml_eq_iff d
  | sanitizer r =>
      change analyzeLeakText num repr parsers (Python.universalNewlines r.file) = _ ↔ _
      rw [universalNewlines_file]
      exact analyzeLeakText_sanitizer_iff num repr hparsers r
  | memray d => exact analyzeLeakText_memray_iff num repr hparsers d

/-- A report of a direct leak. -/
def directReport : AsanReport where
  pid := none
  leaks := [{ kind := .direct, bytes := 8, blocks := 1, frames := [] }]
  ending := 1
  crlf := true

theorem analyzeMemleak_directReport :
    analyzeMemleak .exact (fun _ => "") noParsers [] (.text directReport.file) =
      some (leakResult .asan [{ leakType := .definite, size := 8, count := 1 }]) :=
  (analyzeMemleak_iff .exact (fun _ => "") noParsers_documented (.sanitizer directReport) []).mpr
    ⟨by decide +kernel, by decide +kernel,
      List.forall_mem_singleton.mpr ⟨by decide, by decide, nofun⟩⟩

end MiniDrop
