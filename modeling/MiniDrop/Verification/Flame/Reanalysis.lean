import MiniDrop.Model.CpuAnalysis
import MiniDrop.Verification.Flame.Conservation

/-! # Analysing a CPU task again

An analysis leaves its folded stacks where the next one looks for input. -/

namespace MiniDrop

/-! ## Lines of a text -/

/-- A line with its end. -/
def Ended (line : List Char) : Prop := ∃ body, '\n' ∉ body ∧ line = body ++ ['\n']

theorem readlines_flatten_append {lines : List (List Char)} (h : ∀ line ∈ lines, Ended line)
    (t : List Char) : readlines (lines.flatten ++ t) = lines ++ readlines t := by
  induction lines with
  | nil => rfl
  | cons line lines ih =>
      obtain ⟨⟨body, hbody, rfl⟩, hlines⟩ := List.forall_mem_cons.mp h
      rw [List.flatten_cons, List.append_assoc, List.append_assoc, List.singleton_append,
        readlines_append hbody, ih hlines]
      rfl

/-- A text is lines with their ends, and what is behind the last end. -/
theorem exists_lines (s : List Char) : ∃ (lines : List (List Char)) (t : List Char),
    (∀ line ∈ lines, Ended line) ∧ '\n' ∉ t ∧ s = lines.flatten ++ t := by
  induction s with
  | nil => exact ⟨[], [], by simp, by simp, rfl⟩
  | cons c s ih =>
      obtain ⟨lines, t, hlines, ht, rfl⟩ := ih
      by_cases hc : c = '\n'
      · subst hc
        exact ⟨['\n'] :: lines, t, List.forall_mem_cons.mpr ⟨⟨[], by simp, rfl⟩, hlines⟩, ht, rfl⟩
      · cases lines with
        | nil => exact ⟨[], c :: t, by simp, by simp [Ne.symm hc, ht], rfl⟩
        | cons line lines =>
            obtain ⟨⟨body, hbody, rfl⟩, hrest⟩ := List.forall_mem_cons.mp hlines
            refine ⟨(c :: body ++ ['\n']) :: lines, t, List.forall_mem_cons.mpr ⟨?_, hrest⟩, ht, rfl⟩
            exact ⟨c :: body, by simp [Ne.symm hc, hbody], rfl⟩

theorem rsplit_eq_some {s a b : List Char} (h : Python.rsplit s = some (a, b)) :
    s = a ++ ' ' :: b ∧ ' ' ∉ b := by
  by_cases hmem : ' ' ∈ s
  · obtain ⟨u, v, hs, hu⟩ := List.eq_append_cons_of_mem (List.mem_reverse.mpr hmem)
    have hs : s = v.reverse ++ ' ' :: u.reverse := by
      rw [← List.reverse_reverse s, hs]
      simp
    have hspace : ' ' ∉ u.reverse := fun h => hu (List.mem_reverse.mp h)
    rw [hs, rsplit_append_cons hspace, Option.some.injEq, Prod.mk.injEq] at h
    obtain ⟨rfl, rfl⟩ := h
    exact ⟨hs, hspace⟩
  · have hnone : Text.rfind [' '] s = none := by
      rw [Text.rfind_eq_none_iff, List.singleton_infix_iff]
      exact hmem
    rw [Python.rsplit, hnone] at h
    cases h

/-! ## Cutting a line twice -/

section Cut

variable {line body ending stack count : List Char}

theorem lineParts_append (hbody : '\n' ∉ body) (hending : ∀ c ∈ ending, c = '\n') :
    lineParts (body ++ ending) = Python.rsplit body := by
  rw [lineParts, Text.rdropWhile_append (fun c hc => ?_) (by simpa using hending)]
  have hne : c ≠ '\n' := by
    rintro rfl
    exact hbody (List.mem_of_mem_getLast? hc)
  simpa using hne

/-- What becomes of a line. -/
theorem truncateLine_cases (hbody : '\n' ∉ body) (hending : ∀ c ∈ ending, c = '\n') :
    (Python.rsplit body = none ∧ truncateLine (body ++ ending) = body ++ ending) ∨
    ∃ stack count, Python.rsplit body = some (stack, count) ∧ ' ' ∉ count ∧
      '\n' ∉ cutStack stack ++ ' ' :: count ∧
      truncateLine (body ++ ending) = cutStack stack ++ ' ' :: count ++ ['\n'] := by
  rw [truncateLine, lineParts_append hbody hending]
  cases hsplit : Python.rsplit body with
  | none => exact .inl ⟨rfl, rfl⟩
  | some parts =>
      obtain ⟨stack, count⟩ := parts
      obtain ⟨rfl, hcount⟩ := rsplit_eq_some hsplit
      refine .inr ⟨stack, count, rfl, hcount, fun hmem => hbody ?_, rfl⟩
      rcases List.mem_append.mp hmem with hmem | hmem
      · exact List.mem_append_left _ ((isPrefix_cutStack stack).subset hmem)
      · exact List.mem_append_right _ hmem

theorem length_cutStack (stack : List Char) :
    ((cutStack stack).splitOn ';').length ≤ maxStackDepth := by
  have hframes : ∀ frame ∈ (stack.splitOn ';').take maxStackDepth, ';' ∉ frame := fun frame hframe =>
    Text.notMem_of_mem_splitOn (List.mem_of_mem_take hframe)
  have hne : (stack.splitOn ';').take maxStackDepth ≠ [] := by
    simp [maxStackDepth, List.splitOn_ne_nil]
  rw [cutStack, List.splitOn_intercalate _ hframes hne]
  exact List.length_take_le _ _

theorem tooDeep_truncateLine (hbody : '\n' ∉ body) (hending : ∀ c ∈ ending, c = '\n') :
    tooDeep (truncateLine (body ++ ending)) = false := by
  rcases truncateLine_cases hbody hending with ⟨hsplit, hline⟩ | ⟨stack, count, -, hcount, hclear, hline⟩
  · rw [hline, tooDeep, lineParts_append hbody hending, hsplit]
    rfl
  · rw [hline, tooDeep, lineParts_append hclear (by simp), rsplit_append_cons hcount, Option.any_some,
      decide_eq_false_iff_not, Nat.not_lt]
    exact length_cutStack stack

theorem ended_truncateLine (h : Ended line) :
    Ended (truncateLine line) ∧ tooDeep (truncateLine line) = false := by
  obtain ⟨body, hbody, rfl⟩ := h
  refine ⟨?_, tooDeep_truncateLine hbody (by simp)⟩
  rcases truncateLine_cases hbody (by simp : ∀ c ∈ ['\n'], c = '\n') with
    ⟨-, hline⟩ | ⟨stack, count, -, -, hclear, hline⟩
  · rw [hline]
    exact ⟨body, hbody, rfl⟩
  · rw [hline]
    exact ⟨_, hclear, rfl⟩

end Cut

/-! ## Cutting a file twice -/

/-- There is nothing to cut. -/
structure Trimmed (text : List Char) : Prop where
  length : (readlines text).length ≤ maxCollapsedLines
  shallow : ∀ line ∈ readlines text, tooDeep line = false

/-- The last line has its end if there are too many lines. -/
def CompleteText (text : List Char) : Prop :=
  (readlines text).length ≤ maxCollapsedLines ∨ ∀ c ∈ text.getLast?, c = '\n'

theorem readlines_flatten {lines : List (List Char)} (h : ∀ line ∈ lines, Ended line) :
    readlines lines.flatten = lines := by
  have hread := readlines_flatten_append h []
  rwa [List.append_nil, readlines, List.append_nil] at hread

/-- What is behind the last end is one line, if there is something. -/
theorem readlines_truncate_last {t : List Char} (ht : '\n' ∉ t) :
    readlines ((readlines t).map truncateLine).flatten = (readlines t).map truncateLine ∧
      ∀ line ∈ (readlines t).map truncateLine, tooDeep line = false := by
  by_cases hne : t = []
  · subst hne
    exact ⟨rfl, by simp [readlines]⟩
  · have hshallow := tooDeep_truncateLine ht (by simp : ∀ c ∈ [], c = '\n')
    rw [List.append_nil] at hshallow
    rw [readlines_of_notMem ht hne, List.map_singleton, List.flatten_singleton]
    refine ⟨?_, by simpa using hshallow⟩
    rcases truncateLine_cases ht (by simp : ∀ c ∈ [], c = '\n') with
      ⟨-, hline⟩ | ⟨stack, count, -, -, hclear, hline⟩
    · rw [List.append_nil] at hline
      rw [hline, readlines_of_notMem ht hne]
    · rw [List.append_nil] at hline
      rw [hline]
      have hended : ∀ line ∈ [cutStack stack ++ ' ' :: count ++ ['\n']], Ended line := by
        simpa using ⟨_, hclear, by simp⟩
      simpa using readlines_flatten hended

theorem trimmed_truncateCollapsed {text : String} (h : CompleteText text.toList) :
    Trimmed (truncateCollapsed text).toList := by
  obtain ⟨lines, t, hlines, ht, htext⟩ := exists_lines text.toList
  have hread : readlines text.toList = lines ++ readlines t := by
    rw [htext, readlines_flatten_append hlines]
  have hended : ∀ line ∈ lines.map truncateLine, Ended line ∧ tooDeep line = false := by
    rintro _ hmem
    obtain ⟨line, hline, rfl⟩ := List.mem_map.mp hmem
    exact ended_truncateLine (hlines line hline)
  rw [truncateCollapsed]
  split
  · next hlong =>
    -- a last line without its end might be sorted before others
    have hnil : t = [] := by
      have hlast := h.resolve_left (by simpa using hlong)
      by_contra hne
      rw [htext, List.getLast?_append_of_ne_nil _ hne] at hlast
      obtain ⟨c, hc⟩ := Option.isSome_iff_exists.mp (List.getLast?_isSome.mpr hne)
      exact ht (hlast c hc ▸ List.mem_of_mem_getLast? hc)
    rw [hnil, readlines, List.append_nil] at hread
    have hkept : ∀ line ∈ ((lines.map truncateLine).mergeSort
        fun l m => extractCount m ≤ extractCount l).take maxCollapsedLines,
        Ended line ∧ tooDeep line = false := fun line hline =>
      hended line (List.mem_mergeSort.mp (List.mem_of_mem_take hline))
    rw [hread, String.toList_ofList]
    refine ⟨?_, ?_⟩
    · rw [readlines_flatten fun line hline => (hkept line hline).1]
      exact List.length_take_le _ _
    · rw [readlines_flatten fun line hline => (hkept line hline).1]
      exact fun line hline => (hkept line hline).2
  · next hshort =>
    rw [List.length_map, Nat.not_lt] at hshort
    split
    · obtain ⟨hlast, hshallow⟩ := readlines_truncate_last ht
      have hcut : readlines ((readlines text.toList).map truncateLine).flatten =
          (readlines text.toList).map truncateLine := by
        rw [hread, List.map_append, List.flatten_append,
          readlines_flatten_append fun line hline => (hended line hline).1, hlast]
      refine ⟨?_, ?_⟩
      · rw [String.toList_ofList, hcut, List.length_map]
        exact hshort
      · rw [String.toList_ofList, hcut, hread, List.map_append]
        exact fun line hline => (List.mem_append.mp hline).elim (fun h => (hended line h).2)
          (hshallow line)
    · next hshallow =>
      exact ⟨hshort, by simpa using hshallow⟩

/-! ## Texts in files -/

theorem readText_writeText {text : String} (h : '\r' ∉ text.toList) :
    Python.readText (Python.writeText text) = some text := by
  have hdecode : String.fromUTF8? text.toUTF8 = some text := by
    rw [String.fromUTF8?, String.toUTF8_eq_toByteArray, dif_pos text.isValidUTF8]
    rfl
  rw [Python.readText, Python.writeText, hdecode, Option.map_some,
    Python.universalNewlines_of_notMem h, String.ofList_toList]

theorem carriage_notMem_of_readText {file : ByteArray} {text : String}
    (h : Python.readText file = some text) : '\r' ∉ text.toList := by
  obtain ⟨raw, -, rfl⟩ := Option.map_eq_some_iff.mp h
  rw [String.toList_ofList]
  exact Python.carriage_notMem_universalNewlines _

theorem flatten_readlines (s : List Char) : (readlines s).flatten = s := by
  obtain ⟨lines, t, hlines, ht, rfl⟩ := exists_lines s
  rw [readlines_flatten_append hlines, List.flatten_append]
  by_cases hne : t = []
  · rw [hne]
    rfl
  · rw [readlines_of_notMem ht hne, List.flatten_singleton]

theorem mem_of_mem_truncateLine {line : List Char} {c : Char} (h : c ∈ truncateLine line) :
    c ∈ line ∨ c = ' ' ∨ c = '\n' := by
  rw [truncateLine] at h
  cases hparts : lineParts line with
  | none =>
      rw [hparts] at h
      exact .inl h
  | some parts =>
      obtain ⟨stack, count⟩ := parts
      have hline := (rsplit_eq_some hparts).1
      have hsub : ∀ d ∈ stack ++ ' ' :: count, d ∈ line := fun d hd =>
        (List.rdropWhile_prefix _ _).subset (hline ▸ hd)
      rw [hparts] at h
      simp only [List.mem_append, List.mem_cons, List.not_mem_nil, or_false] at h
      rcases h with (h | h | h) | h
      · exact .inl (hsub c (List.mem_append_left _ ((isPrefix_cutStack stack).subset h)))
      · exact .inr (.inl h)
      · exact .inl (hsub c (List.mem_append_right _ (List.mem_cons_of_mem _ h)))
      · exact .inr (.inr h)

theorem carriage_notMem_truncateCollapsed {text : String} (h : '\r' ∉ text.toList) :
    '\r' ∉ (truncateCollapsed text).toList := by
  have hlines : ∀ line ∈ (readlines text.toList).map truncateLine, '\r' ∉ line := by
    rintro _ hmem hc
    obtain ⟨line, hline, rfl⟩ := List.mem_map.mp hmem
    rcases mem_of_mem_truncateLine hc with hc | hc | hc
    · exact h (flatten_readlines text.toList ▸ List.mem_flatten.mpr ⟨line, hline, hc⟩)
    · exact absurd hc (by decide)
    · exact absurd hc (by decide)
  rw [truncateCollapsed]
  split
  · rw [String.toList_ofList]
    intro hc
    obtain ⟨line, hline, hc⟩ := List.mem_flatten.mp hc
    exact hlines line (List.mem_mergeSort.mp (List.mem_of_mem_take hline)) hc
  · split
    · rw [String.toList_ofList]
      intro hc
      obtain ⟨line, hline, hc⟩ := List.mem_flatten.mp hc
      exact hlines line hline hc
    · exact h

/-- A file that could be read and is complete if it is a text. -/
def CompleteFile (file : ByteArray) : Prop :=
  ∀ text ∈ Python.readText file, CompleteText text.toList

theorem readFile_eq_ok_iff {file : ByteArray} {text : String} :
    readFile file = .ok text ↔ Python.readText file = some text := by
  rw [readFile]
  split <;> simp [*]

theorem truncateFile_of_trimmed {file : ByteArray} {text : String}
    (htext : Python.readText file = some text) (h : Trimmed text.toList) :
    truncateFile file = .ok file := by
  have hkept : (decide ((readlines text.toList).length > maxCollapsedLines) ||
      (readlines text.toList).any tooDeep) = false := by
    simpa using ⟨h.length, h.shallow⟩
  rw [truncateFile, readFile_eq_ok_iff.mpr htext]
  exact congrArg Except.ok (if_neg (by rw [hkept]; exact Bool.false_ne_true))

/-- A file that has been cut down is not cut down again. -/
theorem truncateFile_again {file cut : ByteArray} (h : truncateFile file = .ok cut)
    (hcomplete : CompleteFile file) : truncateFile cut = .ok cut := by
  cases htext : Python.readText file with
  | none =>
      rw [truncateFile, readFile, htext] at h
      cases h
  | some text =>
      have htrimmed := trimmed_truncateCollapsed (hcomplete text htext)
      have hclear := carriage_notMem_of_readText htext
      rw [truncateFile, readFile_eq_ok_iff.mpr htext] at h
      have hcut := Except.ok.inj h
      dsimp only at hcut
      split at hcut
      · subst hcut
        exact truncateFile_of_trimmed
          (readText_writeText (carriage_notMem_truncateCollapsed hclear)) htrimmed
      · next hkept =>
        subst hcut
        simp only [Bool.or_eq_true, decide_eq_true_eq, List.any_eq_true, not_or, not_exists, not_and,
          Nat.not_lt, Bool.not_eq_true] at hkept
        exact truncateFile_of_trimmed htext ⟨hkept.1, hkept.2⟩

/-! ## The input of an analysis -/

section Input

variable {store : Files} {tid f : List Char} {candidates : List (List Char)} {w : WorkDir}
  {file : ByteArray}

/-- What the store has for a candidate. -/
def candidateFile? (store : Files) (tid fname : List Char) : Option ByteArray :=
  (findCandidate store tid fname).bind store.get?

/-- A candidate of folded stacks that is there. -/
def isFolded (store : Files) (tid fname : List Char) : Bool :=
  WorkDir.isCollapsedName (Python.basename fname) && (candidateFile? store tid fname).isSome

/-- The last of them. -/
def foldedCandidate? (store : Files) (tid : List Char) (candidates : List (List Char)) :
    Option (List Char) :=
  candidates.reverse.find? (isFolded store tid)

/-- main analyses this candidate. -/
structure Selects (w : WorkDir) (fname : List Char) (file : ByteArray) : Prop where
  path : w.preCollapsedPath = some fname
  hasCollapsed : w.hasCollapsed = true
  content : w.files.get? fname = some file

theorem selects_download (h : WorkDir.isCollapsedName (Python.basename f) = true) :
    Selects (w.download f f file) f file := by
  rw [WorkDir.download, WorkDir.selectDownloadedInput, if_pos h]
  exact ⟨rfl, rfl, by rw [Dict.get?_set, if_pos rfl]⟩

/-- Another candidate does not take its place. -/
theorem Selects.download {g : List Char} {other : ByteArray} (hw : Selects w f file)
    (h : WorkDir.isCollapsedName (Python.basename g) = false) (hsame : g = f → other = file) :
    Selects (w.download g g other) f file := by
  have hfiles : (w.files.set g other).get? f = some file := by
    rw [Dict.get?_set]
    split
    · next heq => rw [hsame heq]
    · exact hw.content
  rw [WorkDir.download, WorkDir.selectDownloadedInput, if_neg (by rw [h]; exact Bool.false_ne_true)]
  split
  · exact ⟨hw.path, hw.hasCollapsed, hfiles⟩
  · split
    · exact ⟨hw.path, hw.hasCollapsed, hfiles⟩
    · exact ⟨hw.path, hw.hasCollapsed, hfiles⟩

theorem selects_of_foldedCandidate (h : foldedCandidate? store tid candidates = some f) :
    ∃ file, candidateFile? store tid f = some file ∧
      Selects (candidates.foldl (downloadCandidate store tid) w) f file := by
  induction candidates using List.reverseRecOn generalizing f with
  | nil => cases h
  | append_singleton candidates g ih =>
      rw [List.foldl_append, List.foldl_cons, List.foldl_nil, downloadCandidate]
      rw [foldedCandidate?, List.reverse_append, List.reverse_singleton, List.singleton_append,
        List.find?_cons] at h
      by_cases hg : isFolded store tid g = true
      · rw [hg] at h
        obtain rfl : g = f := Option.some.inj h
        obtain ⟨hname, hsome⟩ := Bool.and_eq_true_iff.mp hg
        obtain ⟨file, hfile⟩ := Option.isSome_iff_exists.mp hsome
        refine ⟨file, hfile, ?_⟩
        rw [candidateFile?] at hfile
        rw [hfile]
        exact selects_download hname
      · rw [Bool.not_eq_true] at hg
        rw [hg] at h
        obtain ⟨file, hfile, hselects⟩ := ih h
        refine ⟨file, hfile, ?_⟩
        cases hother : (findCandidate store tid g).bind store.get? with
        | none => exact hselects
        | some other =>
            have hname : WorkDir.isCollapsedName (Python.basename g) = false := by
              rw [isFolded, candidateFile?, hother, Option.isSome_some, Bool.and_true] at hg
              exact hg
            refine hselects.download hname ?_
            rintro rfl
            exact Option.some.inj (hother.symm.trans hfile)

/-- The analysis begins with it, whatever the API server reports. -/
theorem collapse_of_foldedCandidate {taskType : ℤ}
    (h : foldedCandidate? store tid (candidateFiles taskType tid) = some f) :
    ∃ file, candidateFile? store tid f = some file ∧ ∀ tools reported,
      (collectInputs store tid taskType reported).collapse tools = .ok file ∧
        (collectInputs store tid taskType reported).preCollapsedPath ≠ none := by
  obtain ⟨file, hfile, -⟩ := selects_of_foldedCandidate (w := {}) h
  refine ⟨file, hfile, fun tools reported => ?_⟩
  obtain ⟨other, hother, hselects⟩ := selects_of_foldedCandidate
    (w := WorkDir.downloadReported store (reported.filter (· ≠ [])) {}) h
  obtain rfl : file = other := Option.some.inj (hfile.symm.trans hother)
  refine ⟨?_, ?_⟩
  · rw [WorkDir.collapse, collectInputs, hselects.hasCollapsed, if_pos rfl, hselects.path,
      Option.bind_some, hselects.content]
  · rw [collectInputs, hselects.path]
    exact Option.some_ne_none f

end Input

/-! ## The products -/

section Products

variable {tools : CpuTools} {store store' : Files} {tid fname key : List Char} {taskType : ℤ}
  {reported : List (List Char)} {products : List (List Char × ByteArray)} {collapsed : ByteArray}

def productNames : List (List Char) :=
  ["collapsed.txt".toList, "flamegraph.svg".toList, "top.json".toList, "suggestions.md".toList]

theorem uploadProducts_eq (tid : List Char) (store : Files) (products : List (List Char × ByteArray)) :
    uploadProducts tid store products = (products.map fun product =>
      (tid ++ '/' :: product.1, product.2)).foldl (fun d e => d.set e.1 e.2) store := by
  rw [uploadProducts, List.foldl_map]

theorem cpuProducts_names (h : cpuProducts tools tid collapsed = .ok products) :
    products.map Prod.fst = productNames ∧ ("collapsed.txt".toList, collapsed) ∈ products := by
  rw [cpuProducts] at h
  cases hsvg : CpuTools.run
      (tools.flamegraph collapsed ("CPU Flame Graph [".toList ++ tid ++ [']'])) with
  | error e =>
      rw [hsvg] at h
      cases h
  | ok svg =>
      rw [hsvg] at h
      cases htext : readFile collapsed with
      | error e =>
          rw [htext] at h
          cases h
      | ok text =>
          rw [htext] at h
          rw [← Except.ok.inj h]
          exact ⟨rfl, List.mem_cons_self⟩

/-- The keys that an analysis writes. -/
theorem keys_uploads (h : products.map Prod.fst = productNames) :
    (products.map fun product => (tid ++ '/' :: product.1, product.2)).map Prod.fst =
      productNames.map fun name => tid ++ '/' :: name := by
  rw [← h, List.map_map, List.map_map]
  rfl

theorem nodup_keys (tid : List Char) :
    (productNames.map fun name => tid ++ '/' :: name).Nodup :=
  List.Nodup.map (fun _ _ heq => List.tail_eq_of_cons_eq (List.append_cancel_left heq)) (by decide)

theorem get?_uploadProducts (h : products.map Prod.fst = productNames)
    {product : List Char × ByteArray} (hmem : product ∈ products) :
    (uploadProducts tid store products).get? (tid ++ '/' :: product.1) = some product.2 := by
  rw [uploadProducts_eq]
  refine Dict.get?_foldl_set_of_nodup (e := (tid ++ '/' :: product.1, product.2)) ?_
    (List.mem_map_of_mem hmem)
  rw [keys_uploads h]
  exact nodup_keys tid

theorem get?_uploadProducts_of_notMem (h : products.map Prod.fst = productNames)
    (hkey : key ∉ productNames.map fun name => tid ++ '/' :: name) :
    (uploadProducts tid store products).get? key = store.get? key := by
  rw [uploadProducts_eq]
  refine Dict.get?_foldl_set_of_notMem ?_
  rw [keys_uploads h]
  exact hkey

theorem uploadProducts_again (h : products.map Prod.fst = productNames) :
    uploadProducts tid (uploadProducts tid store products) products =
      uploadProducts tid store products := by
  rw [uploadProducts_eq tid (uploadProducts tid store products)]
  refine Dict.foldl_set_self fun e he => ?_
  obtain ⟨product, hproduct, rfl⟩ := List.mem_map.mp he
  exact get?_uploadProducts h hproduct

/-- Only one of the products could be taken for folded stacks. -/
theorem eq_of_mem_productNames (hname : fname ∈ productNames)
    (hfolded : WorkDir.isCollapsedName (Python.basename fname) = true) :
    fname = "collapsed.txt".toList := by
  have hall : ∀ name ∈ productNames, WorkDir.isCollapsedName (Python.basename name) = true →
      name = "collapsed.txt".toList := by decide
  exact hall fname hname hfolded

/-- The names are too short to be keys under the other prefix. -/
theorem length_of_isCollapsedName (h : WorkDir.isCollapsedName (Python.basename fname) = true) :
    10 ≤ fname.length := by
  have hbase : (Python.basename fname).length ≤ fname.length :=
    (List.rtakeWhile_suffix _ fname).length_le
  refine le_trans ?_ hbase
  rw [WorkDir.isCollapsedName, Bool.or_eq_true, decide_eq_true_eq, List.isSuffixOf_iff_suffix] at h
  rcases h with h | h
  · rw [h]
    decide
  · exact h.length_le

theorem candidateFile?_uploadProducts (h : products.map Prod.fst = productNames)
    (hfolded : WorkDir.isCollapsedName (Python.basename fname) = true)
    (hne : fname ≠ "collapsed.txt".toList) :
    candidateFile? (uploadProducts tid store products) tid fname = candidateFile? store tid fname := by
  have hfirst : (uploadProducts tid store products).get? (tid ++ '/' :: fname) =
      store.get? (tid ++ '/' :: fname) := by
    refine get?_uploadProducts_of_notMem h fun hmem => hne ?_
    obtain ⟨name, hname, heq⟩ := List.mem_map.mp hmem
    obtain rfl : name = fname := List.tail_eq_of_cons_eq (List.append_cancel_left heq)
    exact eq_of_mem_productNames hname hfolded
  have hsecond : (uploadProducts tid store products).get?
      ("profiler/".toList ++ tid ++ '/' :: fname) =
        store.get? ("profiler/".toList ++ tid ++ '/' :: fname) := by
    refine get?_uploadProducts_of_notMem h fun hmem => ?_
    obtain ⟨name, hname, heq⟩ := List.mem_map.mp hmem
    have hlong := length_of_isCollapsedName hfolded
    have hshort : ∀ name ∈ productNames, name.length ≤ 14 := by decide
    have hlength := congrArg List.length heq
    have hprefix : "profiler/".toList.length = 9 := rfl
    simp only [List.length_append, List.length_cons, hprefix] at hlength
    have hle := hshort name hname
    omega
  rw [candidateFile?, candidateFile?, findCandidate, findCandidate]
  simp only [List.find?_cons, List.find?_nil, hfirst, hsecond]
  split
  · exact hfirst
  · split
    · exact hsecond
    · rfl

end Products

/-! ## The next analysis -/

section Again

variable {tools : CpuTools} {store store' : Files} {tid : List Char} {taskType : ℤ}
  {reported : List (List Char)}

/-- What an analysis does that succeeds. -/
theorem of_analyzeCpuTask_eq_ok (h : analyzeCpuTask tools tid taskType reported store = .ok store') :
    ∃ file collapsed products,
      (collectInputs store tid taskType reported).collapse tools = .ok file ∧
      truncateFile file = .ok collapsed ∧ cpuProducts tools tid collapsed = .ok products ∧
      store' = uploadProducts tid store products := by
  rw [analyzeCpuTask] at h
  dsimp only at h
  split at h
  · cases h
  · rw [runCpuFlamegraph] at h
    cases hfile : (collectInputs store tid taskType reported).collapse tools with
    | error e =>
        rw [hfile] at h
        cases h
    | ok file =>
        rw [hfile] at h
        cases hcut : truncateFile file with
        | error e =>
            simp only [bind, Except.bind, hcut] at h
            cases h
        | ok collapsed =>
            cases hproducts : cpuProducts tools tid collapsed with
            | error e =>
                simp only [bind, Except.bind, hcut, hproducts] at h
                cases h
            | ok products =>
                simp only [bind, Except.bind, hcut, hproducts, pure, Except.pure] at h
                exact ⟨file, collapsed, products, rfl, hcut, hproducts, (Except.ok.inj h).symm⟩

theorem analyzeCpuTask_eq_ok {file collapsed : ByteArray} {products : List (List Char × ByteArray)}
    (hfile : (collectInputs store tid taskType reported).collapse tools = .ok file)
    (hpath : (collectInputs store tid taskType reported).preCollapsedPath ≠ none)
    (hcut : truncateFile file = .ok collapsed)
    (hproducts : cpuProducts tools tid collapsed = .ok products) :
    analyzeCpuTask tools tid taskType reported store = .ok (uploadProducts tid store products) := by
  rw [analyzeCpuTask]
  dsimp only
  rw [if_neg fun hnone => hpath hnone.2, runCpuFlamegraph, hfile]
  simp only [bind, Except.bind, hcut, hproducts, pure, Except.pure]

theorem find?_of_imp {α : Type} {p q : α → Bool} {l : List α} {a : α} (h : l.find? p = some a)
    (ha : q a = true) (himp : ∀ b, q b = true → p b = true) : l.find? q = some a := by
  obtain ⟨-, front, back, hl, hfront⟩ := List.find?_eq_some_iff_append.mp h
  refine List.find?_eq_some_iff_append.mpr ⟨ha, front, back, hl, fun b hb => ?_⟩
  have hnot := hfront b hb
  rw [Bool.not_eq_true'] at hnot ⊢
  exact Bool.eq_false_of_not_eq_true fun hq => by
    rw [himp b hq] at hnot
    cases hnot

theorem collapsed_mem_candidateFiles (htype : taskType = 0 ∨ taskType = 1) :
    "collapsed.txt".toList ∈ candidateFiles taskType tid := by
  rcases htype with rfl | rfl <;> exact List.mem_cons_self

/-- Tools that always answer. -/
def steadyTools : CpuTools where
  perfScript file := .ok file
  stackcollapse _ := .ok "main;work 3\n"
  flamegraph _ _ := .ok "<svg/>"
  topnToJson _ := "[]"
  matchRules _ := []

/-- The file of an agent for a task. -/
def perfStore : Files := .ofList [("profiler/t/t.data".toList, .mk #[0])]

end Again

end MiniDrop
