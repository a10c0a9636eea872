import MiniDrop.Model.FlameStats
import MiniDrop.Verification.Flame.Readers
import Mathlib.Algebra.BigOperators.Ring.Finset
import Mathlib.Algebra.Order.Group.Int
import Mathlib.Data.List.Dedup
import Mathlib.Data.List.Perm.Subperm
import Mathlib.Data.Rat.Floor

/-! # The samples of the CPU pipeline

Cutting stacks makes some of them equal, and reading a file keeps one line of each stack. -/

namespace MiniDrop

/-- A file of these lines; the last may lack its end. -/
def collapsedFile (entries : List FoldedEntry) (ended : Bool) : String :=
  foldedText (entries.map .entry ++ if ended then [.blank [] (by simp) (by simp)] else [])

/-- What the analysis reads from a file that it has cut down. -/
def analysedCounts (text : String) : Dict String ℤ := parseCollapsed (truncateCollapsed text)

/-- The largest lines, if there are too many; the first of them where some are equal. -/
def keptLines (entries : List FoldedEntry) : List FoldedEntry :=
  if entries.length > maxCollapsedLines then
    (entries.mergeSort fun e f => f.count ≤ e.count).take maxCollapsedLines
  else entries

def samplesIn (entries : List FoldedEntry) : ℕ := (entries.map FoldedEntry.count).sum

/-- The pipeline conserves the samples of a file, or, if it is too long, those of its largest lines,
in any order. -/
structure Conserves {F : Type} (ops : Floats F) (hotPathK : ℕ) (entries : List FoldedEntry)
    (ended : Bool) (topK : ℕ) : Prop where
  self : ((analyzeTopn (analysedCounts (collapsedFile entries ended)) topK).map
    HotFunction.self).sum = samplesIn (keptLines entries)
  stats : (computeFlameStats ops (analysedCounts (collapsedFile entries ended))
    (analyzeTopn (analysedCounts (collapsedFile entries ended)) topK) hotPathK).totalSamples =
      samplesIn (keptLines entries)
  largest : entries.length > maxCollapsedLines → ∀ largest ended',
    largest.Perm (keptLines entries) →
      (analyzeTopn (analysedCounts (collapsedFile entries ended)) topK).Perm
        (analyzeTopn (analysedCounts (collapsedFile largest ended')) topK) ∧
      (computeFlameStats ops (analysedCounts (collapsedFile entries ended))
        (analyzeTopn (analysedCounts (collapsedFile entries ended)) topK) hotPathK).totalSamples =
      (computeFlameStats ops (analysedCounts (collapsedFile largest ended'))
        (analyzeTopn (analysedCounts (collapsedFile largest ended')) topK) hotPathK).totalSamples

/-- No other line is larger than these. -/
theorem keptLines_largest (entries : List FoldedEntry) :
    ∃ rest, (keptLines entries ++ rest).Perm entries ∧
      (keptLines entries).length = min maxCollapsedLines entries.length ∧
      ∀ e ∈ keptLines entries, ∀ f ∈ rest, f.count ≤ e.count := by
  unfold keptLines
  split
  · next hlong =>
    refine ⟨(entries.mergeSort fun e f => f.count ≤ e.count).drop maxCollapsedLines, ?_, ?_, ?_⟩
    · rw [List.take_append_drop]
      exact List.mergeSort_perm _ _
    · rw [List.length_take, List.length_mergeSort]
    · have hsorted : (entries.mergeSort fun e f => f.count ≤ e.count).Pairwise fun e f =>
          decide (f.count ≤ e.count) = true :=
        List.pairwise_mergeSort (fun a b c hab hbc => by simp_all; omega)
          (fun a b => by simp; omega) entries
      rw [← List.take_append_drop maxCollapsedLines (entries.mergeSort _),
        List.pairwise_append] at hsorted
      intro e he f hf
      simpa using hsorted.2.2 e he f hf
  · next hshort =>
    refine ⟨[], by simp, ?_, by simp⟩
    omega

theorem mem_of_mem_keptLines {entries : List FoldedEntry} {e : FoldedEntry}
    (h : e ∈ keptLines entries) : e ∈ entries := by
  obtain ⟨rest, hperm, -⟩ := keptLines_largest entries
  exact hperm.subset (List.mem_append_left _ h)

/-! ## Cutting a file down -/

section Cut

variable {stack : List Char}

theorem isPrefix_cutStack (stack : List Char) : cutStack stack <+: stack := by
  have hprefix := Text.isPrefix_intercalate_take ';' maxStackDepth (stack.splitOn ';')
  rwa [List.intercalate_splitOn] at hprefix

theorem cutStack_of_length_le (h : (stack.splitOn ';').length ≤ maxStackDepth) :
    cutStack stack = stack := by
  rw [cutStack, List.take_of_length_le h, List.intercalate_splitOn]

/-- At least two frames stay, and a semicolon between them. -/
theorem cutStack_ne (h : stack ≠ []) : cutStack stack ≠ [] := by
  by_cases hdeep : (stack.splitOn ';').length ≤ maxStackDepth
  · rwa [cutStack_of_length_le hdeep]
  · unfold cutStack
    rcases hframes : stack.splitOn ';' with _ | ⟨first, _ | ⟨second, rest⟩⟩
    · simp [hframes] at hdeep
    · simp [hframes, maxStackDepth] at hdeep
    · simp [maxStackDepth, List.intercalate_cons_cons]

end Cut

namespace FoldedEntry

/-- The line with its stack cut. -/
def cut (e : FoldedEntry) : FoldedEntry :=
  { e with
    stack := cutStack e.stack
    stack_ne := cutStack_ne e.stack_ne
    stack_head := by
      obtain ⟨rest, hrest⟩ := isPrefix_cutStack e.stack
      intro c hc
      refine e.stack_head c ?_
      rw [← hrest, List.head?_append_of_ne_nil _ (cutStack_ne e.stack_ne)]
      exact hc
    stack_line := fun h => e.stack_line ((isPrefix_cutStack e.stack).subset h) }

@[simp] theorem stack_cut (e : FoldedEntry) : e.cut.stack = cutStack e.stack := rfl

@[simp] theorem count_cut (e : FoldedEntry) : e.cut.count = e.count := rfl

/-- The text of the line with its end. -/
def line (e : FoldedEntry) : List Char := e.text ++ ['\n']

theorem newline_notMem (e : FoldedEntry) : '\n' ∉ e.text := (FoldedLine.entry e).newline_notMem

/-- The end of the line does not matter. -/
theorem lineParts_eq (e : FoldedEntry) {ending : List Char} (h : ∀ c ∈ ending, c = '\n') :
    lineParts (e.text ++ ending) = some (e.stack, e.digits ++ if e.cr then ['\r'] else []) := by
  have hstrip : (e.text ++ ending).rdropWhile (· = '\n') = e.text := by
    refine Text.rdropWhile_append (fun c hc => ?_) (by simpa using h)
    have hne : c ≠ '\n' := by
      rintro rfl
      exact e.newline_notMem (List.mem_of_mem_getLast? hc)
    simpa using hne
  have hcr : ' ' ∉ if e.cr then ['\r'] else [] := by split <;> decide
  rw [lineParts, hstrip, text, rsplit_body_append e hcr]

theorem truncateLine_eq (e : FoldedEntry) {ending : List Char} (h : ∀ c ∈ ending, c = '\n') :
    truncateLine (e.text ++ ending) = e.cut.line := by
  rw [truncateLine, e.lineParts_eq h]
  simp only [line, text, body, cut, List.append_assoc, List.cons_append]
  rfl

theorem cut_eq_self {e : FoldedEntry} {ending : List Char} (h : ∀ c ∈ ending, c = '\n')
    (hdeep : tooDeep (e.text ++ ending) = false) : e.cut = e := by
  rw [tooDeep, e.lineParts_eq h] at hdeep
  have hstack : cutStack e.stack = e.stack :=
    cutStack_of_length_le (Nat.le_of_not_lt (by simpa using hdeep))
  obtain ⟨stack, digits, cr⟩ := e
  simp only [cut, mk.injEq, and_true]
  exact hstack

theorem extractCount_line (e : FoldedEntry) (hread : e.Readable) :
    extractCount e.line = e.count := by
  have hending : ∀ c ∈ (if e.cr then ['\r'] else []) ++ ['\n'],
      Python.isSpace c = true ∧ c ≠ ' ' := by
    split <;> simp <;> decide
  have hparts := rsplit_body_append e fun hmem => (hending ' ' hmem).2 rfl
  have hcount := int?_digits_append e fun c hc => (hending c hc).1
  rw [extractCount, line, text, List.append_assoc, hparts, Option.map_some, Option.getD_some,
    hcount, if_pos hread, Option.getD_some]

end FoldedEntry

/-! ## Lines of a file -/

section Lines

variable {line rest : List Char}

theorem readlines_append (h : '\n' ∉ line) :
    readlines (line ++ '\n' :: rest) = (line ++ ['\n']) :: readlines rest := by
  induction line with
  | nil => simp [readlines]
  | cons c line ih =>
      rw [List.mem_cons, not_or] at h
      rw [List.cons_append, readlines, if_neg (Ne.symm h.1), ih h.2]
      rfl

/-- A last line without an end. -/
theorem readlines_of_notMem (h : '\n' ∉ line) (hne : line ≠ []) : readlines line = [line] := by
  induction line with
  | nil => exact absurd rfl hne
  | cons c line ih =>
      rw [List.mem_cons, not_or] at h
      rw [readlines, if_neg (Ne.symm h.1)]
      cases line with
      | nil => rfl
      | cons d line => rw [ih h.2 (List.cons_ne_nil _ _)]

end Lines

section Files

variable (entries : List FoldedEntry)

theorem toList_collapsedFile_cons (e : FoldedEntry) {ended : Bool}
    (h : entries ≠ [] ∨ ended = true) : (collapsedFile (e :: entries) ended).toList =
      e.line ++ (collapsedFile entries ended).toList := by
  rw [collapsedFile, foldedText, String.toList_ofList, List.map_cons, List.cons_append,
    List.map_cons, List.intercalate_cons_of_ne_nil, collapsedFile, foldedText, String.toList_ofList]
  · rfl
  · rcases h with hne | rfl <;> simp [*]

theorem toList_collapsedFile_ended :
    (collapsedFile entries true).toList = (entries.map FoldedEntry.line).flatten := by
  induction entries with
  | nil => rfl
  | cons e entries ih =>
      rw [toList_collapsedFile_cons entries e (.inr rfl), ih, List.map_cons, List.flatten_cons]

/-- Each line is read, with or without its end. -/
theorem forall₂_readlines (ended : Bool) :
    List.Forall₂ (fun line e => ∃ ending : List Char, (∀ c ∈ ending, c = '\n') ∧
      line = FoldedEntry.text e ++ ending)
      (readlines (collapsedFile entries ended).toList) entries := by
  induction entries with
  | nil => cases ended <;> exact .nil
  | cons e entries ih =>
      by_cases hlast : entries ≠ [] ∨ ended = true
      · rw [toList_collapsedFile_cons entries e hlast, FoldedEntry.line, List.append_assoc,
          List.singleton_append, readlines_append e.newline_notMem]
        exact .cons ⟨['\n'], by simp, rfl⟩ ih
      · obtain ⟨rfl, rfl⟩ : entries = [] ∧ ended = false := by simpa using hlast
        have htext : (collapsedFile [e] false).toList = e.text := by
          simp [collapsedFile, foldedText, FoldedLine.text]
        have hne : e.text ≠ [] := by simp [FoldedEntry.text, FoldedEntry.body]
        rw [htext, readlines_of_notMem e.newline_notMem hne]
        exact .cons ⟨[], by simp, by simp⟩ .nil

theorem map_truncateLine (ended : Bool) :
    (readlines (collapsedFile entries ended).toList).map truncateLine =
      (entries.map FoldedEntry.cut).map FoldedEntry.line := by
  have hlines := forall₂_readlines entries ended
  generalize readlines (collapsedFile entries ended).toList = lines at hlines ⊢
  induction hlines with
  | nil => rfl
  | cons hline _ ih =>
      obtain ⟨ending, hending, rfl⟩ := hline
      rw [List.map_cons, FoldedEntry.truncateLine_eq _ hending, ih]
      rfl

theorem map_cut_eq_self {ended : Bool}
    (h : (readlines (collapsedFile entries ended).toList).any tooDeep = false) :
    entries.map FoldedEntry.cut = entries := by
  have hlines := forall₂_readlines entries ended
  generalize readlines (collapsedFile entries ended).toList = lines at hlines h
  induction hlines with
  | nil => rfl
  | cons hline _ ih =>
      obtain ⟨ending, hending, rfl⟩ := hline
      rw [List.any_cons, Bool.or_eq_false_iff] at h
      rw [List.map_cons, FoldedEntry.cut_eq_self hending h.1, ih h.2]

theorem mergeSort_lines (h : ∀ e ∈ entries, e.Readable) :
    ((entries.map FoldedEntry.cut).map FoldedEntry.line).mergeSort
        (fun l m => extractCount m ≤ extractCount l) =
      (entries.mergeSort fun e f => f.count ≤ e.count).map fun e => e.cut.line := by
  rw [List.map_map]
  refine (List.map_mergeSort fun e he f hf => ?_).symm
  rw [Function.comp_apply, Function.comp_apply, e.cut.extractCount_line (h e he),
    f.cut.extractCount_line (h f hf)]
  simp

/-- The file is cut down to the lines that are kept, each with its stack cut. -/
theorem truncateCollapsed_collapsedFile (h : ∀ e ∈ entries, e.Readable) (ended : Bool) :
    ∃ ended', truncateCollapsed (collapsedFile entries ended) =
      collapsedFile ((keptLines entries).map FoldedEntry.cut) ended' := by
  have hfile : ∀ entries : List FoldedEntry,
      String.ofList (entries.map FoldedEntry.line).flatten = collapsedFile entries true :=
    fun entries => by rw [← toList_collapsedFile_ended, String.ofList_toList]
  unfold truncateCollapsed keptLines
  simp only [map_truncateLine, List.length_map, mergeSort_lines entries h]
  split
  · refine ⟨true, ?_⟩
    rw [← List.map_take, ← hfile, List.map_map]
    rfl
  · split
    · exact ⟨true, hfile _⟩
    · next hshallow =>
      refine ⟨ended, ?_⟩
      rw [map_cut_eq_self entries (by simpa using hshallow)]

/-- The entries that the analysis reads. -/
theorem parseCollapsed_collapsedFile (h : ∀ e ∈ entries, e.Readable) (ended : Bool) :
    parseCollapsed (collapsedFile entries ended) =
      .ofList (entries.map fun e => (String.ofList e.stack, (e.count : ℤ))) := by
  have hentries : entriesOf (entries.map FoldedLine.entry ++
      if ended then [.blank [] (by simp) (by simp)] else []) = entries := by
    have hrest : entriesOf (if ended then [.blank [] (by simp) (by simp)] else []) = [] := by
      cases ended <;> rfl
    rw [entriesOf, List.filterMap_append, ← entriesOf, ← entriesOf, hrest, List.append_nil,
      entriesOf, List.filterMap_map]
    exact List.filterMap_some
  rw [collapsedFile, parseCollapsed_foldedText, hentries,
    List.filter_eq_self.mpr fun e he => by simpa using h e he]

theorem analysedCounts_eq (h : ∀ e ∈ entries, e.Readable) (ended : Bool) :
    analysedCounts (collapsedFile entries ended) =
      .ofList ((keptLines entries).map fun e =>
        (String.ofList (cutStack e.stack), (e.count : ℤ))) := by
  obtain ⟨ended', htruncate⟩ := truncateCollapsed_collapsedFile entries h ended
  rw [analysedCounts, htruncate, parseCollapsed_collapsedFile, List.map_map]
  · rfl
  · intro e he
    obtain ⟨f, hf, rfl⟩ := List.mem_map.mp he
    exact h f (mem_of_mem_keptLines hf)

end Files

/-! ## Adding up by function -/

section Functions

variable (counts : Dict String ℤ)

theorem selfCount_eq :
    selfCount counts = .sumUp (counts.entries.map fun entry => (lastFrame entry.1, entry.2)) := by
  rw [selfCount, Dict.sumUp, List.foldl_map]

theorem totalCount_eq : totalCount counts = .sumUp (counts.entries.flatMap fun entry =>
    (framesOf entry.1.toList).map fun frame => (frame, entry.2)) := by
  rw [totalCount, Dict.sumUp, List.foldl_flatMap]
  simp only [List.foldl_map]

theorem sum_selfCount : (selfCount counts).sum = counts.sum := by
  rw [selfCount_eq, Dict.sum_sumUp, List.map_map]
  rfl

/-- The functions in which stacks end are among all functions. -/
theorem length_selfCount_le : (selfCount counts).entries.length ≤ (allFuncs counts).length := by
  have hsubset : (selfCount counts).entries.map Prod.fst ⊆ allFuncs counts := by
    intro func hfunc
    rw [selfCount_eq] at hfunc
    rcases Dict.mem_keys_foldl_add hfunc with hmem | hmem
    · cases hmem
    · rw [List.map_map] at hmem
      obtain ⟨entry, hentry, rfl⟩ := List.mem_map.mp hmem
      refine List.mem_dedup.mpr (List.mem_flatMap.mpr ⟨entry, hentry, ?_⟩)
      have hne : framesOf entry.1.toList ≠ [] := by simp [framesOf]
      rw [Function.comp_apply, lastFrame, List.getLastD_eq_getLast?,
        List.getLast?_eq_getLast_of_ne_nil hne]
      exact List.getLast_mem hne
  have hlength := (List.Nodup.subperm (selfCount counts).nodup hsubset).length_le
  rwa [List.length_map] at hlength

variable {topK : ℕ}

theorem perm_analyzeTopn (h : (selfCount counts).entries.length ≤ topK) :
    (analyzeTopn counts topK).Perm ((selfCount counts).entries.map fun entry =>
      HotFunction.mk entry.1 entry.2 (((totalCount counts).get? entry.1).getD 0)) := by
  rw [analyzeTopn, List.take_of_length_le]
  · exact List.mergeSort_perm _ _
  · rwa [List.length_mergeSort, List.length_map]

theorem sum_analyzeTopn (h : (selfCount counts).entries.length ≤ topK) :
    ((analyzeTopn counts topK).map HotFunction.self).sum = counts.sum := by
  rw [((perm_analyzeTopn counts h).map _).sum_eq, List.map_map, ← sum_selfCount]
  rfl

theorem totalSamples_computeFlameStats {F : Type} (ops : Floats F) (hotPathK : ℕ)
    (h : (selfCount counts).entries.length ≤ topK) :
    (computeFlameStats ops counts (analyzeTopn counts topK) hotPathK).totalSamples =
      counts.sum := by
  have hsum := sum_analyzeTopn counts h
  unfold computeFlameStats
  dsimp only
  split
  · next hempty =>
    rcases hempty with hzero | hnone
    · exact hzero.symm
    · rw [hnone] at hsum
      exact hsum
  · rfl

variable {counts} {counts' : Dict String ℤ}

theorem selfCount_perm (hcounts : counts.entries.Perm counts'.entries) :
    (selfCount counts).entries.Perm (selfCount counts').entries := by
  refine Dict.perm_of_get?_eq fun func => ?_
  rw [selfCount_eq, selfCount_eq]
  exact Dict.get?_sumUp_perm (hcounts.map _) func

/-- The order of the lines does not matter. -/
theorem analyzeTopn_perm (hcounts : counts.entries.Perm counts'.entries)
    (h : (selfCount counts).entries.length ≤ topK) :
    (analyzeTopn counts topK).Perm (analyzeTopn counts' topK) := by
  have hself := selfCount_perm hcounts
  have htotal : ∀ func, (totalCount counts).get? func = (totalCount counts').get? func := by
    intro func
    rw [totalCount_eq, totalCount_eq]
    exact Dict.get?_sumUp_perm (hcounts.flatMap_right _) func
  have hlength := hself.length_eq
  refine (perm_analyzeTopn counts h).trans ?_
  refine List.Perm.trans ?_ (perm_analyzeTopn counts' (by omega)).symm
  simp only [htotal]
  exact hself.map _

end Functions

/-! ## The condition -/

/-- The stacks and counts that the analysis sets. -/
def keptPairs (entries : List FoldedEntry) : List (String × ℤ) :=
  (keptLines entries).map fun e => (String.ofList (cutStack e.stack), (e.count : ℤ))

theorem sum_keptPairs (entries : List FoldedEntry) :
    ((keptPairs entries).map Prod.snd).sum = samplesIn (keptLines entries) := by
  rw [keptPairs, List.map_map, samplesIn, Nat.cast_list_sum, List.map_map]
  rfl

theorem nodup_keptPairs_iff {entries : List FoldedEntry} :
    ((keptPairs entries).map Prod.fst).Nodup ↔
      ((keptLines entries).map fun e => cutStack e.stack).Nodup := by
  have hfst : (keptPairs entries).map Prod.fst =
      ((keptLines entries).map fun e => cutStack e.stack).map String.ofList := by
    rw [keptPairs, List.map_map, List.map_map]
    rfl
  rw [hfst]
  exact List.nodup_map_iff fun _ _ => ofList_eq_iff.mp

theorem keptPairs_pos {entries : List FoldedEntry}
    (h : ∀ e ∈ entries, e.Readable ∧ 0 < e.count) : ∀ pair ∈ keptPairs entries, 0 < pair.2 := by
  intro pair hpair
  obtain ⟨e, he, rfl⟩ := List.mem_map.mp hpair
  exact Int.natCast_pos.mpr (h e (mem_of_mem_keptLines he)).2

/-- Different stacks are all read. -/
theorem entries_analysedCounts {entries : List FoldedEntry} (hread : ∀ e ∈ entries, e.Readable)
    (hnodup : ((keptLines entries).map fun e => cutStack e.stack).Nodup) (ended : Bool) :
    (analysedCounts (collapsedFile entries ended)).entries = keptPairs entries := by
  rw [analysedCounts_eq entries hread ended]
  exact Dict.ofList_entries_of_nodup (nodup_keptPairs_iff.mpr hnodup)

/-- All of the largest lines are kept. -/
theorem keptLines_of_perm {entries largest : List FoldedEntry}
    (h : largest.Perm (keptLines entries)) : keptLines largest = largest := by
  obtain ⟨rest, -, hlength, -⟩ := keptLines_largest entries
  have hshort : ¬ largest.length > maxCollapsedLines := by
    rw [h.length_eq, hlength]
    omega
  rw [keptLines, if_neg hshort]

/-- The pipeline conserves the samples exactly if the stacks of the lines that are kept stay
different when they are cut. -/
theorem conserves_iff {F : Type} (ops : Floats F) (hotPathK : ℕ) (entries : List FoldedEntry)
    (h : ∀ e ∈ entries, e.Readable ∧ 0 < e.count) (ended : Bool) :
    (∀ topK, (allFuncs (analysedCounts (collapsedFile entries ended))).length ≤ topK →
      Conserves ops hotPathK entries ended topK) ↔
    ((keptLines entries).map fun e => cutStack e.stack).Nodup := by
  have hread : ∀ e ∈ entries, e.Readable := fun e he => (h e he).1
  constructor
  · intro hconserves
    have hself := (hconserves _ le_rfl).self
    rw [sum_analyzeTopn _ (length_selfCount_le _), analysedCounts_eq entries hread] at hself
    have hsum := (Dict.sum_ofList_eq_iff (keptPairs_pos h)).mp
    rw [sum_keptPairs] at hsum
    exact nodup_keptPairs_iff.mp (hsum hself)
  · intro hnodup topK htopK
    have hentries := entries_analysedCounts hread hnodup ended
    have hlength := (length_selfCount_le _).trans htopK
    have hsum : (analysedCounts (collapsedFile entries ended)).sum =
        samplesIn (keptLines entries) := by
      rw [Dict.sum, hentries, sum_keptPairs]
    refine ⟨(sum_analyzeTopn _ hlength).trans hsum,
      (totalSamples_computeFlameStats _ ops hotPathK hlength).trans hsum, ?_⟩
    intro hlong largest ended' hlargest
    have hkept := keptLines_of_perm hlargest
    have hentries' : (analysedCounts (collapsedFile largest ended')).entries =
        keptPairs largest := by
      refine entries_analysedCounts (fun e he => ?_) ?_ ended'
      · exact hread e (mem_of_mem_keptLines (hlargest.subset he))
      · rw [hkept]
        exact (hlargest.map _).nodup_iff.mpr hnodup
    have hsame : (analysedCounts (collapsedFile entries ended)).entries.Perm
        (analysedCounts (collapsedFile largest ended')).entries := by
      rw [hentries, hentries', keptPairs, keptPairs, hkept]
      exact (hlargest.map _).symm
    have hlength' := (selfCount_perm hsame).length_eq
    refine ⟨analyzeTopn_perm hsame hlength, ?_⟩
    rw [totalSamples_computeFlameStats _ ops hotPathK hlength,
      totalSamples_computeFlameStats _ ops hotPathK (by omega)]
    exact (hsame.map _).sum_eq

/-- Fractions in place of floating-point numbers. -/
def fractions : Floats ℚ where
  ofInt n := n
  div n m := n / m
  mul x n := x * n
  add x y := x + y
  exceeds x n := n < x
  round x digits := ⌊x * 10 ^ digits + 1 / 2⌋ / 10 ^ digits

theorem conserves_twoFunctions :
    Conserves fractions 5 [sampled 'a' '1' (by decide) (by decide),
      sampled 'b' '1' (by decide) (by decide)] true 2 := by
  have hlines : ∀ e ∈ [sampled 'a' '1' (by decide) (by decide),
      sampled 'b' '1' (by decide) (by decide)], e.Readable ∧ 0 < e.count :=
    List.forall_mem_cons.mpr ⟨by decide, List.forall_mem_singleton.mpr (by decide)⟩
  refine (conserves_iff fractions 5 _ hlines true).mpr (by decide) 2 ?_
  rw [analysedCounts_eq _ fun e he => (hlines e he).1]
  decide

/-- The lines `a 1` and `a 2` hold three samples, of which the pipeline keeps two. -/
theorem not_conserves :
    ¬ ∀ entries : List FoldedEntry, (∀ e ∈ entries, e.Readable ∧ 0 < e.count) → ∀ ended topK,
      (allFuncs (analysedCounts (collapsedFile entries ended))).length ≤ topK →
        Conserves fractions 5 entries ended topK := by
  intro h
  have hlines : ∀ e ∈ [sampled 'a' '1' (by decide) (by decide),
      sampled 'a' '2' (by decide) (by decide)], e.Readable ∧ 0 < e.count :=
    List.forall_mem_cons.mpr ⟨by decide, List.forall_mem_singleton.mpr (by decide)⟩
  have hself := (h _ hlines true _ le_rfl).self
  rw [sum_analyzeTopn _ (length_selfCount_le _),
    analysedCounts_eq _ fun e he => (hlines e he).1] at hself
  exact absurd hself (by decide)

end MiniDrop
