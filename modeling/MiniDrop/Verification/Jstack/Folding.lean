import MiniDrop.Library.Lines
import MiniDrop.Model.Jstack
import Mathlib.Tactic.Tauto

/-! # Every thread section of jstack counts once

The loop keeps the frames of an open section in one variable, which three places count and clear.
The sections of a text are read off its lines without such a variable. -/

namespace MiniDrop

open Streams

/-! ## Sections -/

def IsHeader (line : List Char) : Prop := line.head? = some '"'

instance (line : List Char) : Decidable (IsHeader line) :=
  inferInstanceAs (Decidable (line.head? = some '"'))

/-- Up to the next header or blank line. -/
def sectionBody (lines : List (List Char)) : List (List Char) :=
  lines.takeWhile fun line => ¬IsHeader line ∧ line ≠ []

/-- Each header with the lines of its thread. -/
def sections : List (List Char) → List (List (List Char))
  | [] => []
  | line :: lines =>
    if IsHeader line then (line :: sectionBody lines) :: sections lines else sections lines

/-- A line without its end; a zero ends a text. -/
def visible (line : List Char) : List Char := withoutEnd (line.takeWhile (· ≠ '\x00'))

def visibleLines (output : List Char) : List (List Char) := (lines output).map visible

/-- The names in the frames of these lines. -/
def frameNames (lines : List (List Char)) : List (List Char) :=
  (lines.filterMap frameOf?).filter (· ≠ [])

/-- The root comes last in a thread and first in a folded stack; without a frame there is none. -/
def foldedStack (frames : List (List Char)) : Option String :=
  if frames = [] then none else some (String.ofList ([';'].intercalate frames.reverse))

/-- The folded stacks of the sections, behind their headers. -/
def foldedSections (lines : List (List Char)) : List String :=
  (sections lines).filterMap fun lines => foldedStack (frameNames lines.tail)

/-- The frame that a line shows. -/
theorem frameOf?_at {indent name : List Char} (hindent : '\t' ∉ indent) (hname : '(' ∉ name)
    (args : List Char) :
    frameOf? (indent ++ '\t' :: 'a' :: 't' :: ' ' :: (name ++ '(' :: args)) = some name := by
  have hbehind : behindFirst ['\t', 'a', 't', ' ']
      (indent ++ '\t' :: 'a' :: 't' :: ' ' :: (name ++ '(' :: args)) =
        some (name ++ '(' :: args) := by
    induction indent with
    | nil => simp [behindFirst]
    | cons c indent ih =>
        obtain ⟨hc, hindent⟩ : '\t' ≠ c ∧ '\t' ∉ indent := by simpa using hindent
        rw [List.cons_append, behindFirst, if_neg (by simp [hc]), ih hindent]
  rw [frameOf?, hbehind, Option.map_some, Text.takeWhile_append_cons_of_notMem hname]

/-! ## Counting -/

def countKey (collapsed : StdMap ℤ) (key : String) : StdMap ℤ :=
  collapsed.insert key (collapsed.getD key 0 + 1)

theorem countStack_eq (collapsed : StdMap ℤ) (frames : List (List Char)) :
    countStack collapsed frames = (foldedStack frames).toList.foldl countKey collapsed := by
  unfold countStack foldedStack
  split <;> rfl

theorem getD_countKey (collapsed : StdMap ℤ) (k key : String) :
    (countKey collapsed k).getD key 0 = collapsed.getD key 0 + if k = key then 1 else 0 := by
  rw [countKey, Std.ExtTreeMap.getD_insert]
  by_cases hk : k = key
  · subst hk
    simp
  · simp [hk]

theorem getElem?_countKey_of_ne {collapsed : StdMap ℤ} {k key : String} (hk : k ≠ key) :
    (countKey collapsed k)[key]? = collapsed[key]? := by
  simp [countKey, hk]

/-- What becomes of an entry when keys are counted. -/
theorem getElem?_foldl_countKey (keys : List String) (collapsed : StdMap ℤ) (key : String) :
    (keys.foldl countKey collapsed)[key]? = if keys.count key = 0 then collapsed[key]?
      else some (collapsed.getD key 0 + keys.count key) := by
  induction keys generalizing collapsed with
  | nil => rfl
  | cons k keys ih =>
      rw [List.foldl_cons, ih, getD_countKey]
      by_cases hk : k = key
      · subst hk
        have hentry : (countKey collapsed k)[k]? = some (collapsed.getD k 0 + 1) := by
          simp [countKey]
        rw [hentry, List.count_cons_self, if_neg (Nat.succ_ne_zero _), if_pos rfl]
        split
        · rename_i hzero
          rw [hzero]
          rfl
        · congr 1
          omega
      · rw [getElem?_countKey_of_ne hk, List.count_cons_of_ne hk, if_neg hk, Int.add_zero]

/-! ## The loop -/

/-- No frame is kept outside a thread. -/
def JstackLoop.Closed (s : JstackLoop) : Prop := s.inThread = false → s.stack = []

/-- The stacks that the loop still counts: that of the open section, then those of the sections
that follow. -/
def JstackLoop.pending (s : JstackLoop) (lines : List (List Char)) : List String :=
  (if s.inThread then (foldedStack (s.stack ++ frameNames (sectionBody lines))).toList else []) ++
    foldedSections lines

section Loop

variable {s : JstackLoop} {line buffer : List Char} {lines : List (List Char)}

theorem foldedSections_header (h : IsHeader line) : foldedSections (line :: lines) =
    (foldedStack (frameNames (sectionBody lines))).toList ++ foldedSections lines := by
  unfold foldedSections
  rw [sections, if_pos h, List.filterMap_cons]
  dsimp only [List.tail_cons]
  cases foldedStack (frameNames (sectionBody lines)) <;> rfl

theorem foldedSections_of_not_header (h : ¬IsHeader line) :
    foldedSections (line :: lines) = foldedSections lines := by
  unfold foldedSections
  rw [sections, if_neg h]

theorem sectionBody_of_end (h : IsHeader line ∨ line = []) : sectionBody (line :: lines) = [] :=
  List.takeWhile_cons_of_neg (by simp only [decide_eq_true_eq]; tauto)

theorem sectionBody_of_inside (h : ¬IsHeader line) (hne : line ≠ []) :
    sectionBody (line :: lines) = line :: sectionBody lines :=
  List.takeWhile_cons_of_pos (by simp only [decide_eq_true_eq]; exact ⟨h, hne⟩)

theorem frameNames_cons (line : List Char) (lines : List (List Char)) :
    frameNames (line :: lines) =
      ((frameOf? line).toList.filter (· ≠ [])) ++ frameNames lines := by
  unfold frameNames
  rw [List.filterMap_cons]
  cases frameOf? line with
  | none => rfl
  | some frame => by_cases hname : frame = [] <;> simp [hname]

/-- The counts after the open stack has been counted. -/
theorem foldl_pending_of_end (hs : s.Closed) (hend : IsHeader line ∨ line = [])
    (lines : List (List Char)) :
    (s.pending (line :: lines)).foldl countKey s.collapsed =
      (foldedSections (line :: lines)).foldl countKey (countStack s.collapsed s.stack) := by
  rw [countStack_eq, ← List.foldl_append, JstackLoop.pending]
  cases hin : s.inThread with
  | true =>
      rw [if_pos rfl, sectionBody_of_end hend]
      simp [frameNames]
  | false =>
      rw [if_neg Bool.false_ne_true, hs hin]
      rfl

/-- One line leaves the counts of what is to come. -/
theorem readLine_spec (hs : s.Closed) (buffer : List Char) (lines : List (List Char)) :
    (s.readLine buffer).Closed ∧
      ((s.readLine buffer).pending lines).foldl countKey (s.readLine buffer).collapsed =
        (s.pending (visible buffer :: lines)).foldl countKey s.collapsed := by
  unfold JstackLoop.readLine visible
  generalize withoutEnd (buffer.takeWhile (· ≠ '\x00')) = line
  dsimp only
  by_cases hheader : IsHeader line
  · rw [if_pos (show line.head? = some '"' from hheader)]
    refine ⟨nofun, ?_⟩
    rw [foldl_pending_of_end hs (.inl hheader), foldedSections_header hheader]
    rfl
  rw [if_neg (show line.head? ≠ some '"' from hheader)]
  by_cases hin : s.inThread
  · rw [if_neg (by simp [hin])]
    by_cases hblank : line = []
    · rw [if_pos hblank]
      refine ⟨fun _ => rfl, ?_⟩
      rw [foldl_pending_of_end hs (.inr hblank), foldedSections_of_not_header hheader]
      rfl
    rw [if_neg hblank]
    have hpending : s.pending (line :: lines) =
        (foldedStack (s.stack ++ ((frameOf? line).toList.filter (· ≠ []) ++
          frameNames (sectionBody lines)))).toList ++ foldedSections lines := by
      rw [JstackLoop.pending, if_pos hin, sectionBody_of_inside hheader hblank, frameNames_cons,
        foldedSections_of_not_header hheader]
    rw [hpending]
    cases hframe : frameOf? line with
    | none =>
        refine ⟨hs, ?_⟩
        rw [JstackLoop.pending, if_pos hin]
        rfl
    | some frame =>
        dsimp only
        by_cases hname : frame = []
        · rw [if_pos hname]
          refine ⟨hs, ?_⟩
          rw [JstackLoop.pending, if_pos hin]
          simp [hname]
        · rw [if_neg hname]
          refine ⟨fun h => absurd (hin.symm.trans h) (by decide), ?_⟩
          rw [JstackLoop.pending, if_pos hin]
          simp [hname]
  · rw [if_pos (by simpa using hin)]
    refine ⟨hs, ?_⟩
    rw [JstackLoop.pending, JstackLoop.pending, if_neg hin, if_neg hin,
      foldedSections_of_not_header hheader]

/-- All lines, and the end of the output, from any state of the loop. -/
theorem foldl_readLine_spec (hs : s.Closed) (buffers : List (List Char)) :
    countStack (buffers.foldl JstackLoop.readLine s).collapsed
        (buffers.foldl JstackLoop.readLine s).stack =
      (s.pending (buffers.map visible)).foldl countKey s.collapsed := by
  induction buffers generalizing s with
  | nil =>
      rw [List.foldl_nil, countStack_eq, List.map_nil, JstackLoop.pending]
      cases hin : s.inThread with
      | true => simp [sectionBody, frameNames, foldedSections, sections]
      | false =>
          rw [hs hin]
          rfl
  | cons buffer buffers ih =>
      obtain ⟨hclosed, hcounts⟩ := readLine_spec hs buffer (buffers.map visible)
      rw [List.foldl_cons, ih hclosed, hcounts, List.map_cons]

end Loop

/-! ## Passes -/

section Pass

variable {output : List Char}

theorem samplePass_eq (hshort : ∀ line ∈ lines output, line.length < 4096)
    (collapsed : StdMap ℤ) : samplePass collapsed output =
      (foldedSections (visibleLines output)).foldl countKey collapsed := by
  unfold samplePass
  rw [fgetsAll_eq_lines hshort]
  exact foldl_readLine_spec (fun _ => rfl) (lines output)

/-- Two threads without a blank line between them, and one without frames. -/
def threadDump : List Char :=
  "\"a\"\n\tat f(A)\n\tat g(A)\n\"b\"\n\tat f(B)\n\n\"c\"\n".toList

/-- All passes of a recording that does not fail. -/
theorem samplePasses_eq {runs : List JstackRun}
    (hshort : ∀ run ∈ runs, ∀ line ∈ lines run.output, line.length < 4096)
    {collapsed counted : StdMap ℤ} (hok : samplePasses collapsed (runs.map some) = .ok counted) :
    counted = (runs.flatMap fun run => foldedSections (visibleLines run.output)).foldl countKey
      collapsed := by
  induction runs generalizing collapsed with
  | nil => exact (Except.ok.inj hok).symm
  | cons run runs ih =>
      obtain ⟨hfirst, hrest⟩ := List.forall_mem_cons.mp hshort
      rw [List.map_cons, samplePasses] at hok
      split at hok
      · cases hok
      · rw [ih hrest hok, samplePass_eq hfirst, List.flatMap_cons, List.foldl_append]

end Pass

end MiniDrop
