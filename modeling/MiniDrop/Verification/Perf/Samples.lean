import MiniDrop.Library.Words
import MiniDrop.Model.PerfScript

/-! # Samples

What perf script prints, and how the line of a process is read. -/

namespace MiniDrop

open Regex (Filled)

/-! ## Text -/

/-- A text of one class of characters. -/
structure Token (p : Char → Bool) where
  chars : List Char
  filled : Filled p chars

structure PerfFrame where
  addr : Token isLowerHex
  symbol : List Char
  clear : '\n' ∉ symbol
  known : symbol ≠ "[unknown]".toList
  /-- The offset and the module. -/
  place : Option (Token isLowerHex × List Char)
  place_clear : ∀ p ∈ place, '\n' ∉ p.2

structure PerfSample where
  comm : List Char
  ne : comm ≠ []
  clear : '\n' ∉ comm
  pid : Token Char.isDigit
  cpu : Option (Token Char.isDigit)
  time : Token fun c => c.isDigit || c = '.'
  event : Token fun c => !Python.isSpace c
  /-- The innermost is the first. -/
  frames : List PerfFrame

structure PerfLayout where
  indent : Token fun c => Python.isSpace c && c ≠ '\n'
  /-- Blanks before the number of the process, besides one. -/
  pad : ℕ := 0
  /-- Empty lines at the end. -/
  trailing : ℕ := 0

namespace PerfFrame

def offset (f : PerfFrame) : List Char :=
  match f.place with
  | none => []
  | some (offset, _) => '+' :: '0' :: 'x' :: offset.chars

def closing (f : PerfFrame) : List Char :=
  match f.place with
  | none => []
  | some (_, module) => ' ' :: '(' :: (module ++ [')'])

/-- What stands behind the symbol. -/
def ending (f : PerfFrame) : List Char := f.offset ++ f.closing

def line (layout : PerfLayout) (f : PerfFrame) : List Char :=
  layout.indent.chars ++ f.addr.chars ++ ' ' :: (f.symbol ++ f.ending)

end PerfFrame

namespace PerfSample

def cpuText (s : PerfSample) : List Char :=
  match s.cpu with
  | none => []
  | some cpu => " [".toList ++ cpu.chars ++ [']']

/-- What stands behind the name of the process. -/
def stamp (layout : PerfLayout) (s : PerfSample) : List Char :=
  ' ' :: List.replicate layout.pad ' ' ++ s.pid.chars ++ s.cpuText ++ ' ' :: s.time.chars ++
    ": ".toList ++ s.event.chars ++ [':']

def header (layout : PerfLayout) (s : PerfSample) : List Char := s.comm ++ s.stamp layout

def lines (layout : PerfLayout) (s : PerfSample) : List (List Char) :=
  s.header layout :: s.frames.map (PerfFrame.line layout)

/-- The process is the root. -/
def key (s : PerfSample) : List Char :=
  [';'].intercalate (s.comm :: (s.frames.map PerfFrame.symbol).reverse)

end PerfSample

/-- The samples with empty lines between them. -/
def PerfLayout.text (layout : PerfLayout) (samples : List PerfSample) : List Char :=
  ['\n'].intercalate ([[]].intercalate (samples.map (PerfSample.lines layout)) ++
    List.replicate layout.trailing [])

/-! ## Stamps -/

/-- A number and a time at the front, which look like the end of a header. -/
def HasStamp (s : List Char) : Prop :=
  ∃ blanks number gap time space rest, s = blanks ++ (number ++ (gap ++ (time ++
    ':' :: (space ++ rest)))) ∧ Filled Python.isSpace blanks ∧ Filled Python.isDecimal number ∧
      Filled Python.isSpace gap ∧ Filled isTimeChar time ∧ Filled Python.isSpace space

section Stamps

variable {groups groups' : List (List Char)} {s t u : List Char} {c : Char}

theorem takes_stampPattern :
    (∃ t, stampPattern.Takes groups s groups' t) ↔ groups' = groups ∧ HasStamp s := by
  simp only [stampPattern, Regex.takes_cat_cons, Regex.takes_cat_nil, Regex.takes_plus,
    Regex.takes_char]
  constructor
  · rintro ⟨_, _, m₁, ⟨rfl, blanks, hblanks, rfl⟩, _, m₂, ⟨rfl, number, hnumber, rfl⟩, _, m₃,
      ⟨rfl, gap, hgap, rfl⟩, _, m₄, ⟨rfl, time, htime, rfl⟩, _, m₅, ⟨rfl, rfl⟩, _, m₆,
      ⟨rfl, space, hspace, rfl⟩, rfl, rfl⟩
    exact ⟨rfl, _, _, _, _, _, _, rfl, hblanks, hnumber, hgap, htime, hspace⟩
  · rintro ⟨rfl, blanks, number, gap, time, space, rest, rfl, hblanks, hnumber, hgap, htime,
      hspace⟩
    exact ⟨rest, _, _, ⟨rfl, blanks, hblanks, rfl⟩, _, _, ⟨rfl, number, hnumber, rfl⟩, _, _,
      ⟨rfl, gap, hgap, rfl⟩, _, _, ⟨rfl, time, htime, rfl⟩, _, _, ⟨rfl, rfl⟩, _, _,
      ⟨rfl, space, hspace, rfl⟩, rfl, rfl⟩

theorem run_stampPattern_eq_some {x : List (List Char)} :
    stampPattern.run groups s (fun groups _ => some groups) = some x ↔ x = groups ∧ HasStamp s :=
  Regex.run_groups_eq_some_iff fun _ => takes_stampPattern

theorem run_stampPattern_eq_none :
    stampPattern.run groups s (fun groups _ => some groups) = none ↔ ¬HasStamp s :=
  Regex.run_groups_eq_none_iff fun _ => takes_stampPattern

theorem HasStamp.append (h : HasStamp s) (t : List Char) : HasStamp (s ++ t) := by
  obtain ⟨blanks, number, gap, time, space, rest, rfl, hfilled⟩ := h
  exact ⟨blanks, number, gap, time, space, rest ++ t, by simp, hfilled⟩

theorem HasStamp.isSpace_head (h : HasStamp (c :: s)) : Python.isSpace c = true := by
  obtain ⟨blanks, number, gap, time, space, rest, heq, hblanks, -⟩ := h
  obtain ⟨d, blanks, rfl⟩ := List.exists_cons_of_ne_nil hblanks.ne
  obtain ⟨rfl, -⟩ := List.cons.inj heq
  exact hblanks.all c List.mem_cons_self

theorem groups?_headerPattern (c : Char) (s : List Char) : headerPattern.groups? (c :: s) =
    if Python.isSpace c = false then
      Regex.shortest Regex.dot (fun t => stampPattern.run [(c :: s).take ((c :: s).length - t.length)]
        t fun groups _ => some groups) s
    else none := by
  have hstart : (Regex.one fun c => !Python.isSpace c).run [] (c :: s) = fun
      (k : List (List Char) → List Char → Option (List (List Char))) =>
        if Python.isSpace c = false then k [] s else none := by
    funext k
    rw [Regex.run]
    simp only [Bool.not_eq_true']
  rw [Regex.groups?, headerPattern, Regex.run_cat_cons, Regex.run, Regex.run_cat_cons, hstart]
  rfl

/-- The line of a process: the name is up to the first stamp. -/
theorem headerComm?_eq_some_iff {comm : List Char} :
    headerComm? (c :: s) = some comm ↔ Python.isSpace c = false ∧ ∃ u t, s = u ++ t ∧
      '\n' ∉ u ∧ HasStamp t ∧ (∀ v w, u = v ++ w → w ≠ [] → ¬HasStamp (w ++ t)) ∧
        comm = Python.strip (c :: u) := by
  rw [headerComm?, groups?_headerPattern]
  by_cases hc : Python.isSpace c = false
  · rw [if_pos hc, Option.bind_eq_some_iff]
    constructor
    · rintro ⟨groups, hgroups, hcomm⟩
      obtain ⟨u, t, rfl, hdot, ht, hnone⟩ := Regex.of_shortest_eq_some hgroups
      obtain ⟨rfl, hstamp⟩ := run_stampPattern_eq_some.mp ht
      refine ⟨hc, u, t, rfl, fun hmem => ?_, hstamp, fun v w huw hw => ?_, ?_⟩
      · exact absurd (hdot _ hmem) (by decide)
      · exact run_stampPattern_eq_none.mp (hnone v w huw hw)
      · rw [← List.cons_append, Regex.take_consumed] at hcomm
        exact (Option.some.inj hcomm).symm
    · rintro ⟨-, u, t, rfl, hnewline, hstamp, hfirst, rfl⟩
      refine ⟨[c :: u], ?_, rfl⟩
      have hdot : ∀ d ∈ u, Regex.dot d = true := fun d hd =>
        decide_eq_true fun heq => hnewline (heq ▸ hd)
      rw [Regex.shortest_append hdot fun v w huw hw =>
        run_stampPattern_eq_none.mpr (hfirst v w huw hw)]
      refine Regex.shortest_of_some (run_stampPattern_eq_some.mpr ⟨?_, hstamp⟩)
      rw [← List.cons_append, Regex.take_consumed]
  · rw [if_neg hc]
    constructor
    · rintro ⟨⟩
    · rintro ⟨hspace, -⟩
      exact absurd hspace hc

end Stamps

end MiniDrop
