import MiniDrop.Model.Assembly
import MiniDrop.Verification.Perf.Frames

/-! # Listings of objdump

What objdump -d prints, and how each of its lines is read. -/

namespace MiniDrop

open Regex (Filled)

/-! ## Lines -/

/-- An opcode, perhaps with operands. -/
structure AsmText where
  opcode : Token fun c => !Python.isSpace c
  operands : List Char := []
  /-- Blanks between them, besides one. -/
  gap : ℕ := 0
  trimmed : Python.strip operands = operands
  clear : '\n' ∉ operands

/-- An address and bytes there. -/
structure AsmPlace where
  /-- Blanks at the front, besides one. -/
  indent : ℕ := 1
  address : Token isLowerHex
  bytes : List Char
  bytes_ne : bytes ≠ []
  bytes_clear : '\n' ∉ bytes
  bytes_tab : '\t' ∉ bytes

inductive AsmLine where
  /-- With blanks before and behind the text. -/
  | instruction (place : AsmPlace) (pad : ℕ) (asm : AsmText) (trail : ℕ)
  /-- More bytes of the instruction before. -/
  | continuation (place : AsmPlace)
  | other (line : List Char) (clear : '\n' ∉ line)
      (no_function : functionPattern.groups? (Python.rstrip line) = none)
      (no_instruction : instructionPattern.groups? (Python.rstrip line) = none)

def blank (n : ℕ) : List Char := List.replicate n ' '

def AsmText.text (a : AsmText) : List Char :=
  a.opcode.chars ++ if a.operands = [] then [] else ' ' :: blank a.gap ++ a.operands

namespace AsmPlace

def text (p : AsmPlace) : List Char :=
  ' ' :: blank p.indent ++ p.address.chars ++ ':' :: '\t' :: p.bytes

/-- The line without blanks at its end. -/
def lineWith (p : AsmPlace) (pad : ℕ) (asm : AsmText) : List Char :=
  p.text ++ '\t' :: (blank pad ++ asm.text)

/-- What the analyzer keeps of it. -/
def instruction (arch : Arch) (p : AsmPlace) (pad : ℕ) (asm : AsmText) : Instruction where
  address := Python.hexNat p.address.chars
  opcode := asm.opcode.chars
  operands := asm.operands
  rawLine := p.lineWith pad asm
  isCall := isOneOf ["call", "callq", "bl", "blr"] asm.opcode.chars
  isJump := isOneOf x86BranchOpcodes asm.opcode.chars || ['b'].isPrefixOf asm.opcode.chars
  isMemory := isMemoryAccess asm.opcode.chars asm.operands arch

end AsmPlace

namespace AsmLine

def text : AsmLine → List Char
  | instruction place pad asm trail => place.lineWith pad asm ++ blank trail
  | continuation place => place.text
  | other line _ _ _ => line

def instruction? (arch : Arch) : AsmLine → Option Instruction
  | instruction place pad asm _ => some (place.instruction arch pad asm)
  | continuation _ => none
  | other .. => none

end AsmLine

structure AsmFunction where
  address : Token isLowerHex
  name : List Char
  ne : name ≠ []
  clear : '\n' ∉ name
  body : List AsmLine

namespace AsmFunction

def header (f : AsmFunction) : List Char :=
  f.address.chars ++ ' ' :: '<' :: (f.name ++ ['>', ':'])

def lines (f : AsmFunction) : List (List Char) := f.header :: f.body.map AsmLine.text

def instructions (arch : Arch) (f : AsmFunction) : List Instruction :=
  f.body.filterMap (AsmLine.instruction? arch)

end AsmFunction

/-- Lines that begin no function, and functions. -/
structure Disassembly where
  preamble : List (List Char)
  functions : List AsmFunction
  preamble_clear : ∀ line ∈ preamble, '\n' ∉ line
  preamble_function : ∀ line ∈ preamble, functionPattern.groups? (Python.rstrip line) = none

namespace Disassembly

def lines (d : Disassembly) : List (List Char) := d.preamble ++ d.functions.flatMap AsmFunction.lines

def text (d : Disassembly) : List Char := d.lines.flatMap (· ++ ['\n'])

end Disassembly

/-! ## Patterns -/

section Patterns

theorem isSpace_of_mem_blank {n : ℕ} {c : Char} (h : c ∈ blank n) : Python.isSpace c = true := by
  rw [List.eq_of_mem_replicate h]
  decide

/-- Indented lines begin no function. -/
theorem functionPattern_eq_none {c : Char} (hc : isLowerHex c = false) (s : List Char) :
    functionPattern.groups? (c :: s) = none :=
  Regex.run_plus_of_neg hc

theorem groups?_header (f : AsmFunction) :
    functionPattern.groups? f.header = some [f.address.chars, f.name] := by
  have hdot : Filled Regex.dot f.name :=
    ⟨f.ne, fun c hc => decide_eq_true fun heq => f.clear (heq ▸ hc)⟩
  rw [Regex.groups?, functionPattern, AsmFunction.header, Regex.run_cat_cons]
  refine Regex.run_group_plus_of_some f.address.filled (by simp; decide) ?_
  rw [Regex.run_cat_cons]
  refine Regex.run_plus_of_some (u := [' ']) ⟨List.cons_ne_nil _ _, by simp; decide⟩ (by simp; decide) ?_
  rw [Regex.run_cat_cons, Regex.run_char, Regex.run_cat_cons]
  refine Regex.run_group_plus_append hdot ?_ ?_
  · simp
  · -- nothing shorter than the two last characters ends the name
    intro groups v w hvw hv
    have hrest : w = [':'] ∨ w = [] := by
      cases v with
      | nil => exact absurd rfl hv
      | cons c v =>
          rw [List.cons_append, List.cons.injEq] at hvw
          cases v with
          | nil => exact .inl hvw.2.symm
          | cons d v =>
              rw [List.cons_append, List.cons.injEq] at hvw
              exact .inr (List.append_eq_nil_iff.mp hvw.2.2.symm).2
    rw [Regex.run_cat_cons]
    rcases hrest with rfl | rfl
    · rw [Regex.run_char_of_ne (by decide)]
    · rfl

variable {asm : AsmText} {p : AsmPlace}

theorem AsmText.ne_nil (asm : AsmText) : asm.text ≠ [] :=
  List.append_ne_nil_of_left_ne_nil asm.opcode.filled.ne _

theorem AsmText.notSpace_head (asm : AsmText) : ∀ c ∈ asm.text.head?, Python.isSpace c = false := by
  intro c hc
  rw [AsmText.text, List.head?_append_of_ne_nil _ asm.opcode.filled.ne] at hc
  simpa using asm.opcode.filled.all c (List.mem_of_mem_head? hc)

theorem AsmText.notSpace_last (asm : AsmText) :
    ∀ c ∈ asm.text.getLast?, Python.isSpace c = false := by
  intro c hc
  rw [AsmText.text] at hc
  split at hc
  · rw [List.append_nil] at hc
    simpa using asm.opcode.filled.all c (List.mem_of_mem_getLast? hc)
  · next hne =>
    rw [List.getLast?_append_of_ne_nil _ (by simp), List.getLast?_append_of_ne_nil _ hne] at hc
    rw [← asm.trimmed] at hc
    exact Text.getLast_trim _ c hc

theorem AsmText.newline_notMem (asm : AsmText) : '\n' ∉ asm.text := by
  have hopcode : '\n' ∉ asm.opcode.chars := fun h => by
    have hspace := asm.opcode.filled.all _ h
    exact absurd hspace (by decide)
  have hblank : '\n' ∉ blank asm.gap := fun h => absurd (List.eq_of_mem_replicate h) (by decide)
  rw [AsmText.text]
  split
  · simpa using hopcode
  · simp [hopcode, hblank, asm.clear]

theorem groups?_lineWith (p : AsmPlace) (pad : ℕ) (asm : AsmText) :
    instructionPattern.groups? (p.lineWith pad asm) =
      some [p.address.chars, p.bytes, asm.text] := by
  have hassoc : p.lineWith pad asm = (' ' :: blank p.indent) ++ (p.address.chars ++ ':' :: '\t' ::
      (p.bytes ++ '\t' :: (blank pad ++ asm.text))) := by
    simp [AsmPlace.lineWith, AsmPlace.text]
  have hindent : Filled Python.isSpace (' ' :: blank p.indent) :=
    ⟨List.cons_ne_nil _ _, List.forall_mem_cons.mpr ⟨by decide, fun c => isSpace_of_mem_blank⟩⟩
  have hhead : ∀ c ∈ (p.address.chars ++ ':' :: '\t' ::
      (p.bytes ++ '\t' :: (blank pad ++ asm.text))).head?, Python.isSpace c = false := by
    intro c hc
    rw [List.head?_append_of_ne_nil _ p.address.filled.ne] at hc
    exact not_isSpace_of_isLowerHex (p.address.filled.all c (List.mem_of_mem_head? hc))
  have hdot : ∀ c ∈ asm.text, Regex.dot c = true := fun c hc =>
    decide_eq_true fun heq => asm.newline_notMem (heq ▸ hc)
  rw [Regex.groups?, instructionPattern, hassoc, Regex.run_cat_cons]
  refine Regex.run_plus_of_some hindent hhead ?_
  rw [Regex.run_cat_cons]
  refine Regex.run_group_plus_of_some p.address.filled (by simp; decide) ?_
  rw [Regex.run_cat_cons, Regex.run_char, Regex.run_cat_cons, Regex.run_char, Regex.run_cat_cons]
  simp only [Regex.run_cat_cons]
  refine Regex.run_group_plusFew_char p.bytes_ne p.bytes_clear p.bytes_tab ?_
  rw [Regex.run]
  refine Regex.longest_of_some ?_
  rw [Regex.dropWhile_filled (fun c => isSpace_of_mem_blank) asm.notSpace_head]
  exact Regex.run_group_plus_atEnd asm.ne_nil hdot

/-- A match has two tabs behind the address. -/
theorem two_le_count_of_instruction {s : List Char} (h : instructionPattern.groups? s ≠ none) :
    2 ≤ s.count '\t' := by
  obtain ⟨groups, hgroups⟩ := Option.ne_none_iff_exists'.mp h
  obtain ⟨_, _, htakes, -⟩ := Regex.of_run_eq_some hgroups
  simp only [instructionPattern, Regex.takes_cat_cons] at htakes
  obtain ⟨_, _, hindent, _, _, haddress, _, _, hcolon, _, _, htab, _, _, hbytes, _, _, htab', -⟩ :=
    htakes
  have hfirst := (Regex.takes_char.mp htab).2
  have hsecond := (Regex.takes_char.mp htab').2
  have hsuffix := hbytes.suffix.sublist.count_le '\t'
  have hbehind := (hcolon.suffix.trans (haddress.suffix.trans hindent.suffix)).sublist.count_le '\t'
  rw [hsecond, List.count_cons_self] at hsuffix
  rw [hfirst, List.count_cons_self] at hbehind
  omega

theorem count_tab_text (p : AsmPlace) : p.text.count '\t' = 1 := by
  have haddress : '\t' ∉ p.address.chars := fun h =>
    absurd (p.address.filled.all _ h) (by decide)
  have hblank : '\t' ∉ blank p.indent := fun h => absurd (List.eq_of_mem_replicate h) (by decide)
  rw [AsmPlace.text]
  simp [List.count_eq_zero_of_not_mem haddress, List.count_eq_zero_of_not_mem hblank,
    List.count_eq_zero_of_not_mem p.bytes_tab]

theorem instructionPattern_continuation (p : AsmPlace) :
    instructionPattern.groups? (Python.rstrip p.text) = none := by
  by_contra h
  have htabs := two_le_count_of_instruction h
  have hle := (List.rdropWhile_prefix Python.isSpace p.text).sublist.count_le '\t'
  rw [count_tab_text] at hle
  rw [Python.rstrip] at htabs
  omega

/-- An indented line begins no function. -/
theorem functionPattern_indented (s : List Char) :
    functionPattern.groups? (Python.rstrip (' ' :: s)) = none := by
  obtain ⟨rest, hrest⟩ := List.rdropWhile_prefix Python.isSpace (' ' :: s)
  rw [Python.rstrip]
  cases hline : (' ' :: s).rdropWhile Python.isSpace with
  | nil => rfl
  | cons c line =>
      rw [hline, List.cons_append, List.cons.injEq] at hrest
      rw [hrest.1]
      exact functionPattern_eq_none (by decide) line

end Patterns

end MiniDrop
