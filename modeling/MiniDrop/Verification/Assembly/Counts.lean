import MiniDrop.Library.Ranking
import MiniDrop.Verification.Assembly.Listing

/-! # Instructions are counted once

Each function of a listing is counted with its own instructions. -/

namespace MiniDrop

variable {arch : Arch}

/-! ## Instructions -/

theorem strip_text (asm : AsmText) : Python.strip asm.text = asm.text :=
  Text.trim_of_ends asm.notSpace_head asm.notSpace_last

theorem splitOnce_text (asm : AsmText) : Python.splitOnce asm.text =
    asm.opcode.chars :: if asm.operands = [] then [] else [asm.operands] := by
  obtain ⟨c, cs, hopcode⟩ := List.exists_cons_of_ne_nil asm.opcode.filled.ne
  have hword : ∀ d ∈ asm.opcode.chars, (!Python.isSpace d) = true := asm.opcode.filled.all
  have hc : Python.isSpace c = false := by simpa using hword c (hopcode ▸ List.mem_cons_self)
  obtain ⟨rest, htext, htake, hdrop⟩ : ∃ rest, asm.text = c :: rest ∧
      (c :: rest).takeWhile (!Python.isSpace ·) = asm.opcode.chars ∧
      ((c :: rest).dropWhile (!Python.isSpace ·)).dropWhile Python.isSpace = asm.operands := by
    by_cases hnil : asm.operands = []
    · refine ⟨cs, ?_, ?_, ?_⟩
      · rw [AsmText.text, if_pos hnil, List.append_nil, hopcode]
      · rw [← hopcode, List.takeWhile_eq_self_iff.mpr hword]
      · rw [← hopcode, List.dropWhile_eq_nil_iff.mpr hword, hnil]
        rfl
    · have hhead : ∀ d ∈ (' ' :: blank asm.gap ++ asm.operands).head?, (!Python.isSpace d) = false := by
        simp
        decide
      have hoperands : ∀ d ∈ asm.operands.head?, Python.isSpace d = false := by
        rw [← asm.trimmed]
        exact Text.head_trim _
      have hblanks : ∀ d ∈ ' ' :: blank asm.gap, Python.isSpace d = true :=
        List.forall_mem_cons.mpr ⟨by decide, fun d => isSpace_of_mem_blank⟩
      have htext : asm.text = asm.opcode.chars ++ (' ' :: blank asm.gap ++ asm.operands) := by
        rw [AsmText.text, if_neg hnil]
      refine ⟨cs ++ (' ' :: blank asm.gap ++ asm.operands), ?_, ?_, ?_⟩
      · rw [htext, hopcode, List.cons_append]
      · rw [← List.cons_append, ← hopcode, List.takeWhile_append_of_pos hword]
        simp
        decide
      · rw [← List.cons_append, ← hopcode, Regex.dropWhile_filled hword hhead,
          Regex.dropWhile_filled hblanks hoperands]
  rw [Python.splitOnce, htext, List.dropWhile_cons_of_neg (by simp [hc])]
  simp only [htake, hdrop]

theorem instructionOf_text (p : AsmPlace) (pad : ℕ) (asm : AsmText) :
    instructionOf arch p.address.chars asm.text (p.lineWith pad asm) = p.instruction arch pad asm := by
  rw [instructionOf, AsmPlace.instruction, strip_text, splitOnce_text]
  by_cases hnil : asm.operands = []
  · rw [if_pos hnil, hnil]
    rfl
  · rw [if_neg hnil]
    rfl

/-! ## The loop -/

section Loop

variable {s : ObjdumpFold}

theorem rstrip_instruction (p : AsmPlace) (pad trail : ℕ) (asm : AsmText) :
    Python.rstrip (p.lineWith pad asm ++ blank trail) = p.lineWith pad asm := by
  refine Text.rdropWhile_append (fun c hc => ?_) fun c => isSpace_of_mem_blank
  rw [AsmPlace.lineWith, List.getLast?_append_of_ne_nil _ (List.cons_ne_nil _ _), ← List.cons_append,
    List.getLast?_append_of_ne_nil _ asm.ne_nil] at hc
  exact asm.notSpace_last c hc

theorem objdumpLine_nil : objdumpLine arch s [] = s := rfl

theorem objdumpLine_preamble {line : List Char} (hs : s.currentFunc = none)
    (h : functionPattern.groups? (Python.rstrip line) = none) : objdumpLine arch s line = s := by
  rw [objdumpLine]
  rw [h]
  dsimp only
  split
  · rw [hs]
    rfl
  · rfl

theorem objdumpLine_header (f : AsmFunction) : objdumpLine arch s f.header =
    { functions := s.save, currentFunc := some (f.name, Python.hexNat f.address.chars) } := by
  have hstrip : Python.rstrip f.header = f.header := by
    refine rstrip_of_last fun c hc => ?_
    have hcolon : f.header = f.address.chars ++ ' ' :: '<' :: (f.name ++ ['>']) ++ [':'] := by
      simp [AsmFunction.header]
    have hlast : f.header.getLast? = some ':' := by rw [hcolon, List.getLast?_concat]
    rw [hlast, Option.mem_some_iff] at hc
    rw [← hc]
    decide
  rw [objdumpLine]
  rw [hstrip, groups?_header]

theorem objdumpLine_body (hs : s.currentFunc.isSome = true) (line : AsmLine) :
    objdumpLine arch s line.text = { s with
      currentInstructions := s.currentInstructions ++ (line.instruction? arch).toList } := by
  rw [objdumpLine]
  cases line with
  | instruction p pad asm trail =>
      have hfunction : functionPattern.groups? (p.lineWith pad asm) = none := by
        rw [← rstrip_instruction p pad trail asm]
        exact functionPattern_indented _
      rw [AsmLine.text, rstrip_instruction, hfunction]
      dsimp only
      rw [groups?_lineWith]
      dsimp only
      rw [if_pos hs, instructionOf_text]
      rfl
  | continuation p =>
      have hfunction : functionPattern.groups? (Python.rstrip p.text) = none :=
        functionPattern_indented _
      rw [AsmLine.text, hfunction]
      dsimp only
      rw [instructionPattern_continuation]
      simp [AsmLine.instruction?]
  | other line clear hfunction hinstruction =>
      rw [AsmLine.text, hfunction]
      dsimp only
      rw [hinstruction]
      simp [AsmLine.instruction?]

theorem foldl_body (hs : s.currentFunc.isSome = true) (body : List AsmLine) :
    (body.map AsmLine.text).foldl (objdumpLine arch) s = { s with
      currentInstructions :=
        s.currentInstructions ++ body.filterMap (AsmLine.instruction? arch) } := by
  induction body generalizing s with
  | nil => simp
  | cons line body ih =>
      rw [List.map_cons, List.foldl_cons, objdumpLine_body hs, ih (by exact hs), List.append_assoc]
      cases h : line.instruction? arch with
      | none => simp [h]
      | some inst => simp [h]

/-- What is counted for a function. -/
def AsmFunction.stats (arch : Arch) (f : AsmFunction) : FunctionStats :=
  analyzeFunction f.name (Python.hexNat f.address.chars) (f.instructions arch)

theorem save_function (f : AsmFunction) :
    (f.lines.foldl (objdumpLine arch) s).save = s.save ++ [f.stats arch] := by
  rw [AsmFunction.lines, List.foldl_cons, objdumpLine_header, foldl_body rfl]
  rfl

theorem save_functions (functions : List AsmFunction) :
    ((functions.flatMap AsmFunction.lines).foldl (objdumpLine arch) s).save =
      s.save ++ functions.map (AsmFunction.stats arch) := by
  induction functions generalizing s with
  | nil => simp
  | cons f functions ih =>
      rw [List.flatMap_cons, List.foldl_append, ih, save_function, List.append_assoc]
      rfl

end Loop

/-! ## Listings -/

section Lines

theorem newline_notMem_place (p : AsmPlace) : '\n' ∉ p.text := by
  have haddress : '\n' ∉ p.address.chars := fun h => absurd (p.address.filled.all _ h) (by decide)
  have hblank : '\n' ∉ blank p.indent := fun h => absurd (List.eq_of_mem_replicate h) (by decide)
  rw [AsmPlace.text]
  simp [haddress, hblank, p.bytes_clear]

theorem AsmLine.newline_notMem (line : AsmLine) : '\n' ∉ line.text := by
  have hblank : ∀ n, '\n' ∉ blank n := fun n h => absurd (List.eq_of_mem_replicate h) (by decide)
  cases line with
  | instruction p pad asm trail =>
      rw [AsmLine.text, AsmPlace.lineWith]
      simp [newline_notMem_place, hblank, asm.newline_notMem]
  | continuation p => exact newline_notMem_place p
  | other line clear _ _ => exact clear

theorem AsmFunction.newline_notMem (f : AsmFunction) : ∀ line ∈ f.lines, '\n' ∉ line := by
  have haddress : '\n' ∉ f.address.chars := fun h => absurd (f.address.filled.all _ h) (by decide)
  refine List.forall_mem_cons.mpr ⟨?_, fun line hline => ?_⟩
  · rw [AsmFunction.header]
    simp [haddress, f.clear]
  · obtain ⟨line, -, rfl⟩ := List.mem_map.mp hline
    exact line.newline_notMem

theorem splitOn_text (d : Disassembly) : d.text.splitOn '\n' = d.lines ++ [[]] := by
  refine Text.splitOn_flatMap_concat fun line hline => ?_
  rcases List.mem_append.mp hline with h | h
  · exact d.preamble_clear line h
  · obtain ⟨f, -, hline⟩ := List.mem_flatMap.mp h
    exact f.newline_notMem line hline

theorem foldl_preamble {lines : List (List Char)}
    (h : ∀ line ∈ lines, functionPattern.groups? (Python.rstrip line) = none) :
    lines.foldl (objdumpLine arch) {} = {} := by
  induction lines with
  | nil => rfl
  | cons line lines ih =>
      rw [List.forall_mem_cons] at h
      rw [List.foldl_cons, objdumpLine_preamble rfl h.1, ih h.2]

/-- Each function has its own instructions, and no line is lost. -/
theorem functions_text (d : Disassembly) :
    ((d.text.splitOn '\n').foldl (objdumpLine arch) {}).save =
      d.functions.map (AsmFunction.stats arch) := by
  rw [splitOn_text, List.foldl_append, List.foldl_cons, objdumpLine_nil, List.foldl_nil,
    Disassembly.lines, List.foldl_append, foldl_preamble d.preamble_function, save_functions]
  rfl

end Lines

/-! ## The report -/

/-- These are the figures of the function. -/
structure FunctionStats.Describes (stats : FunctionStats) (arch : Arch) (f : AsmFunction) :
    Prop where
  name : stats.name = f.name
  start : stats.addressStart = Python.hexNat f.address.chars
  stop : ∀ inst ∈ (f.instructions arch).getLast?, stats.addressEnd = inst.address
  count : stats.instructionCount = (f.instructions arch).length
  calls : stats.callCount = (f.instructions arch).countP Instruction.isCall
  jumps : stats.jumpCount = (f.instructions arch).countP Instruction.isJump
  memory : stats.memoryAccessCount = (f.instructions arch).countP Instruction.isMemory
  opcodes : stats.opcodeCounter.Tallies ((f.instructions arch).map Instruction.opcode)
  hot : Ranking.IsTop 5 Prod.snd stats.opcodeCounter.entries stats.hotOpcodes

/-- The opcode is that of a vector instruction, as far as the analyzer knows. -/
def IsSimd (opcode : List Char) : Prop :=
  (['v'] <+: opcode ∨ ['p'] <+: opcode) ∧ isOneOf ["push", "pop"] opcode = false

/-- The hint is right about a function of the listing, among the first of the file. -/
def AsmHint.Holds (arch : Arch) (d : Disassembly) : AsmHint → Prop
  | memory name ratio => ∃ f ∈ d.functions.take 10, f.name = name ∧ 1 / 2 < ratio ∧
      ratio * (f.instructions arch).length = (f.instructions arch).countP Instruction.isMemory
  | size name count => ∃ f ∈ d.functions, f.name = name ∧ 1000 < count ∧
      count = (f.instructions arch).length
  | simd name => arch = .x86_64 ∧ ∃ f ∈ d.functions.take 5, f.name = name ∧
      100 < (f.instructions arch).length ∧ ∀ inst ∈ f.instructions arch, ¬IsSimd inst.opcode

/-- The report counts each instruction of the listing once. -/
structure AssemblyStats.Counts (stats : AssemblyStats) (d : Disassembly) : Prop where
  arch : stats.arch = detectArch d.text
  totalFunctions : stats.totalFunctions = d.functions.length
  totalInstructions :
    stats.totalInstructions = (d.functions.flatMap (AsmFunction.instructions stats.arch)).length
  functions : ∃ all, List.Forall₂ (FunctionStats.Describes · stats.arch) all d.functions ∧
    Ranking.IsTop 20 FunctionStats.instructionCount all stats.functions
  opcodes : ∃ counter : Dict (List Char) ℤ,
    counter.Tallies
      ((d.functions.flatMap (AsmFunction.instructions stats.arch)).map Instruction.opcode) ∧
    Ranking.IsTop 20 Prod.snd counter.entries stats.topOpcodes
  hints : ∀ hint ∈ stats.optimizationHints, hint.Holds stats.arch d

section Report

theorem tallies_opcodeCounter (instructions : List Instruction) :
    (opcodeCounter instructions).Tallies (instructions.map Instruction.opcode) :=
  Dict.tallies_foldl Instruction.opcode instructions

theorem describes_stats (f : AsmFunction) : (f.stats arch).Describes arch f where
  name := rfl
  start := rfl
  stop inst hinst := by
    rw [AsmFunction.stats, analyzeFunction, Option.mem_def.mp hinst]
    rfl
  count := rfl
  calls := rfl
  jumps := rfl
  memory := rfl
  opcodes := tallies_opcodeCounter _
  hot := (Ranking.sorts_mergeSort Prod.snd _).isTop_take 5

theorem tallies_globalOpcodes (functions : List AsmFunction) :
    (globalOpcodes (functions.map (AsmFunction.stats arch))).Tallies
      ((functions.flatMap (AsmFunction.instructions arch)).map Instruction.opcode) := by
  induction functions using List.reverseRecOn with
  | nil => exact Dict.tallies_empty
  | append_singleton functions f ih =>
      rw [globalOpcodes, List.map_append, List.foldl_append, List.flatMap_append, List.map_append,
        List.flatMap_singleton]
      exact ih.update (tallies_opcodeCounter (f.instructions arch))

theorem hasSimd_of_mem {f : AsmFunction} {inst : Instruction} (hinst : inst ∈ f.instructions arch)
    (hsimd : IsSimd inst.opcode) : (f.stats arch).hasSimd = true := by
  have hopcode := List.mem_map_of_mem (f := Instruction.opcode) hinst
  have hget := tallies_opcodeCounter (f.instructions arch) inst.opcode
  rw [if_pos hopcode] at hget
  rw [FunctionStats.hasSimd, List.any_eq_true]
  refine ⟨_, Dict.get?_eq_some_iff.mp hget, ?_⟩
  obtain ⟨hstart, hstack⟩ := hsimd
  simp only [hstack, Bool.not_false, Bool.and_true, Bool.or_eq_true, List.isPrefixOf_iff_prefix]
  exact hstart

theorem holds_of_mem {d : Disassembly} {hint : AsmHint}
    (h : hint ∈ generateHints (d.functions.map (AsmFunction.stats arch)) arch) :
    hint.Holds arch d := by
  have hhint := List.mem_of_mem_take h
  rw [List.append_assoc] at hhint
  rcases List.mem_append.mp hhint with hmemory | hrest
  · obtain ⟨stats, hstats, rfl⟩ := List.mem_map.mp hmemory
    obtain ⟨hmem, hlarge⟩ := List.mem_filter.mp hstats
    rw [← List.map_take] at hmem
    obtain ⟨f, hf, rfl⟩ := List.mem_map.mp hmem
    simp only [Bool.and_eq_true, decide_eq_true_eq] at hlarge
    obtain ⟨hpos, hhalf⟩ := hlarge
    have hne : ((f.stats arch).instructionCount : ℚ) ≠ 0 := Nat.cast_ne_zero.mpr hpos.ne'
    exact ⟨f, hf, rfl, hhalf, div_mul_cancel₀ ((f.stats arch).memoryAccessCount : ℚ) hne⟩
  · rcases List.mem_append.mp hrest with hsize | hscalar
    · obtain ⟨stats, hstats, rfl⟩ := List.mem_map.mp hsize
      obtain ⟨hmem, hlarge⟩ := List.mem_filter.mp hstats
      obtain ⟨f, hf, rfl⟩ := List.mem_map.mp hmem
      exact ⟨f, hf, rfl, of_decide_eq_true hlarge, rfl⟩
    · obtain ⟨stats, hstats, rfl⟩ := List.mem_map.mp hscalar
      split at hstats
      · next harch =>
        obtain ⟨hmem, hlarge⟩ := List.mem_filter.mp hstats
        rw [← List.map_take] at hmem
        obtain ⟨f, hf, rfl⟩ := List.mem_map.mp hmem
        simp only [Bool.and_eq_true, decide_eq_true_eq, Bool.not_eq_true'] at hlarge
        refine ⟨harch, f, hf, rfl, hlarge.1, fun inst hinst hsimd => ?_⟩
        exact absurd (hasSimd_of_mem hinst hsimd) (by simp [hlarge.2])
      · exact absurd hstats List.not_mem_nil

end Report

end MiniDrop
