import Mathlib.Algebra.Order.Field.Rat
import Mathlib.Data.List.Infix
import MiniDrop.Library.Numerals
import MiniDrop.Library.Words
import MiniDrop.Model.PerfScript

/-! # Disassemblies

objdump -d prints a line for each function and each instruction; the analyzer counts instructions by
function and by opcode. Ratios are exact. -/

namespace Python

/-- `part in s`. -/
def contains (part : String) (s : List Char) : Bool := decide (part.toList <:+: s)

/-- `split(None, 1)`. -/
def splitOnce (s : List Char) : List (List Char) :=
  match s.dropWhile isSpace with
  | [] => []
  | c :: s =>
    let rest := ((c :: s).dropWhile (!isSpace ·)).dropWhile isSpace
    (c :: s).takeWhile (!isSpace ·) :: if rest = [] then [] else [rest]

/-- `int(s, 16)` of the digits `[0-9a-f]`. -/
def hexNat (s : List Char) : ℕ :=
  s.foldl (fun n c => 16 * n + if c.isDigit then c.toNat - '0'.toNat else c.toNat - 'a'.toNat + 10) 0

/-- `Counter.most_common`. -/
def mostCommon (n : ℕ) (counter : Dict (List Char) ℤ) : List (List Char × ℤ) :=
  (counter.entries.mergeSort fun a b => b.2 ≤ a.2).take n

end Python

namespace MiniDrop

inductive Arch where
  | x86_64 | aarch64 | unknown
deriving DecidableEq

def Arch.text : Arch → String
  | x86_64 => "x86_64"
  | aarch64 => "aarch64"
  | unknown => "unknown"

structure Instruction where
  address : ℕ
  opcode : List Char
  operands : List Char
  rawLine : List Char
  isCall : Bool
  isJump : Bool
  isMemory : Bool

structure FunctionStats where
  name : List Char
  addressStart : ℕ
  addressEnd : ℕ := 0
  instructionCount : ℕ
  opcodeCounter : Dict (List Char) ℤ
  callCount : ℕ
  jumpCount : ℕ
  memoryAccessCount : ℕ
  hotOpcodes : List (List Char × ℤ)

inductive AsmHint where
  /-- Over half of the instructions of a function access the memory. -/
  | memory (name : List Char) (ratio : ℚ)
  | size (name : List Char) (instructionCount : ℕ)
  | simd (name : List Char)

/-- `percent` prints a ratio as `:.0%` does. -/
def AsmHint.text (percent : ℚ → List Char) : AsmHint → List Char
  | memory name ratio => "函数 ".toList ++ name ++ " 内存访问比例高 (".toList ++ percent ratio ++
      ")，考虑优化数据局部性或使用缓存预取".toList
  | size name count => "函数 ".toList ++ name ++ " 指令数过多 (".toList ++ Python.str count ++
      ")，考虑拆分或减少内联".toList
  | simd name => "函数 ".toList ++ name ++
      " 未使用 SIMD 指令，如果处理向量数据可考虑 SSE/AVX 优化".toList

structure AssemblyStats where
  arch : Arch
  totalFunctions : ℕ
  totalInstructions : ℕ
  functions : List FunctionStats
  topOpcodes : List (List Char × ℤ)
  optimizationHints : List AsmHint
  summary : List Char

/-! ## Opcodes -/

def x86MemoryOpcodes : List String :=
  ["mov", "movabs", "movzx", "movsx", "movdqa", "movdqu", "push", "pop", "lea", "cmpxchg", "xchg",
    "vmovdqa", "vmovdqu", "vmovaps", "vmovups"]

def x86BranchOpcodes : List String :=
  ["jmp", "je", "jne", "jz", "jnz", "jg", "jl", "jge", "jle", "ja", "jb", "jae", "jbe", "jo", "jno",
    "js", "jns", "loop", "loope", "loopne", "call", "ret", "retn"]

def arm64MemoryOpcodes : List String :=
  ["ldr", "ldrb", "ldrh", "ldrw", "ldrx", "str", "strb", "strh", "strw", "strx", "ldp", "stp", "ldnp",
    "stnp", "ldar", "stlr", "ldaxr", "stlxr"]

/-- The opcode is one of these. -/
def isOneOf (opcodes : List String) (opcode : List Char) : Bool :=
  opcodes.any fun name => name.toList = opcode

/-- `_detect_arch`. -/
def detectArch (text : List Char) : Arch :=
  if ["x86-64", "x86_64", "amd64"].any (Python.contains · text) then .x86_64
  else if ["aarch64", "arm64", "AArch64"].any (Python.contains · text) then .aarch64
  else if ["mov", "push", "pop", "lea", "callq"].any (Python.contains · text) then .x86_64
  else if ["ldr", "str", "stp", "bl "].any (Python.contains · text) then .aarch64
  else .unknown

/-- `_is_memory_access`. -/
def isMemoryAccess (opcode operands : List Char) : Arch → Bool
  | .x86_64 => isOneOf x86MemoryOpcodes opcode || (operands.contains '(' && operands.contains ')')
  | .aarch64 => isOneOf arm64MemoryOpcodes opcode || operands.contains '['
  | .unknown => false

/-! ## Functions -/

/-- The counters of the instructions. -/
def opcodeCounter (instructions : List Instruction) : Dict (List Char) ℤ :=
  instructions.foldl (fun counter inst => counter.add inst.opcode 1) .empty

/-- `_analyze_function`. -/
def analyzeFunction (name : List Char) (address : ℕ) (instructions : List Instruction) :
    FunctionStats where
  name := name
  addressStart := address
  addressEnd := (instructions.getLast?.map Instruction.address).getD 0
  instructionCount := instructions.length
  opcodeCounter := opcodeCounter instructions
  callCount := instructions.countP Instruction.isCall
  jumpCount := instructions.countP Instruction.isJump
  memoryAccessCount := instructions.countP Instruction.isMemory
  hotOpcodes := Python.mostCommon 5 (opcodeCounter instructions)

/-- The share of the instructions that access the memory. -/
def FunctionStats.memRatio (f : FunctionStats) : ℚ := f.memoryAccessCount / f.instructionCount

def FunctionStats.hasSimd (f : FunctionStats) : Bool :=
  f.opcodeCounter.entries.any fun (op, _) =>
    (['v'].isPrefixOf op || ['p'].isPrefixOf op) && !isOneOf ["push", "pop"] op

/-- `_generate_hints`. -/
def generateHints (functions : List FunctionStats) (arch : Arch) : List AsmHint :=
  let memory := (functions.take 10).filter fun f => f.instructionCount > 0 && f.memRatio > 1 / 2
  let large := functions.filter fun f => f.instructionCount > 1000
  let scalar :=
    if arch = .x86_64 then (functions.take 5).filter fun f => f.instructionCount > 100 && !f.hasSimd
    else []
  let hints := memory.map (fun f : FunctionStats => AsmHint.memory f.name f.memRatio) ++
    large.map (fun f => .size f.name f.instructionCount) ++ scalar.map fun f => .simd f.name
  hints.take 10

/-! ## Lines -/

/-- `^([0-9a-f]+)\s+<(.+)>:`. -/
def functionPattern : Regex := .cat
  [.group (.plus isLowerHex), .plus Python.isSpace, .char '<', .group (.plus Regex.dot), .char '>',
    .char ':']

/-- `^\s+([0-9a-f]+):\t(.+?)\t\s*(.+)$`. -/
def instructionPattern : Regex := .cat
  [.plus Python.isSpace, .group (.plus isLowerHex), .char ':', .char '\t',
    .group (.plusFew Regex.dot), .char '\t', .many Python.isSpace, .group (.plus Regex.dot), .atEnd]

/-- The instruction with an address, its text, and its line. -/
def instructionOf (arch : Arch) (address asm line : List Char) : Instruction :=
  let parts := Python.splitOnce (Python.strip asm)
  let opcode := parts.getD 0 []
  let operands := parts.getD 1 []
  { address := Python.hexNat address
    opcode
    operands
    rawLine := line
    isCall := isOneOf ["call", "callq", "bl", "blr"] opcode
    isJump := isOneOf x86BranchOpcodes opcode || ['b'].isPrefixOf opcode
    isMemory := isMemoryAccess opcode operands arch }

/-- The variables of the loop: the functions before, and the current one. -/
structure ObjdumpFold where
  functions : List FunctionStats := []
  currentFunc : Option (List Char × ℕ) := none
  currentInstructions : List Instruction := []

/-- The functions with the current one, if there is one. -/
def ObjdumpFold.save (s : ObjdumpFold) : List FunctionStats :=
  match s.currentFunc with
  | none => s.functions
  | some (name, address) => s.functions ++ [analyzeFunction name address s.currentInstructions]

/-- Body of the loop of parse_objdump. -/
def objdumpLine (arch : Arch) (s : ObjdumpFold) (line : List Char) : ObjdumpFold :=
  let line := Python.rstrip line
  match functionPattern.groups? line with
  | some [address, name] =>
    { functions := s.save, currentFunc := some (name, Python.hexNat address) }
  | _ =>
    match instructionPattern.groups? line with
    | some [address, _, asm] =>
      if s.currentFunc.isSome then
        { s with currentInstructions :=
            s.currentInstructions ++ [instructionOf arch address asm line] }
      else s
    | _ => s

/-- The counters of all functions. -/
def globalOpcodes (functions : List FunctionStats) : Dict (List Char) ℤ :=
  functions.foldl (fun counter f =>
    f.opcodeCounter.entries.foldl (fun counter entry => counter.add entry.1 entry.2) counter) .empty

def parseObjdump (text : List Char) : AssemblyStats :=
  let arch := detectArch text
  let functions := ((text.splitOn '\n').foldl (objdumpLine arch) {}).save
  let totalInst := (functions.map FunctionStats.instructionCount).sum
  let counter := globalOpcodes functions
  let ops := (Python.mostCommon 5 counter).map Prod.fst
  { arch
    totalFunctions := functions.length
    totalInstructions := totalInst
    functions :=
      (functions.mergeSort fun f g => g.instructionCount ≤ f.instructionCount).take 20
    topOpcodes := Python.mostCommon 20 counter
    optimizationHints := generateHints functions arch
    summary := arch.text.toList ++ " 架构, ".toList ++ Python.str functions.length ++
      " 个函数, ".toList ++ Python.str totalInst ++ " 条指令, Top 指令: ".toList ++
      ", ".toList.intercalate ops }

end MiniDrop
