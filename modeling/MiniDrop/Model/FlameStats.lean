import MiniDrop.Model.FoldedStacks

/-! # The CPU pipeline of the analysis

A collapsed file is cut down, read, and summed up by function. A file is its text, in which every
line ends with `\n`; floating-point numbers are a parameter. -/

namespace MiniDrop

/-! ## Cutting a file down -/

/-- `MAX_COLLAPSED_LINES`. -/
def maxCollapsedLines : ℕ := 200000

/-- `MAX_STACK_DEPTH`. -/
def maxStackDepth : ℕ := 50

/-- The lines with their ends. -/
def readlines : List Char → List (List Char)
  | [] => []
  | c :: cs =>
    if c = '\n' then ['\n'] :: readlines cs
    else
      match readlines cs with
      | [] => [[c]]
      | line :: lines => (c :: line) :: lines

/-- The parts of a line without its end. -/
def lineParts (line : List Char) : Option (List Char × List Char) :=
  Python.rsplit (line.rdropWhile (· = '\n'))

/-- Cuts a stack that is too deep. -/
def cutStack (stack : List Char) : List Char :=
  [';'].intercalate ((stack.splitOn ';').take maxStackDepth)

def truncateLine (line : List Char) : List Char :=
  match lineParts line with
  | none => line
  | some (stack, count) => cutStack stack ++ ' ' :: count ++ ['\n']

def tooDeep (line : List Char) : Bool :=
  (lineParts line).any fun (stack, _) => maxStackDepth < (stack.splitOn ';').length

def extractCount (line : List Char) : ℤ :=
  (Python.int? (((Python.rsplit line).map Prod.snd).getD line)).getD 0

/-- The text of the file after `_truncate_collapsed`. -/
def truncateCollapsed (text : String) : String :=
  let lines := readlines text.toList
  let truncatedLines := lines.map truncateLine
  if truncatedLines.length > maxCollapsedLines then
    String.ofList ((truncatedLines.mergeSort fun l m => extractCount m ≤ extractCount l).take
      maxCollapsedLines).flatten
  else if lines.any tooDeep then String.ofList truncatedLines.flatten
  else text

/-! ## Hot functions -/

def lastFrame (stack : String) : String := (framesOf stack.toList).getLastD ""

/-- The samples of the stacks that end in a function. -/
def selfCount (counts : Dict String ℤ) : Dict String ℤ :=
  counts.entries.foldl (fun d entry => d.add (lastFrame entry.1) entry.2) {}

/-- The samples of the frames that name a function. -/
def totalCount (counts : Dict String ℤ) : Dict String ℤ :=
  counts.entries.foldl (fun d entry =>
    (framesOf entry.1.toList).foldl (fun d frame => d.add frame entry.2) d) {}

/-- A function with the samples that end in it, and those that hold it. -/
structure HotFunction where
  func : String
  self : ℤ
  total : ℤ

def analyzeTopn (counts : Dict String ℤ) (topK : ℕ) : List HotFunction :=
  (((selfCount counts).entries.map fun (func, self) =>
    HotFunction.mk func self (((totalCount counts).get? func).getD 0)).mergeSort
      fun f g => g.self ≤ f.self).take topK

/-! ## Statistics -/

/-- The floating-point operations that the statistics use. -/
structure Floats (F : Type) where
  ofInt : ℤ → F
  /-- Division of integers. -/
  div : ℤ → ℤ → F
  mul : F → ℤ → F
  add : F → F → F
  exceeds : F → ℤ → Bool
  round : F → ℕ → F

structure Concentration (F : Type) where
  top1Pct : F
  top3Pct : F
  top5Pct : F
  giniCoefficient : F

/-- Functions and their percentages. -/
structure PerformanceTiers (F : Type) where
  critical : List (String × F) := []
  high : List (String × F) := []
  medium : List (String × F) := []
  low : List (String × F) := []

structure HotPath (F : Type) where
  stack : String
  frames : List String
  depth : ℕ
  sampleCount : ℤ
  pct : F

structure FlameStats (F : Type) where
  totalSamples : ℤ
  totalFunctions : ℕ
  concentration : Concentration F
  performanceTiers : PerformanceTiers F
  hotPaths : List (HotPath F)

section Statistics

variable {F : Type} (ops : Floats F)

/-- `n / total * 100`. -/
def pctOf (n total : ℤ) : F :=
  if total > 0 then ops.mul (ops.div n total) 100 else ops.ofInt 0

/-- `_gini_coefficient`. -/
def giniCoefficient (values : List ℤ) : F :=
  if values.sum = 0 then ops.ofInt 0
  else
    let sortedVals := values.mergeSort (· ≤ ·)
    let n : ℤ := sortedVals.length
    let giniSum := (sortedVals.zipIdx.map fun (val, i) => (2 * ((i : ℤ) + 1) - n - 1) * val).sum
    ops.div giniSum (n * sortedVals.sum)

/-- `_compute_concentration`. -/
def computeConcentration (topn : List HotFunction) (totalSamples : ℤ) (selfCounts : List ℤ) :
    Concentration F :=
  let sum := fun (fs : List HotFunction) =>
    fs.foldl (fun s f => ops.add s (pctOf ops f.self totalSamples)) (ops.ofInt 0)
  { top1Pct := ops.round ((topn.head?.map fun f => pctOf ops f.self totalSamples).getD
      (ops.ofInt 0)) 2
    top3Pct := ops.round (sum (topn.take 3)) 2
    top5Pct := ops.round (sum (topn.take 5)) 2
    giniCoefficient := ops.round (giniCoefficient ops selfCounts) 3 }

/-- `_compute_performance_tiers`. -/
def computePerformanceTiers (topn : List HotFunction) (totalSamples : ℤ) : PerformanceTiers F :=
  topn.foldl (fun tiers item =>
    let pct := pctOf ops item.self totalSamples
    let entry := (item.func, ops.round pct 2)
    if ops.exceeds pct 10 then { tiers with critical := tiers.critical ++ [entry] }
    else if ops.exceeds pct 5 then { tiers with high := tiers.high ++ [entry] }
    else if ops.exceeds pct 1 then { tiers with medium := tiers.medium ++ [entry] }
    else { tiers with low := tiers.low ++ [entry] }) {}

/-- `_extract_hot_paths`. -/
def extractHotPaths (counts : Dict String ℤ) (topK : ℕ) : List (HotPath F) :=
  ((counts.entries.mergeSort fun e f => f.2 ≤ e.2).take topK).map fun (stack, count) =>
    let frames := framesOf stack.toList
    { stack
      frames
      depth := frames.length
      sampleCount := count
      pct := ops.round (pctOf ops count counts.sum) 2 }

/-- `_empty_stats`. -/
def emptyStats : FlameStats F where
  totalSamples := 0
  totalFunctions := 0
  concentration := ⟨ops.ofInt 0, ops.ofInt 0, ops.ofInt 0, ops.ofInt 0⟩
  performanceTiers := {}
  hotPaths := []

/-- All functions of the stacks. -/
def allFuncs (counts : Dict String ℤ) : List String :=
  (counts.entries.flatMap fun entry => framesOf entry.1.toList).dedup

def computeFlameStats (counts : Dict String ℤ) (topn : List HotFunction) (hotPathK : ℕ) :
    FlameStats F :=
  let totalSamples := counts.sum
  if totalSamples = 0 ∨ topn = [] then emptyStats ops
  else
    { totalSamples
      totalFunctions := (allFuncs counts).length
      concentration := computeConcentration ops topn totalSamples
        ((selfCount counts).entries.map Prod.snd)
      performanceTiers := computePerformanceTiers ops topn totalSamples
      hotPaths := extractHotPaths ops counts hotPathK }

end Statistics

end MiniDrop
