import Mathlib.Data.List.DropRight
import MiniDrop.Library.Words
import MiniDrop.Model.FlameStats
import MiniDrop.Model.SuggestionMarkdown

/-! # Analysing a CPU task

main of hotmethod_analyzer.py takes what was collected from the object store, run_cpu_flamegraph
makes products of it, and main puts these beside it. The perl scripts, perf, the printer of JSON and
the rules are parameters. -/

namespace Python

/-- `os.path.basename`. -/
def basename (path : List Char) : List Char := path.rtakeWhile (· ≠ '/')

/-- `read` of a file in text mode; `none` where it raises UnicodeDecodeError. -/
def readText (file : ByteArray) : Option String :=
  (String.fromUTF8? file).map fun text => String.ofList (universalNewlines text.toList)

/-- What `write` leaves in a file. -/
def writeText (text : String) : ByteArray := text.toUTF8

end Python

namespace MiniDrop

/-- Files by name, or objects by key. -/
abbrev Files := Dict (List Char) ByteArray

inductive CpuError where
  /-- `no data found for task_type=..., tried: ...` -/
  | noData
  /-- shutil.SameFileError. -/
  | sameFile
  | undecodable
  /-- An external command fails with this text. -/
  | command (stderr : String)
deriving DecidableEq

/-- What the pipeline uses besides its own code. -/
structure CpuTools where
  /-- `perf script -i`. -/
  perfScript : ByteArray → Except String ByteArray
  /-- stackcollapse-perf.pl. -/
  stackcollapse : ByteArray → Except String String
  /-- flamegraph.pl with a title. -/
  flamegraph : ByteArray → List Char → Except String String
  topnToJson : List HotFunction → String
  /-- match_rules with the rules of the configuration. -/
  matchRules : List HotFunction → List RuleAdvice

def CpuTools.run {α : Type} (answer : Except String α) : Except CpuError α :=
  answer.mapError .command

/-! ## The input -/

/-- The names of FILE_MAP. -/
def candidateFiles (taskType : ℤ) (tid : List Char) : List (List Char) :=
  let named := fun (ext : String) => tid ++ ext.toList
  match taskType with
  | 0 => ["collapsed.txt".toList, named ".collapsed", "perf.script.txt".toList, named ".txt",
      "perf.data".toList, named ".data"]
  | 1 => ["collapsed.txt".toList, named ".collapsed", named ".txt"]
  | 2 => ["tracing.json".toList, "tracing.csv".toList, named ".json", named ".csv"]
  | 4 => ["memleak.xml".toList, "memleak.txt".toList, "memleak.json".toList, "memray.json".toList,
      "memray.html".toList, named ".json", named ".html", named ".bin"]
  | 5 => ["pidstat.csv".toList, "pidstat.json".toList, named ".json"]
  | 6 => ["biosnoop.csv".toList, "biosnoop.json".toList, named ".json", named ".txt"]
  | 7 => ["bw_sync.json".toList, "bw_sync.csv".toList]
  | 8 => ["namespace.txt".toList]
  | 9 => ["assembly.txt".toList, "objdump.txt".toList]
  | 10 => ["pprof.cpu".toList, "pprof.pb.gz".toList, named ".pb.gz"]
  | 11 => ["pprof.heap".toList, "pprof_heap.pb.gz".toList, named ".pb.gz"]
  | 12 => ["heap.hprof".toList, named ".hprof"]
  | _ => ["perf.data".toList, "collapsed.txt".toList, named ".data", named ".txt"]

/-- The names in `_is_analysis_product_key`. -/
def analysisProducts : List (List Char) :=
  ["ai_suggestion.md".toList, "assembly_stats.json".toList, "attribution_report.md".toList,
    "biosnoop_stats.json".toList, "bw_sync_stats.json".toList, "flamegraph.svg".toList,
    "heap_stats.json".toList, "memleak.json".toList, "namespace.json".toList,
    "pprof_cpu.json".toList, "pprof_heap.json".toList, "resource_stats.json".toList,
    "suggestions.md".toList, "top.json".toList, "tracing_stats.json".toList]

def isAnalysisProductKey (key : List Char) : Bool :=
  let name := Python.basename key
  analysisProducts.contains name || "attribution_".toList.isPrefixOf name ||
    "_stats.json".toList.isSuffixOf name

/-- The work directory, and the variables of main for the files in it. -/
structure WorkDir where
  files : Files := .empty
  rawPath : Option (List Char) := none
  preCollapsedPath : Option (List Char) := none
  hasCollapsed : Bool := false

namespace WorkDir

/-- `collapsed.txt`, or a name that ends in `.collapsed`. -/
def isCollapsedName (name : List Char) : Bool :=
  name = "collapsed.txt".toList || ".collapsed".toList.isSuffixOf name

/-- `_select_downloaded_input`. -/
def selectDownloadedInput (w : WorkDir) (localPath sourceName : List Char) : WorkDir :=
  let name := Python.basename sourceName
  if isCollapsedName name then { w with preCollapsedPath := some localPath, hasCollapsed := true }
  else if name = "perf.script.txt".toList || ".txt".toList.isSuffixOf name then
    { w with rawPath := some localPath }
  else if w.rawPath = none then { w with rawPath := some localPath }
  else w

/-- A download of one of the files, and what main makes of it. -/
def download (w : WorkDir) (localPath sourceName : List Char) (file : ByteArray) : WorkDir :=
  { w with files := w.files.set localPath file }.selectDownloadedInput localPath sourceName

/-- The loop over the keys that the API server reports. -/
def downloadReported (store : Files) : List (List Char) → WorkDir → WorkDir
  | [], w => w
  | key :: keys, w =>
    if isAnalysisProductKey key then downloadReported store keys w
    else
      let base := Python.basename key
      match store.get? key with
      | none => downloadReported store keys w
      | some file =>
        let w := w.download (if base = [] then "collector.data".toList else base) key file
        if w.rawPath ≠ none ∨ w.preCollapsedPath ≠ none then w else downloadReported store keys w

end WorkDir

/-- The key of a candidate, under one of the two prefixes. -/
def findCandidate (store : Files) (tid fname : List Char) : Option (List Char) :=
  [tid ++ '/' :: fname, "profiler/".toList ++ tid ++ '/' :: fname].find? fun key =>
    (store.get? key).isSome

/-- Body of the loop over the candidates. -/
def downloadCandidate (store : Files) (tid : List Char) (w : WorkDir) (fname : List Char) :
    WorkDir :=
  match (findCandidate store tid fname).bind store.get? with
  | none => w
  | some file => w.download fname fname file

/-- Both loops of main. -/
def collectInputs (store : Files) (tid : List Char) (taskType : ℤ) (reported : List (List Char)) :
    WorkDir :=
  (candidateFiles taskType tid).foldl (downloadCandidate store tid)
    (WorkDir.downloadReported store (reported.filter (· ≠ [])) {})

/-! ## The pipeline -/

/-- `_looks_like_text_stack`. -/
def looksLikeTextStack (file : ByteArray) : Bool :=
  let sample := file.extract 0 4096
  !sample.toList.contains 0 &&
    ((String.fromUTF8? sample).any fun text => text.toList.contains ';' || text.toList.contains '\n')

/-- The folded stacks that run_cpu_flamegraph puts in `collapsed.txt` before it cuts them down. -/
def WorkDir.collapse (tools : CpuTools) (w : WorkDir) : Except CpuError ByteArray :=
  match (if w.hasCollapsed then w.preCollapsedPath else none).bind w.files.get? with
  | some file => .ok file
  | none =>
    match w.rawPath with
    | none => .error .noData
    | some raw => do
      let file := (w.files.get? raw).getD .empty
      let isScript := raw = "perf.script.txt".toList
      let script ←
        if looksLikeTextStack file then
          if isScript then throw .sameFile else pure file
        -- the script is opened for writing before perf reads its input
        else CpuTools.run (tools.perfScript (if isScript then .empty else file))
      let collapsed ← CpuTools.run (tools.stackcollapse script)
      pure (Python.writeText collapsed)

/-- A text that can be read. -/
def readFile (file : ByteArray) : Except CpuError String :=
  match Python.readText file with
  | some text => .ok text
  | none => .error .undecodable

/-- `_truncate_collapsed`, which leaves a file alone that it does not change. -/
def truncateFile (file : ByteArray) : Except CpuError ByteArray :=
  (readFile file).map fun text =>
    let lines := readlines text.toList
    if lines.length > maxCollapsedLines || lines.any tooDeep then
      Python.writeText (truncateCollapsed text)
    else file

/-- The products of a collapsed file that has been cut down. -/
def cpuProducts (tools : CpuTools) (tid : List Char) (collapsed : ByteArray) :
    Except CpuError (List (List Char × ByteArray)) := do
  let svg ← CpuTools.run
    (tools.flamegraph collapsed ("CPU Flame Graph [".toList ++ tid ++ [']']))
  let text ← readFile collapsed
  let topn := analyzeTopn (parseCollapsed text) 50
  let suggestions := suggestionsToMarkdown (tools.matchRules topn) tid
  pure [("collapsed.txt".toList, collapsed), ("flamegraph.svg".toList, Python.writeText svg),
    ("top.json".toList, Python.writeText (tools.topnToJson topn)),
    ("suggestions.md".toList, Python.writeText (String.ofList suggestions))]

def runCpuFlamegraph (tools : CpuTools) (tid : List Char) (w : WorkDir) :
    Except CpuError (List (List Char × ByteArray)) := do
  let file ← w.collapse tools
  let collapsed ← truncateFile file
  cpuProducts tools tid collapsed

/-- The object store with the products of a task. -/
def uploadProducts (tid : List Char) (store : Files) (products : List (List Char × ByteArray)) :
    Files :=
  products.foldl (fun store product => store.set (tid ++ '/' :: product.1) product.2) store

/-- main for a task of type 0 or 1. -/
def analyzeCpuTask (tools : CpuTools) (tid : List Char) (taskType : ℤ)
    (reported : List (List Char)) (store : Files) : Except CpuError Files := do
  let w := collectInputs store tid taskType reported
  if w.rawPath = none ∧ w.preCollapsedPath = none then throw .noData
  let products ← runCpuFlamegraph tools tid w
  pure (uploadProducts tid store products)

end MiniDrop
