import MiniDrop.Library.Json
import MiniDrop.Library.Words
import MiniDrop.Model.Biotrace

/-! # Statistics of block requests

Events come as comma-separated values, as JSON or as a table, and are counted alike. -/

namespace Python

/-- `n / 1000`, which is rounded once. -/
def thousandth (n : ℤ) : Float :=
  if n < 0 then -Float.ofScientific n.natAbs true 3 else Float.ofScientific n.natAbs true 3

end Python

namespace MiniDrop

/-! ## The table -/

/-- Body of the loop of parse_biosnoop_text. -/
def bioTextLine (line : List Char) : Option BioEvent :=
  if Python.strip line = [] ∨ "TIME".toList <:+: line then none
  else
    match Python.split line with
    | time :: comm :: pid :: disk :: kind :: bytes :: latency :: _ => do
      let timestamp ← Python.float? time
      let pid ← Python.int? pid
      let ioSize ← Python.int? bytes
      let latency ← Python.float? latency
      some
        { timestamp
          comm
          pid
          disk
          direction := normalizeDirection kind
          ioSize
          latencyUs := latency / 1000 }
    | _ => none

def parseBiosnoopText (text : List Char) : List BioEvent :=
  ((Python.strip text).splitOn '\n').filterMap bioTextLine

/-! ## JSON -/

namespace Json

variable {N : Type}

/-- `get` with another key and a default. -/
def getEither (item : List (String × Json N)) (key other : String) (default : Json N) : Json N :=
  (Dict.lookup key item).getD ((Dict.lookup other item).getD default)

end Json

/-- The latency of an item in microseconds, where it has none in these. -/
def latencyOfNs (item : List (String × Json Float)) : Json Float :=
  match (Dict.lookup "latency_ns" item).getD (.int 0) with
  | .bool b => .float (Python.thousandth (if b then 1 else 0))
  | .int n => .float (Python.thousandth n)
  | .float x => .float (x / 1000)
  | _ => .int 0

/-- An event of run_biosnoop; `none` where it raises. -/
def bioItem (repr : Json Float → String) (item : List (String × Json Float)) : Option BioEvent := do
  let timestamp ← (Json.getEither item "timestamp" "time" (.int 0)).float? .doubles
  let pid ← ((Dict.lookup "pid" item).getD (.int 0)).int? .doubles
  let ioSize ← (Json.getEither item "io_size" "bytes" (.int 0)).int? .doubles
  let latencyUs ← ((Dict.lookup "latency_us" item).getD (latencyOfNs item)).float? .doubles
  let sector ← ((Dict.lookup "sector" item).getD (.int 0)).int? .doubles
  let direction := (Json.getEither item "direction" "type" (.str "R")).text repr
  some
    { timestamp
      comm := ((Json.getEither item "comm" "process" (.str "")).text repr).toList
      pid
      disk := ((Json.getEither item "disk" "device" (.str "")).text repr).toList
      direction := String.ofList ((Python.upper direction.toList).take 1)
      ioSize
      latencyUs
      sector }

/-- The items that a loop over the value has; `none` where it cannot be gone through. -/
def bioItems : Json Float → Option (List (List (String × Json Float)))
  | .list items => some (items.filterMap Json.dict?)
  | .dict _ | .str _ => some []
  | _ => none

def parseBiosnoopJson (repr : Json Float → String) (parsed : Json Float) : Option (List BioEvent) :=
  let listed :=
    match parsed with
    | .dict entries => (Dict.lookup "events" entries).getD (.list [])
    | parsed => parsed
  (bioItems listed).bind fun items => items.mapM (bioItem repr)

/-! ## Statistics -/

structure DiskTally where
  count : ℕ := 0
  bytes : ℤ := 0
  latencySum : Float := 0

structure DiskStats extends DiskTally where
  latencyAvg : Float

structure ProcessTally where
  count : ℕ := 0
  bytes : ℤ := 0

structure BioStats where
  probeType : String := "io"
  totalEvents : ℕ := 0
  readCount : ℕ := 0
  writeCount : ℕ := 0
  readBytes : ℤ := 0
  writeBytes : ℤ := 0
  latencyAvgUs : Float := 0
  latencyP50Us : Float := 0
  latencyP99Us : Float := 0
  latencyMaxUs : Float := 0
  slowIos : List BioEvent := []
  byDisk : Dict (List Char) DiskStats := {}
  byProcess : Dict (List Char) ProcessTally := {}
  summary : String := ""

def DiskTally.add (tally : DiskTally) (e : BioEvent) : DiskTally where
  count := tally.count + 1
  bytes := tally.bytes + e.ioSize
  latencySum := tally.latencySum + e.latencyUs

def DiskTally.withAverage (tally : DiskTally) : DiskStats :=
  { tally with latencyAvg := tally.latencySum / Float.ofNat tally.count }

def ProcessTally.add (tally : ProcessTally) (e : BioEvent) : ProcessTally where
  count := tally.count + 1
  bytes := tally.bytes + e.ioSize

def tallyDisks (events : List BioEvent) : Dict (List Char) DiskTally :=
  events.foldl (fun tallies e => tallies.set e.disk (((tallies.get? e.disk).getD {}).add e)) {}

def tallyProcesses (events : List BioEvent) : Dict (List Char) ProcessTally :=
  events.foldl (fun tallies e => tallies.set e.comm (((tallies.get? e.comm).getD {}).add e)) {}

/-- The ten processes with the most bytes. -/
def topProcesses (events : List BioEvent) : Dict (List Char) ProcessTally :=
  .ofList (((tallyProcesses events).entries.mergeSort fun a b => b.2.bytes ≤ a.2.bytes).take 10)

def probeTypeOf (events : List BioEvent) : String :=
  if events.any fun e => e.disk = "sched".toList ∨ e.direction = "SCHED" then "sched" else "io"

def readEvents (events : List BioEvent) : List BioEvent := events.filter fun e => e.direction = "R"

def writeEvents (events : List BioEvent) : List BioEvent := events.filter fun e => e.direction = "W"

def slowIosOf (slowThresholdUs : Float) (events : List BioEvent) : List BioEvent :=
  events.filter fun e => slowThresholdUs ≤ e.latencyUs

/-- The four figures of the latencies: their mean, two percentiles, and the largest; `none` where an
index is out of range. -/
def latencyFigures (events : List BioEvent) : Option (Float × Float × Float × Float) := do
  let latencies := (events.map BioEvent.latencyUs).mergeSort
  let avg := latencies.foldl (· + ·) 0 / Float.ofNat latencies.length
  let p50 ← latencies[latencies.length / 2]?
  let index := (Float.ofNat latencies.length * 0.99).floor.toUInt64.toNat
  let p99 ← latencies[min index (latencies.length - 1)]?
  let max ← latencies.getLast?
  some (avg, p50, p99, max)

/-- The text for the reader, where `fixed0` prints a number without decimals. -/
def bioSummary (fixed0 : Float → String) (slowThresholdUs : Float) (events : List BioEvent)
    (avg p99 max : Float) : String :=
  let latency := "延迟 avg=" ++ fixed0 avg ++ "us p99=" ++ fixed0 p99 ++ "us max=" ++ fixed0 max ++
    "us, "
  let slow := " (" ++ fixed0 (slowThresholdUs / 1000) ++ "ms+): " ++
    toString (slowIosOf slowThresholdUs events).length ++ " 个"
  if probeTypeOf events = "sched" then
    "总调度延迟事件 " ++ toString events.length ++ ", " ++ latency ++ "慢调度" ++ slow
  else
    "总 IO 事件 " ++ toString events.length ++ " (读 " ++ toString (readEvents events).length ++
      " 写 " ++ toString (writeEvents events).length ++ "), 读 " ++
      toString (((readEvents events).map BioEvent.ioSize).sum / 1024) ++ "KB 写 " ++
      toString (((writeEvents events).map BioEvent.ioSize).sum / 1024) ++ "KB, " ++ latency ++
      "慢 IO" ++ slow

/-- analyze_biosnoop; `none` where an index is out of range. -/
def analyzeBiosnoop (fixed0 : Float → String) (events : List BioEvent)
    (slowThresholdUs : Float := 10000) : Option BioStats :=
  if events.isEmpty then some { summary := "No IO events to analyze" }
  else
    (latencyFigures events).map fun (avg, p50, p99, max) =>
      { probeType := probeTypeOf events
        totalEvents := events.length
        readCount := (readEvents events).length
        writeCount := (writeEvents events).length
        readBytes := ((readEvents events).map BioEvent.ioSize).sum
        writeBytes := ((writeEvents events).map BioEvent.ioSize).sum
        latencyAvgUs := avg
        latencyP50Us := p50
        latencyP99Us := p99
        latencyMaxUs := max
        slowIos := slowIosOf slowThresholdUs events
        byDisk := (tallyDisks events).mapValues DiskTally.withAverage
        byProcess := topProcesses events
        summary := bioSummary fixed0 slowThresholdUs events avg p99 max }

/-! ## The file -/

/-- What run_biosnoop writes: a document that has been computed before, or statistics. -/
inductive BioOutput where
  | precomputed (document : Json Float)
  | stats (stats : BioStats)

/-- run_biosnoop of the content of a file, where `loads` is `json.loads`; `none` where it raises. -/
def runBiosnoop (loads : List Char → Option (Json Float)) (repr : Json Float → String)
    (fixed0 : Float → String) (content : List Char) : Option BioOutput :=
  let stripped := Python.strip content
  if ['{'] <+: stripped ∨ ['['] <+: stripped then
    (loads stripped).bind fun parsed =>
      if (parsed.dict?.bind (Dict.lookup "total_events")).isSome then some (.precomputed parsed)
      else (parseBiosnoopJson repr parsed).bind fun events =>
        (analyzeBiosnoop fixed0 events).map .stats
  else (parseBiosnoopCsv content).bind fun events => (analyzeBiosnoop fixed0 events).map .stats

end MiniDrop
