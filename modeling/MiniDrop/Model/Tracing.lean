import MiniDrop.Library.Csv
import MiniDrop.Library.Json
import MiniDrop.Library.Rounding

/-! # The analyzer of traces

Spans are read from a JSON or a CSV file, and their durations are summed up. Numbers are exact. -/

namespace MiniDrop

structure TraceEvent where
  timestamp : ℚ := 0
  name : String := ""
  durationMs : ℚ := 0
  service : String := ""
  status : String := ""
deriving DecidableEq

/-! ## Durations -/

/-- A large number is taken for one of nanoseconds or microseconds. -/
def normalizedDuration (duration : ℚ) : ℚ :=
  if 100000 < duration then duration / 1000000
  else if 10000 < duration then duration / 1000
  else duration

/-! ## JSON -/

/-- The list in the data, which an object may hold under some key. -/
def spansIn : Json ℚ → Option (List (Json ℚ))
  | .list items => some items
  | .dict entries =>
    (["spans", "events", "data", "records", "traces"].findSome? fun key =>
      (Dict.lookup key entries).bind Json.list?).or (entries.findSome? fun entry => entry.2.list?)
  | _ => none

/-- Body of the loop of parse_tracing_json; `none` where it raises. -/
def tracingItem (repr : Json ℚ → String) (item : List (String × Json ℚ)) : Option TraceEvent := do
  let duration := Json.getOr .exact item ["duration_ms", "duration", "latency_ms"] (.int 0)
  let durationMs ← ((duration.number? .exact).map normalizedDuration).or (duration.float? .exact)
  let timestamp ← (Json.getOr .exact item ["timestamp", "ts", "time"] (.int 0)).float? .exact
  some
    { timestamp
      name := (Json.getOr .exact item ["name", "operation", "span_name"] (.str "")).text repr
      durationMs
      service := (Json.getOr .exact item ["service", "service_name"] (.str "")).text repr
      status := (Json.getOr .exact item ["status", "state"] (.str "")).text repr }

/-- parse_tracing_json of what `json.loads` returns, if it does; `none` where it raises. -/
def parseTracingJson (repr : Json ℚ → String) (data : Option (Json ℚ)) : Option (List TraceEvent) :=
  match data.bind spansIn with
  | none => some []
  | some items => (items.filterMap Json.dict?).mapM (tracingItem repr)

/-! ## CSV -/

/-- `_find_col`. -/
def findCol (header : List (List Char)) (candidates : List String) : Option ℕ :=
  candidates.findSome? fun c => header.idxOf? c.toList

structure TracingColumns where
  ts : Option ℕ
  name : Option ℕ
  dur : Option ℕ
  svc : Option ℕ
  status : Option ℕ

def tracingColumns (header : List (List Char)) : TracingColumns :=
  let lowerHeader := header.map fun h => Python.lower (Python.strip h)
  { ts := findCol lowerHeader ["timestamp", "ts", "time"]
    name := findCol lowerHeader ["name", "operation", "span_name"]
    dur := findCol lowerHeader ["duration_ms", "duration", "latency_ms", "latency"]
    svc := findCol lowerHeader ["service", "service_name"]
    status := findCol lowerHeader ["status", "state"] }

def cellAt (row : List (List Char)) (idx : Option ℕ) : Option (List Char) := idx.bind (row[·]?)

/-- The number in a cell, which is 0 where there is no cell. -/
def numberAt (row : List (List Char)) (idx : Option ℕ) : Option ℚ :=
  match cellAt row idx with
  | none => some 0
  | some cell => Python.rational? cell

def textAt (row : List (List Char)) (idx : Option ℕ) : String :=
  String.ofList (Python.strip ((cellAt row idx).getD []))

/-- Body of the loop of parse_tracing_csv. -/
def tracingRow (cols : TracingColumns) (row : List (List Char)) : Option TraceEvent :=
  if row.length < 2 then none
  else do
    let dur ← numberAt row cols.dur
    let timestamp ← numberAt row cols.ts
    some
      { timestamp
        name := textAt row cols.name
        durationMs := normalizedDuration dur
        service := textAt row cols.svc
        status := textAt row cols.status }

/-- parse_tracing_csv; `none` where the reader raises an error. Nothing is read behind an empty first
row. -/
def parseTracingCsv (text : List Char) : Option (List TraceEvent) :=
  match Csv.linesOf text with
  | [] => some []
  | line :: _ =>
    if ({} : Csv.State).readLine line = some {} then some []
    else
      (Csv.read text).map fun rows =>
        match rows with
        | [] => []
        | header :: rows => rows.filterMap (tracingRow (tracingColumns header))

/-! ## Statistics -/

/-- What the events of a service have been counted to. -/
structure ServiceTally where
  count : ℕ := 0
  totalMs : ℚ := 0
  maxMs : ℚ := 0

structure ServiceStats extends ServiceTally where
  avgMs : ℚ

structure TracingResult where
  totalEvents : ℕ := 0
  avgDurationMs : ℚ := 0
  maxDurationMs : ℚ := 0
  p50DurationMs : ℚ := 0
  p99DurationMs : ℚ := 0
  slowEvents : List TraceEvent := []
  byService : Dict String ServiceStats := {}
  summary : String := ""

/-- The threshold of slow events, and what Python prints for it. -/
structure SlowThreshold where
  ms : ℚ := 100
  text : String := "100"

def ServiceTally.add (tally : ServiceTally) (e : TraceEvent) : ServiceTally where
  count := tally.count + 1
  totalMs := tally.totalMs + e.durationMs
  maxMs := max tally.maxMs e.durationMs

def serviceOf (e : TraceEvent) : String := if e.service = "" then "(unknown)" else e.service

def tallyServices (events : List TraceEvent) : Dict String ServiceTally :=
  events.foldl (fun tallies e =>
    tallies.set (serviceOf e) (((tallies.get? (serviceOf e)).getD {}).add e)) {}

def ServiceTally.withAverage (tally : ServiceTally) : ServiceStats :=
  { tally with avgMs := Python.round (tally.totalMs / tally.count) 2 }

/-- analyze_tracing; `none` where an index is out of range. -/
def analyzeTracing (events : List TraceEvent) (slowThresholdMs : SlowThreshold) :
    Option TracingResult :=
  if events = [] then some { summary := "No tracing events to analyze" }
  else do
    let durations := (events.map TraceEvent.durationMs).mergeSort
    let avgDur := durations.sum / durations.length
    let p50 ← durations[durations.length / 2]?
    let p99 ← durations[⌊(durations.length : ℚ) * (99 / 100)⌋.toNat]?
    let maxDur ← durations.getLast?
    let slowEvents := events.filter fun e => slowThresholdMs.ms ≤ e.durationMs
    some
      { totalEvents := events.length
        avgDurationMs := avgDur
        maxDurationMs := maxDur
        p50DurationMs := p50
        p99DurationMs := p99
        slowEvents := slowEvents.take 100
        byService := (tallyServices events).mapValues ServiceTally.withAverage
        summary := "共 " ++ toString events.length ++ " 个 trace 事件, 延迟 avg=" ++
          Python.fixed1 avgDur ++ "ms p99=" ++ Python.fixed1 p99 ++ "ms max=" ++
          Python.fixed1 maxDur ++ "ms, 慢请求 (>" ++ slowThresholdMs.text ++ "ms): " ++
          toString slowEvents.length ++ " 个" }

/-- The document of tracing_to_json. -/
structure TracingReport where
  totalEvents : ℕ
  avgDurationMs : ℚ
  maxDurationMs : ℚ
  p50DurationMs : ℚ
  p99DurationMs : ℚ
  slowEventCount : ℕ
  slowEvents : List TraceEvent
  byService : Dict String ServiceStats
  summary : String

def tracingToJson (result : TracingResult) : TracingReport where
  totalEvents := result.totalEvents
  avgDurationMs := Python.round result.avgDurationMs 2
  maxDurationMs := Python.round result.maxDurationMs 2
  p50DurationMs := Python.round result.p50DurationMs 2
  p99DurationMs := Python.round result.p99DurationMs 2
  slowEventCount := result.slowEvents.length
  slowEvents := result.slowEvents.take 50
  byService := result.byService
  summary := result.summary

end MiniDrop
