import MiniDrop.Library.Csv
import MiniDrop.Library.Deviation
import MiniDrop.Library.Json
import MiniDrop.Library.Rounding

/-! # Blocking I/O events

Events are read from a CSV or a JSON file, and those of a high latency are looked through for
outliers. Numbers are exact. -/

namespace MiniDrop

structure SyncEvent where
  timestamp : ℚ := 0
  duration : ℚ := 0
  threadId : Json ℚ := .str ""
  callSite : Json ℚ := .str ""
  ioSize : ℤ := 0
  latencyMs : ℚ := 0

structure BwSyncResult where
  totalEvents : ℕ := 0
  syncEvents : List SyncEvent := []
  avgLatencyMs : ℚ := 0
  maxLatencyMs : ℚ := 0
  syncRatio : ℚ := 0
  summary : String := ""

/-- The text of `.1%`. -/
def percent1 (q : ℚ) : String := Python.fixed1 (q * 100) ++ "%"

/-- `_analyze_events`. -/
def analyzeEvents (events : List SyncEvent) (latencyThresholdMs : ℚ) : BwSyncResult :=
  match events with
  | [] => { summary := "No events to analyze" }
  | first :: rest =>
    let syncEvents := events.filter fun e => latencyThresholdMs ≤ e.latencyMs
    let totalLatency := (events.map SyncEvent.latencyMs).sum
    let maxLatency := (rest.map SyncEvent.latencyMs).foldl max first.latencyMs
    let avgLatency := totalLatency / events.length
    let syncRatio := (syncEvents.length : ℚ) / events.length
    { totalEvents := events.length
      syncEvents
      avgLatencyMs := avgLatency
      maxLatencyMs := maxLatency
      syncRatio
      summary :=
        if syncEvents ≠ [] then
          "检测到 " ++ toString syncEvents.length ++ " 个同步阻塞事件 (占比 " ++ percent1 syncRatio ++
            ")，最大延迟 " ++ Python.fixed1 maxLatency ++ "ms，平均延迟 " ++
            Python.fixed1 avgLatency ++ "ms"
        else "未检测到同步阻塞，平均延迟 " ++ Python.fixed1 avgLatency ++ "ms" }

/-! ## CSV -/

inductive CellError where
  /-- ValueError: the row is skipped. -/
  | value
  /-- TypeError: a row without the cell. -/
  | type
deriving DecidableEq

/-- What DictReader has under a key: the last column of that name, which a short row lacks. -/
def dictCell (header row : List (List Char)) (key : String) : Option (Option (List Char)) :=
  ((header.zipIdx.filter fun column => column.1 = key.toList).getLast?).map fun column =>
    row[column.2]?

/-- A number in a cell, which is 0 where there is no column. -/
def cellNumber {α : Type} (read : List Char → Option α) (zero : α) :
    Option (Option (List Char)) → Except CellError α
  | none => .ok zero
  | some none => .error .type
  | some (some cell) =>
    match read cell with
    | some n => .ok n
    | none => .error .value

def cellText : Option (Option (List Char)) → Json ℚ
  | none => .str ""
  | some none => .null
  | some (some cell) => .str (String.ofList cell)

/-- Body of the loop of analyze_bw_sync_csv. -/
def bwSyncRow (header row : List (List Char)) : Except CellError SyncEvent := do
  let float := cellNumber Python.rational? 0
  let timestamp ← float (dictCell header row "timestamp")
  let duration ← float (dictCell header row "duration")
  let ioSize ← cellNumber Python.int? 0 (dictCell header row "io_size")
  let latencyMs ← float (dictCell header row "latency_ms")
  pure
    { timestamp, duration, ioSize, latencyMs
      threadId := cellText (dictCell header row "thread_id")
      callSite := cellText (dictCell header row "call_site") }

/-- The events of the rows; `none` where a row raises. -/
def bwSyncRows (header : List (List Char)) : List (List (List Char)) → Option (List SyncEvent)
  | [] => some []
  | row :: rows =>
    match bwSyncRow header row with
    | .ok e => (bwSyncRows header rows).map (e :: ·)
    | .error .value => bwSyncRows header rows
    | .error .type => none

/-- analyze_bw_sync_csv; `none` where it raises. -/
def analyzeBwSyncCsv (text : List Char) (latencyThresholdMs : ℚ) : Option BwSyncResult := do
  let rows ← Csv.read text
  let events ←
    match rows with
    | [] => some []
    | header :: rows => bwSyncRows header (rows.filter (· ≠ []))
  some (analyzeEvents events latencyThresholdMs)

/-! ## JSON -/

/-- What a loop over the data goes through; `none` where it is not iterable. -/
def bwSyncItems : Json ℚ → Option (List (Json ℚ))
  | .list items => some items
  | .dict entries => some (entries.map fun entry => .str entry.1)
  | .str s => some (s.toList.map fun c => .str (String.singleton c))
  | _ => none

/-- Body of the loop of analyze_bw_sync_json; `none` where it raises. -/
def bwSyncItem (item : Json ℚ) : Option SyncEvent := do
  let entries ← item.dict?
  let get := fun (key : String) (other : Json ℚ) => (Dict.lookup key entries).getD other
  some
    { timestamp := ← (get "timestamp" (.int 0)).float? .exact
      duration := ← (get "duration" (.int 0)).float? .exact
      threadId := get "thread_id" (.str "")
      callSite := get "call_site" (.str "")
      ioSize := ← (get "io_size" (.int 0)).int? .exact
      latencyMs := ← (get "latency_ms" (.int 0)).float? .exact }

/-- analyze_bw_sync_json of what `json.loads` returns, or the text of its error; `none` where it
raises. -/
def analyzeBwSyncJson (data : Except String (Json ℚ)) (latencyThresholdMs : ℚ) :
    Option BwSyncResult :=
  match data with
  | .error message => some { summary := "JSON parse error: " ++ message }
  | .ok data => do
    let items ← bwSyncItems data
    let events ← items.mapM bwSyncItem
    some (analyzeEvents events latencyThresholdMs)

/-! ## Outliers -/

/-- `t ≤ d / √v`, for positive `v`. -/
def reachesScore (d v t : ℚ) : Bool :=
  if 0 ≤ t then decide (0 ≤ d ∧ t ^ 2 * v ≤ d ^ 2) else decide (0 ≤ d ∨ d ^ 2 ≤ t ^ 2 * v)

/-- detect_anomalies, without the scores that it prints. -/
def detectAnomalies (result : BwSyncResult) (zscoreThreshold : ℚ) : List SyncEvent :=
  let latencies := result.syncEvents.map SyncEvent.latencyMs
  if latencies.length < 2 then []
  else if Deviation.variance latencies = 0 then []
  else
    result.syncEvents.filter fun e =>
      reachesScore (e.latencyMs - Deviation.mean latencies) (Deviation.variance latencies)
        zscoreThreshold

/-- The exit code of detect_bw_sync. -/
def detectExitCode (anomalies : List SyncEvent) : ℕ := if anomalies.isEmpty then 0 else 1

end MiniDrop
