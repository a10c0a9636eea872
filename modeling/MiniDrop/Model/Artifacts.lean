import Mathlib.Data.List.Infix
import MiniDrop.Model.Continuous

/-! # Artifacts and analysis in the API server

The status text of a task also carries the key of the collected file, which the requests for
artifacts read back from it. -/

namespace MiniDrop

/-! ## Texts -/

def resultMarker : String := "collector result ready: "

/-- `unicode.IsSpace`. -/
def isSpace (c : Char) : Bool :=
  [9, 10, 11, 12, 13, 32, 0x85, 0xA0, 0x1680, 0x2028, 0x2029, 0x202F, 0x205F, 0x3000].contains
    c.toNat || (0x2000 ≤ c.toNat && c.toNat ≤ 0x200A)

/-- `strings.TrimSpace`. -/
def trimSpace (s : List Char) : List Char := Text.trim isSpace s

/-- The part of a text up to the first semicolon. -/
def cutAtSemicolon (key : List Char) : List Char :=
  if ';' ∈ key then trimSpace (key.takeWhile (· ≠ ';')) else key

def extractCollectorResultKey (statusInfo : String) : String :=
  match Text.rfind resultMarker.toList statusInfo.toList with
  | none => ""
  | some idx =>
    let key := cutAtSemicolon (trimSpace (statusInfo.toList.drop (idx + resultMarker.length)))
    if key = [] ∨ '\r' ∈ key ∨ '\n' ∈ key then "" else String.ofList key

/-- `strings.HasPrefix`. -/
def hasPrefix (s start : String) : Prop := start.toList <+: s.toList

instance (s start : String) : Decidable (hasPrefix s start) :=
  inferInstanceAs (Decidable (_ <+: _))

/-- `strings.Contains`. -/
def containsText (s part : String) : Prop := part.toList <:+: s.toList

instance (s part : String) : Decidable (containsText s part) :=
  inferInstanceAs (Decidable (_ <:+: _))

def isTaskArtifactKey (task : HotmethodTask) (key : String) : Bool :=
  if key = "" then false
  else if hasPrefix key (task.tid ++ "/") ∨ hasPrefix key ("profiler/" ++ task.tid ++ "/") then true
  else key = extractCollectorResultKey task.statusInfo

def mergeStatusInfo (current reason : String) : String :=
  if current = "" ∨ ¬ containsText current resultMarker then reason
  else if reason = "" then current
  else if containsText reason resultMarker then reason
  else current ++ "; " ++ reason

/-! ## Analysis status -/

def updateAnalysisStatusInfo (tid reason : String) : Statements Unit := do
  if reason = "" then pure ()
  else
    match ← firstTask tid false with
    | .error _ => pure ()
    | .ok task =>
      let _ ← Program.update { tid } fun db =>
        some (db.updateTask tid fun row =>
          { row with statusInfo := mergeStatusInfo task.statusInfo reason })

/-- `assigns` as in ensureContinuousWindowTask: the row names the status that the record in
memory has after the update. -/
def transitionAnalysisStatus (assigns : Bool) (tid : String) (toState : ℤ) (reason : String) :
    Statements Unit := do
  match ← firstTask tid false with
  | .error _ => pure ()
  | .ok task =>
    if task.analysisStatus = toState then
      if reason ≠ "" then updateAnalysisStatusInfo tid reason
    else
      let statusInfo := mergeStatusInfo task.statusInfo reason
      let fromState := if assigns then toState else task.analysisStatus
      -- one transaction
      let _ ← Program.update { tid, decided := some task.analysisStatus } fun db =>
        some ((db.updateTask tid fun row =>
          { row with analysisStatus := toState, statusInfo }).addHistory
            { tid, fromState, toState, reason, changeType := changeTypeAnalysis })

/-- UpdateAnalysisStatus. -/
def updateAnalysisStatus (assigns : Bool) (uid tid : String) (analysisStatus : ℤ)
    (statusInfo : String) : Statements Answer := do
  match ← checkTaskAccess uid tid false with
  | none => pure taskNotFound
  | some _ =>
    match ← firstTask tid false with
    | .error _ => pure taskNotFound
    | .ok _ =>
      transitionAnalysisStatus assigns tid analysisStatus statusInfo
      pure ⟨200, 0, "updated"⟩

/-- runAnalysis, as far as it depends on the end of the process: `failure` holds the error and
what the process wrote to stderr. -/
def runAnalysis (tid : String) (failure : Option (String × String)) : Statements Unit := do
  match failure with
  | none => pure ()
  | some (error, stderr) =>
    match ← firstTask tid false with
    | .error _ => pure ()
    | .ok task =>
      if task.analysisStatus ≠ analysisStatusSuccess ∧
          task.analysisStatus ≠ analysisStatusFailed then
        let failReason := "analysis failed: " ++ error ++ ", stderr: " ++ stderr
        let _ ← Program.update
          { tid, decided := some task.analysisStatus, overwrites := true } fun db =>
          some (db.updateTask tid fun row =>
            { row with analysisStatus := analysisStatusFailed, statusInfo := failReason })
        recordStateChange tid task.analysisStatus analysisStatusFailed failReason
          changeTypeAnalysis false

/-- TriggerAnalysis; runAnalysis is started where the answer has code 0. -/
def triggerAnalysis (assigns analysisConfigured : Bool) (uid tid : String) :
    Statements Answer := do
  match ← checkTaskAccess uid tid false with
  | none => pure taskNotFound
  | some task =>
    if task.status ≠ taskStatusSuccess then pure ⟨400, 4000001, "task not completed"⟩
    else if task.analysisStatus = analysisStatusRunning then
      pure ⟨409, 5000001, "analysis already running"⟩
    else if !analysisConfigured then pure ⟨500, 5000001, "analysis command not configured"⟩
    else
      transitionAnalysisStatus assigns tid analysisStatusRunning "analysis queued"
      pure ⟨200, 0, "analysis triggered"⟩

/-! ## Reading artifacts -/

/-- The object store: its keys, and the prefixes that it fails to list. -/
structure ObjectStore where
  keys : List String
  unlisted : List String := []

/-- GetTaskArtifact, up to the read from the object store. -/
inductive ArtifactAnswer where
  | refused (answer : Answer)
  | reads (key : String)
deriving DecidableEq

def getTaskArtifact (uid tid query : String) : Statements ArtifactAnswer := do
  let key := String.ofList (trimSpace query.toList)
  if key = "" ∨ containsText key ".." ∨ hasPrefix key "/" then
    pure (.refused ⟨400, 4000001, "invalid artifact key"⟩)
  else
    match ← checkTaskAccess uid tid false with
    | none => pure (.refused taskNotFound)
    | some task =>
      if !isTaskArtifactKey task key then pure (.refused ⟨404, 4040001, "artifact not found"⟩)
      else pure (.reads key)

/-- File names that are probed where listing fails. -/
def knownArtifacts : List String :=
  ["perf.data", "perf.script.txt", "flamegraph.svg", "top.json", "suggestions.md",
    "ai_suggestion.md", "attribution_report.md", "attribution_evidence.json",
    "attribution_tool_calls.json", "collapsed.txt", "biosnoop_stats.json", "heap_stats.json",
    "memleak.json", "pprof_cpu.json", "pprof_heap.json", "resource_stats.json",
    "tracing_stats.json"]

def listStorageObjects (store : Option ObjectStore) (start : String) : List String :=
  match store with
  | none => []
  | some store =>
    if start ∈ store.unlisted then
      (knownArtifacts.map fun name => start ++ name).filter (store.keys.contains ·)
    else store.keys.filter fun key => hasPrefix key start

def appendUnique (items : List String) (item : String) : List String :=
  if item ∈ items then items else items ++ [item]

/-- The keys of a task that are to be presigned. -/
def taskObjects (store : Option ObjectStore) (tid statusInfo : String) : List String :=
  let objects := listStorageObjects store ("profiler/" ++ tid ++ "/") ++
    listStorageObjects store (tid ++ "/")
  let key := extractCollectorResultKey statusInfo
  if key ≠ "" then appendUnique objects key else objects

/-- Keys with their URLs; keys that cannot be presigned are left out. -/
def presignAll (presign : String → Option String) (objects : List String) :
    List (String × String) :=
  objects.filterMap fun key => (presign key).map fun url => (key, url)

/-- Refusals of GetTaskDetail and GetCOSFiles; `none` stands for the message of the database. -/
structure Refusal where
  httpStatus : ℤ
  code : ℤ
  message : Option String

structure TaskDetail where
  task : HotmethodTask
  cosFiles : List (String × String)
  stateHistory : List TaskStateHistory

def getTaskDetail (store : Option ObjectStore) (presign : String → Option String)
    (uid tid : String) : Statements (Except Refusal TaskDetail) := do
  match ← firstTask tid false with
  | .error .recordNotFound => pure (.error ⟨404, 4040001, some "task not found"⟩)
  | .error .failure => pure (.error ⟨500, 5000001, none⟩)
  | .ok task =>
    if !(← mayAccess {} uid task) then pure (.error ⟨404, 4040001, some "task not found"⟩)
    else
      let stateHistory := (← Program.query {} fun db =>
        db.history.filter fun row => row.tid = tid).getD []
      let cosFiles := if task.status = taskStatusSuccess then
        presignAll presign (taskObjects store tid task.statusInfo) else []
      pure (.ok { task, cosFiles, stateHistory })

def getCOSFiles (store : Option ObjectStore) (presign : String → Option String)
    (uid tid : String) : Statements (Except Refusal (List (String × String))) := do
  if tid = "" then pure (.error ⟨400, 4000001, some "tid is required"⟩)
  else
    match ← firstTask tid false with
    | .error _ => pure (.error ⟨404, 4040001, some "task not found"⟩)
    | .ok task =>
      if !(← mayAccess {} uid task) then pure (.error ⟨404, 4040001, some "task not found"⟩)
      else pure (.ok (presignAll presign (taskObjects store tid task.statusInfo)))

end MiniDrop
