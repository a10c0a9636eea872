import MiniDrop.Library.Pool
import MiniDrop.Model.Artifacts

/-! # Analysis processes

runAnalysis starts hotmethod_analyzer.py for a task. The processes for one task wait for each
other at a lock file and report through the API server; the handler of a failed one runs in
the server itself. -/

namespace MiniDrop

/-- The database, and the lock file of one task. -/
structure AnalysisStore where
  db : Database
  locked : Bool := false
  /-- The outcome of the process that released the lock last after an analysis. -/
  finished : Option ℤ := none

/-- What a statement means beside what it does to the tables. -/
structure AnalysisMark where
  table : Mark := {}
  acquires : Bool := false
  releases : Bool := false
  /-- The process asks whether the task has been analysed. -/
  checks : Bool := false
  /-- Nothing makes up for it where it fails. -/
  required : Bool := false
  /-- The process of this request dies before it has asked. -/
  doomed : Bool := false
  /-- The process that sent this request is gone. -/
  late : Bool := false
deriving DecidableEq

abbrev AnalysisProgram := Program AnalysisMark AnalysisStore

/-- Statements of the API server. -/
def onServer {α : Type} (mark : AnalysisMark) (p : Statements α) : AnalysisProgram α :=
  p.lift AnalysisStore.db (fun db s => { s with db }) fun table _ => { mark with table }

/-- What the programs depend on: whether the ORM assigns to the record in memory, whether an
analysis command is configured, and the object store. -/
structure AnalysisConfig where
  assigns : Bool := false
  analysisConfigured : Bool := true
  store : Option ObjectStore := none
  presign : String → Option String := fun _ => none

/-- What becomes of a process. -/
structure ProcessFate where
  /-- It gets as far as the lock and the answer to its first request. -/
  begins : Bool := true
  /-- A running status that it sees is old. -/
  stale : Bool := false
  /-- How often its first report arrives. -/
  starts : ℕ := 1
  succeeds : Bool := true
  /-- How often its last report arrives. -/
  reports : ℕ := 1
  /-- What it reports with a failure. -/
  message : String := ""
  /-- It dies after an analysis, or at its timeout. -/
  killed : Bool := false
  /-- What runAnalysis then finds: the error, and the output to stderr. -/
  error : String × String := ("", "")
deriving DecidableEq

/-! ## The lock -/

/-- `flock(LOCK_EX)`; a process that gets an error goes on without the lock. -/
def acquireLock : AnalysisProgram Bool :=
  Program.update { acquires := true } fun s =>
    if s.locked then none else some { s with locked := true }

/-- `flock(LOCK_UN)`, or the end of the process, after an analysis with this outcome. -/
def releaseLock (held : Bool) (outcome : Option ℤ) : AnalysisProgram Unit := do
  let _ ← Program.update { releases := true } fun s =>
    if held then some { s with locked := false, finished := outcome.or s.finished } else none

/-- A process waits for the lock, and always releases it. -/
def AnalysisMark.Enabled (mark : AnalysisMark) (s : AnalysisStore) (fails : Bool) : Prop :=
  (mark.acquires = true → fails = true ∨ s.locked = false) ∧ (mark.releases = true → fails = false)

instance (mark : AnalysisMark) (s : AnalysisStore) (fails : Bool) :
    Decidable (mark.Enabled s fails) :=
  inferInstanceAs (Decidable (_ ∧ _))

/-! ## Requests of a process -/

/-- A report that arrives as often as `arrivals` says; what the server answers is ignored. -/
def reportStatus (config : AnalysisConfig) (mark : AnalysisMark) (uid tid : String) (status : ℤ)
    (statusInfo : String) : ℕ → AnalysisProgram Unit
  | 0 => pure ()
  | arrivals + 1 => do
    let _ ← onServer mark (updateAnalysisStatus config.assigns uid tid status statusInfo)
    reportStatus config mark uid tid status statusInfo arrivals

/-- The record of the task, unless the server refuses; an internal error is tried again. -/
def requestTask (config : AnalysisConfig) (uid tid : String) :
    ℕ → AnalysisProgram (Option HotmethodTask)
  | 0 => pure none
  | attempts + 1 => do
    match ← onServer { checks := true } (getTaskDetail config.store config.presign uid tid) with
    | .ok detail => pure (some detail.task)
    | .error refusal =>
      if refusal.httpStatus < 500 then pure none else requestTask config uid tid attempts

def shouldSkipRunningAnalysis (task : HotmethodTask) (stale triggered : Bool) : Bool :=
  task.analysisStatus = analysisStatusRunning && !stale && !triggered

/-- main of hotmethod_analyzer.py; answers whether the process ends with an error. -/
def analyzerMain (config : AnalysisConfig) (uid : String) (triggered : Bool) (tid : String)
    (fate : ProcessFate) : AnalysisProgram Bool := do
  let held ← acquireLock
  let task ← requestTask config uid tid 3
  if ∃ found ∈ task, found.analysisStatus = analysisStatusSuccess ∨
      shouldSkipRunningAnalysis found fate.stale triggered = true then
    releaseLock held none
    pure fate.killed
  else
    reportStatus config {} uid tid analysisStatusRunning "analysis started" fate.starts
    if fate.succeeds then
      reportStatus config { required := true } uid tid analysisStatusSuccess "analysis completed"
        fate.reports
      releaseLock held (some analysisStatusSuccess)
      pure fate.killed
    else
      reportStatus config {} uid tid analysisStatusFailed fate.message fate.reports
      releaseLock held (some analysisStatusFailed)
      pure true

/-! ## Requests of the server -/

/-- The user that the process acts for, and whether it knows that the server started it. -/
def analysisProcessEnv (tid : String) : AnalysisProgram (String × Bool) := do
  match ← onServer { required := true } (firstTask tid false) with
  | .error _ => pure ("analysis-system", false)
  | .ok task => pure (task.uid, true)

/-- runAnalysis with its process. -/
def runAnalysisProcess (config : AnalysisConfig) (tid : String) (fate : ProcessFate) :
    AnalysisProgram Unit := do
  let (uid, triggered) ← analysisProcessEnv tid
  let failed ←
    if fate.begins then analyzerMain config uid triggered tid fate else pure true
  if failed then onServer { required := true } (runAnalysis tid (some fate.error))

/-- What starts, or reports, analyses of one task. -/
inductive AnalysisRequest where
  | triggerAnalysis (uid : String) (fate : ProcessFate)
  /-- waitTaskResult or GetContinuousWindows starts an analysis. -/
  | runAnalysis (fate : ProcessFate)
  /-- A report is carried out after its process has died. -/
  | lateReport (uid : String) (status : ℤ) (statusInfo : String)
deriving DecidableEq

def AnalysisRequest.program (config : AnalysisConfig) (tid : String) :
    AnalysisRequest → AnalysisProgram Unit
  | triggerAnalysis uid fate => do
    let answer ← onServer { doomed := !fate.begins }
      (MiniDrop.triggerAnalysis config.assigns config.analysisConfigured uid tid)
    if answer.code = 0 then runAnalysisProcess config tid fate
  | runAnalysis fate => runAnalysisProcess config tid fate
  | lateReport uid status statusInfo =>
    reportStatus config { late := true } uid tid status statusInfo 1

abbrev AnalysisPool := Pool AnalysisRequest AnalysisMark AnalysisStore

/-- The server and the processes, statement by statement. -/
abbrev analysisStep (config : AnalysisConfig) (tid : String) :
    AnalysisPool → Pool.Event AnalysisRequest → Option AnalysisPool :=
  Pool.stepWhen (AnalysisRequest.program config tid) AnalysisMark.Enabled

end MiniDrop
