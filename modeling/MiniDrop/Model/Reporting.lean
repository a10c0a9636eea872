import MiniDrop.Model.Agent

/-! # Collected files and their reports in drop_agent

Once a result is on its way to the object store or embedded in a message, the worker removes the
local files of the task; after that it reports the result in up to three attempts. -/

namespace MiniDrop

/-- What the worker meets while it handles one task. -/
structure Circumstances where
  ret : ℤ
  postProcessed : Bool
  reply : UploadReply
  /-- The server acknowledges this attempt at NotifyResult. -/
  acknowledges : ℕ → Bool

/-- An attempt at NotifyResult. -/
structure Notification where
  result : TaskResult
  acknowledged : Bool
deriving DecidableEq

/-- What the worker did about one task. -/
structure Handled where
  removed : List String := []
  /-- Path and key of a file in the object store. -/
  stored : Option (String × String) := none
  sent : List Notification
deriving DecidableEq

/-- The loop of ReportResult from this attempt on, with so many left. -/
def reportResultFrom (acknowledges : ℕ → Bool) (result : TaskResult) (attempt : ℕ) :
    ℕ → List Notification
  | 0 => []
  | left + 1 =>
    ⟨result, acknowledges attempt⟩ ::
      if acknowledges attempt then []
      else reportResultFrom acknowledges result (attempt + 1) left

def reportResult (acknowledges : ℕ → Bool) (result : TaskResult) : List Notification :=
  reportResultFrom acknowledges result 1 3

/-- The path of the collected file. -/
def outputPath (task : TaskDesc) : String :=
  "/tmp/profiler_" ++ task.taskId ++ outputExt task.profilerType

/-- The collected file, and the processed one if there is one. -/
def outputFiles (task : TaskDesc) (postProcessed : Bool) : List String :=
  let uploadPath := (uploadFile task postProcessed).1
  outputPath task :: if uploadPath ≠ outputPath task then [uploadPath] else []

/-- The result that is reported. -/
def taskResult (task : TaskDesc) (c : Circumstances) : TaskResult :=
  let code := recordCode task c.ret
  if code = 0 then uploadResult task c.postProcessed c.reply
  else { taskId := task.taskId, errorMessage := "profiler failed with code " ++ toString code }

/-- The part of WorkerLoop after the collector. -/
def handleTask (task : TaskDesc) (c : Circumstances) : Handled :=
  let result := taskResult task c
  let sent := reportResult c.acknowledges result
  if recordCode task c.ret = 0 then
    match c.reply with
    | .uploaded =>
      { removed := outputFiles task c.postProcessed
        stored := some ((uploadFile task c.postProcessed).1, result.cosKey)
        sent }
    | .failed (some content) =>
      if 0 < content.length ∧ content.length ≤ maxEmbedSize then
        { removed := outputFiles task c.postProcessed, sent }
      else { sent }
    | .failed none | .notConfigured => { sent }
  else { sent }

/-- A task that is still in the queue when the agent shuts down. -/
def cancelTask (task : TaskDesc) (acknowledges : ℕ → Bool) : Handled :=
  { sent := reportResult acknowledges
      { taskId := task.taskId, errorMessage := "agent shutting down" } }

/-- The life of a worker. -/
def handleAll (done : List (TaskDesc × Circumstances)) (left : List (TaskDesc × (ℕ → Bool))) :
    List Handled :=
  done.map (fun (task, c) => handleTask task c) ++
    left.map fun (task, acknowledges) => cancelTask task acknowledges

end MiniDrop
