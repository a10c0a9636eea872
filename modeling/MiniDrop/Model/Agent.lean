import Mathlib.Data.Nat.Notation
import MiniDrop.Model.Messages

/-! # The task worker of drop_agent

Tasks from heartbeats wait in a local queue, and one worker thread runs them in order. What a
profiler, the object store and the network do is an argument. -/

namespace MiniDrop

/-! ## Collectors -/

def profilerPerf : UInt32 := 0
def profilerAsyncProfiler : UInt32 := 1
def profilerPprof : UInt32 := 2
def profilerBpftrace : UInt32 := 3
def profilerMemray : UInt32 := 4
def profilerJavaHeap : UInt32 := 5
def profilerResource : UInt32 := 6

/-- CreateProfiler knows the type. -/
def createsProfiler (profilerType : UInt32) : Bool :=
  [profilerPerf, profilerAsyncProfiler, profilerPprof, profilerBpftrace, profilerMemray,
    profilerJavaHeap, profilerResource].contains profilerType

/-- The extension of the collected file. -/
def outputExt (profilerType : UInt32) : String :=
  if profilerType = profilerBpftrace then ".txt"
  else if profilerType = profilerAsyncProfiler then ".collapsed"
  else if profilerType = profilerPprof then ".pb.gz"
  else if profilerType = profilerMemray then ".bin"
  else if profilerType = profilerJavaHeap then ".hprof"
  else if profilerType = profilerResource then ".json"
  else ".data"

/-- The extension after collect_result. -/
def resultExt (profilerType : UInt32) : String :=
  if profilerType = profilerPerf then ".txt"
  else if profilerType = profilerMemray then ".html"
  else outputExt profilerType

/-- The exit code of the script or the collector; a type without a collector counts as -1. -/
def recordCode (task : TaskDesc) (ret : ℤ) : ℤ :=
  if task.scriptContent ≠ "" then ret
  else if createsProfiler task.profilerType then ret
  else -1

/-- Path and extension of the file to upload. A script has no collect_result. -/
def uploadFile (task : TaskDesc) (postProcessed : Bool) : String × String :=
  if task.scriptContent = "" ∧ postProcessed then
    ("/tmp/result_" ++ task.taskId ++ resultExt task.profilerType, resultExt task.profilerType)
  else
    ("/tmp/profiler_" ++ task.taskId ++ outputExt task.profilerType, outputExt task.profilerType)

/-- What the upload comes to. After a failure the agent reads the file, if it can. -/
inductive UploadReply where
  | notConfigured
  | uploaded
  | failed (content : Option (List UInt8))
deriving DecidableEq

/-- `MAX_EMBED_SIZE`. -/
def maxEmbedSize : ℕ := 16 * 1024 * 1024

/-- The result of a collection that succeeded. -/
def uploadResult (task : TaskDesc) (postProcessed : Bool) (reply : UploadReply) : TaskResult :=
  let (path, ext) := uploadFile task postProcessed
  match reply with
  | .notConfigured =>
    { taskId := task.taskId, errorMessage := "no storage configured, cannot upload result" }
  | .uploaded =>
    { taskId := task.taskId
      cosKey := "profiler/" ++ task.taskId ++ "/" ++ task.taskId ++ ext }
  | .failed none =>
    { taskId := task.taskId
      errorMessage := "upload failed and cannot read local file: " ++ path }
  | .failed (some content) =>
    if 0 < content.length ∧ content.length ≤ maxEmbedSize then
      { taskId := task.taskId
        file := some { name := task.taskId ++ ext, content, size := content.length } }
    else { taskId := task.taskId, errorMessage := "upload failed, local file: " ++ path }

/-! ## The worker -/

/-- Where the worker thread is. -/
inductive Worker where
  | waiting
  | started (task : TaskDesc)
  | recording (task : TaskDesc)
  | collected (task : TaskDesc)
  | uploading (task : TaskDesc)
  | finished (result : TaskResult)
deriving DecidableEq

structure Agent where
  queue : List TaskDesc := []
  worker : Worker := .waiting
  running : Bool := true

/-- An RPC that an agent sends to drop_server. -/
inductive Report where
  | status (update : TaskStatusUpdate)
  | result (result : TaskResult)
deriving DecidableEq

/-- `copies` tells how many of the three attempts at a report get on the network. -/
inductive AgentAction where
  | take
  | reportRunning (copies : ℕ)
  | record (ret : ℤ)
  | reportUploading (copies : ℕ)
  | upload (postProcessed : Bool) (reply : UploadReply)
  | reportResult (copies : ℕ)
  /-- A signal ends the loop; tasks in the queue are cancelled one by one. -/
  | stop
  | cancel (copies : ℕ)
  /-- The process dies and starts again. -/
  | crash
deriving DecidableEq

namespace Agent

/-- `MAX_TASK_QUEUE_SIZE` of the agent. -/
def maxTaskQueueSize : ℕ := 100

/-- A full queue drops the task. -/
def pushTask (a : Agent) (task : TaskDesc) : Agent :=
  if a.queue.length ≥ maxTaskQueueSize then a else { a with queue := a.queue ++ [task] }

/-- The attempts of ReportStatus or ReportResult. -/
def attempts (copies : ℕ) (report : Report) : Option (List Report) :=
  if copies ≤ 3 then some (List.replicate copies report) else none

def reportStatus (copies : ℕ) (task : TaskDesc) (status : ℤ) (reason : String) :
    Option (List Report) :=
  attempts copies (.status { taskId := task.taskId, status, reason })

/-- One step of WorkerLoop, of a shutdown or of a restart, with the reports it sends. -/
def step (a : Agent) (action : AgentAction) : Option (Agent × List Report) :=
  match action, a.worker, a.queue with
  | .take, .waiting, task :: rest =>
    if a.running then some ({ a with queue := rest, worker := .started task }, []) else none
  | .reportRunning copies, .started task, _ =>
    (reportStatus copies task 2 "Agent 开始执行采集任务").map fun reports =>
      ({ a with worker := .recording task }, reports)
  | .record ret, .recording task, _ =>
    let code := recordCode task ret
    let worker : Worker :=
      if code = 0 then .collected task
      else
        .finished { taskId := task.taskId
                    errorMessage := "profiler failed with code " ++ toString code }
    some ({ a with worker }, [])
  | .reportUploading copies, .collected task, _ =>
    (reportStatus copies task 3 "采集完成，正在上传结果到存储").map fun reports =>
      ({ a with worker := .uploading task }, reports)
  | .upload postProcessed reply, .uploading task, _ =>
    some ({ a with worker := .finished (uploadResult task postProcessed reply) }, [])
  | .reportResult copies, .finished result, _ =>
    (attempts copies (.result result)).map fun reports => ({ a with worker := .waiting }, reports)
  | .stop, _, _ => some ({ a with running := false }, [])
  | .cancel copies, .waiting, task :: rest =>
    if a.running then none
    else
      (attempts copies
        (.result { taskId := task.taskId, errorMessage := "agent shutting down" })).map
          fun reports => ({ a with queue := rest }, reports)
  | .crash, _, _ => some ({}, [])
  | _, _, _ => none

end Agent

end MiniDrop
