import Mathlib.Data.Int.Notation

/-! # Messages and records exchanged by the API server, drop_server and drop_agent -/

namespace MiniDrop

/-- Task states of drop_server. -/
inductive TaskStatus where
  | pending
  | dispatched
  | running
  | uploading
  | done
  | failed
  | timeout
deriving DecidableEq, Repr

/-- The value of the enumerator. -/
def TaskStatus.toInt : TaskStatus → ℤ
  | .pending => 0
  | .dispatched => 1
  | .running => 2
  | .uploading => 3
  | .done => 4
  | .failed => 5
  | .timeout => 6

/-- The states in which the cleanup thread may expire an entry. -/
def TaskStatus.terminal : TaskStatus → Bool
  | .done | .failed | .timeout => true
  | _ => false

/-- Arguments of one sampling run. -/
structure RecordArgv where
  hz : UInt32 := 0
  duration : UInt64 := 0
  pid : Int32 := 0
  callgraph : String := ""
  subprocess : Bool := false
  event : String := ""
  windowSec : UInt32 := 0
  parentTid : String := ""
deriving DecidableEq

structure TaskDesc where
  taskId : String
  taskType : UInt32 := 0
  profilerType : UInt32 := 0
  sampleArgv : RecordArgv := {}
  timeoutSec : UInt32 := 0
  scriptContent : String := ""
deriving DecidableEq

structure File where
  name : String
  content : List UInt8
  size : ℤ
deriving DecidableEq

structure TaskResult where
  taskId : String
  errorMessage : String := ""
  file : Option File := none
  cosKey : String := ""
deriving DecidableEq

structure CollectRequest where
  targetIp : String
  taskDesc : TaskDesc
  timeoutSec : UInt32
deriving DecidableEq

structure CollectResponse where
  code : ℤ
  message : String
  result : Option TaskResult := none
deriving DecidableEq

/-- `status` is an open enumeration on the wire, so any integer may arrive. -/
structure TaskStatusUpdate where
  taskId : String
  status : ℤ
  reason : String := ""
deriving DecidableEq

structure StartContinuousRequest where
  targetIp : String
  pid : Int32
  hz : UInt32
  windowSec : UInt32
  profilerType : UInt32 := 0
  callgraph : String := ""
  event : String := ""
deriving DecidableEq

/-- The entry of `tasks_state_`; `timestamp` is a steady-clock reading in nanoseconds. -/
structure TaskStateInfo where
  status : TaskStatus
  reason : String
  timestamp : ℤ
deriving DecidableEq

/-- `status` is 1 for a finished window and 2 for a failed one. -/
structure ContinuousWindowRecord where
  windowTid : String
  seq : ℤ
  startTime : ℤ
  endTime : ℤ
  status : ℤ
  cosKey : String
deriving DecidableEq

structure ContinuousTaskConfig where
  parentTid : String
  targetIp : String
  pid : Int32
  hz : UInt32
  windowSec : UInt32
  profilerType : UInt32
  callgraph : String
  event : String
  running : Bool
deriving DecidableEq

/-- The reply of FetchData. -/
structure FetchDataResponse where
  code : ℤ
  message : String
  file : Option File := none
  cosKey : String := ""
deriving DecidableEq

end MiniDrop
