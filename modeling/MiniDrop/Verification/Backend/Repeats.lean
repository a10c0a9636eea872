import MiniDrop.Verification.Backend.Dispatches
import MiniDrop.Verification.Backend.Origins

/-! # Repeating a task

The parameters of a task are kept as JSON, and a number that is read back without a type is a
`float64`. All but the duration are small enough to stay the same. -/

namespace MiniDrop

/-! ## The property -/

/-- The request for a single run of the schedule. -/
def CreateScheduleReq.taskReq (req : CreateScheduleReq) : CreateTaskReq :=
  { name := req.taskName
    type := req.type
    profilerType := req.profilerType
    targetIp := req.targetIp
    pid := req.pid
    duration := req.duration
    hz := req.hz
    callgraph := req.callgraph }

def TaskOrigin.taskReq : TaskOrigin → CreateTaskReq
  | request req => req
  | schedule req => req.taskReq

/-- All retries send what was sent first, and all runs of a schedule what was asked for. -/
def TaskOrigin.Repeats (parser : CronParser) : TaskOrigin → Prop
  | request req => ∀ task original task' taskDesc, Creates req task original →
      Retries parser (.request req) task' taskDesc →
        taskDesc = { original with taskId := taskDesc.taskId }
  | schedule req => ∀ task taskDesc, Fires parser req task taskDesc →
      taskDesc = req.taskReq.message taskDesc.taskId

/-! ## What a row remembers -/

/-- The row has the parameters of the request, with the defaults in place. -/
structure Remembers (req : CreateTaskReq) (task : HotmethodTask) : Prop where
  type : task.type = req.type
  profilerType : task.profilerType = req.profilerType
  pid : numberParam task.requestParams "pid" = req.pid
  duration : uint64Param task.requestParams "duration" = req.duration
  hz : numberParam task.requestParams "hz" = if req.hz = 0 then 99 else req.hz
  callgraph : textParam task.requestParams "callgraph" =
    if req.callgraph = "" then "dwarf" else req.callgraph
  subprocess : flagParam task.requestParams "subprocess" = req.subprocess
  event : textParam task.requestParams "event" = req.event

section Remembers

variable {req : CreateTaskReq} {task task' : HotmethodTask}

theorem Remembers.kept (h : Remembers req task) (hkept : task.Kept task') :
    Remembers req task' where
  type := hkept.type.trans h.type
  profilerType := hkept.profilerType.trans h.profilerType
  pid := hkept.requestParams ▸ h.pid
  duration := hkept.requestParams ▸ h.duration
  hz := hkept.requestParams ▸ h.hz
  callgraph := hkept.requestParams ▸ h.callgraph
  subprocess := hkept.requestParams ▸ h.subprocess
  event := hkept.requestParams ▸ h.event

/-- The defaults do not apply twice. -/
theorem settled_hz (hz : ℤ) :
    (if (if hz = 0 then 99 else hz) = 0 then 99 else if hz = 0 then 99 else hz) =
      if hz = 0 then 99 else hz := by
  by_cases hzero : hz = 0 <;> simp [hzero]

theorem settled_callgraph (callgraph : String) :
    (if (if callgraph = "" then "dwarf" else callgraph) = "" then "dwarf"
      else if callgraph = "" then "dwarf" else callgraph) =
        if callgraph = "" then "dwarf" else callgraph := by
  by_cases hempty : callgraph = "" <;> simp [hempty]

/-- A retry sends what the row remembers. -/
theorem Remembers.message (h : Remembers req task) (tid : String) :
    task.retryReq.message tid = req.message tid := by
  simp only [HotmethodTask.retryReq, CreateTaskReq.message, h.type, h.profilerType, h.pid,
    h.duration, h.hz, h.callgraph, h.subprocess, h.event, settled_hz, settled_callgraph]

/-- The cron engine runs with no event and without subprocesses. -/
theorem Remembers.scheduledMessage (h : Remembers req task) (hevent : req.event = "")
    (hsubprocess : req.subprocess = false) (tid : String) :
    Backend.scheduledMessage tid task = req.message tid := by
  simp only [Backend.scheduledMessage, CreateTaskReq.message, h.type, h.profilerType, h.pid,
    h.duration, h.hz, h.callgraph, hevent, hsubprocess]

end Remembers

/-! ## What JSON keeps -/

/-- The numbers of the request that are the same as a `float64`. -/
structure CreateTaskReq.Exact (req : CreateTaskReq) : Prop where
  pid : asFloat64 req.pid = req.pid
  duration : asFloat64 req.duration = req.duration
  hz : asFloat64 (if req.hz = 0 then 99 else req.hz) = if req.hz = 0 then 99 else req.hz
  range : req.duration < 18446744073709551616

section Exact

variable {parser : CronParser} {req : CreateTaskReq}

theorem uint64Param_newTask (now : ℤ) (tid uid userName : String) :
    uint64Param (newTask now tid uid userName req).requestParams "duration" =
      if asFloat64 req.duration < 18446744073709551616 then asFloat64 req.duration else 0 := rfl

theorem CreateTaskReq.Exact.newTask (h : req.Exact) (now : ℤ) (tid uid userName : String) :
    Remembers req (newTask now tid uid userName req) where
  type := rfl
  profilerType := rfl
  pid := h.pid
  duration := by rw [uint64Param_newTask, h.duration, if_pos h.range]
  hz := h.hz
  callgraph := rfl
  subprocess := rfl
  event := rfl

/-- A retry is remembered like the first task. -/
theorem Remembers.retry {row : HotmethodTask} (h : Remembers req row) (hexact : req.Exact)
    (now : ℤ) (tid uid userName : String) :
    Remembers req (newTask now tid uid userName row.retryReq) where
  type := h.type
  profilerType := h.profilerType
  pid := by
    show asFloat64 (numberParam row.requestParams "pid") = req.pid
    rw [h.pid, hexact.pid]
  duration := by
    have hduration : row.retryReq.duration = req.duration := h.duration
    rw [uint64Param_newTask, hduration, hexact.duration, if_pos hexact.range]
  hz := by
    show asFloat64 (if numberParam row.requestParams "hz" = 0 then 99
      else numberParam row.requestParams "hz") = _
    rw [h.hz, settled_hz, hexact.hz]
  callgraph := by
    show (if textParam row.requestParams "callgraph" = "" then "dwarf"
      else textParam row.requestParams "callgraph") = _
    rw [h.callgraph, settled_callgraph]
  subprocess := h.subprocess
  event := h.event

theorem remembers_scheduleTask {schedule : CreateScheduleReq} (h : schedule.taskReq.Exact)
    (tid uid userName : String) :
    Remembers schedule.taskReq (scheduleTask tid uid userName schedule) where
  type := rfl
  profilerType := rfl
  pid := h.pid
  duration := by
    show (if asFloat64 schedule.taskReq.duration < 18446744073709551616 then
      asFloat64 schedule.taskReq.duration else 0) = schedule.taskReq.duration
    rw [h.duration, if_pos h.range]
  hz := h.hz
  callgraph := rfl
  subprocess := rfl
  event := rfl

/-- All rows of the origin remember its parameters. -/
theorem Descends.remembers {origin : TaskOrigin} {task : HotmethodTask}
    (h : Descends parser origin task) (hexact : origin.taskReq.Exact) :
    Remembers origin.taskReq task := by
  refine h.induct (fun _ _ hrow hkept => hrow.kept hkept) ?_ ?_ ?_ ?_
  · rintro now tid uid userName req rfl
    exact hexact.newTask now tid uid userName
  · rintro tid uid userName req rfl
    exact remembers_scheduleTask hexact tid uid userName
  · intro now newTid schedule hrow
    exact ⟨hrow.type, hrow.profilerType, hrow.pid, hrow.duration, hrow.hz, hrow.callgraph,
      hrow.subprocess, hrow.event⟩
  · exact fun now tid uid userName row hrow => hrow.retry hexact now tid uid userName

end Exact

/-! ## The condition -/

section Condition

variable {parser : CronParser} {origin : TaskOrigin}

/-- The numbers of an accepted request are of their types. -/
theorem TaskOrigin.Accepted.ranges (h : origin.Accepted parser) :
    (-2147483648 ≤ origin.taskReq.pid ∧ origin.taskReq.pid ≤ 2147483647) ∧
      (0 ≤ origin.taskReq.duration ∧ origin.taskReq.duration < 18446744073709551616) ∧
      0 ≤ origin.taskReq.hz ∧ origin.taskReq.hz < 4294967296 := by
  cases origin with
  | request req => exact ⟨h.pid, h.duration, h.hz⟩
  | schedule req =>
      have hbinds := h.binds
      simp only [CreateScheduleReq.binds, decide_eq_true_eq] at hbinds
      simp only [TaskOrigin.taskReq, CreateScheduleReq.taskReq]
      omega

theorem TaskOrigin.Accepted.exact (h : origin.Accepted parser)
    (hduration : asFloat64 origin.taskReq.duration = origin.taskReq.duration) :
    origin.taskReq.Exact := by
  obtain ⟨hpid, hrange, hhz⟩ := h.ranges
  refine ⟨asFloat64_of_lt (by omega), hduration, asFloat64_of_lt ?_, hrange.2⟩
  split <;> omega

/-- A duration that comes back the same is the same as a `float64`. -/
theorem asFloat64_of_uint64 {duration : ℤ}
    (hrange : 0 ≤ duration ∧ duration < 18446744073709551616)
    (h : UInt64.ofInt (if asFloat64 duration < 18446744073709551616 then asFloat64 duration
      else 0) = UInt64.ofInt duration) : asFloat64 duration = duration := by
  rcases Int.le_iff_eq_or_lt.mp hrange.1 with rfl | hpos
  · exact asFloat64_of_lt (by decide)
  have hleast := one_le_asFloat64 hpos
  have hnat := congrArg UInt64.toNat h
  rw [UInt64.ofInt, UInt64.ofInt, UInt64.toNat_ofNat', UInt64.toNat_ofNat'] at hnat
  split at hnat <;> omega

end Condition

/-- A request that differs from others in its duration alone. -/
theorem accepted_cpuTask (parser : CronParser) {duration : ℤ} (hleast : 0 ≤ duration)
    (hmost : duration < 18446744073709551616) : TaskOrigin.Accepted parser
      (.request { name := "cpu", targetIp := "10.0.0.7", pid := 4242, duration }) where
  valid := rfl
  targetIp := by simp
  pid := by simp
  duration := ⟨hleast, hmost⟩
  hz := by simp

end MiniDrop
