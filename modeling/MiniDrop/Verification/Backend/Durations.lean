import MiniDrop.Model.Durations

/-! # Durations that the agent keeps

CreateTask takes every duration in `uint64`. The agent keeps those whose timeout fits `int`. -/

namespace MiniDrop

/-- The agent samples for as long as it is asked to and stops before its timeout, and the server
waits longer than that. -/
structure KeepsDuration (now : ℤ) (tid : String) (req : CreateTaskReq) : Prop where
  effective : workerDurationSec (req.message tid) = req.duration
  inTime : workerDurationSec (req.message tid) < workerTimeoutSec (req.message tid)
  deadline : now + (req.duration + 30) * 1000000000 ≤ pollDeadline now req.pollTimeoutSec

/-- CreateTask answers with a parameter error, or the duration is kept. -/
def AdmitsDuration (req : CreateTaskReq) : Prop :=
  ∀ (now steadyNow : ℤ) (tid uid userName : String) (fate : Option RpcFate) (b : Backend),
    (∃ message, ((Backend.createTask now steadyNow tid uid userName req fate).run b).1 =
      .refused 400 4000001 message) ∨ KeepsDuration now tid req

/-! ## What CreateTask takes -/

section Answers

variable {now steadyNow : ℤ} {tid uid userName : String} {req : CreateTaskReq}
  {fate : Option RpcFate}

theorem created_ne_parameterError (reply : RpcReply) (tid : String) (message : Option String) :
    reply.created tid ≠ .refused 400 4000001 message := by
  unfold RpcReply.created
  split <;> simp

/-- A request that binds and names a collector for its type is never a parameter error. -/
theorem createTask_ne_parameterError (hbinds : req.binds = true)
    (hvalid : isValidTaskProfilerCombination req.type req.profilerType = true) (b : Backend)
    (message : Option String) :
    ((Backend.createTask now steadyNow tid uid userName req fate).run b).1 ≠
      .refused 400 4000001 message := by
  unfold Backend.createTask Backend.createTaskInternal
  simp only [hbinds, Bool.not_true, Bool.false_eq_true, if_false, Program.run_bind]
  split
  · simp
  · simp only [hvalid, Bool.not_true, Bool.false_eq_true, if_false, Program.run_bind]
    split
    · simp
    · exact created_ne_parameterError _ _ _

end Answers

/-! ## The bound -/

section Bound

variable {req : CreateTaskReq} (hbinds : req.binds = true)
include hbinds

theorem duration_of_binds : 1 ≤ req.duration ∧ req.duration < 18446744073709551616 := by
  simp only [CreateTaskReq.binds, decide_eq_true_eq] at hbinds
  omega

theorem cppInt_duration (tid : String) :
    cppInt (req.message tid).sampleArgv.duration.toNat = req.duration.bmod 4294967296 := by
  obtain ⟨hleast, hmost⟩ := duration_of_binds hbinds
  have hvalue : (req.message tid).sampleArgv.duration = UInt64.ofInt req.duration := rfl
  have hnat : ((req.message tid).sampleArgv.duration.toNat : ℤ) = req.duration := by
    rw [hvalue, UInt64.ofInt, UInt64.toNat_ofNat']
    omega
  exact congrArg (fun n : ℤ => n.bmod 4294967296) hnat

omit hbinds in
theorem toNat_timeoutSec (req : CreateTaskReq) (tid : String) : ((req.message tid).timeoutSec.toNat : ℤ) =
    (req.duration + 30) % 18446744073709551616 % 4294967296 := by
  have hvalue : (req.message tid).timeoutSec =
      UInt32.ofInt ((req.duration + 30) % 18446744073709551616) := rfl
  rw [hvalue, UInt32.ofInt, UInt32.toNat_ofNat']
  omega

omit hbinds in
theorem workerTimeoutSec_message (req : CreateTaskReq) (tid : String) : workerTimeoutSec (req.message tid) =
    if (req.duration + 30) % 18446744073709551616 % 4294967296 = 0 then 60
    else ((req.duration + 30) % 18446744073709551616 % 4294967296).bmod 4294967296 := by
  have hnat := toNat_timeoutSec req tid
  have hpos : 0 < (req.message tid).timeoutSec ↔
      ¬(req.duration + 30) % 18446744073709551616 % 4294967296 = 0 := by
    rw [UInt32.lt_iff_toNat_lt, UInt32.toNat_zero]
    omega
  unfold workerTimeoutSec cppInt
  rw [hnat]
  simp only [hpos, ite_not]

/-- No type on the way wraps around. -/
theorem keepsDuration_of_le (now : ℤ) (tid : String) (h : req.duration ≤ 2147483617) :
    KeepsDuration now tid req := by
  obtain ⟨hleast, -⟩ := duration_of_binds hbinds
  have hduration : cppInt (req.message tid).sampleArgv.duration.toNat = req.duration := by
    rw [cppInt_duration hbinds, Int.bmod_def]
    omega
  have htimeout : workerTimeoutSec (req.message tid) = req.duration + 30 := by
    rw [workerTimeoutSec_message, Int.bmod_def]
    omega
  have hworker : workerDurationSec (req.message tid) = req.duration := by
    simp only [workerDurationSec, htimeout, hduration]
    rw [if_neg (by omega)]
  refine ⟨hworker, by omega, ?_⟩
  have hpoll : req.pollTimeoutSec = req.duration + 60 := by
    rw [CreateTaskReq.pollTimeoutSec]
    omega
  have hseconds : goDuration (req.duration + 60) = req.duration + 60 := by
    rw [goDuration, Int.bmod_def]
    omega
  have hnanoseconds : goDuration ((req.duration + 60) * 1000000000) =
      (req.duration + 60) * 1000000000 := by
    rw [goDuration, Int.bmod_def]
    omega
  simp only [pollDeadline, hpoll]
  rw [if_neg (by omega), hseconds, hnanoseconds]
  omega

/-- Beyond the bound the timeout is no `int`, or the duration is none. -/
theorem le_of_keepsDuration {now : ℤ} {tid : String} (h : KeepsDuration now tid req) :
    req.duration ≤ 2147483617 := by
  obtain ⟨hleast, hmost⟩ := duration_of_binds hbinds
  obtain ⟨heffective, hin, -⟩ := h
  have htimeout := workerTimeoutSec_message req tid
  rw [heffective] at hin
  by_contra hlt
  have hlow : workerTimeoutSec (req.message tid) ≤ 2147483647 := by
    rw [htimeout, Int.bmod_def]
    omega
  -- a timeout that is an `int` is at most the bound, so the duration is near it
  have hnear : req.duration < 2147483648 := by omega
  rw [htimeout, Int.bmod_def] at hin
  omega

end Bound

/-- The duration is kept if and only if it is at most 2^31 - 31. -/
theorem admitsDuration_iff {req : CreateTaskReq} (hbinds : req.binds = true)
    (hvalid : isValidTaskProfilerCombination req.type req.profilerType = true) :
    AdmitsDuration req ↔ req.duration ≤ 2147483617 := by
  constructor
  · intro h
    rcases h 0 0 "" "" "" none {} with ⟨message, hrefused⟩ | hkeeps
    · exact absurd hrefused (createTask_ne_parameterError hbinds hvalid {} message)
    · exact le_of_keepsDuration hbinds hkeeps
  · exact fun h now _ tid _ _ _ _ => .inr (keepsDuration_of_le hbinds now tid h)

theorem admitsDuration_minute : AdmitsDuration
    { name := "cpu", targetIp := "10.0.0.7", pid := 4242, duration := 60 } :=
  (admitsDuration_iff (by decide) (by decide)).mpr (by decide)

/-- 2^31 seconds are an `int` neither with the timeout nor without. -/
theorem not_admitsDuration : ¬AdmitsDuration
    { name := "cpu", targetIp := "10.0.0.7", pid := 4242, duration := 2147483648 } := by
  intro h
  rcases h 0 0 "t" "u" "user" none {} with ⟨message, hrefused⟩ | hkeeps
  · exact absurd hrefused
      (createTask_ne_parameterError (by decide) (by decide) {} message)
  · exact absurd hkeeps.effective (by decide)

end MiniDrop
