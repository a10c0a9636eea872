import MiniDrop.Verification.Hotmethod.Operations

/-! # What a call does to the state and the result of one task -/

namespace MiniDrop.HotmethodService

variable (s : HotmethodService) (now sysNow : ℤ) (taskId : String)

theorem statusOf_enqueue (ip : String) (task : TaskDesc) (reason : String) :
    (s.enqueue now ip task reason).statusOf taskId =
      if task.taskId = taskId then some .pending else s.statusOf taskId := by
  by_cases h : task.taskId = taskId <;> simp [statusOf, getTaskStatus, h]

theorem statusOf_dequeue (ip : String) (task : TaskDesc) (rest : List TaskDesc) :
    (s.dequeue now ip task rest).statusOf taskId =
      if task.taskId = taskId then some .dispatched else s.statusOf taskId := by
  by_cases h : task.taskId = taskId <;> simp [statusOf, getTaskStatus, h]

theorem statusOf_of_insert {s t : HotmethodService} {id : String} {info : TaskStateInfo}
    (h : t.tasksState = s.tasksState.insert id info) :
    t.statusOf taskId = if id = taskId then some info.status else s.statusOf taskId := by
  by_cases hid : id = taskId <;> simp [statusOf, getTaskStatus, h, hid]

theorem statusOf_congr {s t : HotmethodService} (h : t.tasksState = s.tasksState) :
    t.statusOf taskId = s.statusOf taskId := by
  simp [statusOf, getTaskStatus, h]

/-- Only a task that waits for its dispatch or its start is overdue. -/
theorem open_of_overdue {s : HotmethodService} {now timeoutSec : ℤ} {taskId : String}
    (h : taskId ∈ s.overdueTasks now timeoutSec) :
    s.statusOf taskId = some .pending ∨ s.statusOf taskId = some .dispatched := by
  obtain ⟨state, hstate, hover⟩ := (s.mem_overdueTasks now timeoutSec).mp h
  simp only [overdue, Bool.and_eq_true, Bool.or_eq_true, decide_eq_true_eq] at hover
  simpa [statusOf, getTaskStatus, hstate] using hover.1

/-- A cleanup pass leaves the entry, removes a terminal one with its result, or fails a waiting
one. -/
theorem entry_cleanup (timeoutSec : ℤ) :
    let t := s.cleanupTimeoutTasks now timeoutSec
    (taskId ∉ s.overdueTasks now timeoutSec ∧ t.statusOf taskId = s.statusOf taskId ∧
        t.results[taskId]? = s.results[taskId]?) ∨
      (taskId ∉ s.overdueTasks now timeoutSec ∧ (∃ old ∈ s.statusOf taskId, old.terminal) ∧
        t.statusOf taskId = none ∧ t.results[taskId]? = none) ∨
      (taskId ∈ s.overdueTasks now timeoutSec ∧ (∃ old ∈ s.statusOf taskId, ¬ old.terminal) ∧
        t.statusOf taskId = some .failed ∧ t.results[taskId]? = s.results[taskId]?) := by
  simp only [statusOf, getTaskStatus, cleanupTimeoutTasks_tasksState, cleanupTimeoutTasks_results,
    mem_overdueTasks]
  cases hstate : s.tasksState[taskId]? with
  | none => exact .inl ⟨by simp, rfl, by simp⟩
  | some info =>
      by_cases hover : overdue now timeoutSec info = true
      · right; right
        have hopen : ¬ info.status.terminal := by
          simp only [overdue, Bool.and_eq_true, Bool.or_eq_true, decide_eq_true_eq] at hover
          rcases hover.1 with h | h <;> simp [h, TaskStatus.terminal]
        have hkept : afterCleanup now timeoutSec info = some (expire now info) := by
          simp [afterCleanup, afterTimeout, hover, expire, outlived, elapsedSeconds]
        exact ⟨⟨info, rfl, hover⟩, ⟨info.status, rfl, hopen⟩, by simp [hkept, expire],
          by simp [hkept]⟩
      · by_cases hout : outlived now info = true
        · right; left
          have hremoved : afterCleanup now timeoutSec info = none := by
            simp [afterCleanup, afterTimeout, hover, hout]
          refine ⟨by simp [hover], ⟨info.status, rfl, ?_⟩, by simp [hremoved], by simp [hremoved]⟩
          simp only [outlived, Bool.and_eq_true] at hout
          exact hout.1
        · left
          have hkept : afterCleanup now timeoutSec info = some info := by
            simp [afterCleanup, afterTimeout, hover, hout]
          exact ⟨by simp [hover], by simp [hkept], by simp [hkept]⟩

/-- What a call may do to the entry and the result of a task. -/
inductive EntryStep (s t : HotmethodService) (taskId : String) : Call → Prop where
  | kept {call : Call} (hstatus : t.statusOf taskId = s.statusOf taskId)
      (hresult : t.results[taskId]? = s.results[taskId]?) : EntryStep s t taskId call
  | queued {call : Call} (hstatus : t.statusOf taskId = some .pending)
      (hresult : t.results[taskId]? = s.results[taskId]?) : EntryStep s t taskId call
  | dispatched {ip : String} (hstatus : t.statusOf taskId = some .dispatched)
      (hresult : t.results[taskId]? = s.results[taskId]?) : EntryStep s t taskId (.popTask ip)
  | updated {request : TaskStatusUpdate} (hid : request.taskId = taskId)
      (hstatus : t.statusOf taskId = some (internalStatus request.status))
      (hresult : t.results[taskId]? = s.results[taskId]?) :
      EntryStep s t taskId (.updateTaskStatus request)
  | notified {sysNow : ℤ} {request : TaskResult} (hid : request.taskId = taskId)
      (hstatus : t.statusOf taskId = some (resultStatus request) ∨
        t.statusOf taskId = some .pending)
      (hresult : t.results[taskId]? = some request) :
      EntryStep s t taskId (.notifyResult sysNow request)
  | expired (hstatus : t.statusOf taskId = some .failed)
      (hresult : t.results[taskId]? = s.results[taskId]?) :
      EntryStep s t taskId .cleanupTimeoutTasks
  | removed (hstatus : t.statusOf taskId = none) (hresult : t.results[taskId]? = none) :
      EntryStep s t taskId .cleanupTimeoutTasks

variable {s}

theorem EntryStep.enqueue {u : HotmethodService} {call : Call}
    (hstatus : u.statusOf taskId = s.statusOf taskId)
    (hresult : u.results[taskId]? = s.results[taskId]?) (ip : String) (task : TaskDesc)
    (reason : String) : EntryStep s (u.enqueue now ip task reason) taskId call := by
  have hentry := u.statusOf_enqueue now taskId ip task reason
  by_cases hid : task.taskId = taskId
  · exact .queued (by simpa [hid] using hentry) hresult
  · exact .kept (by simpa [hid, hstatus] using hentry) hresult

/-- Every call changes the entry in one of these ways. -/
theorem entryStep {t : HotmethodService} {e : Event} (h : s.step e = some t) :
    EntryStep s t taskId e.call := by
  obtain ⟨now, call⟩ := e
  cases call with
  | pushTask targetIp task =>
      obtain rfl := Option.some.inj h
      simp only [pushTask]
      split
      · exact .enqueue now taskId rfl rfl targetIp task _
      · exact .kept rfl rfl
  | popTask targetIp =>
      obtain rfl := Option.some.inj h
      cases hqueue : s.queue targetIp with
      | nil =>
          rw [s.popTask_nil now hqueue]
          exact .kept rfl rfl
      | cons task rest =>
          rw [s.popTask_cons now hqueue]
          have hentry := s.statusOf_dequeue now taskId targetIp task rest
          by_cases hid : task.taskId = taskId
          · exact .dispatched (by simpa [hid] using hentry) rfl
          · exact .kept (by simpa [hid] using hentry) rfl
  | updateTaskStatus request =>
      obtain rfl := Option.some.inj h
      have hentry := statusOf_of_insert taskId (s.updateTaskStatus_tasksState now request.taskId
        (internalStatus request.status) request.reason)
      by_cases hid : request.taskId = taskId
      · rw [if_pos hid] at hentry
        exact .updated hid hentry rfl
      · rw [if_neg hid] at hentry
        exact .kept hentry rfl
  | notifyResult sysNow request =>
      have hentry := statusOf_of_insert taskId (s.bookkeep_tasksState now sysNow request)
      rcases s.notifyResult_eq_some now sysNow request h with
        ⟨_, rfl⟩ | ⟨ip, task, reason, _, _, rfl⟩
      · by_cases hid : request.taskId = taskId
        · exact .notified hid (.inl (by simpa [hid] using hentry)) (by simp [hid])
        · exact .kept (by simpa [hid] using hentry) (by simp [hid])
      · by_cases hid : request.taskId = taskId
        · refine .notified hid ?_ (by simp [hid])
          rw [statusOf_enqueue]
          split
          · exact .inr rfl
          · exact .inl (by simpa [hid] using hentry)
        · exact .enqueue now taskId (by simpa [hid] using hentry) (by simp [hid])
            ip task reason
  | cleanupTimeoutTasks =>
      obtain rfl := Option.some.inj h
      rcases s.entry_cleanup now taskId dispatchTimeoutSec with
        ⟨_, hstatus, hresult⟩ | ⟨_, _, hstatus, hresult⟩ | ⟨_, _, hstatus, hresult⟩
      · exact .kept hstatus hresult
      · exact .removed hstatus hresult
      · exact .expired hstatus hresult
  | startContinuousTask request =>
      obtain rfl := Option.some.inj h
      by_cases hroom : s.hasRoom request.targetIp = true
      · rw [s.startContinuousTask_of_hasRoom now hroom]
        apply EntryStep.enqueue <;> rfl
      · rw [s.startContinuousTask_of_full now (by simpa using hroom)]
        exact .kept rfl rfl
  | stopContinuousTask id =>
      obtain rfl := Option.some.inj h
      exact .kept (statusOf_congr taskId (s.stopContinuousTask_tasksState id)) (by simp)

end MiniDrop.HotmethodService
