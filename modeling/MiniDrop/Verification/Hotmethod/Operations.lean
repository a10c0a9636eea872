import MiniDrop.Library.Folds
import MiniDrop.Model.ServiceRuns

/-! # What each operation of the service changes -/

namespace MiniDrop.HotmethodService

variable (s : HotmethodService) (now sysNow : ℤ)

/-! ## Single transitions -/

section Transitions

variable (taskId : String) (status : TaskStatus) (reason : String)

@[simp] theorem updateTaskStatus_tasks :
    (s.updateTaskStatus now taskId status reason).tasks = s.tasks := rfl

@[simp] theorem updateTaskStatus_results :
    (s.updateTaskStatus now taskId status reason).results = s.results := rfl

@[simp] theorem updateTaskStatus_continuousTasks :
    (s.updateTaskStatus now taskId status reason).continuousTasks = s.continuousTasks := rfl

@[simp] theorem updateTaskStatus_continuousWindows :
    (s.updateTaskStatus now taskId status reason).continuousWindows = s.continuousWindows := rfl

@[simp] theorem updateTaskStatus_tasksState :
    (s.updateTaskStatus now taskId status reason).tasksState =
      s.tasksState.insert taskId ⟨status, reason, now⟩ := rfl

@[simp] theorem queue_updateTaskStatus (ip : String) :
    (s.updateTaskStatus now taskId status reason).queue ip = s.queue ip := rfl

end Transitions

section Queues

variable (ip : String) (task : TaskDesc) (reason : String) (rest : List TaskDesc)

@[simp] theorem enqueue_results : (s.enqueue now ip task reason).results = s.results := rfl

@[simp] theorem enqueue_continuousTasks :
    (s.enqueue now ip task reason).continuousTasks = s.continuousTasks := rfl

@[simp] theorem enqueue_continuousWindows :
    (s.enqueue now ip task reason).continuousWindows = s.continuousWindows := rfl

@[simp] theorem enqueue_tasksState :
    (s.enqueue now ip task reason).tasksState =
      s.tasksState.insert task.taskId ⟨.pending, reason, now⟩ := rfl

theorem enqueue_tasks :
    (s.enqueue now ip task reason).tasks = s.tasks.insert ip (s.queue ip ++ [task]) := rfl

theorem queue_enqueue (ip' : String) :
    (s.enqueue now ip task reason).queue ip' =
      if ip = ip' then s.queue ip ++ [task] else s.queue ip' := by
  by_cases h : ip = ip' <;> simp [queue, enqueue_tasks, h]

@[simp] theorem dequeue_results : (s.dequeue now ip task rest).results = s.results := rfl

@[simp] theorem dequeue_continuousTasks :
    (s.dequeue now ip task rest).continuousTasks = s.continuousTasks := rfl

@[simp] theorem dequeue_continuousWindows :
    (s.dequeue now ip task rest).continuousWindows = s.continuousWindows := rfl

@[simp] theorem dequeue_tasksState :
    (s.dequeue now ip task rest).tasksState =
      s.tasksState.insert task.taskId ⟨.dispatched, "任务已派发给 Agent " ++ ip, now⟩ := rfl

theorem dequeue_tasks_getElem? (ip' : String) :
    (s.dequeue now ip task rest).tasks[ip']? =
      if ip = ip' then (if rest.isEmpty then none else some rest) else s.tasks[ip']? := by
  by_cases hrest : rest.isEmpty <;> by_cases h : ip = ip' <;> simp [dequeue, hrest, h]

theorem queue_dequeue (ip' : String) :
    (s.dequeue now ip task rest).queue ip' = if ip = ip' then rest else s.queue ip' := by
  simp only [queue, dequeue_tasks_getElem?]
  by_cases h : ip = ip'
  · cases rest <;> simp [h]
  · simp [h]

end Queues

theorem popTask_nil {ip : String} (h : s.queue ip = []) : s.popTask now ip = (s, none) := by
  simp [popTask, h]

theorem popTask_cons {ip : String} {task : TaskDesc} {rest : List TaskDesc}
    (h : s.queue ip = task :: rest) :
    s.popTask now ip = (s.dequeue now ip task rest, some task) := by
  simp [popTask, h]

/-! ## NotifyResult -/

/-- The part of NotifyResult that precedes the dispatch of the next window. -/
def bookkeep (request : TaskResult) : HotmethodService :=
  let s := s.recordResult now request
  match splitWindowTid request.taskId with
  | none => s
  | some (parentTid, seq) =>
    match s.continuousTasks[parentTid]? with
    | none => s
    | some config => s.recordWindow parentTid (windowRecord config sysNow request seq)

section Notify

variable (request : TaskResult)

@[simp] theorem bookkeep_tasks : (s.bookkeep now sysNow request).tasks = s.tasks := by
  unfold bookkeep
  dsimp only
  split
  · rfl
  · split <;> rfl

@[simp] theorem bookkeep_results :
    (s.bookkeep now sysNow request).results = s.results.insert request.taskId request := by
  unfold bookkeep
  dsimp only
  split
  · rfl
  · split <;> rfl

@[simp] theorem bookkeep_continuousTasks :
    (s.bookkeep now sysNow request).continuousTasks = s.continuousTasks := by
  unfold bookkeep
  dsimp only
  split
  · rfl
  · split <;> rfl

/-- The reason that NotifyResult stores with the outcome. -/
def resultReason (request : TaskResult) : String :=
  if request.errorMessage = "" then "采集完成" else "采集失败: " ++ request.errorMessage

@[simp] theorem bookkeep_tasksState :
    (s.bookkeep now sysNow request).tasksState =
      s.tasksState.insert request.taskId ⟨resultStatus request, resultReason request, now⟩ := by
  unfold bookkeep
  dsimp only
  split
  · rfl
  · split <;> rfl

@[simp] theorem queue_bookkeep (ip : String) :
    (s.bookkeep now sysNow request).queue ip = s.queue ip := by
  simp [queue]

/-- The windows of a parent grow by the record of its reported window. -/
theorem bookkeep_continuousWindows (parentTid : String) :
    (s.bookkeep now sysNow request).continuousWindows[parentTid]? =
      match splitWindowTid request.taskId with
      | none => s.continuousWindows[parentTid]?
      | some (p, seq) =>
        match s.continuousTasks[p]? with
        | none => s.continuousWindows[parentTid]?
        | some config =>
          if p = parentTid then
            some ((s.continuousWindows[p]?).getD [] ++ [windowRecord config sysNow request seq])
          else s.continuousWindows[parentTid]? := by
  unfold bookkeep
  dsimp only
  split
  · rfl
  · rename_i p seq hsplit
    have hsame : (s.recordResult now request).continuousTasks = s.continuousTasks := rfl
    simp only [hsame]
    cases hconfig : s.continuousTasks[p]? with
    | none => rfl
    | some config => by_cases hp : p = parentTid <;> simp [recordResult, recordWindow, hp]

/-- NotifyResult keeps the books and then queues the successor, if there is one. -/
theorem notifyResult_eq_some {t : HotmethodService}
    (h : s.notifyResult now sysNow request = some t) :
    (s.successor request = none ∧ t = s.bookkeep now sysNow request) ∨
      ∃ ip task reason, s.successor request = some (ip, task) ∧ s.hasRoom ip = true ∧
        t = (s.bookkeep now sysNow request).enqueue now ip task reason := by
  unfold notifyResult at h
  unfold bookkeep successor
  dsimp only at h ⊢
  cases hsplit : splitWindowTid request.taskId with
  | none => simp [hsplit] at h ⊢; exact h.symm
  | some pair =>
      obtain ⟨p, seq⟩ := pair
      have hsame : (s.recordResult now request).continuousTasks = s.continuousTasks := rfl
      simp only [hsplit, hsame] at h ⊢
      cases hconfig : s.continuousTasks[p]? with
      | none => simp [hconfig] at h ⊢; exact h.symm
      | some config =>
          simp only [hconfig] at h ⊢
          cases hrunning : config.running with
          | false => simp [hrunning] at h ⊢; exact h.symm
          | true =>
              cases hnext : nextSeq seq with
              | none => simp [hrunning, hnext] at h
              | some next =>
                  have hroom : ((s.recordResult now request).recordWindow p
                      (windowRecord config sysNow request seq)).hasRoom config.targetIp =
                        s.hasRoom config.targetIp := rfl
                  simp only [hrunning, hnext, Bool.not_true, Bool.false_eq_true, if_false,
                    Option.some.injEq, dispatchWindow, hroom] at h
                  by_cases hfull : s.hasRoom config.targetIp = true
                  · right
                    refine ⟨config.targetIp, windowTask config p (windowTid p next),
                      "continuous window created, waiting dispatch", ?_, hfull, ?_⟩
                    · simp [hfull]
                    · rw [if_pos hfull] at h
                      exact h.symm
                  · left
                    rw [if_neg hfull] at h
                    simp only [hfull, Bool.and_false, Bool.false_eq_true, if_false, true_and]
                    exact h.symm

/-- The successor is the next window of a running parent. -/
theorem successor_eq_some {ip : String} {task : TaskDesc}
    (h : s.successor request = some (ip, task)) :
    ∃ p seq next config, splitWindowTid request.taskId = some (p, seq) ∧
      s.continuousTasks[p]? = some config ∧ config.running = true ∧ nextSeq seq = some next ∧
      ip = config.targetIp ∧ task = windowTask config p (windowTid p next) := by
  unfold successor at h
  cases hsplit : splitWindowTid request.taskId with
  | none => simp [hsplit] at h
  | some pair =>
      obtain ⟨p, seq⟩ := pair
      simp only [hsplit] at h
      cases hconfig : s.continuousTasks[p]? with
      | none => simp [hconfig] at h
      | some config =>
          simp only [hconfig] at h
          split at h
          · rename_i hcond
            obtain ⟨next, hnext, heq⟩ := Option.map_eq_some_iff.mp h
            simp only [Prod.mk.injEq] at heq
            obtain ⟨rfl, rfl⟩ := heq
            simp only [Bool.and_eq_true] at hcond
            exact ⟨p, seq, next, config, rfl, hconfig, hcond.1, hnext, rfl, rfl⟩
          · simp at h

/-- A running parent whose queue has room gets its next window. -/
theorem successor_of_running {t : HotmethodService}
    (h : s.notifyResult now sysNow request = some t) {p : String} {seq : ℤ}
    {config : ContinuousTaskConfig} (hsplit : splitWindowTid request.taskId = some (p, seq))
    (hconfig : s.continuousTasks[p]? = some config) (hrunning : config.running = true)
    (hroom : s.hasRoom config.targetIp = true) :
    ∃ next, s.successor request =
      some (config.targetIp, windowTask config p (windowTid p next)) := by
  have hsame : (s.recordResult now request).continuousTasks[p]? = some config := hconfig
  cases hnext : nextSeq seq with
  | none => simp [notifyResult, hsplit, hsame, hrunning, hnext] at h
  | some next => exact ⟨next, by simp [successor, hsplit, hconfig, hrunning, hroom, hnext]⟩

end Notify

/-! ## Starting and stopping -/

theorem startContinuousTask_of_hasRoom {request : StartContinuousRequest}
    (h : s.hasRoom request.targetIp = true) :
    s.startContinuousTask now request =
      ((s.registerContinuous (continuousConfig (parentTidAt now) request)).enqueue now
        request.targetIp
        (windowTask (continuousConfig (parentTidAt now) request) (parentTidAt now)
          (windowTid (parentTidAt now) 0))
        "continuous first window created, waiting dispatch", parentTidAt now) := by
  have hroom : (s.registerContinuous (continuousConfig (parentTidAt now) request)).hasRoom
      request.targetIp = true := h
  simp [startContinuousTask, hroom]

theorem startContinuousTask_of_full {request : StartContinuousRequest}
    (h : s.hasRoom request.targetIp = false) :
    s.startContinuousTask now request =
      (s.registerContinuous (continuousConfig (parentTidAt now) request), "") := by
  have hroom : (s.registerContinuous (continuousConfig (parentTidAt now) request)).hasRoom
      request.targetIp = false := h
  simp [startContinuousTask, hroom]

@[simp] theorem startContinuousTask_continuousTasks (request : StartContinuousRequest) :
    (s.startContinuousTask now request).1.continuousTasks =
      s.continuousTasks.insert (parentTidAt now)
        (continuousConfig (parentTidAt now) request) := by
  unfold startContinuousTask
  dsimp only
  split <;> rfl

@[simp] theorem startContinuousTask_continuousWindows (request : StartContinuousRequest) :
    (s.startContinuousTask now request).1.continuousWindows =
      s.continuousWindows.insert (parentTidAt now) [] := by
  unfold startContinuousTask
  dsimp only
  split <;> rfl

section Stop

variable (taskId : String)

@[simp] theorem stopContinuousTask_tasks :
    (s.stopContinuousTask taskId).1.tasks = s.tasks := by
  unfold stopContinuousTask
  split <;> rfl

@[simp] theorem stopContinuousTask_results :
    (s.stopContinuousTask taskId).1.results = s.results := by
  unfold stopContinuousTask
  split <;> rfl

@[simp] theorem stopContinuousTask_tasksState :
    (s.stopContinuousTask taskId).1.tasksState = s.tasksState := by
  unfold stopContinuousTask
  split <;> rfl

@[simp] theorem stopContinuousTask_continuousWindows :
    (s.stopContinuousTask taskId).1.continuousWindows = s.continuousWindows := by
  unfold stopContinuousTask
  split <;> rfl

/-- Stopping clears the flag of the parent and touches no other configuration. -/
theorem stopContinuousTask_continuousTasks (p : String) :
    (s.stopContinuousTask taskId).1.continuousTasks[p]? =
      if taskId = p then (s.continuousTasks[p]?).map fun config => { config with running := false }
      else s.continuousTasks[p]? := by
  unfold stopContinuousTask
  by_cases h : taskId = p
  · subst h
    cases hconfig : s.continuousTasks[taskId]? <;> simp [hconfig]
  · cases hconfig : s.continuousTasks[taskId]? <;> simp [h]

theorem mem_continuousTasks_stop {p : String} :
    p ∈ (s.stopContinuousTask taskId).1.continuousTasks ↔ p ∈ s.continuousTasks := by
  simp only [Std.ExtTreeMap.mem_iff_isSome_getElem?, stopContinuousTask_continuousTasks]
  split <;> simp

end Stop

/-! ## Cleanup -/

theorem dropFromQueues_getElem? (taskId ip : String) (tasks : StdMap (List TaskDesc)) :
    (dropFromQueues taskId tasks)[ip]? = (tasks[ip]?).bind fun queue =>
      let queue := queue.filter fun task => task.taskId ≠ taskId
      if queue.isEmpty then none else some queue := by
  simp [dropFromQueues]

private theorem getD_dropFromQueues (taskId ip : String) (tasks : StdMap (List TaskDesc)) :
    ((dropFromQueues taskId tasks)[ip]?).getD [] =
      ((tasks[ip]?).getD []).filter fun task => task.taskId ≠ taskId := by
  rw [dropFromQueues_getElem?]
  cases tasks[ip]? with
  | none => rfl
  | some queue =>
      simp only [Option.bind_some, Option.getD_some]
      split
      · rename_i hempty
        rw [List.isEmpty_iff.mp hempty]
        rfl
      · rfl

/-- The entry of a task after the timeout loop. -/
def afterTimeout (now timeoutSec : ℤ) (state : TaskStateInfo) : TaskStateInfo :=
  if overdue now timeoutSec state then expire now state else state

variable (timeoutSec : ℤ)

/-- The state after the timeout loop. -/
def timeoutPass : HotmethodService :=
  s.tasksState.toList.foldl (failIfOverdue now timeoutSec) s

theorem cleanupTimeoutTasks_eq :
    s.cleanupTimeoutTasks now timeoutSec =
      (s.timeoutPass now timeoutSec).tasksState.toList.foldl (eraseIfOutlived now)
        (s.timeoutPass now timeoutSec) := rfl

theorem timeoutPass_tasksState (taskId : String) :
    (s.timeoutPass now timeoutSec).tasksState[taskId]? =
      (s.tasksState[taskId]?).map (afterTimeout now timeoutSec) := by
  have hbody : Folds.VisitsEntry HotmethodService.tasksState (failIfOverdue now timeoutSec)
      (fun _ state => some (afterTimeout now timeoutSec state)) := by
    intro s k v a hk
    by_cases hover : overdue now timeoutSec v <;> by_cases ha : k = a
    · simp [failIfOverdue, afterTimeout, hover, ha]
    · simp [failIfOverdue, hover, ha]
    · subst ha
      simp [failIfOverdue, afterTimeout, hover, hk]
    · simp [failIfOverdue, hover, ha]
  rw [timeoutPass, Folds.foldl_toList_getElem? hbody, Option.map_eq_bind]
  rfl

/-- A pass fails the tasks whose entry is overdue. -/
theorem mem_overdueTasks {taskId : String} :
    taskId ∈ s.overdueTasks now timeoutSec ↔
      ∃ state, s.tasksState[taskId]? = some state ∧ overdue now timeoutSec state = true := by
  simp only [overdueTasks, List.mem_map, List.mem_filter, Prod.exists,
    Std.ExtTreeMap.mem_toList_iff_getElem?_eq_some]
  constructor
  · rintro ⟨k, state, ⟨hk, hover⟩, rfl⟩
    exact ⟨state, hk, hover⟩
  · rintro ⟨state, hk, hover⟩
    exact ⟨taskId, state, ⟨hk, hover⟩, rfl⟩

private theorem queue_timeoutPass (ip : String) :
    (s.timeoutPass now timeoutSec).queue ip =
      (s.queue ip).filter fun task => task.taskId ∉ s.overdueTasks now timeoutSec := by
  have hbody : ∀ (s : HotmethodService) (e : String × TaskStateInfo),
      (failIfOverdue now timeoutSec s e).queue ip = (s.queue ip).filter fun task =>
        !(overdue now timeoutSec e.2 && decide (task.taskId = e.1)) := by
    intro s e
    by_cases hover : overdue now timeoutSec e.2
    · simp only [failIfOverdue, hover, if_true, queue, getD_dropFromQueues, Bool.true_and,
        ne_eq, decide_not]
    · simp [failIfOverdue, hover]
  rw [timeoutPass, Folds.foldl_filter (fun s : HotmethodService => s.queue ip) hbody]
  apply List.filter_congr
  intro task _
  rw [Bool.eq_iff_iff]
  simp only [List.all_eq_true, Bool.not_eq_true', Bool.and_eq_false_iff, decide_eq_false_iff_not,
    Prod.forall, Std.ExtTreeMap.mem_toList_iff_getElem?_eq_some, decide_eq_true_eq,
    mem_overdueTasks, not_exists, not_and, Bool.not_eq_true]
  constructor
  · intro h state hstate
    rcases h task.taskId state hstate with h | h
    · exact h
    · exact absurd rfl h
  · intro h k state hk
    by_cases heq : task.taskId = k
    · subst heq
      exact .inl (h state hk)
    · exact .inr heq

private theorem timeoutPass_stored (ip : String) (hstored : ∀ q, s.tasks[ip]? = some q → q ≠ []) :
    ∀ q, (s.timeoutPass now timeoutSec).tasks[ip]? = some q → q ≠ [] := by
  unfold timeoutPass
  induction s.tasksState.toList generalizing s with
  | nil => exact hstored
  | cons e l ih =>
      rw [List.foldl_cons]
      apply ih
      intro q hq
      unfold failIfOverdue at hq
      split at hq
      · simp only [dropFromQueues_getElem?, Option.bind_eq_some_iff] at hq
        obtain ⟨q', _, hq⟩ := hq
        split at hq
        · simp at hq
        · rename_i hne
          rw [List.isEmpty_iff] at hne
          exact Option.some.inj hq ▸ hne
      · exact hstored q hq

private theorem timeoutPass_frame :
    (s.timeoutPass now timeoutSec).results = s.results ∧
      (s.timeoutPass now timeoutSec).continuousTasks = s.continuousTasks ∧
      (s.timeoutPass now timeoutSec).continuousWindows = s.continuousWindows := by
  let frame := fun s : HotmethodService => (s.results, s.continuousTasks, s.continuousWindows)
  have hbody : ∀ s e, frame (failIfOverdue now timeoutSec s e) = frame s := by
    intro s e
    unfold failIfOverdue
    split <;> rfl
  have h := Folds.foldl_eq_of_step frame hbody s.tasksState.toList s
  simpa only [frame, Prod.mk.injEq, timeoutPass] using h

private theorem ttlPass_frame (l : List (String × TaskStateInfo)) :
    (l.foldl (eraseIfOutlived now) s).tasks = s.tasks ∧
      (l.foldl (eraseIfOutlived now) s).continuousTasks = s.continuousTasks ∧
      (l.foldl (eraseIfOutlived now) s).continuousWindows = s.continuousWindows := by
  let frame := fun s : HotmethodService => (s.tasks, s.continuousTasks, s.continuousWindows)
  have hbody : ∀ s e, frame (eraseIfOutlived now s e) = frame s := by
    intro s e
    unfold eraseIfOutlived
    split <;> rfl
  have h := Folds.foldl_eq_of_step frame hbody l s
  simpa only [frame, Prod.mk.injEq] using h

/-- What a cleanup pass makes of one entry. -/
def afterCleanup (now timeoutSec : ℤ) (state : TaskStateInfo) : Option TaskStateInfo :=
  if outlived now (afterTimeout now timeoutSec state) then none
  else some (afterTimeout now timeoutSec state)

theorem cleanupTimeoutTasks_tasksState (taskId : String) :
    (s.cleanupTimeoutTasks now timeoutSec).tasksState[taskId]? =
      (s.tasksState[taskId]?).bind (afterCleanup now timeoutSec) := by
  have hbody : Folds.VisitsEntry HotmethodService.tasksState (eraseIfOutlived now)
      (fun _ state => if outlived now state then none else some state) := by
    intro s k v a hk
    by_cases hout : outlived now v <;> by_cases ha : k = a
    · simp [eraseIfOutlived, hout, ha]
    · simp [eraseIfOutlived, hout, ha]
    · subst ha
      simp [eraseIfOutlived, hout, hk]
    · simp [eraseIfOutlived, hout, ha]
  rw [cleanupTimeoutTasks_eq, Folds.foldl_toList_getElem? hbody, timeoutPass_tasksState]
  cases s.tasksState[taskId]? <;> rfl

theorem queue_cleanupTimeoutTasks (ip : String) :
    (s.cleanupTimeoutTasks now timeoutSec).queue ip =
      (s.queue ip).filter fun task => task.taskId ∉ s.overdueTasks now timeoutSec := by
  rw [← queue_timeoutPass, cleanupTimeoutTasks_eq, queue, (ttlPass_frame _ now _).1]
  rfl

theorem cleanupTimeoutTasks_stored (ip : String)
    (hstored : ∀ q, s.tasks[ip]? = some q → q ≠ []) :
    ∀ q, (s.cleanupTimeoutTasks now timeoutSec).tasks[ip]? = some q → q ≠ [] := by
  rw [cleanupTimeoutTasks_eq, (ttlPass_frame _ now _).1]
  exact s.timeoutPass_stored now timeoutSec ip hstored

@[simp] theorem cleanupTimeoutTasks_continuousTasks :
    (s.cleanupTimeoutTasks now timeoutSec).continuousTasks = s.continuousTasks := by
  rw [cleanupTimeoutTasks_eq, (ttlPass_frame _ now _).2.1, (timeoutPass_frame s now _).2.1]

@[simp] theorem cleanupTimeoutTasks_continuousWindows :
    (s.cleanupTimeoutTasks now timeoutSec).continuousWindows = s.continuousWindows := by
  rw [cleanupTimeoutTasks_eq, (ttlPass_frame _ now _).2.2, (timeoutPass_frame s now _).2.2]

private theorem ttlPass_results (taskId : String) (l : List (String × TaskStateInfo)) :
    (l.foldl (eraseIfOutlived now) s).results[taskId]? =
      if ∃ e ∈ l, e.1 = taskId ∧ outlived now e.2 then none else s.results[taskId]? := by
  induction l generalizing s with
  | nil => simp
  | cons e l ih =>
      rw [List.foldl_cons, ih]
      by_cases hlater : ∃ e ∈ l, e.1 = taskId ∧ outlived now e.2
      · rw [if_pos hlater, if_pos ⟨_, List.mem_cons_of_mem _ hlater.choose_spec.1,
          hlater.choose_spec.2⟩]
      · by_cases hout : outlived now e.2
        · by_cases hid : e.1 = taskId <;> simp [hlater, eraseIfOutlived, hout, hid]
        · simp [hlater, eraseIfOutlived, hout]

/-- A cached result disappears with the entry of its task. -/
theorem cleanupTimeoutTasks_results (taskId : String) :
    (s.cleanupTimeoutTasks now timeoutSec).results[taskId]? =
      if ∃ state ∈ s.tasksState[taskId]?, afterCleanup now timeoutSec state = none then none
      else s.results[taskId]? := by
  rw [cleanupTimeoutTasks_eq, ttlPass_results, (timeoutPass_frame s now timeoutSec).1]
  congr 1
  simp only [Prod.exists, Std.ExtTreeMap.mem_toList_iff_getElem?_eq_some, timeoutPass_tasksState,
    Option.map_eq_some_iff, afterCleanup, ite_eq_left_iff, reduceCtorEq, imp_false,
    Classical.not_not, Option.mem_def, eq_iff_iff]
  constructor
  · rintro ⟨_, _, ⟨state, hstate, rfl⟩, rfl, hout⟩
    exact ⟨state, hstate, hout⟩
  · rintro ⟨state, hstate, hout⟩
    exact ⟨taskId, _, ⟨state, hstate, rfl⟩, rfl, hout⟩

/-! ## Waiting ids -/

section Waiting

variable {taskId : String}

theorem mem_waitingIds :
    taskId ∈ s.waitingIds ↔ ∃ ip, ∃ task ∈ s.queue ip, task.taskId = taskId := by
  simp only [waitingIds, List.mem_flatMap, List.mem_map, Prod.exists,
    Std.ExtTreeMap.mem_toList_iff_getElem?_eq_some, queue]
  constructor
  · rintro ⟨ip, q, hq, task, htask, rfl⟩
    exact ⟨ip, task, by simpa [hq] using htask, rfl⟩
  · rintro ⟨ip, task, htask, rfl⟩
    cases hq : s.tasks[ip]? with
    | none => simp [hq] at htask
    | some q => exact ⟨ip, q, hq, task, by simpa [hq] using htask, rfl⟩

theorem mem_waitingIds_of_tasks {t : HotmethodService} (h : t.tasks = s.tasks) :
    taskId ∈ t.waitingIds ↔ taskId ∈ s.waitingIds := by
  simp [waitingIds, h]

theorem mem_waitingIds_enqueue {ip : String} {task : TaskDesc} {reason : String} :
    taskId ∈ (s.enqueue now ip task reason).waitingIds ↔
      taskId ∈ s.waitingIds ∨ taskId = task.taskId := by
  simp only [mem_waitingIds, queue_enqueue]
  constructor
  · rintro ⟨ip', other, hmem, rfl⟩
    split at hmem
    · rcases List.mem_append.mp hmem with hmem | hmem
      · exact .inl ⟨ip, other, hmem, rfl⟩
      · exact .inr (congrArg TaskDesc.taskId (List.mem_singleton.mp hmem))
    · exact .inl ⟨ip', other, hmem, rfl⟩
  · rintro (⟨ip', other, hmem, rfl⟩ | rfl)
    · refine ⟨ip', other, ?_, rfl⟩
      split
      · rename_i heq
        exact List.mem_append_left _ (heq ▸ hmem)
      · exact hmem
    · exact ⟨ip, task, by simp, rfl⟩

/-- The task that leaves a queue waits no longer, unless it waits a second time. -/
theorem mem_waitingIds_dequeue {ip : String} {task : TaskDesc} {rest : List TaskDesc}
    (hqueue : s.queue ip = task :: rest) :
    (taskId ∈ (s.dequeue now ip task rest).waitingIds → taskId ∈ s.waitingIds) ∧
      (taskId ∈ s.waitingIds →
        taskId ∈ (s.dequeue now ip task rest).waitingIds ∨ taskId = task.taskId) := by
  simp only [mem_waitingIds, queue_dequeue]
  constructor
  · rintro ⟨ip', other, hmem, rfl⟩
    split at hmem
    · exact ⟨ip, other, hqueue ▸ List.mem_cons_of_mem _ hmem, rfl⟩
    · exact ⟨ip', other, hmem, rfl⟩
  · rintro ⟨ip', other, hmem, rfl⟩
    by_cases heq : ip = ip'
    · subst heq
      rw [hqueue] at hmem
      rcases List.mem_cons.mp hmem with rfl | hmem
      · exact .inr rfl
      · exact .inl ⟨ip, other, by simpa using hmem, rfl⟩
    · exact .inl ⟨ip', other, by simpa [heq] using hmem, rfl⟩

theorem mem_waitingIds_cleanup :
    taskId ∈ (s.cleanupTimeoutTasks now timeoutSec).waitingIds ↔
      taskId ∈ s.waitingIds ∧ taskId ∉ s.overdueTasks now timeoutSec := by
  simp only [mem_waitingIds, queue_cleanupTimeoutTasks, List.mem_filter, decide_eq_true_eq]
  constructor
  · rintro ⟨ip, task, ⟨hmem, hkeep⟩, rfl⟩
    exact ⟨⟨ip, task, hmem, rfl⟩, hkeep⟩
  · rintro ⟨⟨ip, task, hmem, rfl⟩, hkeep⟩
    exact ⟨ip, task, ⟨hmem, hkeep⟩, rfl⟩

end Waiting

end MiniDrop.HotmethodService
