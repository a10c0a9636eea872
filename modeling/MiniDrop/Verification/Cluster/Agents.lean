import MiniDrop.Model.Cluster
import MiniDrop.Verification.Hotmethod.Entries
import MiniDrop.Verification.Hotmethod.WindowTid

/-! # What the steps of an agent and of other clients do to one task -/

namespace MiniDrop

/-- The number of tasks with this id. -/
def copiesIn (tid : String) (tasks : List TaskDesc) : ℕ :=
  tasks.countP fun task => task.taskId = tid

@[simp] theorem copiesIn_nil (tid : String) : copiesIn tid [] = 0 := rfl

@[simp] theorem copiesIn_cons (tid : String) (task : TaskDesc) (tasks : List TaskDesc) :
    copiesIn tid (task :: tasks) = copiesIn tid tasks + if task.taskId = tid then 1 else 0 := by
  simp [copiesIn, List.countP_cons]

@[simp] theorem copiesIn_append (tid : String) (l l' : List TaskDesc) :
    copiesIn tid (l ++ l') = copiesIn tid l + copiesIn tid l' := by
  simp [copiesIn]

/-! ## Agents -/

/-- The task that the worker is at. -/
def Worker.task? : Worker → Option TaskDesc
  | .started task | .recording task | .collected task | .uploading task => some task
  | .waiting | .finished _ => none

namespace Agent

def tasks (a : Agent) : List TaskDesc := a.worker.task?.toList ++ a.queue

/-- A report that does not settle the task. -/
def Routine (tid : String) : Report → Prop
  | .status update => update.taskId = tid → update.status = 2 ∨ update.status = 3
  | .result r => r.taskId ≠ tid

/-- There is something to fetch. -/
def HasArtifact (r : TaskResult) : Prop :=
  r.cosKey ≠ "" ∨ ∃ file ∈ r.file, file.content ≠ []

/-- What a step of an agent does to the task `tid`. -/
inductive Does (tid : String) (a a' : Agent) : List Report → Prop where
  | kept {reports : List Report} (hcopies : copiesIn tid a'.tasks = copiesIn tid a.tasks)
      (hworker : ∀ r, r.taskId = tid → (a'.worker = .finished r ↔ a.worker = .finished r))
      (hreports : ∀ report ∈ reports, Routine tid report) : Does tid a a' reports
  | fails {reports : List Report} (hcopies : copiesIn tid a.tasks = copiesIn tid a'.tasks + 1)
      (hworker : ∀ r, a'.worker = .finished r → r.errorMessage ≠ "")
      (hreports : ∀ report ∈ reports, ∃ r, report = .result r ∧ r.errorMessage ≠ "") :
      Does tid a a' reports
  | collects {r : TaskResult} (hcopies : copiesIn tid a.tasks = copiesIn tid a'.tasks + 1)
      (hworker : a'.worker = .finished r) (hid : r.taskId = tid) (hsuccess : r.errorMessage = "")
      (hartifact : HasArtifact r) : Does tid a a' []
  | sends {r : TaskResult} (copies : ℕ) (hcopies : copiesIn tid a'.tasks = copiesIn tid a.tasks)
      (hworker : a.worker = .finished r) (hworker' : a'.worker = .waiting) (hid : r.taskId = tid) :
      Does tid a a' (List.replicate copies (.result r))
  | dies (htasks : a'.tasks = []) (hworker : a'.worker = .waiting) : Does tid a a' []

/-- The result of an upload is an error, or it has an artifact. -/
theorem uploadResult_cases (task : TaskDesc) (postProcessed : Bool) (reply : UploadReply) :
    (uploadResult task postProcessed reply).taskId = task.taskId ∧
      ((uploadResult task postProcessed reply).errorMessage ≠ "" ∨
        (uploadResult task postProcessed reply).errorMessage = "" ∧
          HasArtifact (uploadResult task postProcessed reply)) := by
  unfold uploadResult
  cases reply with
  | notConfigured => exact ⟨rfl, .inl (by simp)⟩
  | uploaded => exact ⟨rfl, .inr ⟨rfl, .inl (by simp)⟩⟩
  | failed content =>
      cases content with
      | none => exact ⟨rfl, .inl (by simp)⟩
      | some content =>
          dsimp only
          split
          · rename_i hsize
            exact ⟨rfl, .inr ⟨rfl, .inr ⟨_, rfl, List.ne_nil_of_length_pos hsize.1⟩⟩⟩
          · exact ⟨rfl, .inl (by simp)⟩

variable {tid : String} {a a' : Agent} {reports : List Report}

theorem attempts_eq_some {copies : ℕ} {report : Report}
    (h : attempts copies report = some reports) : reports = List.replicate copies report := by
  unfold attempts at h
  split at h
  · exact (Option.some.inj h).symm
  · cases h

theorem routine_of_reportStatus {copies : ℕ} {task : TaskDesc} {status : ℤ} {reason : String}
    (h : reportStatus copies task status reason = some reports)
    (hstatus : status = 2 ∨ status = 3) :
    ∀ report ∈ reports, Routine tid report := by
  rw [attempts_eq_some h]
  intro report hreport
  rw [List.eq_of_mem_replicate hreport]
  exact fun _ => hstatus

/-- A task that leaves the worker with a result. -/
theorem Does.of_result {task : TaskDesc} {r : TaskResult} (htask : a.worker.task? = some task)
    (hworker : a' = { a with worker := .finished r }) (hid : r.taskId = task.taskId)
    (hr : r.errorMessage ≠ "" ∨ r.errorMessage = "" ∧ HasArtifact r) : Does tid a a' [] := by
  subst hworker
  have hcopies :
      copiesIn tid a.tasks = copiesIn tid a.queue + if task.taskId = tid then 1 else 0 := by
    rw [tasks, htask]
    exact copiesIn_cons tid task a.queue
  have hold : ∀ r, a.worker ≠ .finished r := by
    intro r hr
    simp [hr, Worker.task?] at htask
  by_cases ht : task.taskId = tid
  · rw [if_pos ht] at hcopies
    rcases hr with hr | ⟨hr, hartifact⟩
    · refine .fails hcopies ?_ (by simp)
      intro r' hr'
      obtain rfl := Worker.finished.inj hr'
      exact hr
    · exact .collects hcopies rfl (hid.trans ht) hr hartifact
  · rw [if_neg ht] at hcopies
    refine .kept hcopies.symm ?_ (by simp)
    intro r' hr'
    have hne : r ≠ r' := by
      rintro rfl
      exact ht (hid.symm.trans hr')
    simp [hne, hold]

/-- A step between states of the worker that have no result. -/
theorem Does.of_tasks (htasks : a'.tasks = a.tasks) (hnew : ∀ r, a'.worker ≠ .finished r)
    (hold : ∀ r, a.worker ≠ .finished r) (hreports : ∀ report ∈ reports, Routine tid report) :
    Does tid a a' reports := by
  refine .kept (by rw [htasks]) ?_ hreports
  intro r _
  simp [hnew, hold]

theorem step_does {action : AgentAction} (h : a.step action = some (a', reports)) (tid : String) :
    Does tid a a' reports := by
  unfold step at h
  split at h
  · -- take
    rename_i task rest hworker hqueue
    split at h
    · obtain ⟨rfl, rfl⟩ := Prod.mk.inj (Option.some.inj h)
      refine .of_tasks ?_ (by simp) (by simp [hworker]) (by simp)
      simp [tasks, hworker, hqueue, Worker.task?]
    · cases h
  · -- reportRunning
    rename_i copies task hworker
    obtain ⟨sent, hsent, heq⟩ := Option.map_eq_some_iff.mp h
    obtain ⟨rfl, rfl⟩ := Prod.mk.inj heq
    refine .of_tasks ?_ (by simp) (by simp [hworker]) ?_
    · simp [tasks, hworker, Worker.task?]
    · exact routine_of_reportStatus hsent (.inl rfl)
  · -- record
    rename_i ret task hworker
    obtain ⟨rfl, rfl⟩ := Prod.mk.inj (Option.some.inj h)
    split
    · refine .of_tasks ?_ (by simp) (by simp [hworker]) (by simp)
      simp [tasks, hworker, Worker.task?]
    · have htask : a.worker.task? = some task := by
        simp [hworker, Worker.task?]
      exact .of_result htask rfl rfl (.inl (by simp))
  · -- reportUploading
    rename_i copies task hworker
    obtain ⟨sent, hsent, heq⟩ := Option.map_eq_some_iff.mp h
    obtain ⟨rfl, rfl⟩ := Prod.mk.inj heq
    refine .of_tasks ?_ (by simp) (by simp [hworker]) ?_
    · simp [tasks, hworker, Worker.task?]
    · exact routine_of_reportStatus hsent (.inr rfl)
  · -- upload
    rename_i postProcessed reply task hworker
    obtain ⟨rfl, rfl⟩ := Prod.mk.inj (Option.some.inj h)
    obtain ⟨hid, hr⟩ := uploadResult_cases task postProcessed reply
    exact .of_result (by rw [hworker]; rfl) rfl hid hr
  · -- reportResult
    rename_i copies r hworker
    obtain ⟨sent, hsent, heq⟩ := Option.map_eq_some_iff.mp h
    obtain ⟨rfl, rfl⟩ := Prod.mk.inj heq
    have htasks : tasks { a with worker := .waiting } = a.tasks := by
      simp [tasks, hworker, Worker.task?]
    obtain rfl := attempts_eq_some hsent
    by_cases hid : r.taskId = tid
    · exact .sends copies (by rw [htasks]) hworker rfl hid
    · refine .kept (by rw [htasks]) ?_ ?_
      · intro r' hr'
        have hne : r ≠ r' := by
          rintro rfl
          exact hid hr'
        simp [hworker, hne]
      · intro report hreport
        rw [List.eq_of_mem_replicate hreport]
        exact hid
  · -- stop
    obtain ⟨rfl, rfl⟩ := Prod.mk.inj (Option.some.inj h)
    exact .kept rfl (fun _ _ => Iff.rfl) (by simp)
  · -- cancel
    rename_i copies task rest hworker hqueue
    split at h
    · cases h
    · obtain ⟨sent, hsent, heq⟩ := Option.map_eq_some_iff.mp h
      obtain ⟨rfl, rfl⟩ := Prod.mk.inj heq
      obtain rfl := attempts_eq_some hsent
      have hcopies : copiesIn tid a.tasks = copiesIn tid ({ a with queue := rest } : Agent).tasks +
          if task.taskId = tid then 1 else 0 := by
        simp [tasks, hworker, hqueue, Worker.task?]
      by_cases hid : task.taskId = tid
      · rw [if_pos hid] at hcopies
        refine .fails hcopies (by simp [hworker]) ?_
        intro report hreport
        exact ⟨_, List.eq_of_mem_replicate hreport, by simp⟩
      · rw [if_neg hid] at hcopies
        refine .kept hcopies.symm (fun _ _ => Iff.rfl) ?_
        intro report hreport
        rw [List.eq_of_mem_replicate hreport]
        exact hid
  · -- crash
    obtain ⟨rfl, rfl⟩ := Prod.mk.inj (Option.some.inj h)
    exact .dies rfl rfl
  · cases h

end Agent

/-! ## The service -/

namespace HotmethodService

/-- Both services have the same about the task. -/
structure SameTask (tid : String) (s t : HotmethodService) : Prop where
  status : t.statusOf tid = s.statusOf tid
  result : t.results[tid]? = s.results[tid]?
  copies : ∀ ip, copiesIn tid (t.queue ip) = copiesIn tid (s.queue ip)

variable {tid : String} {s t u : HotmethodService}

theorem SameTask.enqueue (h : SameTask tid s u) {task : TaskDesc} (hne : task.taskId ≠ tid)
    (now : ℤ) (ip : String) (reason : String) : SameTask tid s (u.enqueue now ip task reason) where
  status := by rw [statusOf_enqueue, if_neg hne, h.status]
  result := h.result
  copies ip' := by
    rw [queue_enqueue]
    split
    · rename_i hip
      subst hip
      simp [h.copies, hne]
    · exact h.copies ip'

theorem SameTask.of_tasks (hstate : t.tasksState = s.tasksState)
    (hresult : t.results[tid]? = s.results[tid]?) (htasks : t.tasks = s.tasks) :
    SameTask tid s t where
  status := statusOf_congr tid hstate
  result := hresult
  copies ip := by simp [queue, htasks]

/-- A task that is no window is the successor of no window. -/
theorem successor_ne (hnot : parentOf tid = none) {request : TaskResult} {ip : String}
    {task : TaskDesc} (h : s.successor request = some (ip, task)) : task.taskId ≠ tid := by
  obtain ⟨p, seq, next, config, hsplit, _, _, _, _, rfl⟩ := s.successor_eq_some request h
  rintro rfl
  have hwindow := isWindowOf_windowTid (isWindowOf_of_split hsplit).parent_ne next
  exact absurd (hwindow.symm.trans hnot) (by simp)

/-- The result of another task. -/
theorem sameTask_notifyResult (hnot : parentOf tid = none) {now sysNow : ℤ} {request : TaskResult}
    (hne : request.taskId ≠ tid) (h : s.notifyResult now sysNow request = some t) :
    SameTask tid s t := by
  have hbooks : SameTask tid s (s.bookkeep now sysNow request) := by
    refine ⟨?_, by simp [hne], by simp⟩
    rw [statusOf_of_insert tid (s.bookkeep_tasksState now sysNow request), if_neg hne]
  rcases s.notifyResult_eq_some now sysNow request h with
    ⟨_, rfl⟩ | ⟨ip, task, reason, hnext, _, rfl⟩
  · exact hbooks
  · exact hbooks.enqueue (successor_ne hnot hnext) now ip reason

/-- The result of the task itself. -/
theorem notifyResult_own {now sysNow : ℤ} {request : TaskResult}
    (hnot : parentOf request.taskId = none) (h : s.notifyResult now sysNow request = some t) :
    t.statusOf request.taskId = some (resultStatus request) ∧
      t.results[request.taskId]? = some request ∧ ∀ ip, t.queue ip = s.queue ip := by
  have hsplit : splitWindowTid request.taskId = none := Option.map_eq_none_iff.mp hnot
  obtain rfl : s.recordResult now request = t := by simpa [notifyResult, hsplit] using h
  refine ⟨?_, by simp [recordResult], fun ip => rfl⟩
  simp [recordResult, statusOf, getTaskStatus]

/-- A call that does not name the task, other than a cleanup pass. -/
theorem sameTask_of_foreign (hnot : parentOf tid = none) {e : Event}
    (hforeign : e.call.Foreign tid) (h : s.step e = some t) :
    e.call = .cleanupTimeoutTasks ∨ SameTask tid s t := by
  have hsame : SameTask tid s s := ⟨rfl, rfl, fun _ => rfl⟩
  obtain ⟨now, call⟩ := e
  cases call with
  | pushTask targetIp task =>
      obtain rfl := Option.some.inj h
      right
      simp only [pushTask]
      split
      · exact hsame.enqueue hforeign now targetIp _
      · exact hsame
  | popTask targetIp => exact hforeign.elim
  | updateTaskStatus request =>
      obtain rfl := Option.some.inj h
      right
      refine ⟨?_, rfl, fun _ => rfl⟩
      have hentry := statusOf_of_insert tid (s.updateTaskStatus_tasksState now request.taskId
        (internalStatus request.status) request.reason)
      rw [if_neg hforeign] at hentry
      exact hentry
  | notifyResult sysNow request => exact .inr (sameTask_notifyResult hnot hforeign h)
  | cleanupTimeoutTasks => exact .inl rfl
  | startContinuousTask request =>
      obtain rfl := Option.some.inj h
      right
      by_cases hroom : s.hasRoom request.targetIp = true
      · rw [s.startContinuousTask_of_hasRoom now hroom]
        refine SameTask.enqueue ?_ ?_ now _ _
        · exact ⟨rfl, rfl, fun _ => rfl⟩
        · rintro rfl
          have hwindow := isWindowOf_windowTid (parentTidAt_ne now) 0
          exact absurd (hwindow.symm.trans hnot) (by simp)
      · rw [s.startContinuousTask_of_full now (by simpa using hroom)]
        exact ⟨rfl, rfl, fun _ => rfl⟩
  | stopContinuousTask id =>
      obtain rfl := Option.some.inj h
      exact .inr (.of_tasks (s.stopContinuousTask_tasksState id) (by simp)
        (s.stopContinuousTask_tasks id))

/-- A cleanup pass takes an overdue task out of every queue. -/
theorem copiesIn_cleanup (s : HotmethodService) (now timeoutSec : ℤ) (tid ip : String) :
    copiesIn tid ((s.cleanupTimeoutTasks now timeoutSec).queue ip) =
      if tid ∈ s.overdueTasks now timeoutSec then 0 else copiesIn tid (s.queue ip) := by
  rw [queue_cleanupTimeoutTasks, copiesIn, copiesIn, List.countP_filter]
  split
  · rename_i hover
    rw [List.countP_eq_zero]
    intro task _ htask
    simp only [Bool.and_eq_true, decide_eq_true_eq] at htask
    exact htask.2 (htask.1 ▸ hover)
  · rename_i hover
    refine List.countP_congr fun task _ => ?_
    simp only [Bool.and_eq_true, decide_eq_true_eq]
    exact ⟨And.left, fun hid => ⟨hid, hid ▸ hover⟩⟩

end HotmethodService

end MiniDrop
