import MiniDrop.Verification.Hotmethod.Entries
import MiniDrop.Verification.Hotmethod.Queues

/-! # Outcomes of one-shot tasks

An outcome is final unless a late report overrules it: the service stores whatever an agent
reports, without a look at the entry that is there. -/

namespace MiniDrop.Traced

/-- One-shot tasks with distinct ids. -/
def OneShotCalls (s : Traced) (e : Event) : Prop :=
  match e.call with
  | .pushTask _ task => task.taskId ∉ s.queuedIds
  | .startContinuousTask _ | .stopContinuousTask _ => False
  | _ => True

/-- A report finds an entry, overrules no outcome there, and reports an outcome only for a
task that left its queue. -/
def Settles (s : Traced) (taskId : String) (status : TaskStatus) : Prop :=
  ∃ old ∈ s.service.statusOf taskId,
    (old.terminal → old = status) ∧ (status.terminal → taskId ∉ s.service.waitingIds)

/-- Reports come in time. -/
def TimelyReports (s : Traced) (e : Event) : Prop :=
  match e.call with
  | .updateTaskStatus request =>
    s.Settles request.taskId (HotmethodService.internalStatus request.status)
  | .notifyResult _ request => s.Settles request.taskId (HotmethodService.resultStatus request)
  | _ => True

instance (s : Traced) (e : Event) : Decidable (OneShotCalls s e) := by
  unfold OneShotCalls
  refine e.call.casesOn ?_ ?_ ?_ ?_ ?_ ?_ ?_ <;> intros <;> dsimp only <;> infer_instance

instance (s : Traced) (taskId : String) (status : TaskStatus) :
    Decidable (s.Settles taskId status) := by
  unfold Settles
  infer_instance

instance (s : Traced) (e : Event) : Decidable (TimelyReports s e) := by
  unfold TimelyReports
  refine e.call.casesOn ?_ ?_ ?_ ?_ ?_ ?_ ?_ <;> intros <;> dsimp only <;> infer_instance

/-! ## Step lemma -/

/-- Entries belong to pushed tasks, and no waiting task has an outcome. -/
structure Open (s : Traced) : Prop where
  known : ∀ t, ∀ status ∈ s.service.statusOf t, t ∈ s.queuedIds
  waiting : ∀ t ∈ s.service.waitingIds, ∃ status ∈ s.service.statusOf t, ¬ status.terminal
  oneShot : ∀ p : String, s.service.continuousTasks[p]? = none

/-- What one call may do to the entry of `taskId`. -/
def Progresses (s t : Traced) (taskId : String) : Prop :=
  t.service.statusOf taskId = s.service.statusOf taskId ∨
    t.service.statusOf taskId = none ∨
    ∃ new, t.service.statusOf taskId = some new ∧
      (∀ old ∈ s.service.statusOf taskId, old.terminal → old = new) ∧
      (s.service.statusOf taskId = none → taskId ∉ s.queuedIds)

theorem Open.start : Open ({} : Traced) := by
  constructor <;>
    simp [HotmethodService.statusOf, HotmethodService.getTaskStatus, HotmethodService.waitingIds]

variable {s t : Traced} {e : Event}

/-- A report changes the entry of its task and no queue. -/
theorem Open.report (h : s.Open) {service : HotmethodService} {id : String}
    {info : TaskStateInfo} (hsettles : s.Settles id info.status)
    (hstate : service.tasksState = s.service.tasksState.insert id info)
    (htasks : service.tasks = s.service.tasks)
    (hparents : service.continuousTasks = s.service.continuousTasks) :
    Open { s with service } ∧ ∀ taskId, Progresses s { s with service } taskId := by
  obtain ⟨old, hold, hfinal, hqueue⟩ := hsettles
  have hwaiting : ∀ t, t ∈ service.waitingIds ↔ t ∈ s.service.waitingIds := fun _ =>
    s.service.mem_waitingIds_of_tasks htasks
  have hstatus := fun taskId => HotmethodService.statusOf_of_insert taskId hstate
  refine ⟨⟨?_, ?_, ?_⟩, ?_⟩
  · intro t status ht
    simp only [hstatus] at ht
    split at ht
    · rename_i heq
      exact heq ▸ h.known id old hold
    · exact h.known t status ht
  · intro t ht
    simp only [hwaiting] at ht
    simp only [hstatus]
    split
    · rename_i heq
      exact ⟨info.status, rfl, fun hterm => hqueue hterm (heq ▸ ht)⟩
    · exact h.waiting t ht
  · simpa [hparents] using h.oneShot
  · intro taskId
    by_cases heq : id = taskId
    · subst heq
      right; right
      refine ⟨info.status, by simp [hstatus], ?_, ?_⟩
      · intro old' hold'
        obtain rfl := Option.some.inj (hold.symm.trans hold')
        exact hfinal
      · intro hnone
        simp [Option.mem_def.mp hold] at hnone
    · exact .inl (by simp [hstatus, heq])

theorem Open.enqueue (h : s.Open) {now : ℤ} {ip : String} {task : TaskDesc} {reason : String}
    (hnew : task.taskId ∉ s.queuedIds) :
    (s.enqueue now ip task reason).Open ∧
      ∀ taskId, Progresses s (s.enqueue now ip task reason) taskId := by
  have hstatus := fun t => HotmethodService.statusOf_enqueue s.service now t ip task reason
  refine ⟨⟨?_, ?_, h.oneShot⟩, ?_⟩
  · intro t status ht
    rw [queuedIds_enqueue]
    simp only [Traced.enqueue, hstatus] at ht
    split at ht
    · rename_i heq
      simp [heq]
    · exact List.mem_append_left _ (h.known t status ht)
  · intro t ht
    simp only [Traced.enqueue, hstatus]
    split
    · exact ⟨.pending, rfl, by decide⟩
    · rename_i hne
      rcases (s.service.mem_waitingIds_enqueue now).mp ht with ht | ht
      · exact h.waiting t ht
      · exact absurd ht.symm hne
  · intro taskId
    simp only [Progresses, Traced.enqueue, hstatus]
    by_cases heq : task.taskId = taskId
    · subst heq
      right; right
      exact ⟨.pending, by simp, fun old hold => absurd (h.known _ old hold) hnew, fun _ => hnew⟩
    · exact .inl (by simp [heq])

theorem Open.dequeue (h : s.Open) {now : ℤ} {ip : String} {task : TaskDesc}
    {rest : List TaskDesc} (hqueue : s.service.queue ip = task :: rest) :
    (s.dequeue now ip task rest).Open ∧
      ∀ taskId, Progresses s (s.dequeue now ip task rest) taskId := by
  have hstatus := fun t => HotmethodService.statusOf_dequeue s.service now t ip task rest
  obtain ⟨old, hold, hopen⟩ := h.waiting task.taskId
    (mem_waitingIds.mpr ⟨ip, by simp [waitingAt, hqueue]⟩)
  refine ⟨⟨?_, ?_, h.oneShot⟩, ?_⟩
  · intro t status ht
    simp only [Traced.dequeue, hstatus] at ht
    split at ht
    · rename_i heq
      exact heq ▸ h.known task.taskId old hold
    · exact h.known t status ht
  · intro t ht
    simp only [Traced.dequeue, hstatus]
    split
    · exact ⟨.dispatched, rfl, by decide⟩
    · exact h.waiting t ((s.service.mem_waitingIds_dequeue now hqueue).1 ht)
  · intro taskId
    simp only [Progresses, Traced.dequeue, hstatus]
    by_cases heq : task.taskId = taskId
    · subst heq
      right; right
      refine ⟨.dispatched, by simp, ?_, ?_⟩
      · intro old' hold' hterm
        obtain rfl := Option.some.inj (hold.symm.trans hold')
        exact absurd hterm hopen
      · intro hnone
        simp [Option.mem_def.mp hold] at hnone
    · exact .inl (by simp [heq])

theorem Open.cleanup (h : s.Open) (now timeoutSec : ℤ) (expired : List String) :
    Open { s with service := s.service.cleanupTimeoutTasks now timeoutSec, expired } ∧
      ∀ taskId, Progresses s
        { s with service := s.service.cleanupTimeoutTasks now timeoutSec, expired } taskId := by
  have hstatus := fun taskId => s.service.entry_cleanup now taskId timeoutSec
  refine ⟨⟨?_, ?_, by simpa using h.oneShot⟩, ?_⟩
  · intro t status ht
    simp only [Option.mem_def] at ht
    rcases hstatus t with ⟨_, heq, _⟩ | ⟨_, _, heq, _⟩ | ⟨_, ⟨old, hold, _⟩, _⟩
    · exact h.known t status (heq ▸ ht)
    · simp [heq] at ht
    · exact h.known t old hold
  · intro t ht
    obtain ⟨hwait, hkeep⟩ := (s.service.mem_waitingIds_cleanup now timeoutSec).mp ht
    obtain ⟨old, hold, hopen⟩ := h.waiting t hwait
    rcases hstatus t with ⟨_, heq, _⟩ | ⟨_, ⟨old', hold', hterm⟩, _⟩ | ⟨hover, _⟩
    · exact ⟨old, heq.trans hold, hopen⟩
    · obtain rfl := Option.some.inj (hold.symm.trans hold')
      exact absurd hterm hopen
    · exact absurd hover hkeep
  · intro taskId
    rcases hstatus taskId with ⟨_, heq, _⟩ | ⟨_, _, heq, _⟩ | ⟨_, ⟨old, hold, hopen⟩, heq, _⟩
    · exact .inl heq
    · exact .inr (.inl heq)
    · right; right
      refine ⟨.failed, heq, ?_, ?_⟩
      · intro old' hold' hterm
        obtain rfl := Option.some.inj (hold.symm.trans hold')
        exact absurd hterm hopen
      · intro hnone
        simp [Option.mem_def.mp hold] at hnone

theorem Open.step (h : s.Open) (hcalls : OneShotCalls s e) (htimely : TimelyReports s e)
    (hs : s.step e = some t) : t.Open ∧ ∀ taskId, Progresses s t taskId := by
  obtain ⟨now, call⟩ := e
  cases call with
  | pushTask targetIp task =>
      simp only [Traced.step, Option.some.injEq] at hs
      subst hs
      by_cases hroom : s.service.hasRoom targetIp = true
      · simp only [HotmethodService.pushTask, hroom, if_true]
        exact h.enqueue hcalls
      · rw [Bool.not_eq_true] at hroom
        simp only [HotmethodService.pushTask, hroom, Bool.false_eq_true, if_false,
          List.append_nil]
        exact ⟨h, fun _ => .inl rfl⟩
  | popTask targetIp =>
      simp only [Traced.step] at hs
      cases hqueue : s.service.queue targetIp with
      | nil =>
          rw [s.service.popTask_nil now hqueue] at hs
          exact Option.some.inj hs ▸ ⟨h, fun _ => .inl rfl⟩
      | cons task rest =>
          rw [s.service.popTask_cons now hqueue] at hs
          exact Option.some.inj hs ▸ h.dequeue hqueue
  | updateTaskStatus request =>
      simp only [Traced.step, Option.some.injEq] at hs
      subst hs
      refine h.report ?_ rfl rfl rfl
      exact htimely
  | notifyResult sysNow request =>
      obtain ⟨service, hservice, rfl⟩ := Option.map_eq_some_iff.mp hs
      have hnone : s.service.successor request = none := by
        simp only [HotmethodService.successor, h.oneShot]
        split <;> rfl
      rcases s.service.notifyResult_eq_some now sysNow request hservice with
        ⟨_, rfl⟩ | ⟨_, _, _, hnext, _⟩
      · have hsettles : s.Settles request.taskId (HotmethodService.resultStatus request) := htimely
        obtain ⟨hopen, hprogress⟩ := Open.report h (by exact hsettles)
          (s.service.bookkeep_tasksState now sysNow request)
          (s.service.bookkeep_tasks now sysNow request)
          (s.service.bookkeep_continuousTasks now sysNow request)
        rw [hnone]
        exact ⟨⟨by simpa [queuedIds] using hopen.known, hopen.waiting, hopen.oneShot⟩, hprogress⟩
      · simp [hnone] at hnext
  | cleanupTimeoutTasks =>
      simp only [Traced.step, Option.some.injEq] at hs
      subst hs
      exact h.cleanup now dispatchTimeoutSec _
  | startContinuousTask request => exact hcalls.elim
  | stopContinuousTask taskId => exact hcalls.elim

/-! ## Runs -/

/-- In runs of `ok` calls an outcome stays until its entry is removed for good. -/
def AbsorbsOutcomes (ok : Traced → Event → Prop) : Prop :=
  ∀ s t, Transition.Reachable step ok {} s → Transition.Reachable step ok s t →
    ∀ taskId status, s.service.statusOf taskId = some status → status.terminal →
      t.service.statusOf taskId = some status ∨
        ∀ u, Transition.Reachable step ok t u → u.service.statusOf taskId = none

private theorem removed_step {taskId : String} (hknown : taskId ∈ s.queuedIds)
    (hnone : s.service.statusOf taskId = none) (hprogress : Progresses s t taskId) :
    t.service.statusOf taskId = none := by
  rcases hprogress with heq | heq | ⟨_, _, _, hnew⟩
  · exact heq.trans hnone
  · exact heq
  · exact absurd hknown (hnew hnone)

/-- The cleanup thread fails a task that its agent pulled half a minute ago. -/
def failedRun : List Event :=
  [⟨0, .pushTask "a" { taskId := "t" }⟩, ⟨1, .popTask "a"⟩, ⟨40000000000, .cleanupTimeoutTasks⟩]

/-- The agent collects in time. -/
def timelyRun : List Event :=
  [⟨0, .pushTask "a" { taskId := "t" }⟩, ⟨1, .popTask "a"⟩, ⟨2, .updateTaskStatus ⟨"t", 2, ""⟩⟩,
    ⟨3, .notifyResult 0 { taskId := "t", cosKey := "profiler/t/t.data" }⟩]

/-- The agent starts the task later. -/
def lateReport : List Event := [⟨40000000001, .updateTaskStatus ⟨"t", 2, ""⟩⟩]

end MiniDrop.Traced
