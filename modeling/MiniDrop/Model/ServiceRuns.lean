import MiniDrop.Library.Runs
import MiniDrop.Model.HotmethodService

/-! # Runs of drop_server

Every RPC handler and the cleanup thread lock the service, so a run is a sequence of calls,
each at some clock reading. A traced run also keeps the history that the service forgets. -/

namespace MiniDrop

inductive Call where
  | pushTask (targetIp : String) (task : TaskDesc)
  | popTask (targetIp : String)
  | updateTaskStatus (request : TaskStatusUpdate)
  | notifyResult (sysNow : ℤ) (request : TaskResult)
  | cleanupTimeoutTasks
  | startContinuousTask (request : StartContinuousRequest)
  | stopContinuousTask (taskId : String)
deriving DecidableEq

/-- A call and the steady-clock reading under which it runs. -/
structure Event where
  now : ℤ
  call : Call
deriving DecidableEq

/-- The timeout that the cleanup thread passes to CleanupTimeoutTasks. -/
def dispatchTimeoutSec : ℤ := 30

namespace HotmethodService

def step (s : HotmethodService) (e : Event) : Option HotmethodService :=
  match e.call with
  | .pushTask targetIp task => some (s.pushTask e.now targetIp task).1
  | .popTask targetIp => some (s.popTask e.now targetIp).1
  | .updateTaskStatus request => some (s.updateTaskStatusRpc e.now request)
  | .notifyResult sysNow request => s.notifyResult e.now sysNow request
  | .cleanupTimeoutTasks => some (s.cleanupTimeoutTasks e.now dispatchTimeoutSec)
  | .startContinuousTask request => some (s.startContinuousTask e.now request).1
  | .stopContinuousTask taskId => some (s.stopContinuousTask taskId).1

/-- The window that NotifyResult queues after `request`, with the queue it goes to. -/
def successor (s : HotmethodService) (request : TaskResult) : Option (String × TaskDesc) :=
  match splitWindowTid request.taskId with
  | none => none
  | some (parentTid, seq) =>
    match s.continuousTasks[parentTid]? with
    | none => none
    | some config =>
      if config.running && s.hasRoom config.targetIp then
        (nextSeq seq).map fun next =>
          (config.targetIp, windowTask config parentTid (windowTid parentTid next))
      else none

/-- `parentTid` is registered and not stopped. -/
def Running (s : HotmethodService) (parentTid : String) : Prop :=
  ∃ config ∈ s.continuousTasks[parentTid]?, config.running

instance (s : HotmethodService) (parentTid : String) : Decidable (s.Running parentTid) := by
  unfold Running
  infer_instance

/-- The ids that wait in some queue. -/
def waitingIds (s : HotmethodService) : List String :=
  s.tasks.toList.flatMap fun entry => entry.2.map TaskDesc.taskId

/-- The state that GetTaskStatus reports. -/
def statusOf (s : HotmethodService) (taskId : String) : Option TaskStatus :=
  (s.getTaskStatus taskId).map TaskStateInfo.status

/-- The tasks that a cleanup pass fails. -/
def overdueTasks (s : HotmethodService) (now timeoutSec : ℤ) : List String :=
  (s.tasksState.toList.filter fun entry => overdue now timeoutSec entry.2).map Prod.fst

end HotmethodService

/-- The parent that NotifyResult reads off a task id. -/
def parentOf (taskId : String) : Option String := (splitWindowTid taskId).map Prod.fst

/-- `taskId` is written as a window id of `parentTid`. -/
def IsWindowOf (parentTid taskId : String) : Prop := parentOf taskId = some parentTid

instance (parentTid taskId : String) : Decidable (IsWindowOf parentTid taskId) :=
  inferInstanceAs (Decidable (_ = _))

/-- The service with its history: tasks pushed to a queue and popped from one, each with the
address of the queue, tasks popped but not reported, tasks reported through NotifyResult,
and tasks failed by the cleanup thread. -/
structure Traced where
  service : HotmethodService := {}
  queued : List (String × String) := []
  popped : List (String × String) := []
  inFlight : List String := []
  reported : List String := []
  expired : List String := []

namespace Traced

def step (s : Traced) (e : Event) : Option Traced :=
  match e.call with
  | .pushTask targetIp task =>
    let pushed := s.service.pushTask e.now targetIp task
    let entry := if pushed.2 then [(targetIp, task.taskId)] else []
    some { s with service := pushed.1, queued := s.queued ++ entry }
  | .popTask targetIp =>
    match s.service.popTask e.now targetIp with
    | (service, none) => some { s with service }
    | (service, some task) =>
      some { s with
        service
        popped := s.popped ++ [(targetIp, task.taskId)]
        inFlight := s.inFlight ++ [task.taskId] }
  | .updateTaskStatus request =>
    some { s with service := s.service.updateTaskStatusRpc e.now request }
  | .notifyResult sysNow request =>
    (s.service.notifyResult e.now sysNow request).map fun service =>
      { s with
        service
        queued := s.queued ++
          (s.service.successor request).toList.map fun next => (next.1, next.2.taskId)
        inFlight := s.inFlight.erase request.taskId
        reported := s.reported ++ [request.taskId] }
  | .cleanupTimeoutTasks =>
    some { s with
      service := s.service.cleanupTimeoutTasks e.now dispatchTimeoutSec
      expired := s.expired ++ s.service.overdueTasks e.now dispatchTimeoutSec }
  | .startContinuousTask request =>
    let started := s.service.startContinuousTask e.now request
    let first := (request.targetIp, windowTid (HotmethodService.parentTidAt e.now) 0)
    let entry := if started.2 = "" then [] else [first]
    some { s with service := started.1, queued := s.queued ++ entry }
  | .stopContinuousTask taskId =>
    some { s with service := (s.service.stopContinuousTask taskId).1 }

/-- The history does not influence the service. -/
theorem step_service {s t : Traced} {e : Event} (h : s.step e = some t) :
    s.service.step e = some t.service := by
  cases e with
  | mk now call =>
    cases call with
    | popTask targetIp =>
        simp only [step] at h
        split at h <;> rename_i heq <;> cases h <;> simp [HotmethodService.step, heq]
    | notifyResult sysNow request =>
        simp only [step, Option.map_eq_some_iff] at h
        obtain ⟨service, hservice, rfl⟩ := h
        exact hservice
    | _ =>
        simp only [step, Option.some.injEq] at h
        subst h
        rfl

/-- Every call that the service accepts extends the history. -/
theorem exists_step {s : Traced} {e : Event} {service : HotmethodService}
    (h : s.service.step e = some service) : ∃ t, s.step e = some t ∧ t.service = service := by
  suffices hsome : ∃ t, s.step e = some t by
    obtain ⟨t, ht⟩ := hsome
    exact ⟨t, ht, Option.some.inj ((step_service ht).symm.trans h)⟩
  cases e with
  | mk now call =>
    cases call with
    | popTask targetIp =>
        simp only [step]
        split <;> exact ⟨_, rfl⟩
    | notifyResult sysNow request =>
        have h : s.service.notifyResult now sysNow request = some service := h
        simp [step, h]
    | _ => exact ⟨_, rfl⟩

/-- Ids of all tasks that were ever pushed to a queue. -/
def queuedIds (s : Traced) : List String := s.queued.map Prod.snd

/-- Ids of all tasks that were popped. -/
def poppedIds (s : Traced) : List String := s.popped.map Prod.snd

/-- Ids pushed to the queue of `ip`, oldest first. -/
def queuedAt (s : Traced) (ip : String) : List String :=
  (s.queued.filter fun entry => entry.1 = ip).map Prod.snd

/-- Ids popped from the queue of `ip`, oldest first. -/
def poppedAt (s : Traced) (ip : String) : List String :=
  (s.popped.filter fun entry => entry.1 = ip).map Prod.snd

/-- Ids waiting in the queue of `ip`. -/
def waitingAt (s : Traced) (ip : String) : List String :=
  (s.service.queue ip).map TaskDesc.taskId

end Traced

/-! ## What the callers promise -/

/-- Task ids are distinct. A registered parent owns every id that is written as a window of
it, so no other task takes one. -/
def FreshIds (s : Traced) (e : Event) : Prop :=
  match e.call with
  | .pushTask _ task =>
    task.taskId ∉ s.queuedIds ∧
      ∀ p ∈ parentOf task.taskId, p ∉ s.service.continuousTasks
  | .startContinuousTask _ =>
    HotmethodService.parentTidAt e.now ∉ s.service.continuousTasks ∧
      ∀ t ∈ s.queuedIds, ¬ IsWindowOf (HotmethodService.parentTidAt e.now) t
  | _ => True

/-- Agents report on tasks that they popped, and the result of a task once. -/
def ReportsOnce (s : Traced) (e : Event) : Prop :=
  match e.call with
  | .updateTaskStatus request => request.taskId ∈ s.poppedIds
  | .notifyResult _ request => request.taskId ∈ s.inFlight
  | _ => True

/-- Agents report on tasks that they popped. The result of a one-shot task may be delivered
again, the result of a window of a registered parent may not. -/
def ReportsWindowsOnce (s : Traced) (e : Event) : Prop :=
  match e.call with
  | .updateTaskStatus request => request.taskId ∈ s.poppedIds
  | .notifyResult _ request =>
    request.taskId ∈ s.poppedIds ∧
      ∀ p ∈ parentOf request.taskId, p ∈ s.service.continuousTasks → request.taskId ∈ s.inFlight
  | _ => True

instance (s : Traced) (e : Event) : Decidable (FreshIds s e) := by
  unfold FreshIds
  split <;> infer_instance

instance (s : Traced) (e : Event) : Decidable (ReportsOnce s e) := by
  unfold ReportsOnce
  split <;> infer_instance

instance (s : Traced) (e : Event) : Decidable (ReportsWindowsOnce s e) := by
  unfold ReportsWindowsOnce
  split <;> infer_instance

end MiniDrop
