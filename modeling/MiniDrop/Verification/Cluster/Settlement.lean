import Mathlib.Data.List.Perm.Basic
import MiniDrop.Model.AgentRuns

/-! # Every delivered task is settled

The worker executes tasks in the order of their delivery and reports each one before it starts the
next; the main thread reports those that are left. A task that finds the queue full is only
logged. -/

namespace MiniDrop

/-! ## Statement -/

namespace AgentEvent

def deliveries (log : List AgentEvent) : List TaskDesc :=
  log.filterMap fun
    | .delivered task => some task
    | _ => none

def starts (log : List AgentEvent) : List TaskDesc :=
  log.filterMap fun
    | .started task => some task
    | _ => none

/-- The calls of ReportResult. -/
def results (log : List AgentEvent) : List TaskResult :=
  log.filterMap fun
    | .reported result | .cancelled result => some result
    | _ => none

end AgentEvent

open AgentEvent

/-- A worker that has one task at a time, and none after it has seen the stop. -/
structure SoleWorker where
  current : Option String := none
  stopped : Bool := false
deriving DecidableEq

/-- It reports the task that it has started. Tasks that nobody has started are reported as
failures. -/
def SoleWorker.step (w : SoleWorker) : AgentEvent → Option SoleWorker
  | .delivered _ => some w
  | .started task =>
    if w.current = none ∧ w.stopped = false then some { w with current := some task.taskId }
    else none
  | .observedStop => some { w with stopped := true }
  | .reported result =>
    if w.current = some result.taskId then some { w with current := none } else none
  | .cancelled result =>
    if w.current = none ∧ result.errorMessage ≠ "" then some w else none

/-- Tasks start in the order of their delivery, under one worker. When the process has shut down,
ReportResult has been called once for each delivery. -/
structure DropAgent.Settles (p : DropAgent) : Prop where
  inOrder : (starts p.log).Sublist (deliveries p.log)
  serves : (Transition.run SoleWorker.step {} p.log).isSome
  once : p.main = .stopped →
    ((results p.log).map TaskResult.taskId).Perm ((deliveries p.log).map TaskDesc.taskId)

/-- PushTask does not find a full queue. -/
def FindsRoom (p : DropAgent) (action : DropAgentAction) : Prop :=
  action = .push → p.agent.queue.length < Agent.maxTaskQueueSize

instance (p : DropAgent) (action : DropAgentAction) : Decidable (FindsRoom p action) :=
  inferInstanceAs (Decidable (action = .push → _))

/-! ## The worker of the agent -/

/-- The id of the task that the worker has. -/
def Worker.taskId? : Worker → Option String
  | .waiting => none
  | .started task | .recording task | .collected task | .uploading task => some task.taskId
  | .finished result => some result.taskId

@[simp] theorem Worker.taskId?_waiting : Worker.waiting.taskId? = none := rfl

@[simp] theorem Worker.taskId?_started (task : TaskDesc) :
    (Worker.started task).taskId? = some task.taskId := rfl

namespace Agent

variable {a b : Agent} {reports : List Report}

theorem uploadResult_taskId (task : TaskDesc) (postProcessed : Bool) (reply : UploadReply) :
    (uploadResult task postProcessed reply).taskId = task.taskId := by
  unfold uploadResult
  cases reply with
  | notConfigured => rfl
  | uploaded => rfl
  | failed content =>
      cases content with
      | none => rfl
      | some content =>
          dsimp only
          split <;> rfl

theorem step_take (h : a.step .take = some (b, reports)) {task : TaskDesc}
    (hhead : a.queue.head? = some task) :
    ∃ rest, a.queue = task :: rest ∧ a.worker = .waiting ∧
      b = { a with queue := rest, worker := .started task } := by
  obtain ⟨rest, hqueue⟩ := List.head?_eq_some_iff.mp hhead
  cases hworker : a.worker <;> simp [step, hworker, hqueue] at h
  exact ⟨rest, hqueue, rfl, h.2.1.symm⟩

/-- Until the result is there, the worker keeps its task. -/
theorem step_executes {action : AgentAction} (hexecutes : action.executes)
    (h : a.step action = some (b, reports)) :
    b.queue = a.queue ∧ b.running = a.running ∧ b.worker.taskId? = a.worker.taskId? := by
  cases action <;> simp only [AgentAction.executes, Bool.false_eq_true] at hexecutes <;>
    cases hworker : a.worker <;>
    simp only [step, hworker, Option.map_eq_some_iff, Option.some.injEq, Prod.mk.injEq,
      reduceCtorEq] at h
  · obtain ⟨_, _, rfl, _⟩ := h
    exact ⟨rfl, rfl, rfl⟩
  · obtain ⟨rfl, _⟩ := h
    refine ⟨rfl, rfl, ?_⟩
    dsimp only
    split <;> rfl
  · obtain ⟨_, _, rfl, _⟩ := h
    exact ⟨rfl, rfl, rfl⟩
  · obtain ⟨rfl, _⟩ := h
    exact ⟨rfl, rfl, congrArg some (uploadResult_taskId _ _ _)⟩

theorem step_reportResult {copies : ℕ} {result : TaskResult} (hworker : a.worker = .finished result)
    (h : a.step (.reportResult copies) = some (b, reports)) :
    b = { a with worker := .waiting } := by
  simp only [step, hworker, Option.map_eq_some_iff, Prod.mk.injEq] at h
  obtain ⟨_, _, rfl, _⟩ := h
  rfl

theorem step_cancel {copies : ℕ} (h : a.step (.cancel copies) = some (b, reports)) {task : TaskDesc}
    (hhead : a.queue.head? = some task) :
    ∃ rest, a.queue = task :: rest ∧ a.worker = .waiting ∧ b = { a with queue := rest } := by
  obtain ⟨rest, hqueue⟩ := List.head?_eq_some_iff.mp hhead
  cases hworker : a.worker <;> simp [step, hworker, hqueue] at h
  obtain ⟨_, _, _, rfl, _⟩ := h
  exact ⟨rest, hqueue, rfl, rfl⟩

theorem step_stop (h : a.step .stop = some (b, reports)) : b = { a with running := false } := by
  simp only [step, Option.some.injEq, Prod.mk.injEq] at h
  exact h.1.symm

end Agent

/-! ## Accounts -/

/-- The task that the heartbeat thread is about to push. -/
def HeartbeatPoint.pending : HeartbeatPoint → List TaskDesc
  | .pushing task => [task]
  | _ => []

@[simp] theorem HeartbeatPoint.pending_top : HeartbeatPoint.top.pending = [] := rfl

@[simp] theorem HeartbeatPoint.pending_pushing (task : TaskDesc) :
    (HeartbeatPoint.pushing task).pending = [task] := rfl

/-- Deliveries are settled, under way or lost, and the threads end in the order of the joins. -/
structure DropAgent.Accounted (p : DropAgent) (lost : List String) : Prop where
  inOrder : (starts p.log ++ (p.agent.queue ++ p.heartbeat.pending)).Sublist (deliveries p.log)
  serves : ∃ stopped, Transition.run SoleWorker.step {} p.log =
    some ⟨p.agent.worker.taskId?, stopped⟩ ∧ (stopped = true → p.agent.running = false)
  balance : ∀ id, ((deliveries p.log).map TaskDesc.taskId).count id =
    ((results p.log).map TaskResult.taskId).count id + p.agent.worker.taskId?.toList.count id +
      ((p.agent.queue ++ p.heartbeat.pending).map TaskDesc.taskId).count id + lost.count id
  idle : p.worker ≠ .executing → p.agent.worker.taskId? = none
  heartbeatLeft : p.main ≠ .serving → p.main ≠ .joiningHeartbeat → p.heartbeat = .left
  workerLeft : p.main = .draining ∨ p.main = .stopped → p.worker = .left
  emptied : p.main = .stopped → p.agent.queue = []

namespace DropAgent

variable {p q : DropAgent} {lost : List String} {action : DropAgentAction}

theorem accounted_start : Accounted {} [] where
  inOrder := by simp [starts, deliveries, HeartbeatPoint.pending]
  serves := ⟨false, rfl, by simp⟩
  balance id := by simp [deliveries, results, Worker.taskId?, HeartbeatPoint.pending]
  idle _ := rfl
  heartbeatLeft h := by simp at h
  workerLeft h := by simp at h
  emptied h := by simp at h

/-- What the log says about the worker, after one more event. -/
theorem run_append_event {log : List AgentEvent} {event : AgentEvent} {w w' : SoleWorker}
    (h : Transition.run SoleWorker.step {} log = some w) (hevent : w.step event = some w') :
    Transition.run SoleWorker.step {} (log ++ [event]) = some w' := by
  rw [Transition.run_append, h]
  simpa using hevent

/-- The heartbeat thread goes on without a new task. -/
theorem Accounted.setHeartbeat (h : p.Accounted lost) {point : HeartbeatPoint}
    (hpending : point.pending = p.heartbeat.pending) (hleft : p.heartbeat ≠ .left) :
    Accounted { p with heartbeat := point } lost where
  inOrder := by simpa only [hpending] using h.inOrder
  serves := h.serves
  balance := by simpa only [hpending] using h.balance
  idle := h.idle
  heartbeatLeft hserving hjoining := absurd (h.heartbeatLeft hserving hjoining) hleft
  workerLeft := h.workerLeft
  emptied := h.emptied

/-- A delivery stays pending until PushTask has the mutex. -/
theorem Accounted.deliver (h : p.Accounted lost) (hcalling : p.heartbeat = .calling)
    (task : TaskDesc) :
    Accounted { p with heartbeat := .pushing task, log := p.log ++ [.delivered task] } lost := by
  have hpending : p.heartbeat.pending = [] := by rw [hcalling]; rfl
  obtain ⟨stopped, hrun, hstopped⟩ := h.serves
  refine ⟨?_, ⟨stopped, run_append_event hrun rfl, hstopped⟩, fun id => ?_, h.idle,
    fun hserving hjoining => ?_, h.workerLeft, h.emptied⟩
  · have hinOrder := h.inOrder
    simp only [hpending, List.append_nil] at hinOrder
    simpa [starts, deliveries] using
      hinOrder.append (List.Sublist.refl [task])
  · have hbalance := h.balance id
    simp only [hpending, List.append_nil] at hbalance
    simp only [deliveries, results, HeartbeatPoint.pending_pushing, List.filterMap_append,
      List.filterMap_cons, List.filterMap_nil, List.map_append, List.map_cons, List.map_nil,
      List.count_append, List.append_nil] at hbalance ⊢
    omega
  · have hleft := h.heartbeatLeft hserving hjoining
    rw [hcalling] at hleft
    cases hleft

theorem Accounted.push (h : p.Accounted lost) {task : TaskDesc}
    (hpushing : p.heartbeat = .pushing task)
    (hroom : p.agent.queue.length < Agent.maxTaskQueueSize) :
    Accounted { p with heartbeat := .top, agent := p.agent.pushTask task } lost := by
  have hpending : p.heartbeat.pending = [task] := by rw [hpushing]; rfl
  have hqueue : p.agent.pushTask task = { p.agent with queue := p.agent.queue ++ [task] } :=
    if_neg (by omega)
  have hleft : p.heartbeat ≠ .left := by rw [hpushing]; simp
  rw [hqueue]
  exact { inOrder := by simpa [hpending] using h.inOrder
          serves := h.serves
          balance := by simpa [hpending] using h.balance
          idle := h.idle
          heartbeatLeft := fun hserving hjoining => absurd (h.heartbeatLeft hserving hjoining) hleft
          workerLeft := h.workerLeft
          emptied := fun hmain => by
            have hleft' := h.heartbeatLeft (by rw [hmain]; simp) (by rw [hmain]; simp)
            exact absurd hleft' hleft }

/-- A task that finds the queue full is lost. -/
theorem Accounted.drop (h : p.Accounted lost) {task : TaskDesc}
    (hpushing : p.heartbeat = .pushing task)
    (hfull : Agent.maxTaskQueueSize ≤ p.agent.queue.length) :
    Accounted { p with heartbeat := .top, agent := p.agent.pushTask task }
      (task.taskId :: lost) := by
  have hpending : p.heartbeat.pending = [task] := by rw [hpushing]; rfl
  have hqueue : p.agent.pushTask task = p.agent := if_pos hfull
  have hleft : p.heartbeat ≠ .left := by rw [hpushing]; simp
  rw [hqueue]
  refine ⟨?_, h.serves, fun id => ?_, h.idle, fun hserving hjoining => ?_, h.workerLeft, h.emptied⟩
  · have hinOrder := h.inOrder
    rw [hpending] at hinOrder
    simp only [HeartbeatPoint.pending_top, List.append_nil]
    exact ((List.sublist_append_left _ _).append_left _).trans hinOrder
  · have hbalance := h.balance id
    rw [hpending] at hbalance
    simp only [HeartbeatPoint.pending_top, List.map_append, List.map_cons, List.map_nil,
      List.count_append, List.append_nil, List.count_cons, List.count_nil] at hbalance ⊢
    omega
  · exact absurd (h.heartbeatLeft hserving hjoining) hleft

theorem Accounted.stepHeartbeat (h : p.Accounted lost) (hs : p.stepHeartbeat action = some q) :
    ∃ lost', q.Accounted lost' ∧ (lost' = [] ↔ lost = [] ∧ FindsRoom p action) := by
  cases action with
  | beat =>
      simp only [DropAgent.stepHeartbeat, Option.ite_none_right_eq_some, Option.some.injEq] at hs
      obtain ⟨htop, rfl⟩ := hs
      refine ⟨lost, h.setHeartbeat ?_ (by simp [htop]), by simp [FindsRoom]⟩
      rw [htop]
      split <;> rfl
  | answer task =>
      cases task with
      | none =>
          simp only [DropAgent.stepHeartbeat, Option.ite_none_right_eq_some,
            Option.some.injEq] at hs
          obtain ⟨hcalling, rfl⟩ := hs
          exact ⟨lost, h.setHeartbeat (by rw [hcalling]; rfl) (by simp [hcalling]),
            by simp [FindsRoom]⟩
      | some task =>
          simp only [DropAgent.stepHeartbeat, Option.ite_none_right_eq_some,
            Option.some.injEq] at hs
          obtain ⟨hcalling, rfl⟩ := hs
          exact ⟨lost, h.deliver hcalling task, by simp [FindsRoom]⟩
  | push =>
      cases hpushing : p.heartbeat <;>
        simp only [DropAgent.stepHeartbeat, hpushing, Option.ite_none_left_eq_some,
          Option.some.injEq, reduceCtorEq] at hs
      obtain ⟨-, rfl⟩ := hs
      by_cases hroom : p.agent.queue.length < Agent.maxTaskQueueSize
      · exact ⟨lost, h.push hpushing hroom, by simp [FindsRoom, hroom]⟩
      · exact ⟨_, h.drop hpushing (Nat.le_of_not_gt hroom), by simp [FindsRoom, hroom]⟩
  | _ => cases hs

theorem Accounted.setWorker (h : p.Accounted lost) (hidle : p.worker ≠ .executing)
    (hleft : p.worker ≠ .left) (point : WorkerPoint) :
    Accounted { p with worker := point } lost where
  inOrder := h.inOrder
  serves := h.serves
  balance := h.balance
  idle _ := h.idle hidle
  heartbeatLeft := h.heartbeatLeft
  workerLeft hmain := absurd (h.workerLeft hmain) hleft
  emptied := h.emptied

theorem Accounted.observe (h : p.Accounted lost) (hstop : p.agent.running = false) :
    Accounted { p with log := p.log ++ [.observedStop] } lost := by
  obtain ⟨stopped, hrun, -⟩ := h.serves
  refine ⟨?_, ⟨true, run_append_event hrun rfl, fun _ => hstop⟩, ?_, h.idle, h.heartbeatLeft,
    h.workerLeft, h.emptied⟩
  · simpa [starts, deliveries] using h.inOrder
  · simpa [results, deliveries] using h.balance

/-- The first task of the queue starts; the worker has none and has not seen the stop. -/
theorem Accounted.start (h : p.Accounted lost) (hholding : p.worker = .holding)
    (hrunning : p.agent.running = true) {task : TaskDesc} {rest : List TaskDesc}
    (hqueue : p.agent.queue = task :: rest) :
    Accounted { p with
      agent := { p.agent with queue := rest, worker := .started task }
      worker := .executing
      log := p.log ++ [.started task] } lost := by
  have hidle : p.agent.worker.taskId? = none := h.idle (by simp [hholding])
  have hleft : p.worker ≠ .left := by simp [hholding]
  obtain ⟨stopped, hrun, hstopped⟩ := h.serves
  have hgoing : stopped = false := by
    cases stopped with
    | false => rfl
    | true => simp [hstopped rfl] at hrunning
  refine ⟨?_, ⟨stopped, run_append_event hrun ?_, ?_⟩, fun id => ?_, fun hworker => ?_,
    h.heartbeatLeft, fun hmain => absurd (h.workerLeft hmain) hleft, fun hmain => ?_⟩
  · simpa [starts, deliveries, hqueue] using h.inOrder
  · simp [SoleWorker.step, hidle, hgoing]
  · simp [hgoing]
  · have hbalance := h.balance id
    simp only [hidle, hqueue, deliveries, results, Worker.taskId?_started, List.filterMap_append,
      List.filterMap_cons, List.filterMap_nil, List.cons_append, List.map_cons, List.count_cons,
      List.append_nil, Option.toList_none, Option.toList_some, List.count_nil] at hbalance ⊢
    omega
  · simp at hworker
  · simpa [hqueue] using h.emptied hmain

/-- The worker goes on with its task. -/
theorem Accounted.execute (h : p.Accounted lost) (hexecuting : p.worker = .executing)
    {agent : Agent} (hqueue : agent.queue = p.agent.queue)
    (hrunning : agent.running = p.agent.running)
    (htask : agent.worker.taskId? = p.agent.worker.taskId?) :
    Accounted { p with agent } lost where
  inOrder := by simpa only [hqueue] using h.inOrder
  serves := by simpa only [hrunning, htask] using h.serves
  balance := by simpa only [hqueue, htask] using h.balance
  idle hworker := absurd hexecuting hworker
  heartbeatLeft := h.heartbeatLeft
  workerLeft := h.workerLeft
  emptied hmain := hqueue.trans (h.emptied hmain)

theorem Accounted.report (h : p.Accounted lost) (hexecuting : p.worker = .executing)
    {result : TaskResult} (hfinished : p.agent.worker = .finished result) :
    Accounted { p with
      agent := { p.agent with worker := .waiting }
      worker := .top
      log := p.log ++ [.reported result] } lost := by
  have htask : p.agent.worker.taskId? = some result.taskId := by rw [hfinished]; rfl
  have hleft : p.worker ≠ .left := by simp [hexecuting]
  obtain ⟨stopped, hrun, hstopped⟩ := h.serves
  refine ⟨?_, ⟨stopped, run_append_event hrun ?_, hstopped⟩, fun id => ?_, fun _ => rfl,
    h.heartbeatLeft, fun hmain => absurd (h.workerLeft hmain) hleft, h.emptied⟩
  · simpa [starts, deliveries] using h.inOrder
  · simp [SoleWorker.step, htask]
  · have hbalance := h.balance id
    simp only [htask, deliveries, results, Worker.taskId?_waiting, List.filterMap_append,
      List.filterMap_cons, List.filterMap_nil, List.map_append, List.map_cons, List.map_nil,
      List.count_append, List.append_nil, Option.toList_none, Option.toList_some,
      List.count_nil] at hbalance ⊢
    omega

theorem Accounted.stepWorker (h : p.Accounted lost) (hs : p.stepWorker action = some q) :
    q.Accounted lost := by
  cases action with
  | loop =>
      simp only [DropAgent.stepWorker, Option.ite_none_right_eq_some] at hs
      obtain ⟨htop, hs⟩ := hs
      split at hs
      · obtain rfl := Option.some.inj hs
        exact h.setWorker (by simp [htop]) (by simp [htop]) _
      · next hstop =>
          obtain rfl := Option.some.inj hs
          exact (h.observe (by simpa using hstop)).setWorker (by simp [htop]) (by simp [htop]) _
  | wake =>
      simp only [DropAgent.stepWorker, Option.ite_none_right_eq_some] at hs
      obtain ⟨hwaiting, hs⟩ := hs
      split at hs
      · obtain rfl := Option.some.inj hs
        exact h.setWorker (by simp [hwaiting]) (by simp [hwaiting]) _
      · split at hs
        · cases hs
        · next hstop =>
            obtain rfl := Option.some.inj hs
            exact (h.observe (by simpa using hstop)).setWorker (by simp [hwaiting])
              (by simp [hwaiting]) _
  | take =>
      simp only [DropAgent.stepWorker, Option.ite_none_right_eq_some] at hs
      obtain ⟨hholding, hs⟩ := hs
      split at hs
      · next hrunning =>
          simp only [Option.bind_eq_bind, Option.bind_eq_some_iff] at hs
          obtain ⟨task, hhead, ⟨agent, reports⟩, hstep, hs⟩ := hs
          obtain rfl := Option.some.inj hs
          obtain ⟨rest, hqueue, -, rfl⟩ := Agent.step_take hstep hhead
          exact h.start hholding hrunning hqueue
      · next hstop =>
          obtain rfl := Option.some.inj hs
          exact (h.observe (by simpa using hstop)).setWorker (by simp [hholding])
            (by simp [hholding]) _
  | work action =>
      simp only [DropAgent.stepWorker, Option.ite_none_right_eq_some, Option.bind_eq_bind,
        Option.bind_eq_some_iff] at hs
      obtain ⟨⟨hexecuting, hexecutes⟩, ⟨agent, reports⟩, hstep, hs⟩ := hs
      obtain rfl := Option.some.inj hs
      obtain ⟨hqueue, hrunning, htask⟩ := Agent.step_executes hexecutes hstep
      exact h.execute hexecuting hqueue hrunning htask
  | report copies =>
      simp only [DropAgent.stepWorker] at hs
      split at hs
      · next result hexecuting hfinished =>
          simp only [Option.bind_eq_bind, Option.bind_eq_some_iff] at hs
          obtain ⟨⟨agent, reports⟩, hstep, hs⟩ := hs
          obtain rfl := Option.some.inj hs
          obtain rfl := Agent.step_reportResult hfinished hstep
          exact h.report hexecuting hfinished
      · cases hs
  | _ => cases hs

theorem Accounted.signal (h : p.Accounted lost) :
    Accounted { p with agent := { p.agent with running := false } } lost := by
  obtain ⟨stopped, hrun, -⟩ := h.serves
  exact ⟨h.inOrder, ⟨stopped, hrun, fun _ => rfl⟩, h.balance, h.idle, h.heartbeatLeft,
    h.workerLeft, h.emptied⟩

/-- The main thread reports the first task of the queue as a failure. -/
theorem Accounted.cancel (h : p.Accounted lost) (hdraining : p.main = .draining)
    {task : TaskDesc} {rest : List TaskDesc} (hqueue : p.agent.queue = task :: rest) :
    Accounted { p with
      agent := { p.agent with queue := rest }
      log := p.log ++ [.cancelled (shutdownResult task)] } lost := by
  have hleft : p.worker = .left := h.workerLeft (.inl hdraining)
  have hidle : p.agent.worker.taskId? = none := h.idle (by simp [hleft])
  obtain ⟨stopped, hrun, hstopped⟩ := h.serves
  refine ⟨?_, ⟨stopped, run_append_event hrun ?_, hstopped⟩, fun id => ?_, h.idle,
    h.heartbeatLeft, h.workerLeft, fun hmain => ?_⟩
  · have hinOrder := h.inOrder
    rw [hqueue] at hinOrder
    have htail : (rest ++ p.heartbeat.pending).Sublist (task :: rest ++ p.heartbeat.pending) :=
      List.sublist_cons_self _ _
    simpa [starts, deliveries] using (htail.append_left _).trans hinOrder
  · simp [SoleWorker.step, hidle, shutdownResult]
  · have hbalance := h.balance id
    simp only [hqueue, deliveries, results, shutdownResult, List.filterMap_append,
      List.filterMap_cons, List.filterMap_nil, List.map_append, List.map_cons, List.map_nil,
      List.count_append, List.append_nil, List.count_cons, List.count_nil] at hbalance ⊢
    omega
  · rw [hdraining] at hmain
    cases hmain

theorem Accounted.stepMain (h : p.Accounted lost) (hs : p.stepMain action = some q) :
    q.Accounted lost := by
  cases action with
  | signal =>
      simp only [DropAgent.stepMain, Option.bind_eq_bind, Option.bind_eq_some_iff] at hs
      obtain ⟨⟨agent, reports⟩, hstep, hs⟩ := hs
      obtain rfl := Option.some.inj hs
      obtain rfl := Agent.step_stop hstep
      exact h.signal
  | main =>
      simp only [DropAgent.stepMain] at hs
      split at hs
      · next hserving =>
          simp only [Option.ite_none_left_eq_some, Option.some.injEq] at hs
          obtain ⟨-, rfl⟩ := hs
          exact { h with
            heartbeatLeft := by simp
            workerLeft := by simp
            emptied := by simp }
      · next hjoining =>
          simp only [Option.ite_none_right_eq_some, Option.some.injEq] at hs
          obtain ⟨hleft, rfl⟩ := hs
          exact { h with
            heartbeatLeft := fun _ _ => hleft
            workerLeft := by simp
            emptied := by simp }
      · next hjoining =>
          simp only [Option.ite_none_right_eq_some, Option.some.injEq] at hs
          obtain ⟨hleft, rfl⟩ := hs
          exact { h with
            heartbeatLeft := fun _ _ => h.heartbeatLeft (by simp [hjoining]) (by simp [hjoining])
            workerLeft := fun _ => hleft
            emptied := by simp }
      · next hdraining =>
          simp only [Option.ite_none_right_eq_some, Option.some.injEq] at hs
          obtain ⟨hempty, rfl⟩ := hs
          exact { h with
            heartbeatLeft := fun _ _ => h.heartbeatLeft (by simp [hdraining]) (by simp [hdraining])
            workerLeft := fun _ => h.workerLeft (.inl hdraining)
            emptied := fun _ => hempty }
      · cases hs
  | cancel copies =>
      simp only [DropAgent.stepMain, Option.ite_none_right_eq_some, Option.bind_eq_bind,
        Option.bind_eq_some_iff] at hs
      obtain ⟨hdraining, task, hhead, ⟨agent, reports⟩, hstep, hs⟩ := hs
      obtain rfl := Option.some.inj hs
      obtain ⟨rest, hqueue, -, rfl⟩ := Agent.step_cancel hstep hhead
      exact h.cancel hdraining hqueue
  | _ => cases hs

/-! ## Runs -/

/-- Only the heartbeat thread pushes. -/
theorem step_cases (hs : p.step action = some q) :
    p.stepHeartbeat action = some q ∨
      action ≠ .push ∧ (p.stepWorker action = some q ∨ p.stepMain action = some q) := by
  cases action with
  | beat | answer _ | push => exact .inl hs
  | loop | wake | take | work _ | report _ => exact .inr ⟨by simp, .inl hs⟩
  | signal | main | cancel _ => exact .inr ⟨by simp, .inr hs⟩

theorem Accounted.step (h : p.Accounted lost) (hs : p.step action = some q) :
    ∃ lost', q.Accounted lost' ∧ (lost' = [] ↔ lost = [] ∧ FindsRoom p action) := by
  rcases step_cases hs with hs | ⟨hpush, hs⟩
  · exact h.stepHeartbeat hs
  · refine ⟨lost, ?_, by simp [FindsRoom, hpush]⟩
    rcases hs with hs | hs
    · exact h.stepWorker hs
    · exact h.stepMain hs

/-- The deliveries that a run loses are those that find the queue full. -/
theorem Accounted.run (h : p.Accounted lost) {actions : List DropAgentAction}
    (hrun : Transition.run DropAgent.step p actions = some q) :
    ∃ lost', q.Accounted lost' ∧
      (lost' = [] ↔ lost = [] ∧ Transition.Along DropAgent.step FindsRoom p actions) := by
  induction actions generalizing p lost with
  | nil =>
      obtain rfl : p = q := by simpa using hrun
      exact ⟨lost, h, by simp [Transition.Along]⟩
  | cons action actions ih =>
      rw [Transition.run_cons, Option.bind_eq_some_iff] at hrun
      obtain ⟨next, hs, hrun⟩ := hrun
      obtain ⟨lost', hnext, hiff⟩ := h.step hs
      obtain ⟨lost'', hq, hiff'⟩ := ih hnext hrun
      refine ⟨lost'', hq, ?_⟩
      simp [hiff', hiff, Transition.Along, hs, and_assoc]

/-- A process settles its deliveries unless it shuts down with some of them lost. -/
theorem Accounted.settles_iff_lost (h : p.Accounted lost) :
    p.Settles ↔ (p.main = .stopped → lost = []) := by
  have hinOrder := (List.sublist_append_left _ _).trans h.inOrder
  have hserves : (Transition.run SoleWorker.step {} p.log).isSome := by
    obtain ⟨stopped, hrun, -⟩ := h.serves
    simp [hrun]
  -- once everything has been joined, a delivery is settled or lost
  have hbalance : p.main = .stopped → ∀ id,
      ((deliveries p.log).map TaskDesc.taskId).count id =
        ((results p.log).map TaskResult.taskId).count id + lost.count id := by
    intro hstopped id
    have hleft := h.workerLeft (.inr hstopped)
    have hidle := h.idle (by simp [hleft])
    have hheartbeat := h.heartbeatLeft (by simp [hstopped]) (by simp [hstopped])
    have hpending : p.heartbeat.pending = [] := by rw [hheartbeat]; rfl
    simpa [hidle, hpending, h.emptied hstopped] using h.balance id
  constructor
  · intro hsettles hstopped
    refine List.eq_nil_iff_forall_not_mem.mpr fun id hid => ?_
    have hcount := (hsettles.once hstopped).count_eq id
    have hpos := List.count_pos_iff.mpr hid
    have := hbalance hstopped id
    omega
  · intro hlost
    refine ⟨hinOrder, hserves, fun hstopped => List.perm_iff_count.mpr fun id => ?_⟩
    have := hbalance hstopped id
    simp only [hlost hstopped, List.count_nil] at this
    omega

/-- In every run, the agent settles the deliveries as long as none of them finds the queue
full. -/
theorem settles_iff {actions : List DropAgentAction}
    (hrun : Transition.run DropAgent.step {} actions = some p) :
    p.Settles ↔ (p.main = .stopped → Transition.Along DropAgent.step FindsRoom {} actions) := by
  obtain ⟨lost, h, hiff⟩ := accounted_start.run hrun
  rw [h.settles_iff_lost, hiff]
  simp

/-- The heartbeat thread brings a task. -/
def bring (taskId : String) : List DropAgentAction := [.beat, .answer (some { taskId }), .push]

/-- All threads end, with `rest` tasks left in the queue. -/
def shutDown (rest : ℕ) : List DropAgentAction :=
  [.signal, .beat, .wake, .take, .main, .main, .main] ++
    List.replicate rest (.cancel 1) ++ [.main]

/-- The worker executes the first of two tasks before the signal arrives. -/
def twoTasks : List DropAgentAction :=
  .loop :: bring "a" ++ [.wake, .take] ++ bring "b" ++
    [.work (.reportRunning 1), .work (.record 1), .report 1, .loop] ++ shutDown 1

theorem settles_twoTasks : (Transition.after DropAgent.step {} twoTasks).Settles := by
  have hsome : (Transition.run DropAgent.step {} twoTasks).isSome := by decide +kernel
  obtain ⟨p, hrun⟩ := Option.isSome_iff_exists.mp hsome
  have hafter : Transition.after DropAgent.step {} twoTasks = p := by simp [Transition.after, hrun]
  rw [hafter]
  exact (settles_iff hrun).mpr fun _ => by decide +kernel

/-- One task more than the queue holds arrives while the worker is about to wait. -/
def tooManyTasks : List DropAgentAction :=
  .loop :: (List.replicate 101 (bring "a")).flatten ++ shutDown 100

theorem not_settles : ¬∀ actions p, Transition.run DropAgent.step {} actions = some p →
    p.Settles := by
  intro h
  have hsome : (Transition.run DropAgent.step {} tooManyTasks).isSome := by decide +kernel
  obtain ⟨p, hrun⟩ := Option.isSome_iff_exists.mp hsome
  have hafter : Transition.after DropAgent.step {} tooManyTasks = p := by
    simp [Transition.after, hrun]
  have hcounts : (Transition.after DropAgent.step {} tooManyTasks).main = .stopped ∧
      (results (Transition.after DropAgent.step {} tooManyTasks).log).length = 100 ∧
      (deliveries (Transition.after DropAgent.step {} tooManyTasks).log).length = 101 := by
    decide +kernel
  rw [hafter] at hcounts
  obtain ⟨hstopped, hresults, hdeliveries⟩ := hcounts
  have hlength := ((h tooManyTasks p hrun).once hstopped).length_eq
  simp only [List.length_map, hresults, hdeliveries] at hlength
  omega

end DropAgent

end MiniDrop
