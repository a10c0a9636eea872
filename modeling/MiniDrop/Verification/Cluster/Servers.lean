import MiniDrop.Library.Runs
import MiniDrop.Model.Failover

/-! # The server that a report goes to

The heartbeat channel may leave a server while its tasks are on the agent, and bring tasks of
another. -/

namespace MiniDrop.AgentProcess

/-- In all runs whose steps satisfy `ok`, every report goes to the server that brought its task. -/
def ReportsBack (ok : AgentProcess → ProcessEvent → Prop) : Prop :=
  ∀ serverAddrs connects p₀ p, start serverAddrs connects = some p₀ →
    Transition.Reachable step ok p₀ p → ∀ entry ∈ p.sent, entry.2.1 = entry.1

/-- The agent accepts tasks only from the server that it connected to at its start. -/
def AcceptsFromStart (p : AgentProcess) : ProcessEvent → Prop
  | .heartbeat (.answered (some _)) =>
    p.agent.queue.length < Agent.maxTaskQueueSize → p.health.serverAddr = p.serverAddr
  | _ => True

instance (p : AgentProcess) (e : ProcessEvent) : Decidable (p.AcceptsFromStart e) := by
  unfold AcceptsFromStart
  split <;> infer_instance

/-- All tasks on the agent come from the server that gets the reports. -/
structure Loyal (p : AgentProcess) : Prop where
  length : p.origins.length = p.agent.queue.length
  origins : ∀ origin ∈ p.origins, origin = p.serverAddr
  taken : p.agent.worker ≠ .waiting → p.taken = p.serverAddr
  sent : ∀ entry ∈ p.sent, entry.2.1 = entry.1

variable {p q : AgentProcess}

theorem loyal_of_start {serverAddrs : List String} {connects : ℕ → Bool}
    (h : start serverAddrs connects = some p) (sent : List (String × String × Report))
    (hsent : ∀ entry ∈ sent, entry.2.1 = entry.1) : Loyal { p with sent } := by
  obtain ⟨serverAddr, -, rfl⟩ := Option.map_eq_some_iff.mp h
  exact ⟨rfl, by simp, fun h => absurd rfl h, hsent⟩

/-- A server that the channel leaves or finds changes nothing about the tasks. -/
theorem Loyal.withHealth (h : p.Loyal) (health : HealthCheckChannel) :
    Loyal { p with health } :=
  ⟨h.length, h.origins, h.taken, h.sent⟩

theorem Loyal.pushTask (h : p.Loyal) (task : TaskDesc)
    (haccepts : p.agent.queue.length < Agent.maxTaskQueueSize →
      p.health.serverAddr = p.serverAddr) : (p.pushTask task).Loyal := by
  unfold AgentProcess.pushTask Agent.pushTask
  by_cases hfull : p.agent.queue.length ≥ Agent.maxTaskQueueSize
  · rw [if_pos hfull, if_pos hfull]
    exact ⟨h.length, h.origins, h.taken, h.sent⟩
  · rw [if_neg hfull, if_neg hfull]
    refine ⟨by simp [h.length], fun origin hmem => ?_, h.taken, h.sent⟩
    rcases List.mem_append.mp hmem with hmem | hmem
    · exact h.origins origin hmem
    · rw [List.mem_singleton.mp hmem]
      exact haccepts (by omega)

/-- The first task of the queue leaves it. -/
theorem Loyal.leave (h : p.Loyal) {task : TaskDesc} {rest : List TaskDesc}
    (hqueue : p.agent.queue = task :: rest) :
    p.origins.headD "" = p.serverAddr ∧ p.origins.tail.length = rest.length ∧
      ∀ origin ∈ p.origins.tail, origin = p.serverAddr := by
  have hlength := h.length
  cases horigins : p.origins with
  | nil => simp [horigins, hqueue] at hlength
  | cons first origins =>
      refine ⟨h.origins first (by simp [horigins]), ?_, fun origin hmem =>
        h.origins origin (by rw [horigins]; exact List.mem_cons_of_mem _ hmem)⟩
      simpa [horigins, hqueue] using hlength

/-- Reports for a server's own tasks go to it. -/
theorem Loyal.sent_append (h : p.Loyal) {origin : String} (horigin : origin = p.serverAddr)
    (reports : List Report) :
    ∀ entry ∈ p.sent ++ reports.map fun report => (origin, p.serverAddr, report),
      entry.2.1 = entry.1 := by
  intro entry hmem
  rcases List.mem_append.mp hmem with hmem | hmem
  · exact h.sent entry hmem
  · obtain ⟨report, -, rfl⟩ := List.mem_map.mp hmem
    exact horigin.symm

/-- Other steps leave the queue alone, and report only about the task at the worker. -/
theorem keeps_queue {a a' : Agent} {action : AgentAction} {reports : List Report}
    (h : a.step action = some (a', reports)) (htake : action ≠ .take)
    (hcancel : ∀ copies, action ≠ .cancel copies) (hcrash : action ≠ .crash) :
    a'.queue = a.queue ∧ (a.worker = .waiting → reports = [] ∧ a'.worker = .waiting) := by
  obtain ⟨queue, worker, running⟩ := a
  cases action with
  | take => exact absurd rfl htake
  | cancel copies => exact absurd rfl (hcancel copies)
  | crash => exact absurd rfl hcrash
  | stop =>
      simp only [Agent.step, Option.some.injEq, Prod.mk.injEq] at h
      obtain ⟨rfl, rfl⟩ := h
      exact ⟨rfl, fun hwaiting => ⟨rfl, hwaiting⟩⟩
  | record ret =>
      cases worker <;> simp only [Agent.step, Option.some.injEq, Prod.mk.injEq, reduceCtorEq] at h
      obtain ⟨rfl, rfl⟩ := h
      exact ⟨rfl, fun hwaiting => by cases hwaiting⟩
  | upload postProcessed reply =>
      cases worker <;> simp only [Agent.step, Option.some.injEq, Prod.mk.injEq, reduceCtorEq] at h
      obtain ⟨rfl, rfl⟩ := h
      exact ⟨rfl, fun hwaiting => by cases hwaiting⟩
  | reportRunning copies | reportUploading copies | reportResult copies =>
      cases worker <;> simp only [Agent.step, Option.map_eq_some_iff, Prod.mk.injEq,
        reduceCtorEq] at h
      obtain ⟨-, -, rfl, rfl⟩ := h
      exact ⟨rfl, fun hwaiting => by cases hwaiting⟩

theorem Loyal.work (h : p.Loyal) {action : AgentAction} (hcrash : action ≠ .crash)
    (hs : p.work action = some q) : q.Loyal := by
  obtain ⟨⟨agent, reports⟩, hstep, hq⟩ := Option.map_eq_some_iff.mp hs
  have hkeeps := keeps_queue hstep
  cases action with
  | take =>
      subst hq
      cases hworker : p.agent.worker <;> cases hqueue : p.agent.queue <;>
        simp only [Agent.step, hworker, hqueue, Option.ite_none_right_eq_some, Option.some.injEq,
          Prod.mk.injEq, reduceCtorEq] at hstep
      obtain ⟨-, rfl, rfl⟩ := hstep
      obtain ⟨hfirst, hlength, horigins⟩ := h.leave hqueue
      exact ⟨hlength, horigins, fun _ => hfirst, h.sent⟩
  | cancel copies =>
      subst hq
      cases hworker : p.agent.worker <;> cases hqueue : p.agent.queue <;>
        simp only [Agent.step, hworker, hqueue, Option.ite_none_left_eq_some,
          Option.map_eq_some_iff, Prod.mk.injEq, reduceCtorEq] at hstep
      obtain ⟨-, -, -, rfl, rfl⟩ := hstep
      obtain ⟨hfirst, hlength, horigins⟩ := h.leave hqueue
      exact ⟨hlength, horigins, fun hne => (hne rfl).elim, h.sent_append hfirst _⟩
  | crash => exact absurd rfl hcrash
  | stop | record | upload | reportRunning | reportUploading | reportResult =>
      subst hq
      obtain ⟨hqueue, hwaiting⟩ := hkeeps (by simp) (by simp) (by simp)
      refine ⟨hqueue ▸ h.length, h.origins, fun hne => h.taken fun hidle =>
        hne (hwaiting hidle).2, ?_⟩
      by_cases hidle : p.agent.worker = .waiting
      · rw [(hwaiting hidle).1]
        simpa using h.sent
      · exact h.sent_append (h.taken hidle) reports

theorem Loyal.step (h : p.Loyal) {e : ProcessEvent} (haccepts : p.AcceptsFromStart e)
    (hs : p.step e = some q) : q.Loyal := by
  cases e with
  | heartbeat reply =>
      obtain rfl := Option.some.inj hs
      cases reply with
      | answered task =>
          cases task with
          | none => exact h.withHealth _
          | some task => exact (h.pushTask task haccepts).withHealth _
      | failed connects => exact h.withHealth _
  | worker action =>
      simp only [AgentProcess.step, Option.ite_none_left_eq_some] at hs
      exact h.work hs.1 hs.2
  | restart connects =>
      obtain ⟨fresh, hstart, rfl⟩ := Option.map_eq_some_iff.mp hs
      exact loyal_of_start hstart p.sent h.sent

/-- Reports go back where the agent accepts tasks only from the server of its start. -/
theorem reportsBack_of_acceptsFromStart {ok : AgentProcess → ProcessEvent → Prop}
    (h : ∀ p e, ok p e → p.AcceptsFromStart e) : ReportsBack ok := by
  intro serverAddrs connects p₀ p hstart hreach
  have hloyal : p.Loyal := by
    refine hreach.invariant ?_ fun p e q hp hok hs => hp.step (h p e hok) hs
    refine loyal_of_start hstart p₀.sent ?_
    obtain ⟨serverAddr, -, rfl⟩ := Option.map_eq_some_iff.mp hstart
    simp
  exact hloyal.sent

/-- The process on two servers, of which it reaches the first. -/
def startedProcess : AgentProcess :=
  { health := { serverAddr := "s1", serverAddrs := ["s1", "s2"] }, serverAddr := "s1" }

/-- The channel goes to the other server and back before it brings a task. -/
def thereAndBack : List ProcessEvent :=
  List.replicate 3 (.heartbeat (.failed fun _ => true)) ++
    List.replicate 3 (.heartbeat (.failed fun _ => true)) ++
      [.heartbeat (.answered (some { taskId := "t" })), .worker .take, .worker (.reportRunning 1)]

theorem reportsBack_thereAndBack :
    (Transition.after step startedProcess thereAndBack).sent.length = 1 ∧
      ∀ entry ∈ (Transition.after step startedProcess thereAndBack).sent, entry.2.1 = entry.1 := by
  have hrun : Transition.Along step AcceptsFromStart startedProcess thereAndBack ∧
      (Transition.run step startedProcess thereAndBack).isSome ∧
      (Transition.after step startedProcess thereAndBack).sent.length = 1 := by
    decide +kernel
  obtain ⟨halong, hsome, hlength⟩ := hrun
  exact ⟨hlength, reportsBack_of_acceptsFromStart (fun _ _ h => h) ["s1", "s2"] (fun _ => true)
    startedProcess _ rfl (halong.reachable hsome)⟩

/-- The channel brings a task of the server that it went to. -/
def failedOver : List ProcessEvent :=
  List.replicate 3 (.heartbeat (.failed fun _ => true)) ++
    [.heartbeat (.answered (some { taskId := "t" })), .worker .take, .worker (.reportRunning 1)]

/-- The first server gets the report. -/
theorem not_reportsBack : ¬ ReportsBack fun _ _ => True := by
  intro h
  have hrun : Transition.Along step (fun _ _ => True) startedProcess failedOver ∧
      (Transition.run step startedProcess failedOver).isSome ∧
      (Transition.after step startedProcess failedOver).sent.map (fun entry =>
        (entry.1, entry.2.1)) = [("s2", "s1")] := by
    decide +kernel
  obtain ⟨halong, hsome, hsent⟩ := hrun
  have hback := h ["s1", "s2"] (fun _ => true) startedProcess _ rfl (halong.reachable hsome)
  have hsame : ∀ pair ∈ (Transition.after step startedProcess failedOver).sent.map (fun entry =>
      (entry.1, entry.2.1)), pair.2 = pair.1 := by
    intro pair hmem
    obtain ⟨entry, hentry, rfl⟩ := List.mem_map.mp hmem
    exact hback entry hentry
  rw [hsent] at hsame
  exact absurd (hsame _ (List.mem_singleton_self _)) (by decide)

end MiniDrop.AgentProcess
