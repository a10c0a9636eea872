import MiniDrop.Library.Tokens
import MiniDrop.Verification.Cluster.Agents

/-! # What can become of a task

A task that drop_server queued once is at one place at a time until an agent has a result for it.
Its fate says where it is, or that a successful result exists, or that there can be none. -/

namespace MiniDrop

inductive Location where
  | queue (ip : String)
  | wire
  | agent (ip : String)
deriving DecidableEq

inductive Fate where
  | underway (location : Location)
  /-- The agent has a successful result and has not reported it. -/
  | finishing (ip : String)
  /-- A successful result was reported. -/
  | sent
  /-- There is no successful result and there can be none. -/
  | hopeless
deriving DecidableEq

/-- The place is not a queue of drop_server. -/
def Location.outside : Location → Bool
  | .queue _ => false
  | _ => true

def Fate.location? : Fate → Option Location
  | .underway location => some location
  | _ => none

/-- The task that a message brings to an agent. -/
def Message.task? : Message → Option TaskDesc
  | .dispatch _ task => some task
  | .report _ => none

/-- How often the task is at each place. -/
def Cluster.copies (tid : String) (c : Cluster) : Location → ℕ
  | .queue ip => copiesIn tid (c.service.queue ip)
  | .wire => copiesIn tid (c.network.filterMap Message.task?)
  | .agent ip => copiesIn tid (c.agent ip).tasks

/-! ## Who still has the task -/

def Worker.result? : Worker → Option TaskResult
  | .finished r => some r
  | _ => none

/-- The agent has the task in its queue or at work, or has a successful result of it. -/
def Agent.Pursues (tid : String) (a : Agent) : Prop :=
  0 < copiesIn tid a.tasks ∨ ∃ r ∈ a.worker.result?, (Report.result r).Succeeds tid

/-- The message brings the task to an agent or a successful result of it to drop_server. -/
def Message.Pursues (tid : String) : Message → Prop
  | .dispatch _ task => task.taskId = tid
  | .report r => r.Succeeds tid

/-- An agent has the task, or it or a successful result is on the network. -/
def Cluster.Pursued (tid : String) (c : Cluster) : Prop :=
  (∃ entry ∈ c.agents.toList, entry.2.Pursues tid) ∨ ∃ message ∈ c.network, message.Pursues tid

instance (tid : String) (a : Agent) : Decidable (a.Pursues tid) :=
  inferInstanceAs (Decidable (_ ∨ _))

instance (tid : String) (message : Message) : Decidable (message.Pursues tid) := by
  cases message <;> simp only [Message.Pursues] <;> infer_instance

instance (tid : String) (c : Cluster) : Decidable (c.Pursued tid) :=
  inferInstanceAs (Decidable (_ ∨ _))

theorem Cluster.pursued_of_agent {tid : String} {c : Cluster} {ip : String}
    (h : (c.agent ip).Pursues tid) : c.Pursued tid := by
  cases hagent : c.agents[ip]? with
  | none =>
      have hidle : c.agent ip = {} := by simp [Cluster.agent, hagent]
      rw [hidle] at h
      rcases h with h | ⟨r, hr, _⟩
      · simp [Agent.tasks, Worker.task?] at h
      · simp [Worker.result?] at hr
  | some a =>
      have ha : c.agent ip = a := by simp [Cluster.agent, hagent]
      exact .inl ⟨(ip, a), Std.ExtTreeMap.mem_toList_iff_getElem?_eq_some.mpr hagent, ha ▸ h⟩

/-- A result stands where the fate says so, and a failure leaves no hope. -/
def Stands (fate expected : Fate) (r : TaskResult) : Prop :=
  if r.errorMessage = "" then fate = expected ∧ Agent.HasArtifact r else fate = .hopeless

/-- The cluster is in accordance with the fate of the task. -/
structure Fated (tid : String) (fate : Fate) (c : Cluster) : Prop where
  token : Tokens.At (c.copies tid) fate.location?
  worker : ∀ ip r, (c.agent ip).worker = .finished r → r.taskId = tid →
    Stands fate (.finishing ip) r
  network : ∀ r, .report (.result r) ∈ c.network → r.taskId = tid → Stands fate .sent r
  cached : ∀ r, c.service.results[tid]? = some r → Stands fate .sent r
  updates : ∀ update, .report (.status update) ∈ c.network → update.taskId = tid →
    update.status = 2 ∨ update.status = 3
  pending : c.service.statusOf tid = some .pending → ∃ ip, fate = .underway (.queue ip)
  failed : ∀ status ∈ c.service.statusOf tid, status = .failed ∨ status = .timeout →
    fate = .hopeless
  unsettled : fate = .sent → c.service.statusOf tid = some .dispatched →
    ∃ report, .report report ∈ c.network ∧ report.Succeeds tid
  finisher : ∀ ip, fate = .finishing ip →
    ∃ r, (c.agent ip).worker = .finished r ∧ (Report.result r).Succeeds tid
  arrived : c.arrived = true → fate = .sent

theorem Stands.of_success {fate expected : Fate} {r : TaskResult} (h : Stands fate expected r)
    (hr : r.errorMessage = "") : fate = expected ∧ Agent.HasArtifact r := by
  rwa [Stands, if_pos hr] at h

theorem Stands.of_error {fate expected : Fate} {r : TaskResult} (h : Stands fate expected r)
    (hr : r.errorMessage ≠ "") : fate = .hopeless := by
  rwa [Stands, if_neg hr] at h

theorem Stands.impossible {fate expected : Fate} {r : TaskResult} (h : Stands fate expected r)
    (hexpected : fate ≠ expected) (hhope : fate ≠ .hopeless) : False := by
  by_cases hr : r.errorMessage = ""
  · exact hexpected (h.of_success hr).1
  · exact hhope (h.of_error hr)

namespace Fated

variable {tid : String} {fate : Fate} {c c' : Cluster}

/-! ## Steps that keep the fate -/

theorem frame (h : Fated tid fate c) (hcopies : ∀ l, c'.copies tid l = c.copies tid l)
    (hworker : ∀ ip r, r.taskId = tid →
      ((c'.agent ip).worker = .finished r ↔ (c.agent ip).worker = .finished r))
    (hnetwork : ∀ r, r.taskId = tid →
      (.report (.result r) ∈ c'.network ↔ .report (.result r) ∈ c.network))
    (hupdates : ∀ update, .report (.status update) ∈ c'.network → update.taskId = tid →
      update.status = 2 ∨ update.status = 3)
    (hstatus : ∀ status ∈ c'.service.statusOf tid,
      status = .running ∨ status = .uploading ∨ c.service.statusOf tid = some status)
    (hcached : ∀ r, c'.service.results[tid]? = some r → c.service.results[tid]? = some r)
    (harrived : c'.arrived = c.arrived) : Fated tid fate c' where
  token := h.token.congr hcopies
  worker ip r hr hid := h.worker ip r ((hworker ip r hid).mp hr) hid
  network r hr hid := h.network r ((hnetwork r hid).mp hr) hid
  cached r hr := h.cached r (hcached r hr)
  updates := hupdates
  pending hpending := by
    rcases hstatus _ hpending with hold | hold | hold
    · cases hold
    · cases hold
    · exact h.pending hold
  failed status hcurrent hfailed := by
    rcases hstatus status hcurrent with rfl | rfl | hold
    · simp at hfailed
    · simp at hfailed
    · exact h.failed status hold hfailed
  unsettled hsent hdispatched := by
    rcases hstatus _ hdispatched with hold | hold | hold
    · cases hold
    · cases hold
    · obtain ⟨report, hreport, hsucceeds⟩ := h.unsettled hsent hold
      cases report with
      | status update => exact hsucceeds.elim
      | result r => exact ⟨.result r, (hnetwork r hsucceeds.1).mpr hreport, hsucceeds⟩
  finisher ip hfinishing := by
    obtain ⟨r, hr, hsucceeds⟩ := h.finisher ip hfinishing
    exact ⟨r, (hworker ip r hsucceeds.1).mpr hr, hsucceeds⟩
  arrived harrived' := h.arrived (harrived ▸ harrived')

/-- The last chance of a successful result is gone. -/
theorem abandon (h : Fated tid fate c) (hfate : fate ≠ .sent)
    (htoken : Tokens.At (c'.copies tid) none)
    (hworker : ∀ ip r, (c'.agent ip).worker = .finished r → r.taskId = tid → r.errorMessage ≠ "")
    (hnetwork : ∀ r, .report (.result r) ∈ c'.network → r.taskId = tid →
      r.errorMessage ≠ "" ∨ .report (.result r) ∈ c.network)
    (hupdates : ∀ update, .report (.status update) ∈ c'.network → update.taskId = tid →
      update.status = 2 ∨ update.status = 3)
    (hpending : c'.service.statusOf tid ≠ some .pending)
    (hcached : ∀ r, c'.service.results[tid]? = some r →
      r.errorMessage ≠ "" ∨ c.service.results[tid]? = some r)
    (harrived : c'.arrived = c.arrived) : Fated tid .hopeless c' where
  token := htoken
  worker ip r hr hid := by rw [Stands, if_neg (hworker ip r hr hid)]
  network r hr hid := by
    by_cases herror : r.errorMessage = ""
    · rcases hnetwork r hr hid with hne | hold
      · exact absurd herror hne
      · exact absurd ((h.network r hold hid).of_success herror).1 hfate
    · rw [Stands, if_neg herror]
  cached r hr := by
    by_cases herror : r.errorMessage = ""
    · rcases hcached r hr with hne | hold
      · exact absurd herror hne
      · exact absurd ((h.cached r hold).of_success herror).1 hfate
    · rw [Stands, if_neg herror]
  updates := hupdates
  pending hp := absurd hp hpending
  failed _ _ _ := rfl
  unsettled hsent := by cases hsent
  finisher ip hfinishing := by cases hfinishing
  arrived harrived' := absurd (h.arrived (harrived ▸ harrived')) hfate

/-- The task moves to another place. -/
theorem relocate {location location' : Location} (h : Fated tid (.underway location) c)
    (htoken : Tokens.At (c'.copies tid) (some location'))
    (hworker : ∀ ip r, r.taskId = tid → (c'.agent ip).worker = .finished r →
      (c.agent ip).worker = .finished r)
    (hnetwork : ∀ r, r.taskId = tid → .report (.result r) ∈ c'.network →
      .report (.result r) ∈ c.network)
    (hupdates : ∀ update, .report (.status update) ∈ c'.network → update.taskId = tid →
      update.status = 2 ∨ update.status = 3)
    (hstatus : ∀ status ∈ c'.service.statusOf tid,
      status ≠ .pending ∧ status ≠ .failed ∧ status ≠ .timeout)
    (hcached : c'.service.results[tid]? = c.service.results[tid]?)
    (harrived : c'.arrived = c.arrived) : Fated tid (.underway location') c' where
  token := htoken
  worker ip r hr hid :=
    ((h.worker ip r (hworker ip r hid hr) hid).impossible (by simp) (by simp)).elim
  network r hr hid := ((h.network r (hnetwork r hid hr) hid).impossible (by simp) (by simp)).elim
  cached r hr := ((h.cached r (hcached ▸ hr)).impossible (by simp) (by simp)).elim
  updates := hupdates
  pending hpending := absurd rfl (hstatus _ hpending).1
  failed status hcurrent hfailed := by
    obtain ⟨-, hne, hne'⟩ := hstatus status hcurrent
    exact absurd hfailed (by simp [hne, hne'])
  unsettled hsent := by cases hsent
  finisher ip hfinishing := by cases hfinishing
  arrived harrived' := by cases h.arrived (harrived ▸ harrived')

theorem worker_error (h : Fated tid fate c) (hfate : ∀ ip, fate ≠ .finishing ip) (ip : String)
    (r : TaskResult) (hr : (c.agent ip).worker = .finished r) (hid : r.taskId = tid) :
    r.errorMessage ≠ "" :=
  fun hsuccess => hfate ip ((h.worker ip r hr hid).of_success hsuccess).1

/-! ## Calls of other clients -/

/-- A task that nobody pursues and that drop_server has not settled waits in a queue, or there is
no hope. -/
theorem waiting_of_not_pursued (h : Fated tid fate c) (hpursued : ¬ c.Pursued tid)
    (hopen : c.service.statusOf tid = some .pending ∨ c.service.statusOf tid = some .dispatched) :
    (∃ ip, fate = .underway (.queue ip)) ∨ fate = .hopeless := by
  rcases hopen with hpending | hdispatched
  · exact .inl (h.pending hpending)
  · cases fate with
    | underway location =>
        have htoken : c.copies tid location = 1 := (h.token location).trans (if_pos rfl)
        cases location with
        | queue ip => exact .inl ⟨ip, rfl⟩
        | wire =>
            have hpos : 0 < copiesIn tid (c.network.filterMap Message.task?) := by
              rw [show copiesIn tid _ = 1 from htoken]
              omega
            obtain ⟨task, htask, hid⟩ := List.countP_pos_iff.mp hpos
            obtain ⟨message, hmessage, hbrings⟩ := List.mem_filterMap.mp htask
            cases message with
            | report report => cases hbrings
            | dispatch ip task' =>
                obtain rfl := Option.some.inj hbrings
                exact absurd (.inr ⟨_, hmessage, of_decide_eq_true hid⟩) hpursued
        | agent ip =>
            have hpos : 0 < copiesIn tid (c.agent ip).tasks := by
              rw [show copiesIn tid _ = 1 from htoken]
              omega
            exact absurd (Cluster.pursued_of_agent (.inl hpos)) hpursued
    | finishing ip =>
        obtain ⟨r, hr, hsucceeds⟩ := h.finisher ip rfl
        have hpursues : (c.agent ip).Pursues tid :=
          .inr ⟨r, by simp [hr, Worker.result?], hsucceeds⟩
        exact absurd (Cluster.pursued_of_agent hpursues) hpursued
    | sent =>
        obtain ⟨report, hreport, hsucceeds⟩ := h.unsettled rfl hdispatched
        exact absurd (.inr ⟨_, hreport, hsucceeds⟩) hpursued
    | hopeless => exact .inr rfl

/-- A cleanup pass that finds the task overdue while nobody pursues it. -/
theorem cleanup (h : Fated tid fate c) (now : ℤ)
    (hspare : tid ∈ c.service.overdueTasks now dispatchTimeoutSec → ¬ c.Pursued tid) :
    let service := c.service.cleanupTimeoutTasks now dispatchTimeoutSec
    ∃ fate', Fated tid fate' { c with service } ∧ (fate = .hopeless → fate' = .hopeless) := by
  intro service
  have hcopies := c.service.copiesIn_cleanup now dispatchTimeoutSec tid
  rcases c.service.entry_cleanup now tid dispatchTimeoutSec with
    ⟨hover, hstatus, hresult⟩ | ⟨hover, -, hstatus, hresult⟩ | ⟨hover, hopen, hstatus, hresult⟩
  · refine ⟨fate, h.frame ?_ (by simp [Cluster.agent]) (by simp) h.updates ?_ ?_ rfl, id⟩
    · intro l
      cases l with
      | queue ip => exact (hcopies ip).trans (if_neg hover)
      | wire | agent ip => rfl
    · exact fun status hs => .inr (.inr (hstatus ▸ hs))
    · exact fun r hr => hresult ▸ hr
  · refine ⟨fate, h.frame ?_ (by simp [Cluster.agent]) (by simp) h.updates ?_ ?_ rfl, id⟩
    · intro l
      cases l with
      | queue ip => exact (hcopies ip).trans (if_neg hover)
      | wire | agent ip => rfl
    · intro status hs
      exact absurd hs (by simp [service, hstatus])
    · intro r hr
      exact absurd hr (by simp [service, hresult])
  · have hfate := h.waiting_of_not_pursued (hspare hover)
      (HotmethodService.open_of_overdue hover)
    have hkeep : Tokens.At (Cluster.copies tid { c with service })
        (fate.location?.filter Location.outside) := by
      apply h.token.filter
      intro l
      cases l with
      | queue ip => exact (hcopies ip).trans (if_pos hover)
      | wire | agent ip => rfl
    refine ⟨.hopeless, h.abandon ?_ ?_ (h.worker_error ?_) ?_ h.updates ?_ ?_ rfl, fun _ => rfl⟩
    · rcases hfate with ⟨ip, rfl⟩ | rfl <;> simp
    · rcases hfate with ⟨ip, rfl⟩ | rfl <;> exact hkeep
    · rcases hfate with ⟨ip, rfl⟩ | rfl <;> simp
    · exact fun r hr _ => .inr hr
    · simp [service, hstatus]
    · exact fun r hr => .inr (hresult ▸ hr)

/-- A change of the service that leaves the task alone. -/
theorem same_task (h : Fated tid fate c) {service : HotmethodService}
    (hsame : c.service.SameTask tid service) : Fated tid fate { c with service } := by
  refine h.frame ?_ (by simp [Cluster.agent]) (by simp) h.updates ?_ ?_ rfl
  · intro l
    cases l with
    | queue ip => exact hsame.copies ip
    | wire | agent ip => rfl
  · exact fun status hs => .inr (.inr (hsame.status ▸ hs))
  · exact fun r hr => hsame.result ▸ hr

/-- A call that does not name the task; a cleanup pass spares it while it is pursued. -/
theorem call (h : Fated tid fate c) (hnot : parentOf tid = none) {event : Event}
    (hforeign : event.call.Foreign tid)
    (hspare : event.call = .cleanupTimeoutTasks →
      tid ∈ c.service.overdueTasks event.now dispatchTimeoutSec → ¬ c.Pursued tid)
    {service : HotmethodService} (hs : c.service.step event = some service) :
    ∃ fate', Fated tid fate' { c with service } ∧ (fate = .hopeless → fate' = .hopeless) := by
  rcases HotmethodService.sameTask_of_foreign hnot hforeign hs with hcall | hsame
  · obtain ⟨now, call⟩ := event
    obtain rfl : call = .cleanupTimeoutTasks := hcall
    obtain rfl := Option.some.inj hs
    exact h.cleanup now (hspare rfl)
  · exact ⟨fate, h.same_task hsame, id⟩

/-! ## Heartbeats -/

theorem heartbeat (h : Fated tid fate c) (now : ℤ) (ip : String) :
    ∃ fate', Fated tid fate' (c.heartbeat now ip) ∧ (fate = .hopeless → fate' = .hopeless) := by
  unfold Cluster.heartbeat
  cases hqueue : c.service.queue ip with
  | nil =>
      rw [c.service.popTask_nil now hqueue]
      simpa using ⟨fate, h, id⟩
  | cons task rest =>
      rw [c.service.popTask_cons now hqueue]
      simp only [Option.toList_some, List.map_cons, List.map_nil]
      have hstatus := c.service.statusOf_dequeue now tid ip task rest
      let c' : Cluster :=
        { c with
          service := c.service.dequeue now ip task rest
          network := c.network ++ [.dispatch ip task] }
      have hcopies : ∀ l, c'.copies tid l =
          if l = .queue ip then copiesIn tid rest
          else if l = .wire then c.copies tid .wire + if task.taskId = tid then 1 else 0
          else c.copies tid l := by
        intro l
        cases l with
        | queue ip' =>
            by_cases hip : ip' = ip
            · simp [c', Cluster.copies, HotmethodService.queue_dequeue, hip]
            · simp [c', Cluster.copies, HotmethodService.queue_dequeue, hip, Ne.symm hip]
        | wire => simp [c', Cluster.copies, Message.task?]
        | agent ip' => simp [c', Cluster.copies, Cluster.agent]
      have hhead : c.copies tid (.queue ip) =
          copiesIn tid rest + if task.taskId = tid then 1 else 0 := by
        simp [Cluster.copies, hqueue]
      by_cases hid : task.taskId = tid
      · simp only [hid, if_true] at hcopies hhead hstatus
        obtain ⟨hplace, htoken⟩ : fate.location? = some (.queue ip) ∧
            Tokens.At (c'.copies tid) (some .wire) :=
          h.token.move (by simp) (by rw [hhead, hcopies]; simp) (by rw [hcopies]; simp)
            (fun k hk hk' => by rw [hcopies, if_neg hk, if_neg hk'])
        cases fate with
        | underway location =>
            obtain rfl := Option.some.inj hplace
            refine ⟨_, h.relocate htoken ?_ ?_ ?_ ?_ rfl rfl, by simp⟩
            · exact fun _ _ _ hr => hr
            · intro r _ hr
              simpa using hr
            · intro update hupdate
              exact h.updates update (by simpa using hupdate)
            · intro status hs
              obtain rfl := Option.some.inj (hstatus.symm.trans hs)
              decide
        | finishing | sent | hopeless => cases hplace
      · simp only [hid, if_false] at hcopies hhead hstatus
        refine ⟨fate, h.frame ?_ (by simp [Cluster.agent]) (by simp) ?_ ?_ ?_ rfl, id⟩
        · intro l
          rw [hcopies]
          split
          · rename_i hl
            rw [hl, hhead, Nat.add_zero]
          · split
            · rename_i hl
              rw [hl, Nat.add_zero]
            · rfl
        · intro update hupdate
          exact h.updates update (by simpa using hupdate)
        · exact fun status hs => .inr (.inr (hstatus.symm.trans hs))
        · exact fun r hr => hr

/-! ## Agents -/

section Agents

variable {ip : String} {a : Agent} {reports : List Report}

/-- The cluster after a step of the agent at `ip`. -/
def stepped (c : Cluster) (ip : String) (a : Agent) (reports : List Report) : Cluster :=
  { c with
    agents := c.agents.insert ip a
    network := c.network ++ reports.map .report }

theorem agent_stepped (ip' : String) :
    (stepped c ip a reports).agent ip' = if ip = ip' then a else c.agent ip' := by
  by_cases hip : ip = ip' <;> simp [stepped, Cluster.agent, hip]

theorem mem_stepped {report : Report} :
    .report report ∈ (stepped c ip a reports).network ↔
      .report report ∈ c.network ∨ report ∈ reports := by
  simp [stepped]

theorem copies_stepped (l : Location) :
    (stepped c ip a reports).copies tid l =
      if l = .agent ip then copiesIn tid a.tasks else c.copies tid l := by
  cases l with
  | queue ip' => rfl
  | wire =>
      have hnone : (reports.map Message.report).filterMap Message.task? = [] := by
        simp [List.filterMap_eq_nil_iff, Message.task?]
      simp [Cluster.copies, stepped, hnone]
  | agent ip' =>
      by_cases hip : ip = ip'
      · simp [Cluster.copies, agent_stepped, hip]
      · simp [Cluster.copies, agent_stepped, hip, Ne.symm hip]

/-- The token is no longer at the agent. -/
theorem lose_copy (h : Fated tid fate c) (reports : List Report)
    (hcopies : copiesIn tid (c.agent ip).tasks = copiesIn tid a.tasks + 1) :
    fate = .underway (.agent ip) ∧ Tokens.At ((stepped c ip a reports).copies tid) none := by
  obtain ⟨hplace, htoken⟩ : fate.location? = some (.agent ip) ∧
      Tokens.At ((stepped c ip a reports).copies tid) none := by
    refine h.token.lose ?_ fun l hl => ?_
    · rw [copies_stepped, if_pos rfl]
      exact hcopies
    · rw [copies_stepped, if_neg hl]
  cases fate with
  | underway location => exact ⟨congrArg _ (Option.some.inj hplace), htoken⟩
  | finishing | sent | hopeless => cases hplace

/-- A step of an agent after which no successful result can come. -/
theorem abandon_stepped (h : Fated tid fate c) (hfate : fate ≠ .sent)
    (htoken : Tokens.At ((stepped c ip a reports).copies tid) none)
    (hothers : ∀ ip', fate = .finishing ip' → ip' = ip)
    (hworker : ∀ r, a.worker = .finished r → r.taskId = tid → r.errorMessage ≠ "")
    (hreports : ∀ report ∈ reports, ∃ r, report = .result r ∧ r.errorMessage ≠ "") :
    Fated tid .hopeless (stepped c ip a reports) := by
  refine h.abandon hfate htoken ?_ ?_ ?_ ?_ (fun r hr => .inr hr) rfl
  · intro ip' r hr hid
    rw [agent_stepped] at hr
    split at hr
    · exact hworker r hr hid
    · rename_i hip
      intro hsuccess
      exact hip (hothers ip' ((h.worker ip' r hr hid).of_success hsuccess).1).symm
  · intro r hr _
    rcases mem_stepped.mp hr with hold | hnew
    · exact .inr hold
    · obtain ⟨r', heq, herror⟩ := hreports _ hnew
      obtain rfl := Report.result.inj heq
      exact .inl herror
  · intro update hupdate
    rcases mem_stepped.mp hupdate with hold | hnew
    · exact h.updates update hold
    · obtain ⟨r, heq, _⟩ := hreports _ hnew
      cases heq
  · intro hpending
    obtain ⟨ip', rfl⟩ := h.pending hpending
    have hqueue := h.token (.queue ip')
    have hnone := htoken (.queue ip')
    rw [copies_stepped, if_neg (by simp)] at hnone
    simp [hnone, Fate.location?] at hqueue

/-- The only token that can be at the agent is the task itself. -/
theorem no_copy (h : Fated tid fate c) (hfate : fate ≠ .underway (.agent ip)) :
    copiesIn tid (c.agent ip).tasks = 0 := by
  refine (h.token (.agent ip)).trans (if_neg ?_)
  intro hplace
  cases fate with
  | underway location => exact hfate (congrArg _ (Option.some.inj hplace))
  | finishing | sent | hopeless => cases hplace

/-- The agent collects a result. -/
theorem collect (h : Fated tid fate c) {r : TaskResult}
    (hcopies : copiesIn tid (c.agent ip).tasks = copiesIn tid a.tasks + 1)
    (hworker : a.worker = .finished r) (hid : r.taskId = tid) (hsuccess : r.errorMessage = "")
    (hartifact : Agent.HasArtifact r) : Fated tid (.finishing ip) (stepped c ip a []) := by
  obtain ⟨rfl, htoken⟩ := h.lose_copy [] hcopies
  have hold : ∀ report, .report report ∈ (stepped c ip a []).network →
      .report report ∈ c.network := by
    intro report hreport
    simpa using mem_stepped.mp hreport
  refine ⟨htoken, ?_, ?_, ?_, ?_, ?_, ?_, by simp, ?_, ?_⟩
  · intro ip' r' hr' hid'
    rw [agent_stepped] at hr'
    split at hr'
    · rename_i hip
      obtain rfl := Worker.finished.inj (hworker.symm.trans hr')
      rw [Stands, if_pos hsuccess]
      exact ⟨congrArg _ hip, hartifact⟩
    · exact ((h.worker ip' r' hr' hid').impossible (by simp) (by simp)).elim
  · intro r' hr' hid'
    exact ((h.network r' (hold _ hr') hid').impossible (by simp) (by simp)).elim
  · exact fun r' hr' => ((h.cached r' hr').impossible (by simp) (by simp)).elim
  · exact fun update hupdate => h.updates update (hold _ hupdate)
  · intro hpending
    obtain ⟨ip', hne⟩ := h.pending hpending
    cases hne
  · intro status hstatus hfailed
    cases h.failed status hstatus hfailed
  · intro ip' hip
    obtain rfl := Fate.finishing.inj hip
    exact ⟨r, by rw [agent_stepped, if_pos rfl, hworker], hid, hsuccess⟩
  · intro harrived
    cases h.arrived harrived

/-- The agent reports a result, or every attempt at it fails. -/
theorem send (h : Fated tid fate c) {r : TaskResult} (copies : ℕ)
    (hcopies : copiesIn tid a.tasks = copiesIn tid (c.agent ip).tasks)
    (hworker : (c.agent ip).worker = .finished r) (hworker' : a.worker = .waiting)
    (hid : r.taskId = tid) :
    ∃ fate', Fated tid fate' (stepped c ip a (List.replicate copies (.result r))) ∧
      (fate = .hopeless → fate' = .hopeless) := by
  have htoken : Tokens.At ((stepped c ip a (List.replicate copies (.result r))).copies tid)
      fate.location? := by
    refine h.token.congr fun l => ?_
    rw [copies_stepped]
    split
    · rename_i hl
      rw [hl]
      exact hcopies
    · rfl
  have hstands := h.worker ip r hworker hid
  by_cases hsuccess : r.errorMessage = ""
  · obtain ⟨rfl, hartifact⟩ := hstands.of_success hsuccess
    cases copies with
    | zero =>
        refine ⟨.hopeless, h.abandon_stepped (by simp) htoken ?_ (by simp [hworker']) (by simp),
          fun _ => rfl⟩
        exact fun ip' hip => (Fate.finishing.inj hip).symm
    | succ copies =>
        refine ⟨.sent, ⟨htoken, ?_, ?_, ?_, ?_, ?_, ?_, ?_, by simp, fun _ => rfl⟩, by simp⟩
        · intro ip' r' hr' hid'
          rw [agent_stepped] at hr'
          split at hr'
          · simp [hworker'] at hr'
          · rename_i hip
            exact ((h.worker ip' r' hr' hid').impossible (by simpa using hip) (by simp)).elim
        · intro r' hr' hid'
          rcases mem_stepped.mp hr' with hold | hnew
          · exact ((h.network r' hold hid').impossible (by simp) (by simp)).elim
          · obtain rfl := Report.result.inj (List.eq_of_mem_replicate hnew)
            rw [Stands, if_pos hsuccess]
            exact ⟨rfl, hartifact⟩
        · exact fun r' hr' => ((h.cached r' hr').impossible (by simp) (by simp)).elim
        · intro update hupdate
          rcases mem_stepped.mp hupdate with hold | hnew
          · exact h.updates update hold
          · cases List.eq_of_mem_replicate hnew
        · intro hpending
          obtain ⟨ip', hne⟩ := h.pending hpending
          cases hne
        · intro status hstatus hfailed
          cases h.failed status hstatus hfailed
        · intro _ _
          exact ⟨.result r, mem_stepped.mpr (.inr (by simp)), hid, hsuccess⟩
  · obtain rfl := hstands.of_error hsuccess
    refine ⟨.hopeless, h.abandon_stepped (by simp) htoken (by simp) (by simp [hworker']) ?_,
      fun _ => rfl⟩
    exact fun report hreport => ⟨r, List.eq_of_mem_replicate hreport, hsuccess⟩

/-- The agent dies with everything it has. -/
theorem die (h : Fated tid fate c) (htasks : a.tasks = []) (hworker : a.worker = .waiting) :
    ∃ fate', Fated tid fate' (stepped c ip a []) ∧ (fate = .hopeless → fate' = .hopeless) := by
  have hclear : ∀ l, (stepped c ip a []).copies tid l =
      if decide (l ≠ .agent ip) then c.copies tid l else 0 := by
    intro l
    rw [copies_stepped, htasks]
    by_cases hl : l = .agent ip <;> simp [hl]
  have htoken := h.token.filter (fun l => decide (l ≠ .agent ip)) hclear
  by_cases hlost : fate = .underway (.agent ip) ∨ fate = .finishing ip ∨ fate = .hopeless
  · refine ⟨.hopeless, h.abandon_stepped ?_ ?_ ?_ (by simp [hworker]) (by simp), fun _ => rfl⟩
    · rcases hlost with rfl | rfl | rfl <;> simp
    · rcases hlost with rfl | rfl | rfl
      · simpa [Fate.location?, Option.filter] using htoken
      · exact htoken
      · exact htoken
    · intro ip' hip
      rcases hlost with rfl | rfl | rfl
      · cases hip
      · exact (Fate.finishing.inj hip).symm
      · cases hip
  · refine ⟨fate, h.frame ?_ ?_ ?_ ?_ (fun _ hs => .inr (.inr hs)) (fun _ hr => hr) rfl, id⟩
    · intro l
      rw [hclear]
      split
      · rfl
      · rename_i hl
        obtain rfl : l = .agent ip := by simpa using hl
        exact (h.no_copy fun hfate => hlost (.inl hfate)).symm
    · intro ip' r hid
      rw [agent_stepped]
      split
      · rename_i hip
        subst hip
        simp only [hworker, reduceCtorEq, false_iff]
        intro hr
        exact (h.worker ip r hr hid).impossible (fun hfate => hlost (.inr (.inl hfate)))
          fun hfate => hlost (.inr (.inr hfate))
      · rfl
    · simp [stepped]
    · intro update hupdate
      exact h.updates update (by simpa [stepped] using hupdate)

theorem agent (h : Fated tid fate c) {action : AgentAction}
    (hs : (c.agent ip).step action = some (a, reports)) :
    ∃ fate', Fated tid fate' (stepped c ip a reports) ∧ (fate = .hopeless → fate' = .hopeless) := by
  cases Agent.step_does hs tid with
  | kept hcopies hworker hreports =>
      refine ⟨fate, h.frame ?_ ?_ ?_ ?_ (fun _ hs => .inr (.inr hs)) (fun _ hr => hr) rfl, id⟩
      · intro l
        rw [copies_stepped]
        split
        · rename_i hl
          rw [hl]
          exact hcopies
        · rfl
      · intro ip' r hid
        rw [agent_stepped]
        split
        · rename_i hip
          exact hip ▸ hworker r hid
        · rfl
      · intro r hid
        rw [mem_stepped]
        constructor
        · intro hr
          exact hr.resolve_right fun hnew => hreports _ hnew hid
        · exact .inl
      · intro update hupdate hid
        rcases mem_stepped.mp hupdate with hold | hnew
        · exact h.updates update hold hid
        · exact hreports _ hnew hid
  | fails hcopies hworker hreports =>
      obtain ⟨rfl, htoken⟩ := h.lose_copy reports hcopies
      exact ⟨.hopeless, h.abandon_stepped (by simp) htoken (by simp) (fun r hr _ => hworker r hr)
        hreports, fun _ => rfl⟩
  | @collects r hcopies hworker hid hsuccess hartifact =>
      exact ⟨_, h.collect hcopies hworker hid hsuccess hartifact, by
        simp [(h.lose_copy [] hcopies).1]⟩
  | @sends r copies hcopies hworker hworker' hid =>
      exact h.send copies hcopies hworker hworker' hid
  | dies htasks hworker => exact h.die htasks hworker

end Agents

/-! ## Messages -/

section Messages

variable {message : Message}

/-- A message that is handled leaves the network with the task that it brings. -/
theorem copies_erase (hmem : message ∈ c.network) :
    copiesIn tid (c.network.filterMap Message.task?) =
      copiesIn tid ((c.network.erase message).filterMap Message.task?) +
        copiesIn tid message.task?.toList := by
  have hperm := (List.perm_cons_erase hmem).filterMap Message.task?
  rw [copiesIn, hperm.countP_eq, List.filterMap_cons]
  cases message.task? with
  | none => rfl
  | some task => simp [copiesIn, List.countP_cons]

/-- A task reaches its agent, whose queue may be full. -/
theorem dispatch (h : Fated tid fate c) {ip : String} {task : TaskDesc}
    (hmem : .dispatch ip task ∈ c.network) :
    ∃ fate', Fated tid fate' { c with
        network := c.network.erase (.dispatch ip task)
        agents := c.agents.insert ip ((c.agent ip).pushTask task) } ∧
      (fate = .hopeless → fate' = .hopeless) := by
  let c' : Cluster := { c with
    network := c.network.erase (.dispatch ip task)
    agents := c.agents.insert ip ((c.agent ip).pushTask task) }
  have hagent : ∀ ip', c'.agent ip' =
      if ip = ip' then (c.agent ip).pushTask task else c.agent ip' := by
    intro ip'
    by_cases hip : ip = ip' <;> simp [c', Cluster.agent, hip]
  have hworker : ∀ ip', (c'.agent ip').worker = (c.agent ip').worker := by
    intro ip'
    rw [hagent]
    split
    · rename_i hip
      subst hip
      simp only [Agent.pushTask]
      split <;> rfl
    · rfl
  have hreport : ∀ report, .report report ∈ c'.network ↔ .report report ∈ c.network := fun report =>
    List.mem_erase_of_ne (by simp)
  have hupdates : ∀ update, .report (.status update) ∈ c'.network → update.taskId = tid →
      update.status = 2 ∨ update.status = 3 := fun update hupdate =>
    h.updates update ((hreport _).mp hupdate)
  have hwire : c.copies tid .wire = c'.copies tid .wire + if task.taskId = tid then 1 else 0 := by
    have herase := @copies_erase tid c _ hmem
    simp only [Message.task?, Option.toList_some, copiesIn_cons, copiesIn_nil,
      Nat.zero_add] at herase
    exact herase
  have hsame : ∀ l, l ≠ .wire → l ≠ .agent ip → c'.copies tid l = c.copies tid l := by
    intro l hl hl'
    cases l with
    | queue ip' => rfl
    | wire => exact absurd rfl hl
    | agent ip' =>
        have hip : ip ≠ ip' := fun hip => hl' (congrArg _ hip.symm)
        simp [Cluster.copies, hagent, hip]
  have harrives : c'.copies tid (.agent ip) =
      c.copies tid (.agent ip) + if task.taskId = tid ∧
        (c.agent ip).queue.length < Agent.maxTaskQueueSize then 1 else 0 := by
    simp only [Cluster.copies, hagent, if_true, Agent.pushTask]
    split
    · rename_i hfull
      simp [Nat.not_lt.mpr hfull]
    · rename_i hroom
      simp [Agent.tasks, Nat.lt_of_not_le hroom, Nat.add_assoc]
  by_cases hid : task.taskId = tid
  · rw [if_pos hid] at hwire
    by_cases hroom : (c.agent ip).queue.length < Agent.maxTaskQueueSize
    · rw [if_pos ⟨hid, hroom⟩] at harrives
      obtain ⟨hplace, htoken⟩ : fate.location? = some .wire ∧
          Tokens.At (c'.copies tid) (some (.agent ip)) :=
        h.token.move (by simp) hwire harrives hsame
      cases fate with
      | finishing | sent | hopeless => cases hplace
      | underway location =>
          obtain rfl := Option.some.inj hplace
          refine ⟨_, h.relocate htoken ?_ ?_ hupdates ?_ rfl rfl, by simp⟩
          · exact fun ip' r _ hr => (hworker ip').symm.trans hr
          · exact fun r _ hr => (hreport _).mp hr
          · intro status hstatus
            refine ⟨?_, ?_, ?_⟩
            · rintro rfl
              obtain ⟨ip', hne⟩ := h.pending hstatus
              cases hne
            · rintro rfl
              cases h.failed _ hstatus (.inl rfl)
            · rintro rfl
              cases h.failed _ hstatus (.inr rfl)
    · rw [if_neg (by simp [hroom]), Nat.add_zero] at harrives
      obtain ⟨hplace, htoken⟩ : fate.location? = some .wire ∧
          Tokens.At (c'.copies tid) none := by
        refine h.token.lose hwire fun l hl => ?_
        by_cases hl' : l = .agent ip
        · rw [hl', harrives]
        · exact hsame l hl hl'
      cases fate with
      | finishing | sent | hopeless => cases hplace
      | underway location =>
          obtain rfl := Option.some.inj hplace
          refine ⟨.hopeless, h.abandon (by simp) htoken ?_ ?_ hupdates ?_ (fun _ hr => .inr hr) rfl,
            fun _ => rfl⟩
          · exact fun ip' r hr => h.worker_error (by simp) ip' r ((hworker ip').symm.trans hr)
          · exact fun r hr _ => .inr ((hreport _).mp hr)
          · intro hpending
            obtain ⟨ip', hne⟩ := h.pending hpending
            cases hne
  · rw [if_neg hid, Nat.add_zero] at hwire
    rw [if_neg (by simp [hid]), Nat.add_zero] at harrives
    refine ⟨fate, h.frame ?_ ?_ ?_ hupdates (fun _ hs => .inr (.inr hs)) (fun _ hr => hr) rfl, id⟩
    · intro l
      by_cases hl : l = .wire
      · rw [hl, hwire]
      · by_cases hl' : l = .agent ip
        · rw [hl', harrives]
        · exact hsame l hl hl'
    · exact fun ip' r _ => by rw [hworker]
    · exact fun r _ => hreport _

/-- A report leaves the network. -/
theorem copies_erase_report {report : Report} (hmem : .report report ∈ c.network) (l : Location) :
    Cluster.copies tid { c with network := c.network.erase (.report report) } l =
      c.copies tid l := by
  cases l with
  | queue ip | agent ip => rfl
  | wire => exact (@copies_erase tid c _ hmem).symm

/-- A status update reaches drop_server. -/
theorem update (h : Fated tid fate c) (now : ℤ) {update : TaskStatusUpdate}
    (hmem : .report (.status update) ∈ c.network) :
    Fated tid fate { c with
      network := c.network.erase (.report (.status update))
      service := c.service.updateTaskStatusRpc now update } := by
  have hstatus := HotmethodService.statusOf_of_insert tid
    (c.service.updateTaskStatus_tasksState now update.taskId
      (HotmethodService.internalStatus update.status) update.reason)
  refine h.frame (copies_erase_report hmem) (by simp [Cluster.agent]) ?_ ?_ ?_ (fun _ hr => hr) rfl
  · exact fun r _ => List.mem_erase_of_ne (by simp)
  · exact fun update' hupdate => h.updates update' (List.mem_of_mem_erase hupdate)
  · intro status hs
    have hs := hstatus.symm.trans hs
    split at hs
    · rename_i hid
      obtain rfl := Option.some.inj hs
      rcases h.updates update hmem hid with hrunning | huploading
      · exact .inl (by rw [hrunning]; rfl)
      · exact .inr (.inl (by rw [huploading]; rfl))
    · exact .inr (.inr hs)

/-- The result of another task reaches drop_server. -/
theorem other_result (h : Fated tid fate c) (hnot : parentOf tid = none) {now sysNow : ℤ}
    {r : TaskResult} (hmem : .report (.result r) ∈ c.network) (hid : r.taskId ≠ tid)
    {service : HotmethodService} (hs : c.service.notifyResult now sysNow r = some service) :
    Fated tid fate { c with network := c.network.erase (.report (.result r)), service } := by
  have hsame := HotmethodService.sameTask_notifyResult hnot hid hs
  refine (h.same_task hsame).frame (fun l => ?_) (by simp [Cluster.agent]) ?_ ?_
    (fun _ hs => .inr (.inr hs)) (fun _ hr => hr) rfl
  · exact @copies_erase_report tid { c with service } _ hmem l
  · intro r' hid'
    exact List.mem_erase_of_ne (by
      intro heq
      obtain rfl := Report.result.inj (Message.report.inj heq)
      exact hid hid')
  · exact fun update hupdate => h.updates update (List.mem_of_mem_erase hupdate)

/-- The result of the task reaches drop_server. -/
theorem own_result (h : Fated tid fate c) (hnot : parentOf tid = none) {now sysNow : ℤ}
    {r : TaskResult} (hmem : .report (.result r) ∈ c.network) (hid : r.taskId = tid)
    {service : HotmethodService} (hs : c.service.notifyResult now sysNow r = some service)
    (arrived : Bool) (harrived : arrived = true → c.arrived = true ∨ r.errorMessage = "") :
    Fated tid fate { c with
      network := c.network.erase (.report (.result r)), service, arrived } := by
  subst hid
  obtain ⟨hstatus, hresult, hqueues⟩ := HotmethodService.notifyResult_own hnot hs
  have hstands := h.network r hmem rfl
  have hdone : service.statusOf r.taskId = some (if r.errorMessage = "" then .done else .failed) :=
    hstatus
  refine ⟨?_, h.worker, ?_, ?_, ?_, ?_, ?_, ?_, h.finisher, ?_⟩
  · refine h.token.congr fun l => ?_
    rw [← copies_erase_report hmem l]
    cases l with
    | queue ip => simp [Cluster.copies, hqueues]
    | wire | agent ip => rfl
  · exact fun r' hr' => h.network r' (List.mem_of_mem_erase hr')
  · intro r' hr'
    obtain rfl := Option.some.inj (hresult.symm.trans hr')
    exact hstands
  · exact fun update hupdate => h.updates update (List.mem_of_mem_erase hupdate)
  · intro hpending
    have heq := Option.some.inj (hdone.symm.trans hpending)
    split at heq <;> cases heq
  · intro status hcurrent hfailed
    have heq := Option.some.inj (hdone.symm.trans hcurrent)
    split at heq
    · subst heq
      simp at hfailed
    · rename_i herror
      exact hstands.of_error herror
  · intro _ hdispatched
    have heq := Option.some.inj (hdone.symm.trans hdispatched)
    split at heq <;> cases heq
  · intro htrue
    rcases harrived htrue with hold | hsuccess
    · exact h.arrived hold
    · exact (hstands.of_success hsuccess).1

theorem deliver (h : Fated tid fate c) (hnot : parentOf tid = none) {deadline now sysNow : ℤ}
    (hmem : message ∈ c.network)
    (hs : { c with network := c.network.erase message }.deliver tid deadline now sysNow message =
      some c') :
    ∃ fate', Fated tid fate' c' ∧ (fate = .hopeless → fate' = .hopeless) := by
  cases message with
  | dispatch ip task =>
      obtain rfl := Option.some.inj hs
      exact h.dispatch hmem
  | report report =>
      obtain ⟨received, hreceived, rfl⟩ := Option.map_eq_some_iff.mp hs
      cases report with
      | status update =>
          obtain rfl := Option.some.inj hreceived
          refine ⟨fate, ?_, id⟩
          simpa [Report.Succeeds] using h.update now hmem
      | result r =>
          obtain ⟨service, hservice, rfl⟩ := Option.map_eq_some_iff.mp hreceived
          refine ⟨fate, ?_, id⟩
          by_cases hid : r.taskId = tid
          · refine h.own_result hnot hmem hid hservice _ ?_
            simp only [Bool.or_eq_true, decide_eq_true_eq]
            rintro (hold | ⟨hsucceeds, _⟩)
            · exact .inl hold
            · exact .inr hsucceeds.2
          · simpa [Report.Succeeds, hid] using h.other_result hnot hmem hid hservice

end Messages

/-- Fate does not depend on the loop and the clock. -/
theorem elsewhere (h : Fated tid fate c) (watch : Watch) (now : ℤ) :
    Fated tid fate { c with watch, now } :=
  ⟨h.token, h.worker, h.network, h.cached, h.updates, h.pending, h.failed, h.unsettled,
    h.finisher, h.arrived⟩

end Fated

end MiniDrop
