import Mathlib.Algebra.Order.Group.Int
import Mathlib.Data.List.Chain
import MiniDrop.Library.Folds
import MiniDrop.Model.HealthCheck

/-! # The agents that drop_server takes for online

The entry of an agent keeps a flag that only queries take back. What a query answers is still a
matter of the last heartbeat alone, and the audit lines tell of each silence that some query fell
into. -/

namespace MiniDrop.HealthCheck

/-! ## The history of an agent -/

/-- The call is a heartbeat of the agent. -/
def Call.beat? (ip : String) : Call → Option Request
  | .heartbeat request => if request.ipAddr = ip then some request else none
  | _ => none

/-- The call looks for silence of the agent. -/
def Call.checks (ip : String) : Call → Bool
  | .heartbeat _ => false
  | .getAgentStatus other => other = ip
  | .getAllAgentStatus => true
  | .isAgentOnline other => other = ip

/-- The last heartbeat of an agent. -/
def heard (ip : String) : List Event → Option (ℤ × Request)
  | [] => none
  | e :: history =>
    match e.call.beat? ip with
    | some request => some (e.now, request)
    | none => heard ip history

/-- The agent has been heard of, and is silent for too long. -/
def silent (ip : String) (now : ℤ) (history : List Event) : Bool :=
  (heard ip history).any fun last => decide (elapsedSeconds now last.1 > offlineAfterSec)

/-- Some query has found the agent silent since its last heartbeat. -/
def noticed (ip : String) : List Event → Bool
  | [] => false
  | e :: history =>
    match e.call.beat? ip with
    | some _ => false
    | none => noticed ip history || (e.call.checks ip && silent ip e.now history)

/-! ## The properties -/

/-- What there is to say of an agent: its last heartbeat, and whether it is recent. -/
def statusAt (ip : String) (now : ℤ) (history : List Event) : Option AgentStatus :=
  (heard ip history).map fun last =>
    { request := last.2, lastHeartbeat := last.1, online := !silent ip now history }

/-- Queries answer by the last heartbeats, and lists have each agent once. -/
def Answer.Right (history : List Event) (now : ℤ) : Call → Answer → Prop
  | .heartbeat _, answer => answer = .done
  | .getAgentStatus ip, answer => answer = .agent (statusAt ip now history)
  | .getAllAgentStatus, answer => ∃ statuses, answer = .agents statuses ∧
      (statuses.map fun status => status.request.ipAddr).Nodup ∧
        ∀ status, status ∈ statuses ↔ ∃ ip, statusAt ip now history = some status
  | .isAgentOnline ip, answer =>
    answer = .online ((statusAt ip now history).any AgentStatus.online)

/-- The line about an agent that a call brings: it is back after a silence that was noticed, or
its silence is noticed for the first time. -/
def lineOf (ip : String) (e : Event) (history : List Event) : List AuditLine :=
  match e.call.beat? ip with
  | some request =>
    if heard ip history = none ∨ noticed ip history then [.online request.hostName ip] else []
  | none =>
    if e.call.checks ip ∧ silent ip e.now history ∧ ¬noticed ip history then
      (heard ip history).toList.map fun last =>
        .offline last.2.hostName ip (elapsedSeconds e.now last.1)
    else []

/-- The lines about an agent. -/
def linesOf (ip : String) : List Event → List AuditLine
  | [] => []
  | e :: history => linesOf ip history ++ lineOf ip e history

/-- Going online and offline take turns, beginning with online. -/
structure TakesTurns (lines : List AuditLine) : Prop where
  first : ∀ line ∈ lines.head?, line.isOnline = true
  chain : lines.IsChain fun before after => after.isOnline = !before.isOnline

/-- The audit lines are those of the silences that were noticed, and take turns. -/
def Audited (s : Run) : Prop :=
  ∀ ip, s.registry.audit.filter (fun line => line.ip = ip) = linesOf ip s.history ∧
    TakesTurns (linesOf ip s.history)

/-! ## Silence -/

theorem elapsedSeconds_gt {now timestamp : ℤ} :
    elapsedSeconds now timestamp > offlineAfterSec ↔ timestamp + 31000000000 ≤ now := by
  rw [elapsedSeconds, offlineAfterSec, gt_iff_lt]
  rcases le_total 0 (now - timestamp) with hle | hle
  · rw [Int.tdiv_eq_ediv_of_nonneg hle]
    omega
  · have hneg : (now - timestamp).tdiv 1000000000 ≤ 0 := by
      rw [← neg_neg (now - timestamp), Int.neg_tdiv,
        Int.tdiv_eq_ediv_of_nonneg (Int.neg_nonneg_of_nonpos hle)]
      omega
    omega

theorem silent_mono {ip : String} {now later : ℤ} {history : List Event} (hle : now ≤ later)
    (h : silent ip now history = true) : silent ip later history = true := by
  rw [silent, Option.any_eq_true] at h ⊢
  obtain ⟨last, hlast, helapsed⟩ := h
  refine ⟨last, hlast, decide_eq_true ?_⟩
  have hbefore := elapsedSeconds_gt.mp (of_decide_eq_true helapsed)
  exact elapsedSeconds_gt.mpr (hbefore.trans hle)

theorem exists_heard_of_silent {ip : String} {now : ℤ} {history : List Event}
    (h : silent ip now history = true) : ∃ last, heard ip history = some last := by
  rw [silent, Option.any_eq_true] at h
  obtain ⟨last, hlast, -⟩ := h
  exact ⟨last, hlast⟩

theorem ipAddr_of_beat {ip : String} {request : Request} {call : Call}
    (h : call.beat? ip = some request) : request.ipAddr = ip ∧ call = .heartbeat request := by
  cases call with
  | heartbeat other =>
      rw [Call.beat?] at h
      split at h
      · next heq =>
        obtain rfl := Option.some.inj h
        exact ⟨heq, rfl⟩
      · cases h
  | getAgentStatus other => cases h
  | getAllAgentStatus => cases h
  | isAgentOnline other => cases h

theorem ipAddr_of_heard {ip : String} {last : ℤ × Request} {history : List Event}
    (h : heard ip history = some last) : last.2.ipAddr = ip := by
  induction history with
  | nil => cases h
  | cons e history ih =>
      rw [heard] at h
      split at h
      · next request hbeat =>
        obtain rfl := Option.some.inj h
        exact (ipAddr_of_beat hbeat).1
      · exact ih h

/-- What a query has noticed is still so. -/
theorem silent_of_noticed {ip : String} {history : List Event}
    (hsorted : history.Pairwise fun later earlier => earlier.now ≤ later.now)
    (h : noticed ip history = true) {now : ℤ} (hnow : ∀ e ∈ history, e.now ≤ now) :
    silent ip now history = true := by
  induction history with
  | nil => cases h
  | cons e history ih =>
      obtain ⟨hlater, hsorted⟩ := List.pairwise_cons.mp hsorted
      rw [noticed] at h
      split at h
      · cases h
      · next hbeat =>
        have hhistory : silent ip now history = true := by
          rcases Bool.or_eq_true_iff.mp h with hnoticed | hfound
          · exact ih hsorted hnoticed fun e he => hnow e (List.mem_cons_of_mem _ he)
          · exact silent_mono (hnow e List.mem_cons_self) (Bool.and_eq_true_iff.mp hfound).2
        rw [silent] at hhistory ⊢
        rw [heard, hbeat]
        exact hhistory

/-! ## One call -/

theorem ip_of_mem_check {agent : AgentStatus} {now : ℤ} {ip : String} {line : AuditLine}
    (h : line ∈ (agent.check now ip).2) : line.ip = ip := by
  rw [AgentStatus.check] at h
  split at h
  · rw [List.mem_singleton.mp h, AuditLine.ip]
  · cases h

theorem check_of_not_silent {agent : AgentStatus} {now : ℤ} (h : agent.silent now = false)
    (ip : String) : agent.check now ip = (agent, []) := by
  rw [AgentStatus.check, h, Bool.false_and, if_neg Bool.false_ne_true]

theorem filter_ip_eq_self {lines : List AuditLine} {ip : String}
    (h : ∀ line ∈ lines, line.ip = ip) (other : String) :
    lines.filter (fun line => line.ip = other) = if ip = other then lines else [] := by
  split
  · next heq =>
    exact List.filter_eq_self.mpr fun line hline => decide_eq_true ((h line hline).trans heq)
  · next hne =>
    exact List.filter_eq_nil_iff.mpr fun line hline hother =>
      hne ((h line hline).symm.trans (of_decide_eq_true hother))

theorem insert_getElem? (agents : StdMap AgentStatus) (k ip : String) (agent : AgentStatus) :
    (agents.insert k agent)[ip]? = if k = ip then some agent else agents[ip]? := by
  simp

/-- A query about one agent checks its entry. -/
theorem insert_check {s : Registry} {other : String} {agent : AgentStatus}
    (h : s.agents[other]? = some agent) (now : ℤ) (ip : String) :
    (s.agents.insert other (agent.check now other).1)[ip]? =
      if other = ip then (s.agents[ip]?).map fun agent => (agent.check now ip).1
      else s.agents[ip]? := by
  rw [insert_getElem?]
  split
  · next heq =>
    subst heq
    rw [h, Option.map_some]
  · rfl

theorem none_check {s : Registry} {other : String} (h : s.agents[other]? = none) (now : ℤ)
    (ip : String) : s.agents[ip]? =
      if other = ip then (s.agents[ip]?).map fun agent => (agent.check now ip).1
      else s.agents[ip]? := by
  split
  · next heq =>
    subst heq
    rw [h, Option.map_none]
  · rfl

/-- The entry of an agent behind a call. -/
theorem agents_handle (s : Registry) (e : Event) (ip : String) :
    (s.handle e).1.agents[ip]? =
      match e.call.beat? ip with
      | some request => some { request, lastHeartbeat := e.now }
      | none =>
        if e.call.checks ip then (s.agents[ip]?).map fun agent => (agent.check e.now ip).1
        else s.agents[ip]? := by
  obtain ⟨now, call⟩ := e
  cases call with
  | heartbeat request =>
      change (s.agents.insert request.ipAddr { request, lastHeartbeat := now })[ip]? =
        match if request.ipAddr = ip then some request else none with
        | some request => some { request, lastHeartbeat := now }
        | none => s.agents[ip]?
      rw [insert_getElem?]
      split <;> rfl
  | getAgentStatus other =>
      change (s.getAgentStatus now other).1.agents[ip]? =
        if decide (other = ip) = true then _ else s.agents[ip]?
      rw [if_congr decide_eq_true_iff rfl rfl, Registry.getAgentStatus]
      cases hother : s.agents[other]? with
      | none => exact none_check hother now ip
      | some agent => exact insert_check hother now ip
  | getAllAgentStatus => exact Std.ExtTreeMap.getElem?_map
  | isAgentOnline other =>
      change (s.isAgentOnline now other).1.agents[ip]? =
        if decide (other = ip) = true then _ else s.agents[ip]?
      rw [if_congr decide_eq_true_iff rfl rfl, Registry.isAgentOnline]
      cases hother : s.agents[other]? with
      | none => exact none_check hother now ip
      | some agent =>
          cases hsilent : agent.silent now with
          | true =>
              simp only [hsilent, if_true]
              exact insert_check hother now ip
          | false =>
              simp only [hsilent, Bool.false_eq_true, if_false]
              split
              · next heq =>
                subst heq
                rw [hother, Option.map_some, check_of_not_silent hsilent]
              · rfl

/-- Audit lines about an agent. -/
def about (ip : String) (lines : List AuditLine) : List AuditLine :=
  lines.filter fun line => line.ip = ip

theorem about_append (ip : String) (before after : List AuditLine) :
    about ip (before ++ after) = about ip before ++ about ip after := List.filter_append ..

/-- The audit lines that a query about one agent brings. -/
theorem about_check {s : Registry} {other : String} {agent : AgentStatus}
    (h : s.agents[other]? = some agent) (now : ℤ) (ip : String) :
    about ip (agent.check now other).2 =
      if other = ip then (s.agents[ip]?).toList.flatMap fun agent => (agent.check now ip).2
      else [] := by
  rw [about, filter_ip_eq_self fun line => ip_of_mem_check]
  split
  · next heq =>
    subst heq
    rw [h, Option.toList_some, List.flatMap_singleton]
  · rfl

/-- The audit lines about an agent behind a call. -/
theorem audit_handle (s : Registry) (e : Event) (ip : String) :
    about ip (s.handle e).1.audit = about ip s.audit ++
      match e.call.beat? ip with
      | some request =>
        if (s.agents[ip]?).any AgentStatus.online then [] else [.online request.hostName ip]
      | none =>
        if e.call.checks ip then
          (s.agents[ip]?).toList.flatMap fun agent => (agent.check e.now ip).2
        else [] := by
  obtain ⟨now, call⟩ := e
  have hskip : ∀ {other : String}, s.agents[other]? = none → about ip s.audit =
      about ip s.audit ++ if other = ip then
        (s.agents[ip]?).toList.flatMap fun agent => (agent.check now ip).2 else [] := by
    intro other hother
    split
    · next heq =>
      subst heq
      rw [hother, Option.toList_none, List.flatMap_nil, List.append_nil]
    · rw [List.append_nil]
  cases call with
  | heartbeat request =>
      change about ip (s.audit ++ if (s.agents[request.ipAddr]?).any AgentStatus.online then []
        else [.online request.hostName request.ipAddr]) = about ip s.audit ++
          match if request.ipAddr = ip then some request else none with
          | some request => _
          | none => []
      rw [about_append]
      refine congrArg (about ip s.audit ++ ·) ?_
      have hline : ∀ line ∈ if (s.agents[request.ipAddr]?).any AgentStatus.online then []
          else [AuditLine.online request.hostName request.ipAddr], line.ip = request.ipAddr := by
        intro line hline
        split at hline
        · cases hline
        · rw [List.mem_singleton.mp hline, AuditLine.ip]
      rw [about, filter_ip_eq_self hline]
      split
      · next heq =>
        subst heq
        rfl
      · rfl
  | getAgentStatus other =>
      change about ip (s.getAgentStatus now other).1.audit = about ip s.audit ++
        if decide (other = ip) = true then _ else []
      rw [if_congr decide_eq_true_iff rfl rfl, Registry.getAgentStatus]
      cases hother : s.agents[other]? with
      | none => exact hskip hother
      | some agent => exact (about_append ip _ _).trans (congrArg _ (about_check hother now ip))
  | getAllAgentStatus =>
      exact (about_append ip _ _).trans (congrArg _
        (Folds.filter_flatMap_toList s.agents (fun e line => ip_of_mem_check) ip))
  | isAgentOnline other =>
      change about ip (s.isAgentOnline now other).1.audit = about ip s.audit ++
        if decide (other = ip) = true then _ else []
      rw [if_congr decide_eq_true_iff rfl rfl, Registry.isAgentOnline]
      cases hother : s.agents[other]? with
      | none => exact hskip hother
      | some agent =>
          cases hsilent : agent.silent now with
          | true =>
              simp only [hsilent, if_true]
              exact (about_append ip _ _).trans (congrArg _ (about_check hother now ip))
          | false =>
              simp only [hsilent, Bool.false_eq_true, if_false]
              rw [← about_check hother now ip, check_of_not_silent hsilent]
              exact (List.append_nil _).symm

/-! ## Runs -/

/-- The entries tell of the last heartbeats, and the flag of the silences that were noticed. -/
structure Mirrors (s : Run) : Prop where
  sorted : s.history.Pairwise fun later earlier => earlier.now ≤ later.now
  agents : ∀ ip, s.registry.agents[ip]? = (heard ip s.history).map fun last =>
    { request := last.2, lastHeartbeat := last.1, online := !noticed ip s.history }
  audit : ∀ ip, about ip s.registry.audit = linesOf ip s.history

theorem Mirrors.start : Mirrors {} where
  sorted := List.Pairwise.nil
  agents _ := Std.ExtTreeMap.getElem?_empty
  audit _ := rfl

theorem le_of_step {s t : Run} {e : Event} (h : s.step e = some t)
    (hsorted : s.history.Pairwise fun later earlier => earlier.now ≤ later.now) :
    (∀ earlier ∈ s.history, earlier.now ≤ e.now) ∧
      t = { registry := (s.registry.handle e).1, history := e :: s.history } := by
  rw [Run.step] at h
  split at h
  · cases h
  · next hnot =>
    refine ⟨fun earlier hmem => ?_, (Option.some.inj h).symm⟩
    cases hhistory : s.history with
    | nil =>
        rw [hhistory] at hmem
        cases hmem
    | cons last history =>
        rw [hhistory] at hsorted hmem hnot
        rw [List.head?_cons, Option.any_some, decide_eq_true_eq, not_lt] at hnot
        rcases List.mem_cons.mp hmem with rfl | hmem
        · exact hnot
        · exact ((List.pairwise_cons.mp hsorted).1 earlier hmem).trans hnot

section Checks

variable {s : Run} {now : ℤ}

theorem Mirrors.silent_of_noticed (h : Mirrors s) (hnow : ∀ e ∈ s.history, e.now ≤ now)
    {ip : String} (hnot : silent ip now s.history = false) : noticed ip s.history = false :=
  eq_false_of_ne_true fun hnoticed => by
    rw [HealthCheck.silent_of_noticed h.sorted hnoticed hnow] at hnot
    cases hnot

/-- What the check of an entry comes to. -/
theorem check_entry {last : ℤ × Request} {history : List Event} {ip : String}
    (hlast : heard ip history = some last)
    (hnoticed : silent ip now history = false → noticed ip history = false) :
    AgentStatus.check { request := last.2, lastHeartbeat := last.1, online := !noticed ip history }
        now ip =
      ({ request := last.2, lastHeartbeat := last.1, online := !silent ip now history },
        if silent ip now history = true ∧ ¬noticed ip history = true then
          [.offline last.2.hostName ip (elapsedSeconds now last.1)]
        else []) := by
  have hsilent : silent ip now history =
      decide (elapsedSeconds now last.1 > offlineAfterSec) := by
    rw [silent, hlast, Option.any_some]
  rw [AgentStatus.check, AgentStatus.silent, ← hsilent]
  cases hnow : silent ip now history with
  | true => cases noticed ip history <;> rfl
  | false =>
      rw [hnoticed hnow]
      rfl

/-- The check of an entry finds the silence of its agent. -/
theorem Mirrors.check (h : Mirrors s) (hnow : ∀ e ∈ s.history, e.now ≤ now) (ip : String) :
    (s.registry.agents[ip]?).map (fun agent => (agent.check now ip).1) =
      statusAt ip now s.history := by
  rw [h.agents, Option.map_map, statusAt]
  exact Option.map_congr fun last hlast =>
    congrArg Prod.fst (check_entry hlast (h.silent_of_noticed hnow))

/-- The lines that the check of an entry writes. -/
theorem Mirrors.lines (h : Mirrors s) (hnow : ∀ e ∈ s.history, e.now ≤ now) (ip : String) :
    ((s.registry.agents[ip]?).toList.flatMap fun agent => (agent.check now ip).2) =
      if silent ip now s.history = true ∧ ¬noticed ip s.history = true then
        (heard ip s.history).toList.map fun last =>
          .offline last.2.hostName ip (elapsedSeconds now last.1)
      else [] := by
  rw [h.agents]
  cases hlast : heard ip s.history with
  | none => split <;> rfl
  | some last =>
      rw [Option.map_some, Option.toList_some, List.flatMap_singleton,
        check_entry hlast (h.silent_of_noticed hnow)]
      rfl

end Checks

theorem Mirrors.step {s t : Run} {e : Event} (h : Mirrors s) (ht : s.step e = some t) :
    Mirrors t := by
  obtain ⟨hnow, rfl⟩ := le_of_step ht h.sorted
  refine ⟨List.pairwise_cons.mpr ⟨hnow, h.sorted⟩, fun ip => ?_, fun ip => ?_⟩
  · rw [agents_handle, heard, noticed]
    cases hbeat : e.call.beat? ip with
    | some request => rfl
    | none =>
        dsimp only
        split
        · next hchecks =>
          rw [h.check hnow, statusAt, hchecks, Bool.true_and]
          refine Option.map_congr fun last hlast => ?_
          have hor : (noticed ip s.history || silent ip e.now s.history) =
              silent ip e.now s.history := by
            cases hsilent : silent ip e.now s.history with
            | true => exact Bool.or_true _
            | false => rw [h.silent_of_noticed hnow hsilent, Bool.or_false]
          rw [hor]
        · next hchecks =>
          rw [h.agents, eq_false_of_ne_true hchecks, Bool.false_and, Bool.or_false]
  · rw [audit_handle, linesOf, lineOf, h.audit]
    refine congrArg (linesOf ip s.history ++ ·) ?_
    cases hbeat : e.call.beat? ip with
    | some request =>
        dsimp only
        rw [h.agents]
        cases hlast : heard ip s.history with
        | none => rfl
        | some last => cases noticed ip s.history <;> simp
    | none =>
        dsimp only
        rw [h.lines hnow]
        exact (ite_and ..).symm

/-- The states of drop_server under a steady clock. -/
abbrev Run.Reachable : Run → Prop := Transition.Reachable Run.step (fun _ _ => True) {}

theorem mirrors_of_reachable {s : Run} (h : s.Reachable) : Mirrors s :=
  h.invariant Mirrors.start fun _ _ _ hs _ ht => hs.step ht

/-! ## Answers -/

theorem ipAddr_of_statusAt {ip : String} {now : ℤ} {history : List Event} {status : AgentStatus}
    (h : statusAt ip now history = some status) : status.request.ipAddr = ip := by
  obtain ⟨last, hlast, rfl⟩ := Option.map_eq_some_iff.mp h
  exact ipAddr_of_heard hlast

theorem isAgentOnline_snd (s : Registry) (now : ℤ) (ip : String) :
    (s.isAgentOnline now ip).2 = (s.agents[ip]?).any fun agent => !agent.silent now := by
  rw [Registry.isAgentOnline]
  cases s.agents[ip]? with
  | none => rfl
  | some agent => cases hsilent : agent.silent now <;> simp [hsilent]

theorem Mirrors.right {s : Run} (h : Mirrors s) {e : Event}
    (hnow : ∀ earlier ∈ s.history, earlier.now ≤ e.now) :
    Answer.Right s.history e.now e.call (s.registry.handle e).2 := by
  obtain ⟨now, call⟩ := e
  have hcheck := h.check hnow
  cases call with
  | heartbeat request => rfl
  | getAgentStatus ip =>
      change Answer.agent (s.registry.getAgentStatus now ip).2 = .agent _
      rw [← hcheck ip, Registry.getAgentStatus]
      cases s.registry.agents[ip]? <;> rfl
  | getAllAgentStatus =>
      have hentry : ∀ entry ∈ s.registry.agents.toList,
          statusAt entry.1 now s.history = some (entry.2.check now entry.1).1 := fun entry hmem => by
        rw [← hcheck, Std.ExtTreeMap.mem_toList_iff_getElem?_eq_some.mp hmem, Option.map_some]
      refine ⟨_, rfl, ?_, fun status => ?_⟩
      · have hkeys : (s.registry.agents.toList.map fun entry => (entry.2.check now entry.1).1).map
            (fun status => status.request.ipAddr) = s.registry.agents.toList.map Prod.fst := by
          rw [List.map_map]
          exact List.map_congr_left fun entry hmem => ipAddr_of_statusAt (hentry entry hmem)
        rw [hkeys, List.nodup_iff_pairwise_ne, List.pairwise_map]
        refine s.registry.agents.distinct_keys_toList.imp fun hne heq => hne ?_
        rw [heq]
        exact Std.ReflCmp.compare_self
      · rw [List.mem_map]
        constructor
        · rintro ⟨entry, hmem, rfl⟩
          exact ⟨entry.1, hentry entry hmem⟩
        · rintro ⟨ip, hstatus⟩
          rw [← hcheck] at hstatus
          obtain ⟨agent, hagent, rfl⟩ := Option.map_eq_some_iff.mp hstatus
          exact ⟨(ip, agent), Std.ExtTreeMap.mem_toList_iff_getElem?_eq_some.mpr hagent, rfl⟩
  | isAgentOnline ip =>
      change Answer.online (s.registry.isAgentOnline now ip).2 = .online _
      rw [isAgentOnline_snd, statusAt, h.agents]
      cases hlast : heard ip s.history with
      | none => rfl
      | some last => simp [silent, hlast, AgentStatus.silent]

/-! ## Turns -/

/-- The last line tells whether the agent was online. -/
structure Turns (ip : String) (history : List Event) : Prop where
  takes : TakesTurns (linesOf ip history)
  unheard : heard ip history = none → linesOf ip history = []
  last : (heard ip history).isSome → ∃ line ∈ (linesOf ip history).getLast?,
    line.isOnline = !noticed ip history

theorem TakesTurns.concat {lines : List AuditLine} (h : TakesTurns lines) {line : AuditLine}
    (hfirst : lines = [] → line.isOnline = true)
    (hlast : ∀ before ∈ lines.getLast?, line.isOnline = !before.isOnline) :
    TakesTurns (lines ++ [line]) := by
  refine ⟨fun first hmem => ?_, ?_⟩
  · cases lines with
    | nil =>
        obtain rfl : line = first := by simpa using hmem
        exact hfirst rfl
    | cons before lines => exact h.first first hmem
  · rw [List.isChain_append]
    refine ⟨h.chain, List.isChain_singleton _, fun before hbefore after hafter => ?_⟩
    obtain rfl : line = after := by simpa using hafter
    exact hlast before hbefore

/-- A line that turns the agent the other way. -/
theorem Turns.concat {ip : String} {history : List Event} (h : Turns ip history) {line : AuditLine}
    (hunheard : heard ip history = none → line.isOnline = true)
    (hheard : (heard ip history).isSome → line.isOnline = noticed ip history) :
    TakesTurns (linesOf ip history ++ [line]) := by
  refine h.takes.concat (fun hnil => ?_) fun before hbefore => ?_
  · cases hlast : heard ip history with
    | none => exact hunheard hlast
    | some last =>
        obtain ⟨before, hbefore, -⟩ := h.last (by rw [hlast]; rfl)
        rw [hnil] at hbefore
        cases hbefore
  · cases hlast : heard ip history with
    | none =>
        rw [h.unheard hlast] at hbefore
        cases hbefore
    | some last =>
        have hsome : (heard ip history).isSome = true := by rw [hlast]; rfl
        obtain ⟨_, hmem, honline⟩ := h.last hsome
        obtain rfl := Option.mem_unique hmem hbefore
        rw [hheard hsome, honline, Bool.not_not]

theorem turns (ip : String) (history : List Event) : Turns ip history := by
  induction history with
  | nil =>
      refine ⟨⟨fun line h => ?_, List.isChain_nil⟩, fun _ => rfl, fun h => ?_⟩
      · cases h
      · cases h
  | cons e history ih =>
      have hlines : linesOf ip (e :: history) = linesOf ip history ++ lineOf ip e history := rfl
      have hconcat : ∀ line : AuditLine, line ∈ (linesOf ip history ++ [line]).getLast? := fun _ =>
        List.getLast?_concat
      cases hbeat : e.call.beat? ip with
      | some request =>
          have hheard : heard ip (e :: history) = some (e.now, request) := by rw [heard, hbeat]
          have hnoticed : noticed ip (e :: history) = false := by rw [noticed, hbeat]
          simp only [lineOf, hbeat] at hlines
          by_cases hback : heard ip history = none ∨ noticed ip history = true
          · rw [if_pos hback] at hlines
            refine ⟨?_, fun h => ?_, fun _ => ?_⟩
            · rw [hlines]
              refine ih.concat (fun _ => rfl) fun hsome => (hback.resolve_left fun hnone => ?_).symm
              rw [hnone] at hsome
              cases hsome
            · rw [hheard] at h
              cases h
            · rw [hlines, hnoticed]
              exact ⟨_, hconcat _, rfl⟩
          · rw [if_neg hback, List.append_nil] at hlines
            rw [not_or, Bool.not_eq_true] at hback
            refine ⟨hlines ▸ ih.takes, fun h => ?_, fun _ => ?_⟩
            · rw [hheard] at h
              cases h
            · rw [hlines, hnoticed, ← hback.2]
              exact ih.last (Option.isSome_iff_ne_none.mpr hback.1)
      | none =>
          have hheard : heard ip (e :: history) = heard ip history := by rw [heard, hbeat]
          have hnoticed : noticed ip (e :: history) =
              (noticed ip history || (e.call.checks ip && silent ip e.now history)) := by
            rw [noticed, hbeat]
          simp only [lineOf, hbeat] at hlines
          by_cases hfound : e.call.checks ip = true ∧ silent ip e.now history = true ∧
              ¬noticed ip history = true
          · obtain ⟨last, hlast⟩ := exists_heard_of_silent hfound.2.1
            rw [hlast, Option.toList_some, List.map_singleton, if_pos hfound] at hlines
            have hnot := eq_false_of_ne_true hfound.2.2
            refine ⟨?_, fun h => ?_, fun _ => ?_⟩
            · rw [hlines]
              refine ih.concat (fun h => ?_) fun _ => hnot.symm
              rw [hlast] at h
              cases h
            · rw [hheard, hlast] at h
              cases h
            · rw [hlines, hnoticed, hfound.1, hfound.2.1, Bool.and_self, Bool.or_true]
              exact ⟨_, hconcat _, rfl⟩
          · rw [if_neg hfound, List.append_nil] at hlines
            have hsame : noticed ip (e :: history) = noticed ip history := by
              rw [hnoticed]
              cases hnot : noticed ip history with
              | true => rfl
              | false =>
                  refine eq_false_of_ne_true fun h => hfound ?_
                  obtain ⟨hchecks, hsilent⟩ := Bool.and_eq_true_iff.mp h
                  exact ⟨hchecks, hsilent, by rw [hnot]; exact Bool.false_ne_true⟩
            refine ⟨hlines ▸ ih.takes, fun h => ?_, fun h => ?_⟩
            · rw [hlines]
              exact ih.unheard (hheard ▸ h)
            · rw [hlines, hsame]
              exact ih.last (hheard ▸ h)

/-! ## The results -/

/-- Every query answers by the last heartbeats. -/
theorem answers_right {s : Run} (h : s.Reachable) {e : Event} (hclock : (s.step e).isSome) :
    Answer.Right s.history e.now e.call (s.registry.handle e).2 := by
  have hmirrors := mirrors_of_reachable h
  obtain ⟨t, ht⟩ := Option.isSome_iff_exists.mp hclock
  exact hmirrors.right (le_of_step ht hmirrors.sorted).1

/-- An agent is silent for 31 seconds, which the cleanup thread notices. -/
def outage : List Event :=
  [⟨0, .heartbeat { hostName := "node", ipAddr := "10.0.0.1" }⟩,
    ⟨31000000000, .getAllAgentStatus⟩,
    ⟨40000000000, .heartbeat { hostName := "node", ipAddr := "10.0.0.1" }⟩]

theorem reachable_outage : (Transition.after Run.step {} outage).Reachable :=
  Transition.Along.reachable (by decide +kernel) (by decide +kernel)

theorem answers_right_outage :
    Answer.Right (Transition.after Run.step {} outage).history 50000000000
      (.isAgentOnline "10.0.0.1")
      ((Transition.after Run.step {} outage).registry.handle
        ⟨50000000000, .isAgentOnline "10.0.0.1"⟩).2 :=
  answers_right (e := ⟨50000000000, .isAgentOnline "10.0.0.1"⟩) reachable_outage (by decide +kernel)

/-- The audit lines tell of each silence that some query fell into. -/
theorem audited {s : Run} (h : s.Reachable) : Audited s := fun ip =>
  ⟨(mirrors_of_reachable h).audit ip, (turns ip s.history).takes⟩

theorem audited_outage : Audited (Transition.after Run.step {} outage) := audited reachable_outage

end MiniDrop.HealthCheck
