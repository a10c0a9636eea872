import MiniDrop.Model.Listing
import MiniDrop.Verification.Api.AgentSync
import MiniDrop.Verification.Api.Tenants

/-! # What a user sees in a list

Tasks are listed by the rule that single requests follow. Agents are listed by the groups of their
users, and used by the groups that they are assigned to. -/

namespace MiniDrop

/-! ## Agents -/

/-- The database after the request copied the rows from drop_server. -/
def Database.afterSync (db : Database) (now : ℤ) (uid : String)
    (remotes : Option (List AgentStatus)) : Database :=
  ((syncAgentsFromDrop now uid remotes).run db).2

/-- After the rows were copied, GetAgents lists the agents that the user may use, and the audit log
without an address is about the addresses for which it answers. -/
structure AgentsAgree (db : Database) (now : ℤ) (uid : String)
    (remotes : Option (List AgentStatus)) : Prop where
  listed : ∀ updatedAt, ∃ agents, ((getAgents now uid remotes updatedAt).run db).1 = some agents ∧
    ∀ agent, agent ∈ agents ↔
      agent ∈ (db.afterSync now uid remotes).agents ∧
        Reaches (db.afterSync now uid remotes) uid agent.ipAddr
  audited : ∃ ips : List String,
    (∀ limit, ((getAgentAuditLog now uid remotes "" limit).run db).1 =
      .ok (((db.afterSync now uid remotes).agentHistory.reverse.filter
        fun row => ips.contains row.ipAddr).take (auditLimit limit))) ∧
    ∀ ip, ip ≠ "" → (ip ∈ ips ↔
      ∀ limit, ∃ rows, ((getAgentAuditLog now uid remotes ip limit).run db).1 = .ok rows)

/-- The agents of the user and those in no group have an address. Any other agent opens to the user,
by a row of its address, exactly if the user shares a group with the user of the agent. -/
def GroupsFollowUsers (db : Database) (uid : String) : Prop :=
  ∀ agent ∈ db.agents,
    if agent.uid = uid ∨ agent.gid = 0 then agent.ipAddr ≠ ""
    else SharesGroup db uid agent.uid ↔
      agent.ipAddr ≠ "" ∧ ∃ grant ∈ db.grants agent.ipAddr, Opens db uid grant

section Agents

variable {db : Database} {uid : String}

theorem any_members_iff {owner : String} :
    (db.members.any fun member => member.uid = owner && (db.groupsOf uid).contains member.gid) =
      true ↔ SharesGroup db uid owner := by
  simp only [List.any_eq_true, Bool.and_eq_true, decide_eq_true_eq, List.contains_iff_mem,
    Database.mem_groupsOf]
  constructor
  · rintro ⟨⟨gid, _⟩, htheirs, rfl, hmine⟩
    exact ⟨gid, hmine, htheirs⟩
  · rintro ⟨gid, hmine, htheirs⟩
    exact ⟨⟨gid, owner⟩, htheirs, rfl, hmine⟩

theorem mem_getAgents (db : Database) (now : ℤ) (uid : String)
    (remotes : Option (List AgentStatus)) (updatedAt : ℕ → ℤ) :
    ∃ agents, ((getAgents now uid remotes updatedAt).run db).1 = some agents ∧
      ∀ agent, agent ∈ agents ↔ agent ∈ (db.afterSync now uid remotes).agents ∧
        (agent.uid = uid ∨ agent.gid = 0 ∨
          SharesGroup (db.afterSync now uid remotes) uid agent.uid) := by
  unfold getAgents
  simp only [Program.run_bind, Program.run_query, Option.getD_some]
  refine ⟨_, rfl, fun agent => ?_⟩
  rw [List.mem_mergeSort, List.mem_filter, Bool.or_eq_true, Bool.or_eq_true]
  refine and_congr_right fun _ => ?_
  rw [decide_eq_true_eq, decide_eq_true_eq, or_assoc]
  exact or_congr_right (or_congr_right any_members_iff)

variable {now : ℤ} {remotes : Option (List AgentStatus)}

/-- Without an address there are no rows. -/
theorem run_auditRows_unless (limit : ℕ) (ips : List String) (db : Database) :
    (Program.run (if ips = [] then pure (.ok []) else do pure (.ok (← auditRows limit ips)) :
        Statements (Except Answer (List AgentStateHistory))) db).1 =
      .ok ((db.agentHistory.reverse.filter fun row => ips.contains row.ipAddr).take limit) := by
  by_cases hempty : ips = []
  · simp [hempty]
  · simp [hempty, auditRows]

theorem auditLog_agrees : ∃ ips : List String,
    (∀ limit, ((getAgentAuditLog now uid remotes "" limit).run db).1 =
      .ok (((db.afterSync now uid remotes).agentHistory.reverse.filter
        fun row => ips.contains row.ipAddr).take (auditLimit limit))) ∧
    ∀ ip, ip ≠ "" → (ip ∈ ips ↔
      ∀ limit, ∃ rows, ((getAgentAuditLog now uid remotes ip limit).run db).1 = .ok rows) := by
  unfold getAgentAuditLog Database.afterSync
  simp only [Program.run_bind]
  generalize ((syncAgentsFromDrop now uid remotes).run db).2 = after
  refine ⟨(after.agents.filter fun agent => agent.uid = uid || agent.gid = 0 ||
    (after.groupsOf uid).contains agent.gid).map AgentInfo.ipAddr, fun limit => ?_,
    fun ip hip => ?_⟩
  · simp only [ne_eq, not_true_eq_false, if_false, Program.run_bind, Program.run_query,
      Option.getD_some]
    exact run_auditRows_unless _ _ _
  · simp only [ne_eq, hip, not_false_eq_true, if_true, Program.run_bind]
    have hvisible : ip ∈ (after.agents.filter fun agent => agent.uid = uid || agent.gid = 0 ||
        (after.groupsOf uid).contains agent.gid).map AgentInfo.ipAddr ↔ Reaches after uid ip := by
      simp only [reaches_iff, hip, ne_eq, not_false_eq_true, true_and, List.mem_map,
        List.mem_filter, Bool.or_eq_true, decide_eq_true_eq, List.contains_iff_mem, or_assoc,
        Database.grants]
      constructor
      · rintro ⟨agent, ⟨hmem, hopens⟩, rfl⟩
        exact ⟨_, ⟨agent, ⟨hmem, rfl⟩, rfl⟩, hopens⟩
      · rintro ⟨_, ⟨agent, ⟨hmem, haddr⟩, rfl⟩, hopens⟩
        exact ⟨agent, ⟨hmem, hopens⟩, haddr⟩
    rw [hvisible]
    unfold Reaches
    cases ((canAccessAgentIP uid ip).run after).1 <;> simp

/-- The lists agree exactly where the groups of agents follow from their users. -/
theorem agentsAgree_iff :
    AgentsAgree db now uid remotes ↔ GroupsFollowUsers (db.afterSync now uid remotes) uid := by
  have hagrees : ∀ agent ∈ (db.afterSync now uid remotes).agents,
      ((agent.uid = uid ∨ agent.gid = 0 ∨
          SharesGroup (db.afterSync now uid remotes) uid agent.uid) ↔
        Reaches (db.afterSync now uid remotes) uid agent.ipAddr) ↔
      if agent.uid = uid ∨ agent.gid = 0 then agent.ipAddr ≠ ""
      else SharesGroup (db.afterSync now uid remotes) uid agent.uid ↔ agent.ipAddr ≠ "" ∧
        ∃ grant ∈ (db.afterSync now uid remotes).grants agent.ipAddr,
          Opens (db.afterSync now uid remotes) uid grant := by
    intro agent hmem
    split
    · next hown =>
        rw [← or_assoc, reaches_of_open hmem (hown.imp_right .inl)]
        exact iff_true_left (Or.inl hown)
    · next hother =>
        rw [← or_assoc, or_iff_right hother, reaches_iff]
  constructor
  · rintro ⟨hlisted, -⟩ agent hmem
    obtain ⟨agents, hrun, hagents⟩ := hlisted fun _ => 0
    obtain ⟨agents', hrun', hagents'⟩ := mem_getAgents db now uid remotes fun _ => 0
    obtain rfl := Option.some.inj (hrun.symm.trans hrun')
    refine (hagrees agent hmem).mp ?_
    have hsame := (hagents' agent).symm.trans (hagents agent)
    exact ⟨fun h => (hsame.mp ⟨hmem, h⟩).2, fun h => (hsame.mpr ⟨hmem, h⟩).2⟩
  · intro h
    refine ⟨fun updatedAt => ?_, auditLog_agrees⟩
    obtain ⟨agents, hrun, hagents⟩ := mem_getAgents db now uid remotes updatedAt
    refine ⟨agents, hrun, fun agent => (hagents agent).trans ?_⟩
    exact and_congr_right fun hmem => (hagrees agent hmem).mpr (h agent hmem)

/-- An agent of user a, who is in no group, has been added to a group of user b. -/
def addedAgent : Database :=
  { agents := [{ id := 1, ipAddr := "10.0.0.7", uid := "a", gid := 1 }]
    members := [⟨1, "b"⟩] }

/-- User b may use the agent, and GetAgents does not list it. -/
theorem not_agentsAgree : ¬ ∀ (db : Database) (now : ℤ) (uid : String)
    (remotes : Option (List AgentStatus)), AgentsAgree db now uid remotes := by
  intro h
  obtain ⟨agents, hrun, hagents⟩ := (h addedAgent 0 "b" none).listed fun _ => 0
  obtain ⟨agents', hrun', hagents'⟩ := mem_getAgents addedAgent 0 "b" none fun _ => 0
  obtain rfl := Option.some.inj (hrun.symm.trans hrun')
  have hlisted := (hagents { id := 1, ipAddr := "10.0.0.7", uid := "a", gid := 1 }).mpr
    ⟨by decide, by decide⟩
  rcases ((hagents' _).mp hlisted).2 with huid | hgid | ⟨gid, -, htheirs⟩
  · exact absurd huid (by decide)
  · exact absurd hgid (by decide)
  · exact absurd htheirs (by simp [Database.afterSync, syncAgentsFromDrop, addedAgent])

end Agents

/-! ## Tasks -/

section Tasks

variable (sql : SqlComparison) (store : Option ObjectStore) (presign : String → Option String)
  (db : Database) (uid : String)

/-- What GetTasks counts and lists, and the requests on single tasks answer, for one user. -/
structure TasksAgree : Prop where
  counted : ∃ counted : List (String × HotmethodTask), counted.Nodup ∧
    ((getTasks sql uid { includeWindows := true }).run db).1.total = counted.length ∧
    ∀ tid task, (tid, task) ∈ counted ↔ db.task? tid = some task ∧ CanAccess db uid tid
  detail : ∀ tid task, db.task? tid = some task → ((∃ detail,
    ((getTaskDetail store presign uid tid).run db).1 = .ok detail ∧ detail.task = task) ↔
      CanAccess db uid tid)
  cosFiles : ∀ tid task, db.task? tid = some task → tid ≠ "" →
    ((∃ files, ((getCOSFiles store presign uid tid).run db).1 = .ok files) ↔ CanAccess db uid tid)
  listed : ∀ filter, ∀ row ∈ ((getTasks sql uid filter).run db).1.list,
    db.task? row.1 = some row.2 ∧ CanAccess db uid row.1

variable {sql store presign db uid}

theorem selects_iff {filter : TaskFilter} {task : HotmethodTask} :
    filter.selects sql db.members uid (db.groupsOf uid) task = true ↔
      (task.deleted = false ∧ (task.uid = uid ∨ SharesGroup db uid task.uid)) ∧
        ((filter.status = "" ∨ sql.status filter.status task.status) ∧
          (filter.keyword = "" ∨ sql.like ("%" ++ filter.keyword ++ "%") task.name ∨
            sql.like ("%" ++ filter.keyword ++ "%") task.targetIp) ∧
          (filter.includeWindows = true ∨ task.masterTaskTid = "")) := by
  simp only [TaskFilter.selects, Bool.and_eq_true, Bool.or_eq_true, any_members_iff,
    Bool.not_eq_true', decide_eq_true_eq, and_assoc, or_assoc]

theorem mem_rows_iff {filter : TaskFilter} {tid : String} {task : HotmethodTask} :
    (tid, task) ∈ filter.rows sql uid (db.groupsOf uid) db ↔
      (db.task? tid = some task ∧ CanAccess db uid tid) ∧
        ((filter.status = "" ∨ sql.status filter.status task.status) ∧
          (filter.keyword = "" ∨ sql.like ("%" ++ filter.keyword ++ "%") task.name ∨
            sql.like ("%" ++ filter.keyword ++ "%") task.targetIp) ∧
          (filter.includeWindows = true ∨ task.masterTaskTid = "")) := by
  unfold TaskFilter.rows
  rw [List.mem_filter, selects_iff, Std.ExtTreeMap.mem_toList_iff_getElem?_eq_some, ← and_assoc]
  refine and_congr_left fun _ => ?_
  have hrow : db.task? tid = some task ↔ db.tasks[tid]? = some task ∧ task.deleted = false := by
    rw [Database.task?, Option.filter_eq_some_iff, Bool.not_eq_true']
  rw [canAccess_iff, ← and_assoc, ← hrow]
  refine and_congr_right fun hlive => ?_
  simp only [hlive, Option.some.injEq, exists_eq_left']

theorem mem_of_mem_paginate {α : Type} {offset limit : ℤ} {rows : List α} {row : α}
    (h : row ∈ paginate offset limit rows) : row ∈ rows := by
  unfold paginate at h
  dsimp only at h
  split at h
  · exact List.mem_of_mem_drop h
  · exact List.mem_of_mem_drop (List.mem_of_mem_take h)

theorem nodup_rows {filter : TaskFilter} {gids : List ℕ} :
    (filter.rows sql uid gids db).Nodup := by
  have hnodup : db.tasks.toList.Nodup := by
    refine Std.ExtTreeMap.distinct_keys_toList.imp fun {a b} hne hsame => hne ?_
    rw [hsame]
    exact Std.ReflCmp.compare_self
  exact hnodup.filter _

/-- The rule of checkTaskAccess, in a request that also tells why the query fails. -/
theorem run_mayAccess_of_live (mark : Mark) {tid : String} {task : HotmethodTask}
    (hlive : db.task? tid = some task) :
    ((mayAccess mark uid task).run db).1 = true ↔ CanAccess db uid tid := by
  rw [run_mayAccess, canAccess_iff]
  simp only [hlive, Option.some.injEq, exists_eq_left']

/-- Tasks are listed, counted and shown by one rule. -/
theorem tasksAgree : TasksAgree sql store presign db uid where
  counted := by
    refine ⟨TaskFilter.rows { includeWindows := true } sql uid (db.groupsOf uid) db, nodup_rows,
      ?_, fun tid task => ?_⟩
    · simp [getTasks]
    · rw [mem_rows_iff]
      simp
  detail tid task hlive := by
    rw [← run_mayAccess_of_live {} hlive]
    unfold getTaskDetail firstTask
    simp only [Program.run_bind, Program.run_query, hlive, Program.run_pure]
    cases ((mayAccess {} uid task).run db).1 with
    | true => simp
    | false => simp
  cosFiles tid task hlive htid := by
    rw [← run_mayAccess_of_live {} hlive]
    unfold getCOSFiles firstTask
    simp only [htid, if_false, Program.run_bind, Program.run_query, hlive, Program.run_pure]
    cases ((mayAccess {} uid task).run db).1 with
    | true => simp
    | false => simp
  listed filter row hrow := by
    have hpage : row ∈ (filter.rows sql uid (db.groupsOf uid) db).mergeSort fun a b =>
        decide (b.2.createTime ≤ a.2.createTime) := by
      have hlisted : row ∈ paginate
          (((parseIntDefault filter.page 1 - 1) * parseIntDefault filter.size 20).bmod (2 ^ 64))
          (parseIntDefault filter.size 20)
          ((filter.rows sql uid (db.groupsOf uid) db).mergeSort fun a b =>
            decide (b.2.createTime ≤ a.2.createTime)) := by
        simpa [getTasks] using hrow
      exact mem_of_mem_paginate hlisted
    rw [List.mem_mergeSort] at hpage
    exact (mem_rows_iff.mp hpage).1

/-- A row without a tid. -/
def namelessTask : Database :=
  { tasks := (∅ : StdMap HotmethodTask).insert "" { tid := "", uid := "u" } }

theorem not_cosFiles : ¬ ∀ (db : Database) (uid tid : String) (task : HotmethodTask),
    db.task? tid = some task →
      ((∃ files, ((getCOSFiles none (fun _ => none) uid tid).run db).1 = .ok files) ↔
        CanAccess db uid tid) := by
  intro h
  have hlive : namelessTask.task? "" = some { tid := "", uid := "u" } := by decide +kernel
  have haccess : CanAccess namelessTask "u" "" := by decide +kernel
  obtain ⟨files, hfiles⟩ := (h namelessTask "u" "" _ hlive).mpr haccess
  simp [getCOSFiles] at hfiles

end Tasks

end MiniDrop
