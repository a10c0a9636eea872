import Mathlib.Data.Fintype.EquivFin
import MiniDrop.Model.Groups
import MiniDrop.Verification.Api.Tables

/-! # Who may use an agent after its row was copied

A request that lists agents stores the first group of an agent's user with the agent, and where
this user has no group, the first group of the user that lists them. -/

namespace List

variable {α κ : Type*} [DecidableEq κ] {l : List α} {p : α → Bool} {f : α → α}

theorem filter_map_of_fixed (hp : ∀ a, p (f a) = p a) (hfix : ∀ a ∈ l, p a → f a = a) :
    (l.map f).filter p = l.filter p := by
  induction l with
  | nil => rfl
  | cons a l ih =>
      have htail := ih fun b hb => hfix b (mem_cons_of_mem _ hb)
      by_cases ha : p a
      · rw [map_cons, filter_cons_of_pos (by rw [hp, ha]), filter_cons_of_pos ha, htail,
          hfix a mem_cons_self ha]
      · rw [map_cons, filter_cons_of_neg (by rw [hp]; exact ha), filter_cons_of_neg ha, htail]

/-- The change of the first row that satisfies `p`, found by its key. -/
theorem filter_map_first {key : α → κ} {first : α} (hkeys : (l.map key).Nodup)
    (hp : ∀ a, p (f a) = p a) (hfirst : l.find? p = some first) :
    (l.map fun a => if key a = key first then f a else a).filter p =
      f first :: (l.filter p).tail := by
  induction l with
  | nil => cases hfirst
  | cons a l ih =>
      rw [map_cons, nodup_cons] at hkeys
      by_cases ha : p a
      · rw [find?_cons_of_pos ha] at hfirst
        obtain rfl := Option.some.inj hfirst
        have hother : ∀ b ∈ l, ¬ key b = key a := fun b hb heq =>
          hkeys.1 (heq ▸ mem_map_of_mem hb)
        have hrest : (l.map fun b => if key b = key a then f b else b) = l := by
          conv => rhs; rw [← map_id l]
          exact map_congr_left fun b hb => if_neg (hother b hb)
        rw [map_cons, if_pos rfl, hrest, filter_cons_of_pos (by rw [hp, ha]),
          filter_cons_of_pos ha, tail_cons]
      · rw [find?_cons_of_neg ha] at hfirst
        have hne : ¬ key a = key first := fun heq =>
          hkeys.1 (heq ▸ mem_map_of_mem (mem_of_find?_eq_some hfirst))
        rw [map_cons, if_neg hne, filter_cons_of_neg ha, filter_cons_of_neg ha]
        exact ih hkeys.2 hfirst

end List

namespace MiniDrop

/-! ## Access -/

/-- User and group of each row with this address, as canAccessAgentIP reads them. -/
def Database.grants (db : Database) (ip : String) : List (String × ℕ) :=
  (db.agents.filter fun agent => agent.ipAddr = ip).map fun agent => (agent.uid, agent.gid)

/-- A row opens its agent to the user. -/
def Opens (db : Database) (uid : String) (grant : String × ℕ) : Prop :=
  grant.1 = uid ∨ grant.2 = 0 ∨ grant.2 ∈ db.groupsOf uid

/-- canAccessAgentIP lets the user through. -/
def Reaches (db : Database) (uid ip : String) : Prop :=
  ((canAccessAgentIP uid ip).run db).1 = true

instance (db : Database) (uid ip : String) : Decidable (Reaches db uid ip) :=
  inferInstanceAs (Decidable (_ = true))

theorem reaches_iff {db : Database} {uid ip : String} :
    Reaches db uid ip ↔ ip ≠ "" ∧ ∃ grant ∈ db.grants ip, Opens db uid grant := by
  unfold Reaches canAccessAgentIP
  by_cases hip : ip = ""
  · simp [hip]
  · simp only [hip, if_false, Program.run_bind, Program.run_query, Program.run_pure,
      Option.getD_some, decide_eq_true_eq, gt_iff_lt, List.length_pos_iff_exists_mem,
      List.mem_filter, Bool.and_eq_true, Bool.or_eq_true, List.contains_iff_mem, ne_eq,
      not_false_eq_true, true_and, Database.grants, List.mem_map, or_assoc]
    constructor
    · rintro ⟨agent, hmem, haddr, hopens⟩
      exact ⟨_, ⟨agent, ⟨hmem, haddr⟩, rfl⟩, hopens⟩
    · rintro ⟨_, ⟨agent, ⟨hmem, haddr⟩, rfl⟩, hopens⟩
      exact ⟨agent, hmem, haddr, hopens⟩

/-- The row of an agent that is open to the user opens the address. -/
theorem reaches_of_open {db : Database} {uid : String} {agent : AgentInfo}
    (hmem : agent ∈ db.agents)
    (hopen : agent.uid = uid ∨ agent.gid = 0 ∨ agent.gid ∈ db.groupsOf uid) :
    Reaches db uid agent.ipAddr ↔ agent.ipAddr ≠ "" := by
  rw [reaches_iff]
  refine and_iff_left ⟨(agent.uid, agent.gid), ?_, hopen⟩
  exact List.mem_map_of_mem (List.mem_filter.mpr ⟨hmem, decide_eq_true rfl⟩)

/-! ## The rows after a report -/

/-- Ids are a key, as the primary key of the table has it. -/
def AgentsKeyed (db : Database) : Prop := (db.agents.map AgentInfo.id).Nodup

instance (db : Database) : Decidable (AgentsKeyed db) :=
  inferInstanceAs (Decidable (List.Nodup _))

section Rows

variable {db : Database} {agent : AgentInfo}

theorem AgentsKeyed.createAgent (hkeys : AgentsKeyed db) : AgentsKeyed (db.createAgent agent) := by
  have hfresh : ∀ row ∈ db.agents, row.id ≠ (db.agents.map AgentInfo.id).foldl max 0 + 1 := by
    intro row hrow heq
    have hle := (List.max?_le_iff List.max?_cons').mp le_rfl row.id
      (List.mem_cons_of_mem 0 (List.mem_map_of_mem hrow))
    omega
  unfold AgentsKeyed at hkeys ⊢
  simpa [Database.createAgent, List.nodup_append, hkeys] using hfresh

theorem AgentsKeyed.updateAgent {id : ℕ} {change : AgentInfo → AgentInfo}
    (hid : ∀ row, (change row).id = row.id) (hkeys : AgentsKeyed db) :
    AgentsKeyed (db.updateAgent id change) := by
  have hids : AgentInfo.id ∘ (fun row => if row.id = id then change row else row) =
      AgentInfo.id := by
    funext row
    by_cases h : row.id = id <;> simp [h, hid]
  unfold AgentsKeyed Database.updateAgent
  rw [List.map_map, hids]
  exact hkeys

theorem grants_createAgent (hnone : db.agent? agent.ipAddr = none) (ip : String) :
    (db.createAgent agent).grants ip =
      if agent.ipAddr = ip then (agent.uid, agent.gid) :: (db.grants ip).tail
      else db.grants ip := by
  by_cases hip : agent.ipAddr = ip
  · have hempty : db.agents.filter (fun row => row.ipAddr = ip) = [] := by
      subst hip
      simpa [Database.agent?] using hnone
    simp [Database.grants, Database.createAgent, hip, hempty]
  · simp [Database.grants, Database.createAgent, hip]

theorem grants_updateAgent {change : AgentInfo → AgentInfo} (hkeys : AgentsKeyed db)
    (haddr : ∀ row, (change row).ipAddr = row.ipAddr)
    (hfirst : db.agent? agent.ipAddr = some agent) (ip : String) :
    (db.updateAgent agent.id change).grants ip =
      if agent.ipAddr = ip then ((change agent).uid, (change agent).gid) :: (db.grants ip).tail
      else db.grants ip := by
  unfold Database.grants Database.updateAgent
  by_cases hip : agent.ipAddr = ip
  · subst hip
    rw [if_pos rfl, List.filter_map_first hkeys (by simp [haddr]) hfirst, List.map_cons,
      List.map_tail]
  · have hother : ∀ row ∈ db.agents, decide (row.ipAddr = ip) = true →
        (if row.id = agent.id then change row else row) = row := by
      intro row hrow hrowip
      refine if_neg fun heq => hip ?_
      have hsame := List.inj_on_of_nodup_map hkeys hrow (List.mem_of_find?_eq_some hfirst) heq
      rw [← hsame]
      exact of_decide_eq_true hrowip
    rw [if_neg hip, List.filter_map_of_fixed _ hother]
    intro row
    split <;> simp [haddr]

end Rows

/-! ## One report, and a list of them -/

@[simp] theorem run_firstGroupOf (uid : String) (db : Database) :
    (firstGroupOf uid).run db = (db.firstGroup uid, db) := by
  unfold firstGroupOf
  cases h : db.firstGroup uid <;> simp [h]

/-- The group that the row of an agent gets. -/
def Database.agentGroup (db : Database) (ownerGid : ℕ) (remote : AgentStatus) : ℕ :=
  (db.firstGroup remote.uid).getD ownerGid

/-- The report that counts for an address. -/
def lastReport (remotes : List AgentStatus) (ip : String) : Option AgentStatus :=
  (remotes.filter fun remote => remote.ipAddr = ip).getLast?

@[simp] theorem lastReport_nil (ip : String) : lastReport [] ip = none := rfl

@[simp] theorem lastReport_cons (remote : AgentStatus) (rest : List AgentStatus) (ip : String) :
    lastReport (remote :: rest) ip =
      (lastReport rest ip).or (if remote.ipAddr = ip then some remote else none) := by
  unfold lastReport
  by_cases hip : remote.ipAddr = ip
  · simp only [hip, decide_true, List.filter_cons_of_pos, List.getLast?_cons, if_true]
    cases (rest.filter fun remote => remote.ipAddr = ip).getLast? <;> rfl
  · simp [hip]

/-- What a list of reports leaves of the rows of an address. -/
def Database.regrant (db : Database) (ownerGid : ℕ) (remotes : List AgentStatus) (ip : String) :
    List (String × ℕ) :=
  match lastReport remotes ip with
  | none => db.grants ip
  | some remote => (remote.uid, db.agentGroup ownerGid remote) :: (db.grants ip).tail

structure Reported (ownerGid : ℕ) (remotes : List AgentStatus) (s t : Database) : Prop where
  keyed : AgentsKeyed t
  members : t.members = s.members
  grants : ∀ ip, ip ≠ "" → t.grants ip = s.regrant ownerGid remotes ip

section Reports

variable {db : Database} (now : ℤ) (ownerGid : ℕ)

theorem syncAgent_spec (hkeys : AgentsKeyed db) (remote : AgentStatus) :
    ((syncAgent now ownerGid remote).run db).1 = true ∧
      Reported ownerGid [remote] db ((syncAgent now ownerGid remote).run db).2 := by
  have hregrant : ∀ ip, db.regrant ownerGid [remote] ip =
      if remote.ipAddr = ip then (remote.uid, db.agentGroup ownerGid remote) :: (db.grants ip).tail
      else db.grants ip := by
    intro ip
    by_cases hip : remote.ipAddr = ip <;> simp [Database.regrant, hip]
  unfold syncAgent
  by_cases haddr : remote.ipAddr = ""
  · simp only [haddr, if_true, Program.run_pure, true_and]
    refine ⟨hkeys, rfl, fun ip hip => ?_⟩
    rw [hregrant, if_neg (by rw [haddr]; exact Ne.symm hip)]
  simp only [haddr, if_false, Program.run_bind, run_firstGroupOf, Program.run_query]
  cases hagent : db.agent? remote.ipAddr with
  | none =>
      have hnone : db.agent? (AgentInfo.sync { ipAddr := remote.ipAddr, environment := "default" }
          now (db.agentGroup ownerGid remote) remote).ipAddr = none := hagent
      refine ⟨rfl, hkeys.createAgent, rfl, fun ip _ => ?_⟩
      rw [hregrant]
      exact grants_createAgent hnone ip
  | some agent =>
      have hip : agent.ipAddr = remote.ipAddr := by
        simpa using List.find?_some hagent
      rw [← hip] at hagent hregrant
      -- the audit row does not touch agents
      have hupdate : ∀ s : Database, s.agents = db.agents → s.members = db.members →
          Reported ownerGid [remote] db (s.updateAgent agent.id fun row =>
            row.sync now (db.agentGroup ownerGid remote) remote) := by
        intro s hagents hmembers
        have hkeys' : AgentsKeyed s := by
          unfold AgentsKeyed
          rw [hagents]
          exact hkeys
        have hfirst : s.agent? agent.ipAddr = some agent := by
          unfold Database.agent?
          rw [hagents]
          exact hagent
        have hkeeps : ∀ row : AgentInfo,
            (row.sync now (db.agentGroup ownerGid remote) remote).ipAddr = row.ipAddr :=
          fun _ => rfl
        refine ⟨hkeys'.updateAgent fun _ => rfl, hmembers, fun ip _ => ?_⟩
        rw [hregrant, grants_updateAgent hkeys' hkeeps hfirst]
        unfold Database.grants
        rw [hagents]
        rfl
      by_cases honline : agent.online = remote.online
      · simp only [honline, ne_eq, not_true_eq_false, if_false, Program.run_update,
          Option.isSome_some, Option.getD_some, true_and]
        exact hupdate db rfl rfl
      · simp only [honline, ne_eq, not_false_eq_true, if_true, Program.run_update,
          Program.run_bind, Option.isSome_some, Option.getD_some, true_and]
        exact hupdate _ rfl rfl

theorem Reported.trans {s t u : Database} {remote : AgentStatus} {rest : List AgentStatus}
    (hst : Reported ownerGid [remote] s t) (htu : Reported ownerGid rest t u) :
    Reported ownerGid (remote :: rest) s u := by
  refine ⟨htu.keyed, htu.members.trans hst.members, fun ip hip => ?_⟩
  have hgroup : ∀ remote, t.agentGroup ownerGid remote = s.agentGroup ownerGid remote := by
    intro remote
    unfold Database.agentGroup Database.firstGroup Database.groupsOf
    rw [hst.members]
  rw [htu.grants ip hip]
  unfold Database.regrant
  rw [hst.grants ip hip]
  unfold Database.regrant
  simp only [hgroup, lastReport_cons, lastReport_nil]
  by_cases haddr : remote.ipAddr = ip <;> cases lastReport rest ip <;> simp [haddr]

theorem syncEach_spec (hkeys : AgentsKeyed db) (remotes : List AgentStatus) :
    Reported ownerGid remotes db ((syncEach now ownerGid remotes).run db).2 := by
  induction remotes generalizing db with
  | nil => exact ⟨hkeys, rfl, fun ip _ => by simp [syncEach, Database.regrant]⟩
  | cons remote rest ih =>
      obtain ⟨hgoesOn, hreported⟩ := syncAgent_spec now ownerGid hkeys remote
      unfold syncEach
      simp only [Program.run_bind, hgoesOn, if_true]
      exact hreported.trans _ (ih hreported.keyed)

end Reports

/-! ## Who listed the agents -/

/-- The database after a request of `owner` copied the rows. -/
def Database.synced (db : Database) (now : ℤ) (owner : String) (remotes : List AgentStatus) :
    Database :=
  ((syncAgentsFromDrop now owner (some remotes)).run db).2

/-- What users may use does not depend on the user whose request copied the rows. -/
def SyncIndependent (db : Database) (remotes : List AgentStatus) : Prop :=
  ∀ (now now' : ℤ) (v w u ip : String),
    Reaches (db.synced now v remotes) u ip ↔ Reaches (db.synced now' w remotes) u ip

/-- No row depends on the user that lists the agents: the user of each agent is in a group, or
nobody is, or a further row of the address is open to all. -/
def Unambiguous (db : Database) (remotes : List AgentStatus) : Prop :=
  ∀ ip, ip ≠ "" → ∀ remote ∈ lastReport remotes ip,
    (db.firstGroup remote.uid).isSome ∨
      (∀ member ∈ db.members, db.firstGroup member.uid = some 0) ∨
      ∃ grant ∈ (db.grants ip).tail, grant.2 = 0

section Independence

variable {db : Database} {remotes : List AgentStatus}

theorem reaches_synced (hkeys : AgentsKeyed db) (now : ℤ) (owner uid ip : String) :
    Reaches (db.synced now owner remotes) uid ip ↔ ip ≠ "" ∧
      ∃ grant ∈ db.regrant ((db.firstGroup owner).getD 0) remotes ip, Opens db uid grant := by
  have hreported := syncEach_spec now ((db.firstGroup owner).getD 0) hkeys remotes
  have hrun : db.synced now owner remotes =
      ((syncEach now ((db.firstGroup owner).getD 0) remotes).run db).2 := by
    simp [Database.synced, syncAgentsFromDrop]
  rw [← hrun] at hreported
  rw [reaches_iff]
  refine and_congr_right fun hip => ?_
  rw [hreported.grants ip hip]
  unfold Opens Database.groupsOf
  rw [hreported.members]

/-- The group of a user in no group counts as 0. -/
theorem firstGroup_of_all_zero (h : ∀ member ∈ db.members, db.firstGroup member.uid = some 0)
    (uid : String) : (db.firstGroup uid).getD 0 = 0 := by
  cases hfirst : db.firstGroup uid with
  | none => rfl
  | some gid =>
      have hmem := Database.mem_groupsOf.mp (List.min?_mem hfirst)
      simpa [hfirst] using h _ hmem

/-- A user of whom the database knows nothing. -/
theorem exists_stranger (db : Database) (others : List String) :
    ∃ uid, uid ∉ others ∧ db.groupsOf uid = [] := by
  obtain ⟨uid, huid⟩ := Infinite.exists_notMem_finset
    (others ++ db.members.map GroupMember.uid).toFinset
  rw [List.mem_toFinset, List.mem_append, not_or] at huid
  refine ⟨uid, huid.1, List.eq_nil_iff_forall_not_mem.mpr fun gid hgid => huid.2 ?_⟩
  exact List.mem_map.mpr ⟨_, Database.mem_groupsOf.mp hgid, rfl⟩

/-- Users keep and get the same agents whoever lists them, exactly where no row depends on that
user. -/
theorem syncIndependent_iff (hkeys : AgentsKeyed db) :
    SyncIndependent db remotes ↔ Unambiguous db remotes := by
  constructor
  · intro h ip hip remote hremote
    by_contra hambiguous
    simp only [not_or, Option.not_isSome_iff_eq_none, not_forall, not_exists, not_and] at hambiguous
    obtain ⟨hnone, ⟨member, hmember, hzero⟩, hclosed⟩ := hambiguous
    -- the member moves the agent to a group, and a stranger leaves it open
    obtain ⟨stranger, hstranger, hgroups⟩ :=
      exists_stranger db (remote.uid :: ((db.grants ip).map Prod.fst))
    rw [List.mem_cons, not_or] at hstranger
    obtain ⟨gid, hgid⟩ : ∃ gid, db.firstGroup member.uid = some gid := by
      have hmem : member.gid ∈ db.groupsOf member.uid := Database.mem_groupsOf.mpr hmember
      exact Option.isSome_iff_exists.mp (List.isSome_min?_of_mem hmem)
    have hgroupless : db.firstGroup stranger = none := by
      unfold Database.firstGroup
      rw [hgroups]
      rfl
    have hopen : Reaches (db.synced 0 stranger remotes) stranger ip := by
      refine (reaches_synced hkeys 0 stranger stranger ip).mpr
        ⟨hip, (remote.uid, 0), ?_, .inr (.inl rfl)⟩
      simp [Database.regrant, Option.mem_def.mp hremote, Database.agentGroup, hnone, hgroupless]
    obtain ⟨-, grant, hgrant, hopens⟩ := (reaches_synced hkeys 0 member.uid stranger ip).mp
      ((h 0 0 member.uid stranger stranger ip).mpr hopen)
    simp only [Database.regrant, Option.mem_def.mp hremote, Database.agentGroup, hnone,
      Option.getD_none, hgid, Option.getD_some, List.mem_cons] at hgrant
    unfold Opens at hopens
    simp only [hgroups, List.not_mem_nil, or_false] at hopens
    rcases hgrant with rfl | hgrant
    · rcases hopens with heq | heq
      · exact hstranger.1 heq.symm
      · exact hzero (by rw [hgid, show gid = 0 from heq])
    · rcases hopens with heq | heq
      · exact hstranger.2 (heq ▸ List.mem_map_of_mem (List.mem_of_mem_tail hgrant))
      · exact hclosed grant hgrant heq
  · intro h now now' v w u ip
    simp only [reaches_synced hkeys]
    refine and_congr_right fun hip => ?_
    cases hlast : lastReport remotes ip with
    | none => simp [Database.regrant, hlast]
    | some remote =>
        simp only [Database.regrant, hlast, Database.agentGroup]
        rcases h ip hip remote hlast with hgroup | hzero | ⟨grant, hgrant, hopen⟩
        · obtain ⟨gid, hgid⟩ := Option.isSome_iff_exists.mp hgroup
          simp [hgid]
        · rw [firstGroup_of_all_zero hzero v, firstGroup_of_all_zero hzero w]
        · have hboth : ∀ first, ∃ grant ∈ first :: (db.grants ip).tail, Opens db u grant :=
            fun first => ⟨grant, List.mem_cons_of_mem _ hgrant, .inr (.inl hopen)⟩
          exact iff_of_true (hboth _) (hboth _)

/-- An agent of user a, who is in no group, and a group of user c. -/
def ungroupedAgent : Database :=
  { agents := [{ id := 1, ipAddr := "10.0.0.7", uid := "a" }]
    members := [⟨1, "c"⟩] }

/-- Here the agent of c keeps its group. -/
theorem syncIndependent_iff_ungroupedAgent :
    SyncIndependent ungroupedAgent [{ ipAddr := "10.0.0.8", uid := "c" }] ↔
      Unambiguous ungroupedAgent [{ ipAddr := "10.0.0.8", uid := "c" }] :=
  syncIndependent_iff (by decide)

/-- When c lists the agent of a, it is closed to b. -/
theorem not_syncIndependent : ¬ ∀ (db : Database) (remotes : List AgentStatus),
    AgentsKeyed db → SyncIndependent db remotes := by
  intro h
  have hsame := h ungroupedAgent [{ ipAddr := "10.0.0.7", uid := "a" }] (by decide)
    0 0 "b" "c" "b" "10.0.0.7"
  exact absurd hsame (by decide +kernel)

end Independence

end MiniDrop
