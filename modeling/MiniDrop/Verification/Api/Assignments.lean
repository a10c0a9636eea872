import MiniDrop.Verification.Api.AgentSync
import MiniDrop.Verification.Api.Tenants

/-! # The group that an agent was added to

AddAgent and the copy of the rows from drop_server write the same column. The copy takes the first
group of the user that drop_server names, or of the user that lists the agents. -/

namespace MiniDrop

/-! ## Statement -/

def agentAdded : Answer := ⟨200, 0, "agent added to group"⟩

namespace Database

/-- The agent that a query for its id finds. -/
def agentOf? (db : Database) (id : ℕ) : Option AgentInfo :=
  db.agents.find? fun agent => agent.id = id

/-- The agents and their audit trails. -/
def fleet (db : Database) : List AgentInfo × List AgentStateHistory := (db.agents, db.agentHistory)

/-- The database after an undisturbed request. -/
def after (db : Database) (request : GroupRequest) : Database := (request.program.run db).2

end Database

/-- The agent is in the group, and every member of the group may use it. -/
structure Assigned (db : Database) (id gid : ℕ) : Prop where
  group : (db.agentOf? id).map AgentInfo.gid = some gid
  reached : ∀ agent ∈ db.agentOf? id, ∀ uid, gid ∈ db.groupsOf uid → Reaches db uid agent.ipAddr

/-- The request succeeds in adding the agent to a group, or in deleting the group. -/
def Releases (db : Database) (id gid : ℕ) : GroupRequest → Prop
  | .addAgent uid other agentId =>
    agentId = id ∧ ((addAgent uid other agentId).run db).1 = .ok agentAdded
  | .deleteGroup uid other =>
    other = gid ∧ ((deleteGroup uid other).run db).1 = .ok ⟨200, 0, "deleted"⟩
  | _ => False

/-- The agent stays assigned through the requests, until one of them releases it. -/
def StaysAssigned (id gid : ℕ) : Database → List GroupRequest → Prop
  | db, [] => Assigned db id gid
  | db, request :: rest =>
    Assigned db id gid ∧ (Releases db id gid request ∨ StaysAssigned id gid (db.after request) rest)

/-! ## The condition -/

/-- What drop_server reports about the address of the agent leads to the group it is in. -/
def SyncKeeps (db : Database) (id gid : ℕ) : GroupRequest → Prop
  | .syncAgents _ uid (some remotes) =>
      ∀ agent ∈ db.agentOf? id, db.agent? agent.ipAddr = some agent →
        ∀ remote ∈ lastReport remotes agent.ipAddr,
          db.agentGroup ((db.firstGroup uid).getD 0) remote = gid
  | _ => True

/-- This holds of all requests, until one of them releases the agent. -/
def SyncsKeep (id gid : ℕ) : Database → List GroupRequest → Prop
  | _, [] => True
  | db, request :: rest => Releases db id gid request ∨
    SyncKeeps db id gid request ∧ SyncsKeep id gid (db.after request) rest

/-! ## Effects of one request -/

section Requests

variable {db : Database} {id gid : ℕ}

theorem preserves_fleet_createGroup (uid name : String) :
    (createGroup gid uid name).Preserves Database.fleet := by
  unfold createGroup
  split
  · exact .pure _
  refine (Program.preserves_update fun s t hs => ?_).bind fun inserted => ?_
  · rw [(Database.createGroup_eq_some hs).2]
    rfl
  · split <;> exact .pure _

theorem preserves_fleet_deleteGroup (uid : String) :
    (deleteGroup uid gid).Preserves Database.fleet := by
  unfold deleteGroup
  apply (preserves_firstGroupRow gid).bind
  intro group
  cases group with
  | none => exact .pure _
  | some group =>
      dsimp only
      split
      · exact .pure _
      refine (Program.preserves_update fun s t hs => ?_).bind fun deleted => ?_
      · rw [← Option.some.inj hs]
        rfl
      · split <;> exact .pure _

theorem preserves_fleet_addMember (uid memberUid : String) :
    (addMember uid gid memberUid).Preserves Database.fleet := by
  unfold addMember
  split
  · exact .pure _
  apply (preserves_ownedGroup uid gid).bind
  intro group
  cases group with
  | none => exact .pure _
  | some group =>
      refine (Program.preserves_transact fun s => ?_).bind fun answer => ?_
      · split
        · rfl
        · next hinsert =>
            rw [(Database.insertMember_eq_some hinsert).2]
            rfl
      · split <;> exact .pure _

theorem preserves_fleet_removeMember (uid targetUid : String) :
    (removeMember uid gid targetUid).Preserves Database.fleet := by
  unfold removeMember
  apply (preserves_ownedGroup uid gid).bind
  intro group
  cases group with
  | none => exact .pure _
  | some group =>
      dsimp only
      split
      · exact .pure _
      refine (Program.preserves_update fun s t hs => ?_).bind fun _ => .pure _
      rw [← Option.some.inj hs]
      rfl

theorem run_ownedGroup (uid : String) (gid : ℕ) (db : Database) :
    (ownedGroup uid gid).run db = ((db.group? gid).filter (·.ownerId = uid), db) := by
  unfold ownedGroup firstGroupRow
  cases hgroup : db.group? gid with
  | none => simp [hgroup]
  | some group => by_cases hown : group.ownerId = uid <;> simp [hgroup, hown, Option.filter]

/-- AddAgent succeeds and moves one agent, or it leaves the agents alone. -/
theorem addAgent_cases (db : Database) (uid : String) (gid id : ℕ) :
    (∃ group agent, db.group? gid = some group ∧ db.agentOf? id = some agent ∧
      Reaches db uid agent.ipAddr ∧ (addAgent uid gid id).run db =
        (.ok agentAdded, db.updateAgent agent.id fun row => { row with gid := group.gid })) ∨
    ((addAgent uid gid id).run db).1 ≠ .ok agentAdded ∧ ((addAgent uid gid id).run db).2 = db := by
  have hsame : ∀ ip, ((canAccessAgentIP uid ip).run db).2 = db := fun ip =>
    (preserves_canAccessAgentIP (f := fun db => db) uid ip).run_eq db
  unfold addAgent
  by_cases hid : id = 0
  · simp [hid]
  simp only [hid, if_false, Program.run_bind, run_ownedGroup]
  cases hgroup : (db.group? gid).filter (·.ownerId = uid) with
  | none => simp [notGroupOwner, agentAdded]
  | some group =>
      simp only [Program.run_bind, Program.run_query]
      cases hagent : db.agents.find? fun agent => agent.id = id with
      | none => simp [agentAdded]
      | some agent =>
          simp only [Program.run_bind, hsame]
          cases haccess : ((canAccessAgentIP uid agent.ipAddr).run db).1 with
          | false => simp [agentAdded]
          | true =>
              refine .inl ⟨group, agent, (Option.filter_eq_some_iff.mp hgroup).1, hagent, haccess,
                ?_⟩
              simp [agentAdded]

end Requests

/-! ## Copied rows -/

/-- The group that the reports leave the agent in. -/
def Database.carriedGroup (db : Database) (ownerGid : ℕ) (remotes : List AgentStatus)
    (agent : AgentInfo) : ℕ :=
  if db.agent? agent.ipAddr = some agent then
    ((lastReport remotes agent.ipAddr).map (db.agentGroup ownerGid)).getD agent.gid
  else agent.gid

/-- The agent before and after the reports. -/
structure Carried (ownerGid : ℕ) (remotes : List AgentStatus) (s t : Database)
    (agent agent' : AgentInfo) : Prop where
  found : t.agentOf? agent.id = some agent'
  address : agent'.ipAddr = agent.ipAddr
  first : t.agent? agent.ipAddr = some agent' ↔ s.agent? agent.ipAddr = some agent
  group : agent'.gid = s.carriedGroup ownerGid remotes agent

section Copies

variable {s t u : Database} {agent agent' : AgentInfo} (now : ℤ) (ownerGid : ℕ)

theorem eq_of_agentOf? (hkeys : AgentsKeyed s) (hfound : s.agentOf? agent.id = some agent)
    {row : AgentInfo} (hrow : row ∈ s.agents) (hid : row.id = agent.id) : row = agent :=
  List.inj_on_of_nodup_map hkeys hrow (List.mem_of_find?_eq_some hfound) hid

/-- Rows that keep their ids and addresses are found as before. -/
theorem find_map_agents {f : AgentInfo → AgentInfo} (hid : ∀ row, (f row).id = row.id)
    (haddr : ∀ row, (f row).ipAddr = row.ipAddr) (hagents : t.agents = s.agents.map f) :
    (∀ id, t.agentOf? id = (s.agentOf? id).map f) ∧ ∀ ip, t.agent? ip = (s.agent? ip).map f := by
  unfold Database.agentOf? Database.agent?
  rw [hagents]
  constructor
  · intro id
    rw [List.find?_map]
    simp only [Function.comp_def, hid]
  · intro ip
    rw [List.find?_map]
    simp only [Function.comp_def, haddr]

theorem syncAgent_carried (hkeys : AgentsKeyed s) (hfound : s.agentOf? agent.id = some agent)
    (hip : agent.ipAddr ≠ "") (remote : AgentStatus) : ∃ agent',
      Carried ownerGid [remote] s ((syncAgent now ownerGid remote).run s).2 agent agent' := by
  have hcarried : s.carriedGroup ownerGid [remote] agent =
      if s.agent? agent.ipAddr = some agent ∧ remote.ipAddr = agent.ipAddr then
        s.agentGroup ownerGid remote else agent.gid := by
    unfold Database.carriedGroup
    by_cases haddr : remote.ipAddr = agent.ipAddr <;> simp [haddr]
  have hmem : agent ∈ s.agents := List.mem_of_find?_eq_some hfound
  unfold syncAgent
  by_cases haddr : remote.ipAddr = ""
  · refine ⟨agent, ?_⟩
    simp only [haddr, if_true, Program.run_pure]
    refine ⟨hfound, rfl, Iff.rfl, ?_⟩
    rw [hcarried, if_neg fun h => hip (h.2.symm.trans haddr)]
  simp only [haddr, if_false, Program.run_bind, run_firstGroupOf, Program.run_query]
  cases hrow : s.agent? remote.ipAddr with
  | none =>
      have hother : remote.ipAddr ≠ agent.ipAddr := by
        intro heq
        have hnone := List.find?_eq_none.mp hrow agent hmem
        exact hnone (decide_eq_true heq.symm)
      refine ⟨agent, ?_, rfl, ?_, ?_⟩
      · show (s.createAgent _).agentOf? agent.id = some agent
        unfold Database.agentOf? at hfound
        unfold Database.agentOf? Database.createAgent
        rw [List.find?_append, hfound, Option.some_or]
      · show (s.createAgent _).agent? agent.ipAddr = some agent ↔ _
        unfold Database.agent? Database.createAgent
        have hsome : (s.agents.find? fun row => row.ipAddr = agent.ipAddr).isSome :=
          List.find?_isSome.mpr ⟨agent, hmem, decide_eq_true rfl⟩
        rw [List.find?_append, Option.or_of_isSome hsome]
      · rw [hcarried, if_neg fun h => hother h.2]
  | some row =>
      have haddress : row.ipAddr = remote.ipAddr := by
        simpa using List.find?_some hrow
      let gid := s.agentGroup ownerGid remote
      let f : AgentInfo → AgentInfo := fun other =>
        if other.id = row.id then other.sync now gid remote else other
      have hid : ∀ other, (f other).id = other.id := by
        intro other
        by_cases h : other.id = row.id <;> simp [f, h, AgentInfo.sync]
      have haddr : ∀ other, (f other).ipAddr = other.ipAddr := by
        intro other
        by_cases h : other.id = row.id <;> simp [f, h, AgentInfo.sync]
      have hupdate : ∀ base : Database, base.agents = s.agents → Carried ownerGid [remote] s
          (base.updateAgent row.id fun other => other.sync now gid remote) agent (f agent) := by
        intro base hbase
        have hagents : (base.updateAgent row.id fun other => other.sync now gid remote).agents =
            s.agents.map f := by
          rw [← hbase]
          rfl
        obtain ⟨hof, hfirst⟩ := find_map_agents hid haddr hagents
        refine ⟨by rw [hof, hfound, Option.map_some], haddr agent, ?_, ?_⟩
        · rw [hfirst]
          constructor
          · intro hsome
            obtain ⟨other, hother, heq⟩ := Option.map_eq_some_iff.mp hsome
            have hsame : other.id = agent.id := by rw [← hid other, heq, hid]
            rw [hother, eq_of_agentOf? hkeys hfound (List.mem_of_find?_eq_some hother) hsame]
          · intro hsome
            rw [hsome, Option.map_some]
        · rw [hcarried]
          by_cases hsame : agent.id = row.id
          · -- the row that the report finds is the agent
            have heq := eq_of_agentOf? hkeys hfound (List.mem_of_find?_eq_some hrow) hsame.symm
            rw [if_pos ⟨by rw [← heq, haddress, hrow], by rw [← heq, haddress]⟩]
            simp [f, hsame, AgentInfo.sync, gid]
          · have hother : ¬ (s.agent? agent.ipAddr = some agent ∧
                remote.ipAddr = agent.ipAddr) := by
              rintro ⟨hsome, heq⟩
              rw [← heq, hrow] at hsome
              exact hsame (congrArg AgentInfo.id (Option.some.inj hsome)).symm
            rw [if_neg hother]
            simp [f, hsame]
      refine ⟨f agent, ?_⟩
      by_cases honline : row.online = remote.online
      · simp only [honline, ne_eq, not_true_eq_false, if_false, Program.run_update,
          Option.getD_some]
        exact hupdate s rfl
      · simp only [honline, ne_eq, not_false_eq_true, if_true, Program.run_update,
          Program.run_bind, Option.getD_some]
        exact hupdate _ rfl

theorem Carried.trans {remote : AgentStatus} {rest : List AgentStatus} {agent'' : AgentInfo}
    (hmembers : t.members = s.members) (hst : Carried ownerGid [remote] s t agent agent')
    (htu : Carried ownerGid rest t u agent' agent'') :
    Carried ownerGid (remote :: rest) s u agent agent'' := by
  have hid : agent'.id = agent.id := by simpa using List.find?_some hst.found
  have hgroup : t.agentGroup ownerGid = s.agentGroup ownerGid := by
    funext remote
    unfold Database.agentGroup Database.firstGroup Database.groupsOf
    rw [hmembers]
  refine ⟨hid ▸ htu.found, htu.address.trans hst.address, ?_, ?_⟩
  · rw [← hst.first, ← hst.address]
    exact htu.first
  · rw [htu.group]
    unfold Database.carriedGroup
    rw [hst.address, hgroup, hst.group]
    unfold Database.carriedGroup
    simp only [hst.first, lastReport_cons, lastReport_nil, Option.none_or]
    by_cases hfirst : s.agent? agent.ipAddr = some agent
    · simp only [hfirst, if_true]
      cases lastReport rest agent.ipAddr <;> simp
    · simp only [hfirst, if_false]

theorem syncEach_carried (hkeys : AgentsKeyed s) (hfound : s.agentOf? agent.id = some agent)
    (hip : agent.ipAddr ≠ "") (remotes : List AgentStatus) : ∃ agent',
      Carried ownerGid remotes s ((syncEach now ownerGid remotes).run s).2 agent agent' := by
  induction remotes generalizing s agent with
  | nil => exact ⟨agent, hfound, rfl, Iff.rfl, by simp [Database.carriedGroup]⟩
  | cons remote rest ih =>
      obtain ⟨hgoesOn, hreported⟩ := syncAgent_spec now ownerGid hkeys remote
      obtain ⟨agent', hfirst⟩ := syncAgent_carried now ownerGid hkeys hfound hip remote
      have hid : agent'.id = agent.id := by simpa using List.find?_some hfirst.found
      obtain ⟨agent'', hrest⟩ := ih hreported.keyed (hid ▸ hfirst.found)
        (hfirst.address ▸ hip)
      unfold syncEach
      simp only [Program.run_bind, hgoesOn, if_true]
      exact ⟨agent'', hfirst.trans _ hreported.members hrest⟩

end Copies

/-! ## Runs -/

section Requests

variable {db : Database} {agent : AgentInfo} {id gid : ℕ}

theorem assigned_iff (hagent : db.agentOf? id = some agent) (hip : agent.ipAddr ≠ "") :
    Assigned db id gid ↔ agent.gid = gid := by
  constructor
  · intro h
    have hgroup := h.group
    rw [hagent] at hgroup
    exact Option.some.inj hgroup
  · intro hgid
    refine ⟨by rw [hagent, Option.map_some, hgid], ?_⟩
    intro other hother uid hmember
    obtain rfl := Option.some.inj (hagent.symm.trans hother)
    refine (reaches_of_open (List.mem_of_find?_eq_some hagent) (.inr (.inr ?_))).mpr hip
    rwa [hgid]

/-- One agent moves to a group. -/
theorem agentOf?_move (db : Database) (agentId id gid : ℕ) :
    (db.updateAgent agentId fun row => { row with gid }).agentOf? id =
      (db.agentOf? id).map fun row => if row.id = agentId then { row with gid } else row := by
  have hagents : (db.updateAgent agentId fun row => { row with gid }).agents =
      db.agents.map fun row => if row.id = agentId then { row with gid } else row := rfl
  refine (find_map_agents ?_ ?_ hagents).1 id
  · intro row
    split <;> rfl
  · intro row
    split <;> rfl

/-- What a request leaves of an agent that it does not release. -/
theorem after_agentOf? (hkeys : AgentsKeyed db) (hagent : db.agentOf? id = some agent)
    (hip : agent.ipAddr ≠ "") (hgid : agent.gid = gid) {request : GroupRequest}
    (hkeeps : ¬ Releases db id gid request) : AgentsKeyed (db.after request) ∧
      ∃ agent', (db.after request).agentOf? id = some agent' ∧ agent'.ipAddr = agent.ipAddr ∧
        (agent'.gid = gid ↔ SyncKeeps db id gid request) := by
  have hid : agent.id = id := by simpa using List.find?_some hagent
  have hsame : (db.after request).agents = db.agents → SyncKeeps db id gid request →
      AgentsKeyed (db.after request) ∧ ∃ agent', (db.after request).agentOf? id = some agent' ∧
        agent'.ipAddr = agent.ipAddr ∧ (agent'.gid = gid ↔ SyncKeeps db id gid request) := by
    intro hagents hsync
    unfold AgentsKeyed Database.agentOf?
    rw [hagents]
    exact ⟨hkeys, agent, hagent, rfl, iff_of_true hgid hsync⟩
  cases request with
  | createGroup other uid name =>
      refine hsame ?_ trivial
      exact congrArg Prod.fst
        (((preserves_fleet_createGroup uid name).bind fun _ => .pure ()).run_eq db)
  | deleteGroup uid other =>
      refine hsame ?_ trivial
      exact congrArg Prod.fst
        (((preserves_fleet_deleteGroup uid).bind fun _ => .pure ()).run_eq db)
  | addMember uid other memberUid =>
      refine hsame ?_ trivial
      exact congrArg Prod.fst
        (((preserves_fleet_addMember uid memberUid).bind fun _ => .pure ()).run_eq db)
  | removeMember uid other targetUid =>
      refine hsame ?_ trivial
      exact congrArg Prod.fst
        (((preserves_fleet_removeMember uid targetUid).bind fun _ => .pure ()).run_eq db)
  | addAgent uid other agentId =>
      have hafter : db.after (.addAgent uid other agentId) =
          ((addAgent uid other agentId).run db).2 := by
        simp [Database.after, GroupRequest.program]
      rcases addAgent_cases db uid other agentId with
        ⟨group, row, -, hrow, -, hrun⟩ | ⟨-, hrun⟩
      · have hrowid : row.id = agentId := by simpa using List.find?_some hrow
        have hne : agent.id ≠ row.id := by
          rw [hid, hrowid]
          exact fun heq => hkeeps ⟨heq.symm, by rw [hrun]⟩
        rw [hafter, hrun]
        refine ⟨hkeys.updateAgent fun _ => rfl, agent, ?_, rfl, iff_of_true hgid trivial⟩
        rw [agentOf?_move, hagent, Option.map_some, if_neg hne]
      · exact hsame (by rw [hafter, hrun]) trivial
  | syncAgents now uid remotes =>
      cases remotes with
      | none => exact hsame rfl trivial
      | some remotes =>
          have hafter : db.after (.syncAgents now uid (some remotes)) =
              ((syncEach now ((db.firstGroup uid).getD 0) remotes).run db).2 := by
            simp [Database.after, GroupRequest.program, syncAgentsFromDrop]
          obtain ⟨agent', hcarried⟩ := syncEach_carried now ((db.firstGroup uid).getD 0) hkeys
            (hid ▸ hagent) hip remotes
          rw [hafter]
          refine ⟨(syncEach_spec now _ hkeys remotes).keyed, agent', hid ▸ hcarried.found,
            hcarried.address, ?_⟩
          rw [hcarried.group]
          unfold Database.carriedGroup SyncKeeps
          simp only [hagent, Option.mem_def, Option.some.injEq, forall_eq']
          by_cases hfirst : db.agent? agent.ipAddr = some agent
          · cases lastReport remotes agent.ipAddr <;> simp [hfirst, hgid]
          · simp [hfirst, hgid]

/-- Agents stay in their group exactly as long as what drop_server reports leads to it. -/
theorem staysAssigned_of_agent (hkeys : AgentsKeyed db) (hagent : db.agentOf? id = some agent)
    (hip : agent.ipAddr ≠ "") (hgid : agent.gid = gid) (requests : List GroupRequest) :
    StaysAssigned id gid db requests ↔ SyncsKeep id gid db requests := by
  induction requests generalizing db agent with
  | nil => exact iff_true_intro ((assigned_iff hagent hip).mpr hgid)
  | cons request rest ih =>
      unfold StaysAssigned SyncsKeep
      rw [and_iff_right ((assigned_iff hagent hip).mpr hgid)]
      by_cases hreleases : Releases db id gid request
      · exact iff_of_true (.inl hreleases) (.inl hreleases)
      rw [or_iff_right hreleases, or_iff_right hreleases]
      obtain ⟨hkeys', agent', hagent', haddr, hsync⟩ :=
        after_agentOf? hkeys hagent hip hgid hreleases
      by_cases hkept : agent'.gid = gid
      · rw [and_iff_right (hsync.mp hkept)]
        exact ih hkeys' hagent' (haddr ▸ hip) hkept
      · refine iff_of_false (fun hstays => hkept ?_) fun h => hkept (hsync.mpr h.1)
        refine (assigned_iff hagent' (haddr ▸ hip)).mp ?_
        cases rest with
        | nil => exact hstays
        | cons request rest => exact hstays.1

/-- After a successful AddAgent the agent stays in the group through later requests exactly as long
as what drop_server reports leads to it. -/
theorem staysAssigned_iff {uid : String} {group : Group} (hkeys : AgentsKeyed db)
    (hgroup : db.group? gid = some group)
    (hadded : ((addAgent uid gid id).run db).1 = .ok agentAdded) (requests : List GroupRequest) :
    StaysAssigned id group.gid ((addAgent uid gid id).run db).2 requests ↔
      SyncsKeep id group.gid ((addAgent uid gid id).run db).2 requests := by
  rcases addAgent_cases db uid gid id with ⟨group', agent, hgroup', hagent, hreach, hrun⟩ | ⟨hne, -⟩
  · obtain rfl := Option.some.inj (hgroup.symm.trans hgroup')
    rw [hrun]
    dsimp only
    have hmoved : (db.updateAgent agent.id fun row => { row with gid := group.gid }).agentOf? id =
        some { agent with gid := group.gid } := by
      rw [agentOf?_move, hagent, Option.map_some, if_pos rfl]
    have hkeys' : AgentsKeyed (db.updateAgent agent.id fun row => { row with gid := group.gid }) :=
      hkeys.updateAgent fun _ => rfl
    have hip : agent.ipAddr ≠ "" := (reaches_iff.mp hreach).1
    exact staysAssigned_of_agent hkeys' hmoved hip rfl requests
  · exact absurd hadded hne

/-- User c owns group 1, of which b is a member; the agent belongs to a. -/
def sharedGroup : Database :=
  { groups := (∅ : Std.ExtTreeMap ℕ Group).insert 1 { gid := 1, name := "ops", ownerId := "c" }
    members := [⟨1, "c"⟩, ⟨1, "b"⟩]
    agents := [{ id := 1, ipAddr := "10.0.0.7", uid := "a" }] }

/-- Member b lists the agents. -/
theorem staysAssigned_sharedGroup :
    ((addAgent "c" 1 1).run sharedGroup).1 = .ok agentAdded ∧
      (StaysAssigned 1 1 ((addAgent "c" 1 1).run sharedGroup).2
          [.syncAgents 0 "b" (some [{ ipAddr := "10.0.0.7", uid := "a" }])] ↔
        SyncsKeep 1 1 ((addAgent "c" 1 1).run sharedGroup).2
          [.syncAgents 0 "b" (some [{ ipAddr := "10.0.0.7", uid := "a" }])]) := by
  have hrun : AgentsKeyed sharedGroup ∧
      sharedGroup.group? 1 = some { gid := 1, name := "ops", ownerId := "c" } ∧
      ((addAgent "c" 1 1).run sharedGroup).1 = .ok agentAdded := by
    decide +kernel
  obtain ⟨hkeys, hgroup, hadded⟩ := hrun
  exact ⟨hadded, staysAssigned_iff hkeys hgroup hadded _⟩

/-- User a is in group 2. -/
def otherGroup : Database := { sharedGroup with members := ⟨2, "a"⟩ :: sharedGroup.members }

/-- Whoever lists the agents moves the agent of a to group 2. -/
theorem not_staysAssigned : ¬ ∀ (db : Database) (uid : String) (gid id : ℕ) (group : Group)
    (requests : List GroupRequest), AgentsKeyed db → db.group? gid = some group →
      ((addAgent uid gid id).run db).1 = .ok agentAdded →
        StaysAssigned id group.gid ((addAgent uid gid id).run db).2 requests := by
  intro h
  let added := ((addAgent "c" 1 1).run otherGroup).2
  let listing : GroupRequest := .syncAgents 0 "b" (some [{ ipAddr := "10.0.0.7", uid := "a" }])
  have hrun : AgentsKeyed otherGroup ∧
      otherGroup.group? 1 = some { gid := 1, name := "ops", ownerId := "c" } ∧
      ((addAgent "c" 1 1).run otherGroup).1 = .ok agentAdded ∧
      ((added.after listing).agentOf? 1).map AgentInfo.gid = some 2 := by
    decide +kernel
  obtain ⟨hkeys, hgroup, hadded, hmoved⟩ := hrun
  rcases (h otherGroup "c" 1 1 _ [listing] hkeys hgroup hadded).2 with hreleases | hassigned
  · exact hreleases
  · rw [hassigned.group] at hmoved
    cases hmoved

end Requests

end MiniDrop
