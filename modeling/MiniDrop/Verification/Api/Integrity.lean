import MiniDrop.Verification.Api.Assignments

/-! # What groups, members and agents say of each other

Owners stay in their groups. Whether the group of a member or of an agent is still there depends on
the moment: the requests check it before they write, and DeleteGroup does not look at agents. -/

namespace MiniDrop

/-! ## Statement -/

/-- Members and agents are in groups that are there, as far as agents are in one, and owners are in
theirs. Groups are stored under their ids. -/
structure GroupsIntegral (db : Database) : Prop where
  keyed : ∀ gid (group : Group), db.groups[gid]? = some group → group.gid = gid
  members : ∀ member ∈ db.members, (db.group? member.gid).isSome
  owners : ∀ gid group, db.group? gid = some group → ⟨gid, group.ownerId⟩ ∈ db.members
  agents : ∀ agent ∈ db.agents, agent.gid = 0 ∨ (db.group? agent.gid).isSome

abbrev GroupPool := Pool GroupRequest Mark Database

/-- In all runs of group requests whose steps satisfy `ok`. -/
def KeepsIntegrity (ok : GroupPool → Pool.Event GroupRequest → Prop) : Prop :=
  ∀ start, GroupsIntegral start → ∀ pool : GroupPool,
    Transition.Reachable (Pool.step GroupRequest.program) ok { store := start } pool →
      GroupsIntegral pool.store

/-! ## The condition -/

/-- A group is deleted while no agent is in it, and joined or given to an agent while it is
there. -/
structure GroupsStand (mark : Mark) (s : Database) : Prop where
  dissolves : ∀ gid ∈ mark.dissolves, gid ≠ 0 → ∀ agent ∈ s.agents, agent.gid ≠ gid
  joins : ∀ gid ∈ mark.joins, (s.group? gid).isSome
  assigns : ∀ gid ∈ mark.assigns, gid = 0 ∨ (s.group? gid).isSome

instance (mark : Mark) (s : Database) : Decidable (GroupsStand mark s) :=
  decidable_of_iff
    ((∀ gid ∈ mark.dissolves, gid ≠ 0 → ∀ agent ∈ s.agents, agent.gid ≠ gid) ∧
      (∀ gid ∈ mark.joins, (s.group? gid).isSome) ∧
      ∀ gid ∈ mark.assigns, gid = 0 ∨ (s.group? gid).isSome)
    ⟨fun h => ⟨h.1, h.2.1, h.2.2⟩, fun h => ⟨h.dissolves, h.joins, h.assigns⟩⟩

/-- Statements that take place find the groups that they are about. -/
def FindsGroups (mark : Mark) (s : Database) (fails : Bool) : Prop :=
  fails = false → GroupsStand mark s

instance (mark : Mark) (s : Database) (fails : Bool) : Decidable (FindsGroups mark s fails) :=
  inferInstanceAs (Decidable (_ → _))

abbrev StandingStep : GroupPool → Pool.Event GroupRequest → Prop :=
  Pool.Lawful (fun _ => True) fun _ _ => FindsGroups

/-! ## Members and agents -/

/-- The part that statements keep one by one. -/
structure Anchored (db : Database) : Prop where
  members : ∀ member ∈ db.members, (db.group? member.gid).isSome
  agents : ∀ agent ∈ db.agents, agent.gid = 0 ∨ (db.group? agent.gid).isSome

def anchoring : Guarantee Database where
  inv := Anchored
  rel _ _ := True
  refl _ := trivial
  trans _ _ := trivial

/-- The program keeps members and agents anchored. -/
abbrev KeepsAnchors {α : Type} (p : Statements α) : Prop :=
  anchoring.TripleIf FindsGroups (.top _) p fun _ => .top _

section Programs

variable {s t : Database} {uid : String} {gid : ℕ} {α β : Type}

theorem KeepsAnchors.pure (result : α) : KeepsAnchors (Pure.pure result) := fun _ _ _ => trivial

theorem KeepsAnchors.bind {p : Statements α} {k : α → Statements β} (h : KeepsAnchors p)
    (hk : ∀ result, KeepsAnchors (k result)) : KeepsAnchors (p >>= k) :=
  Guarantee.TripleIf.bind h hk

theorem KeepsAnchors.of_preserves {p : Statements α}
    (h : p.Preserves fun db => (db.agents, db.membership)) : KeepsAnchors p := by
  refine Guarantee.Triple.restrict (.of_preserves (fun s t hsame hinv => ⟨trivial, ?_⟩) h)
  obtain ⟨hagents, hmembers, hgroups⟩ : t.agents = s.agents ∧ t.members = s.members ∧
      t.groups = s.groups := by
    simpa [Database.membership] using hsame
  have hfind : ∀ gid, t.group? gid = s.group? gid := fun gid => by
    unfold Database.group?
    rw [hgroups]
  constructor
  · rw [hmembers]
    simpa only [hfind] using hinv.members
  · rw [hagents]
    simpa only [hfind] using hinv.agents

theorem KeepsAnchors.update {mark : Mark} {change : Database → Option Database}
    (h : ∀ s t, Anchored s → GroupsStand mark s → change s = some t → Anchored t) :
    KeepsAnchors (Program.update mark change) :=
  Guarantee.TripleIf.update (fun s t hinv _ hmay hs => ⟨trivial, h s t hinv (hmay rfl) hs, trivial⟩)
    fun _ _ _ => trivial

/-- A new group is the one that a query for its id finds. -/
theorem group?_createGroup {group : Group} (hlive : group.deleted = false)
    (hcreate : s.createGroup group = some t) (other : ℕ) :
    t.group? other = if group.gid = other then some group else s.group? other := by
  obtain ⟨-, rfl⟩ := Database.createGroup_eq_some hcreate
  unfold Database.group?
  by_cases hgid : group.gid = other
  · simp [hgid, hlive]
  · simp [hgid, Std.ExtTreeMap.getElem?_insert]

/-- No query finds a deleted group. -/
theorem group?_deleteGroup (s : Database) (gid other : ℕ) :
    (s.deleteGroup gid).group? other = if other = gid then none else s.group? other := by
  unfold Database.group?
  rw [Database.groups_deleteGroup]
  by_cases hgid : other = gid
  · rw [if_pos hgid, if_pos hgid]
    cases s.groups[gid]? <;> simp
  · rw [if_neg hgid, if_neg hgid]

theorem Anchored.createGroup {group : Group} (hlive : group.deleted = false)
    (hcreate : s.createGroup group = some t) (h : Anchored s) : Anchored t := by
  have hstays : ∀ gid, (s.group? gid).isSome → (t.group? gid).isSome := by
    intro gid hgid
    rw [group?_createGroup hlive hcreate]
    split
    · rfl
    · exact hgid
  have hnew : (t.group? group.gid).isSome := by
    rw [group?_createGroup hlive hcreate, if_pos rfl]
    rfl
  obtain ⟨-, rfl⟩ := Database.createGroup_eq_some hcreate
  refine ⟨fun member hmem => ?_, fun agent hmem => (h.agents agent hmem).imp_right (hstays _)⟩
  rcases List.mem_append.mp hmem with hmem | hmem
  · exact hstays _ (h.members member hmem)
  · rw [List.mem_singleton.mp hmem]
    exact hnew

theorem Anchored.deleteGroup (hempty : gid ≠ 0 → ∀ agent ∈ s.agents, agent.gid ≠ gid)
    (h : Anchored s) : Anchored (s.deleteGroup gid) := by
  refine ⟨fun member hmem => ?_, fun agent hmem => ?_⟩
  · obtain ⟨hmem, hother⟩ := Database.mem_members_deleteGroup.mp hmem
    rw [group?_deleteGroup, if_neg hother]
    exact h.members member hmem
  · by_cases hzero : agent.gid = 0
    · exact .inl hzero
    · have hother : agent.gid ≠ gid := fun heq => hempty (heq ▸ hzero) agent hmem heq
      rw [group?_deleteGroup, if_neg hother]
      exact h.agents agent hmem

theorem Anchored.insertMember {member : GroupMember} (hstands : (s.group? member.gid).isSome)
    (hinsert : s.insertMember member = some t) (h : Anchored s) : Anchored t := by
  obtain ⟨-, rfl⟩ := Database.insertMember_eq_some hinsert
  refine ⟨fun other hmem => ?_, h.agents⟩
  rcases List.mem_append.mp hmem with hmem | hmem
  · exact h.members other hmem
  · rw [List.mem_singleton.mp hmem]
    exact hstands

theorem Anchored.removeMember (h : Anchored s) : Anchored (s.removeMember gid uid) :=
  ⟨fun member hmem => h.members member (Database.mem_members_removeMember.mp hmem).1, h.agents⟩

theorem Anchored.updateAgent {id : ℕ} {change : AgentInfo → AgentInfo}
    (hgid : ∀ row, (change row).gid = gid) (hstands : gid = 0 ∨ (s.group? gid).isSome)
    (h : Anchored s) : Anchored (s.updateAgent id change) := by
  refine ⟨h.members, fun agent hmem => ?_⟩
  obtain ⟨row, hrow, rfl⟩ := List.mem_map.mp hmem
  split
  · rw [hgid]
    exact hstands
  · exact h.agents row hrow

theorem Anchored.createAgent {agent : AgentInfo}
    (hstands : agent.gid = 0 ∨ (s.group? agent.gid).isSome) (h : Anchored s) :
    Anchored (s.createAgent agent) := by
  refine ⟨h.members, fun row hmem => ?_⟩
  rcases List.mem_append.mp hmem with hmem | hmem
  · exact h.agents row hmem
  · rw [List.mem_singleton.mp hmem]
    exact hstands

/-! ### Requests -/

theorem keepsAnchors_createGroup (uid name : String) :
    KeepsAnchors (createGroup gid uid name) := by
  unfold createGroup
  split
  · exact KeepsAnchors.pure _
  have hinsert : KeepsAnchors (Program.update {} fun db =>
      db.createGroup { gid, name, ownerId := uid }) :=
    KeepsAnchors.update fun s t h _ hs => h.createGroup rfl hs
  refine hinsert.bind fun inserted => ?_
  split <;> exact KeepsAnchors.pure _

theorem keepsAnchors_deleteGroup (uid : String) (gid : ℕ) :
    KeepsAnchors (deleteGroup uid gid) := by
  unfold deleteGroup
  refine (KeepsAnchors.of_preserves (preserves_firstGroupRow gid)).bind fun group => ?_
  cases group with
  | none => exact KeepsAnchors.pure _
  | some group =>
      dsimp only
      split
      · exact KeepsAnchors.pure _
      have hdelete : KeepsAnchors (Program.update { dissolves := some gid } fun db =>
          some (db.deleteGroup gid)) := by
        refine KeepsAnchors.update fun s t h hstands hs => ?_
        rw [← Option.some.inj hs]
        exact h.deleteGroup (hstands.dissolves gid rfl)
      refine hdelete.bind fun deleted => ?_
      split <;> exact KeepsAnchors.pure _

theorem keepsAnchors_addMember (uid : String) (gid : ℕ) (memberUid : String) :
    KeepsAnchors (addMember uid gid memberUid) := by
  unfold addMember
  split
  · exact KeepsAnchors.pure _
  refine (KeepsAnchors.of_preserves (preserves_ownedGroup uid gid)).bind fun group => ?_
  cases group with
  | none => exact KeepsAnchors.pure _
  | some group =>
      refine KeepsAnchors.bind (Guarantee.TripleIf.transact
        (fun s h _ hmay => ⟨trivial, ?_, trivial⟩) fun _ _ _ => trivial) fun answer => ?_
      · have hstands : GroupsStand { joins := some group.gid } s := hmay rfl
        split
        · exact h
        · next hinsert => exact Anchored.insertMember (hstands.joins _ rfl) hinsert h
      · split <;> exact KeepsAnchors.pure _

theorem keepsAnchors_removeMember (uid : String) (gid : ℕ) (targetUid : String) :
    KeepsAnchors (removeMember uid gid targetUid) := by
  unfold removeMember
  refine (KeepsAnchors.of_preserves (preserves_ownedGroup uid gid)).bind fun group => ?_
  cases group with
  | none => exact KeepsAnchors.pure _
  | some group =>
      dsimp only
      split
      · exact KeepsAnchors.pure _
      refine (KeepsAnchors.update fun s t h _ hs => ?_).bind fun _ => KeepsAnchors.pure _
      rw [← Option.some.inj hs]
      exact h.removeMember

theorem keepsAnchors_addAgent (uid : String) (gid agentId : ℕ) :
    KeepsAnchors (addAgent uid gid agentId) := by
  unfold addAgent
  split
  · exact KeepsAnchors.pure _
  refine (KeepsAnchors.of_preserves (preserves_ownedGroup uid gid)).bind fun group => ?_
  cases group with
  | none => exact KeepsAnchors.pure _
  | some group =>
      refine (KeepsAnchors.of_preserves (Program.preserves_query _ _)).bind fun row => ?_
      split
      · exact KeepsAnchors.pure _
      · exact KeepsAnchors.pure _
      · next agent =>
          refine (KeepsAnchors.of_preserves (preserves_canAccessAgentIP uid _)).bind
            fun allowed => ?_
          split
          · exact KeepsAnchors.pure _
          have hmove : KeepsAnchors (Program.update { assigns := some group.gid } fun db =>
              some (db.updateAgent agent.id fun row => { row with gid := group.gid })) := by
            refine KeepsAnchors.update fun s t h hstands hs => ?_
            rw [← Option.some.inj hs]
            exact h.updateAgent (fun _ => rfl) (hstands.assigns _ rfl)
          refine hmove.bind fun updated => ?_
          split <;> exact KeepsAnchors.pure _

theorem keepsAnchors_syncAgent (now : ℤ) (ownerGid : ℕ) (remote : AgentStatus) :
    KeepsAnchors (syncAgent now ownerGid remote) := by
  unfold syncAgent
  split
  · exact KeepsAnchors.pure _
  refine (KeepsAnchors.of_preserves (preserves_firstGroupOf _)).bind fun group => ?_
  refine (KeepsAnchors.of_preserves (Program.preserves_query _ _)).bind fun row => ?_
  split
  · exact KeepsAnchors.pure _
  · next agent =>
      have hupdate : ∀ mark : Mark, mark.assigns = some (group.getD ownerGid) →
          KeepsAnchors (Program.update mark fun db =>
            some (db.updateAgent agent.id fun row =>
              row.sync now (group.getD ownerGid) remote)) := by
        intro mark hmark
        refine KeepsAnchors.update fun s t h hstands hs => ?_
        rw [← Option.some.inj hs]
        exact h.updateAgent (fun _ => rfl) (hstands.assigns _ hmark)
      dsimp only
      split
      · refine KeepsAnchors.bind (KeepsAnchors.update fun s t h _ hs => ?_) fun _ => hupdate _ rfl
        rw [← Option.some.inj hs]
        exact ⟨h.members, h.agents⟩
      · exact hupdate _ rfl
  · refine KeepsAnchors.update fun s t h hstands hs => ?_
    rw [← Option.some.inj hs]
    exact h.createAgent (hstands.assigns _ rfl)

theorem keepsAnchors_syncEach (now : ℤ) (ownerGid : ℕ) (remotes : List AgentStatus) :
    KeepsAnchors (syncEach now ownerGid remotes) := by
  induction remotes with
  | nil => exact KeepsAnchors.pure _
  | cons remote rest ih =>
      refine (keepsAnchors_syncAgent now ownerGid remote).bind fun goesOn => ?_
      split
      · exact ih
      · exact KeepsAnchors.pure _

theorem keepsAnchors_program (request : GroupRequest) : KeepsAnchors request.program := by
  cases request with
  | createGroup gid uid name =>
      exact (keepsAnchors_createGroup uid name).bind fun _ => KeepsAnchors.pure _
  | deleteGroup uid gid =>
      exact (keepsAnchors_deleteGroup uid gid).bind fun _ => KeepsAnchors.pure _
  | addMember uid gid memberUid =>
      exact (keepsAnchors_addMember uid gid memberUid).bind fun _ => KeepsAnchors.pure _
  | removeMember uid gid targetUid =>
      exact (keepsAnchors_removeMember uid gid targetUid).bind fun _ => KeepsAnchors.pure _
  | addAgent uid gid agentId =>
      exact (keepsAnchors_addAgent uid gid agentId).bind fun _ => KeepsAnchors.pure _
  | syncAgents now uid remotes =>
      cases remotes with
      | none => exact KeepsAnchors.pure _
      | some remotes =>
          exact (KeepsAnchors.of_preserves (preserves_firstGroupOf uid)).bind fun _ =>
            keepsAnchors_syncEach now _ remotes

end Programs

/-! ## Runs -/

theorem GroupsIntegral.ownersIn {db : Database} (h : GroupsIntegral db) : OwnersIn db where
  keyed := h.keyed
  owner := h.owners
  known member hmem := by
    have hsome := h.members member hmem
    rw [Std.ExtTreeMap.mem_iff_isSome_getElem?]
    unfold Database.group? at hsome
    cases hrow : db.groups[member.gid]? with
    | none => simp [hrow] at hsome
    | some group => rfl

theorem keepsOwnership_program (request : GroupRequest) :
    ownership.Triple (.top _) request.program fun _ => .top _ :=
  @Governs.program_triple _ _ ownership_governs false false (.group request) trivial
    fun _ _ => trivial

/-- Groups, members and agents stay in order where requests find the groups that they are about. -/
theorem keepsIntegrity_of_standing {ok : GroupPool → Pool.Event GroupRequest → Prop}
    (h : ∀ pool event, ok pool event → StandingStep pool event) : KeepsIntegrity ok := by
  intro start hstart pool hreach
  have hanchored : Anchored pool.store := by
    have hinit : anchoring.inv start := ⟨hstart.members, hstart.agents⟩
    exact anchoring.inv_of_reachable hinit (fun request _ => keepsAnchors_program request)
      (hreach.mono h)
  have howners : OwnersIn pool.store := by
    have hpermits : Transition.Reachable (Pool.step GroupRequest.program)
        (Pool.Permits (fun _ => True) (fun _ _ _ => True) fun _ => True)
        { store := start } pool := by
      refine hreach.mono fun pool event _ => ?_
      cases event with
      | start request => trivial
      | advance i fails => exact fun _ _ _ _ => ⟨trivial, fun _ => trivial⟩
    exact (ownership.of_reachable hstart.ownersIn (fun request _ => keepsOwnership_program request)
      hpermits).1
  exact ⟨howners.keyed, hanchored.members, howners.owner, hanchored.agents⟩

def groupPool (events : List (Pool.Event GroupRequest)) : GroupPool :=
  Transition.after (Pool.step GroupRequest.program) { store := sharedGroup } events

/-- The agent is added to the group and given back before the group is deleted. -/
def groupEmptied : List (Pool.Event GroupRequest) :=
  .start (.addAgent "c" 1 1) :: List.replicate 5 (.advance 0 false) ++
    .start (.syncAgents 0 "d" (some [{ ipAddr := "10.0.0.7", uid := "a" }])) ::
    List.replicate 4 (.advance 1 false) ++
    .start (.deleteGroup "c" 1) :: List.replicate 2 (.advance 2 false)

theorem integral_sharedGroup : GroupsIntegral sharedGroup := by
  have hgroups : ∀ gid (group : Group), sharedGroup.groups[gid]? = some group →
      gid = 1 ∧ group.gid = 1 ∧ group.ownerId = "c" := by
    intro gid group hrow
    by_cases hgid : gid = 1
    · subst hgid
      simp only [sharedGroup, Std.ExtTreeMap.getElem?_insert_self, Option.some.injEq] at hrow
      rw [← hrow]
      exact ⟨rfl, rfl, rfl⟩
    · simp [sharedGroup, Ne.symm hgid] at hrow
  refine ⟨fun gid group hrow => ?_, by decide +kernel, fun gid group hfound => ?_,
    by decide +kernel⟩
  · obtain ⟨rfl, hgid, -⟩ := hgroups gid group hrow
    exact hgid
  · obtain ⟨rfl, -, howner⟩ := hgroups gid group (Option.filter_eq_some_iff.mp hfound).1
    rw [howner]
    exact List.mem_cons_self

theorem keepsIntegrity_groupEmptied :
    (groupPool groupEmptied).store.group? 1 = none ∧
      GroupsIntegral (groupPool groupEmptied).store := by
  have hrun : Transition.Along (Pool.step GroupRequest.program) StandingStep
        { store := sharedGroup } groupEmptied ∧
      (Transition.run (Pool.step GroupRequest.program) { store := sharedGroup }
        groupEmptied).isSome ∧
      (groupPool groupEmptied).store.group? 1 = none := by
    decide +kernel
  obtain ⟨halong, hsome, hgone⟩ := hrun
  exact ⟨hgone, keepsIntegrity_of_standing (fun _ _ h => h) _ integral_sharedGroup _
    (halong.reachable hsome)⟩

/-- The group is deleted with the agent in it. -/
def groupDeleted : List (Pool.Event GroupRequest) :=
  .start (.addAgent "c" 1 1) :: List.replicate 5 (.advance 0 false) ++
    .start (.deleteGroup "c" 1) :: List.replicate 2 (.advance 1 false)

theorem not_keepsIntegrity : ¬ KeepsIntegrity fun _ _ => True := by
  intro h
  have hrun : Transition.Along (Pool.step GroupRequest.program) (fun _ _ => True)
        { store := sharedGroup } groupDeleted ∧
      (Transition.run (Pool.step GroupRequest.program) { store := sharedGroup }
        groupDeleted).isSome ∧
      ¬ ∀ agent ∈ (groupPool groupDeleted).store.agents,
        agent.gid = 0 ∨ ((groupPool groupDeleted).store.group? agent.gid).isSome := by
    decide +kernel
  obtain ⟨halong, hsome, hdangling⟩ := hrun
  exact hdangling (h _ integral_sharedGroup _ (halong.reachable hsome)).agents

end MiniDrop
