import MiniDrop.Library.Guarantee
import MiniDrop.Model.Groups
import MiniDrop.Verification.Api.Frames
import MiniDrop.Verification.Api.Tables

/-! # Tasks of other users

A user sees the tasks of those who share a group with them. Only the owner of a group adds
members, the owner is always one of them, and the members do not have to agree. -/

namespace MiniDrop

/-! ## Access -/

/-- Some group has both users as members. -/
def SharesGroup (db : Database) (a b : String) : Prop :=
  ∃ gid, (⟨gid, a⟩ : GroupMember) ∈ db.members ∧ ⟨gid, b⟩ ∈ db.members

/-- checkTaskAccess lets the user through. -/
def CanAccess (db : Database) (uid tid : String) : Prop :=
  ((checkTaskAccess uid tid false).run db).1.isSome

/-- The task belongs to the user. -/
def OwnsTask (db : Database) (uid tid : String) : Prop :=
  ∃ task, db.task? tid = some task ∧ task.uid = uid

instance (db : Database) (uid tid : String) : Decidable (CanAccess db uid tid) :=
  inferInstanceAs (Decidable (_ = true))

instance (db : Database) (uid tid : String) : Decidable (OwnsTask db uid tid) :=
  decidable_of_iff ((db.task? tid).map HotmethodTask.uid = some uid) Option.map_eq_some_iff

theorem run_mayAccess (mark : Mark) (uid : String) (task : HotmethodTask) (db : Database) :
    ((mayAccess mark uid task).run db).1 = true ↔ task.uid = uid ∨ SharesGroup db uid task.uid := by
  unfold mayAccess
  by_cases howner : task.uid = uid
  · simp [howner]
  · have hshares : SharesGroup db uid task.uid ↔
        0 < (db.members.filter fun member =>
          member.uid = task.uid && (db.groupsOf uid).contains member.gid).length := by
      rw [List.length_pos_iff_exists_mem]
      simp only [List.mem_filter, Bool.and_eq_true, decide_eq_true_eq, List.contains_iff_mem,
        Database.mem_groupsOf]
      constructor
      · rintro ⟨gid, hmine, htheirs⟩
        exact ⟨⟨gid, task.uid⟩, htheirs, rfl, hmine⟩
      · rintro ⟨⟨gid, _⟩, htheirs, rfl, hmine⟩
        exact ⟨gid, hmine, htheirs⟩
    rw [hshares]
    by_cases hgids : db.groupsOf uid = []
    · simp [howner, hgids]
    · simp only [howner, hgids, if_false, Program.run_bind, Program.run_query, Program.run_pure,
        Option.getD_some, false_or, gt_iff_lt]
      exact decide_eq_true_iff

/-- Users see their own tasks and those of users who share a group with them. -/
theorem canAccess_iff {db : Database} {uid tid : String} :
    CanAccess db uid tid ↔
      ∃ task, db.task? tid = some task ∧ (task.uid = uid ∨ SharesGroup db uid task.uid) := by
  unfold CanAccess checkTaskAccess firstTask
  cases htask : db.task? tid with
  | none => simp [htask]
  | some task =>
      have hrun := run_mayAccess { tid, holds := false } uid task db
      simp only [Program.run_bind, Program.run_query, htask, Program.run_pure, Option.some.injEq,
        exists_eq_left']
      rw [← hrun]
      cases ((mayAccess { tid, holds := false } uid task).run db).1 <;> simp

/-- Users who share a group see all tasks of each other. -/
theorem SharesGroup.canAccess {db : Database} {a b tid : String} (h : SharesGroup db a b)
    (howns : OwnsTask db b tid) : CanAccess db a tid := by
  obtain ⟨task, htask, rfl⟩ := howns
  exact canAccess_iff.mpr ⟨task, htask, .inr h⟩

theorem sharesGroup_of_canAccess {db : Database} {a b tid : String} (hne : a ≠ b)
    (howns : OwnsTask db b tid) (h : CanAccess db a tid) : SharesGroup db a b := by
  obtain ⟨task, htask, rfl⟩ := howns
  obtain ⟨task', htask', haccess⟩ := canAccess_iff.mp h
  obtain rfl := Option.some.inj (htask.symm.trans htask')
  exact haccess.resolve_left (Ne.symm hne)

/-! ## What a request may do to groups -/

/-- The user owns the group, which may be deleted by now. -/
def OwnsGroup (db : Database) (uid : String) (gid : ℕ) : Prop :=
  ∃ group, db.groups[gid]? = some group ∧ group.ownerId = uid

/-- The owner of a group is a member of it, and members are members of a group. -/
structure OwnersIn (db : Database) : Prop where
  keyed : ∀ gid (group : Group), db.groups[gid]? = some group → group.gid = gid
  owner : ∀ gid group, db.group? gid = some group → ⟨gid, group.ownerId⟩ ∈ db.members
  known : ∀ member ∈ db.members, member.gid ∈ db.groups

/-- A guarantee on the effects of group requests that `starts` admits. -/
structure Governs (g : Guarantee Database) (starts : GroupRequest → Prop) : Prop where
  keyed : ∀ s gid (group : Group), g.inv s → s.groups[gid]? = some group → group.gid = gid
  frame : ∀ s t, t.members = s.members → t.groups = s.groups → g.inv s → g.rel s t ∧ g.inv t
  owners : ∀ {s t uid gid}, g.rel s t → OwnsGroup s uid gid → OwnsGroup t uid gid
  create : ∀ {s t gid uid name}, starts (.createGroup gid uid name) → g.inv s →
    s.createGroup { gid, name, ownerId := uid } = some t → g.rel s t ∧ g.inv t
  delete : ∀ {s uid gid}, starts (.deleteGroup uid gid) → g.inv s → OwnsGroup s uid gid →
    g.rel s (s.deleteGroup gid) ∧ g.inv (s.deleteGroup gid)
  remove : ∀ {s uid gid targetUid}, starts (.removeMember uid gid targetUid) → g.inv s →
    OwnsGroup s uid gid → targetUid ≠ uid →
    g.rel s (s.removeMember gid targetUid) ∧ g.inv (s.removeMember gid targetUid)
  /-- What the check of addMember shows is enough for its INSERT. -/
  add : ∀ {uid gid memberUid}, starts (.addMember uid gid memberUid) → ∃ fact : g.Fact,
    (∀ s group, g.inv s → s.group? gid = some group → group.ownerId = uid → fact.holds s) ∧
    ∀ s t, g.inv s → OwnsGroup s uid gid → fact.holds s → s.insertMember ⟨gid, memberUid⟩ = some t →
      g.rel s t ∧ g.inv t

namespace Governs

variable {g : Guarantee Database} {starts : GroupRequest → Prop}

/-- What stays true of a group that was found: if it belongs to the user, it goes on to, and the
fact that its owner could rely on goes on as well. -/
def found (hg : Governs g starts) (fact : g.Fact) (uid : String) (gid : ℕ) (group : Group) :
    g.Fact where
  holds s := group.ownerId = uid → group.gid = gid ∧ OwnsGroup s uid gid ∧ fact.holds s
  stable hs ht h hrel hown :=
    ⟨(h hown).1, hg.owners hrel (h hown).2.1, fact.stable hs ht (h hown).2.2 hrel⟩

variable (hg : Governs g starts) {uid : String} {gid : ℕ}
include hg

theorem firstGroupRow_triple (uid : String) (fact : g.Fact)
    (hfact : ∀ s group, g.inv s → s.group? gid = some group → group.ownerId = uid →
      fact.holds s) :
    g.Triple (.top g) (firstGroupRow gid) fun result =>
      result.elim (.top g) (hg.found fact uid gid) := by
  refine Guarantee.Triple.bind (Q := fun answer =>
    (answer.getD none).elim (.top g) (hg.found fact uid gid)) (.query ?_ ?_) ?_
  · intro s hinv _
    cases hgroup : s.group? gid with
    | none => trivial
    | some group =>
        intro hown
        have hrow := (Option.filter_eq_some_iff.mp hgroup).1
        exact ⟨hg.keyed s gid group hinv hrow, ⟨group, hrow, hown⟩, hfact s group hinv hgroup hown⟩
  · exact fun _ _ _ => trivial
  · rintro (_ | group)
    · exact .pure fun _ _ _ => trivial
    · exact .pure fun _ _ h => h

theorem ownedGroup_triple (uid : String) (fact : g.Fact)
    (hfact : ∀ s group, g.inv s → s.group? gid = some group → group.ownerId = uid →
      fact.holds s) :
    g.Triple (.top g) (ownedGroup uid gid) fun result =>
      result.elim (.top g) fun group =>
        (Guarantee.Fact.pure (group.ownerId = uid)).and (hg.found fact uid gid group) := by
  apply (hg.firstGroupRow_triple uid fact hfact).bind
  rintro (_ | group)
  · exact .pure fun _ _ _ => trivial
  · dsimp only
    split
    · rename_i hown
      exact .pure fun _ _ h => ⟨hown, h⟩
    · exact .pure fun _ _ _ => trivial

theorem createGroup_triple {name : String} (h : starts (.createGroup gid uid name)) :
    g.Triple (.top g) (createGroup gid uid name) fun _ => .top g := by
  unfold createGroup
  split
  · exact .pure fun _ _ _ => trivial
  refine Guarantee.Triple.bind (Q := fun _ => .top g) (.update ?_ fun _ _ _ => trivial) ?_
  · intro s t hinv _ hcreate
    obtain ⟨hrel, hinv'⟩ := hg.create h hinv hcreate
    exact ⟨hrel, hinv', trivial⟩
  · intro inserted
    split <;> exact .pure fun _ _ _ => trivial

theorem deleteGroup_triple (h : starts (.deleteGroup uid gid)) :
    g.Triple (.top g) (deleteGroup uid gid) fun _ => .top g := by
  unfold deleteGroup
  apply (hg.firstGroupRow_triple uid (.top g) fun _ _ _ _ _ => trivial).bind
  rintro (_ | group)
  · exact .pure fun _ _ _ => trivial
  dsimp only
  split
  · exact .pure fun _ _ _ => trivial
  rename_i hown
  refine Guarantee.Triple.bind (Q := fun _ => .top g) (.update ?_ fun _ _ _ => trivial) ?_
  · intro s t hinv hfound hdelete
    obtain rfl := Option.some.inj hdelete
    obtain ⟨_, howns, _⟩ := hfound (not_not.mp hown)
    obtain ⟨hrel, hinv'⟩ := hg.delete h hinv howns
    exact ⟨hrel, hinv', trivial⟩
  · intro deleted
    split <;> exact .pure fun _ _ _ => trivial

theorem addMember_triple {memberUid : String} (h : starts (.addMember uid gid memberUid)) :
    g.Triple (.top g) (addMember uid gid memberUid) fun _ => .top g := by
  obtain ⟨fact, hfact, hadd⟩ := hg.add h
  unfold addMember
  split
  · exact .pure fun _ _ _ => trivial
  apply (hg.ownedGroup_triple uid fact hfact).bind
  rintro (_ | group)
  · exact .pure fun _ _ _ => trivial
  refine Guarantee.Triple.bind (Q := fun _ => .top g) (.transact ?_ fun _ _ _ => trivial) ?_
  · rintro s hinv ⟨hown, hfound⟩
    obtain ⟨hgid, howns, hholds⟩ := hfound hown
    split
    · exact ⟨g.refl s, hinv, trivial⟩
    · rename_i t hinsert
      obtain ⟨hrel, hinv'⟩ := hadd s t hinv howns hholds (hgid ▸ hinsert)
      exact ⟨hrel, hinv', trivial⟩
  · rintro (_ | _ | _) <;> exact .pure fun _ _ _ => trivial

theorem removeMember_triple {targetUid : String} (h : starts (.removeMember uid gid targetUid)) :
    g.Triple (.top g) (removeMember uid gid targetUid) fun _ => .top g := by
  unfold removeMember
  apply (hg.ownedGroup_triple uid (.top g) fun _ _ _ _ _ => trivial).bind
  rintro (_ | group)
  · exact .pure fun _ _ _ => trivial
  dsimp only
  split
  · exact .pure fun _ _ _ => trivial
  rename_i hother
  refine Guarantee.Triple.bind (Q := fun _ => .top g) (.update ?_ fun _ _ _ => trivial) ?_
  · rintro s t hinv ⟨hown, hfound⟩ hremove
    obtain rfl := Option.some.inj hremove
    obtain ⟨hrel, hinv'⟩ := hg.remove h hinv (hfound hown).2.1 hother
    exact ⟨hrel, hinv', trivial⟩
  · exact fun _ => .pure fun _ _ _ => trivial

end Governs

/-! ## Requests that leave groups alone -/

/-- Groups and their members. -/
def Database.membership (db : Database) : List GroupMember × Std.ExtTreeMap ℕ Group :=
  (db.members, db.groups)

theorem KeepsTenants.membership {α : Type} {p : Statements α} (h : KeepsTenants p) :
    p.Preserves Database.membership :=
  Program.Preserves.comp h fun tenants => (tenants.2.1, tenants.2.2)

theorem preserves_firstGroupRow {α : Type} {f : Database → α} (gid : ℕ) :
    (firstGroupRow gid).Preserves f := by
  apply (Program.preserves_query _ _).bind
  rintro (_ | group) <;> exact .pure _

theorem preserves_ownedGroup {α : Type} {f : Database → α} (uid : String) (gid : ℕ) :
    (ownedGroup uid gid).Preserves f := by
  apply (preserves_firstGroupRow gid).bind
  rintro (_ | group) <;> exact .pure _

theorem preserves_addAgent (uid : String) (gid agentId : ℕ) :
    (addAgent uid gid agentId).Preserves Database.membership := by
  unfold addAgent
  split
  · exact .pure _
  apply (preserves_ownedGroup uid gid).bind
  rintro (_ | group)
  · exact .pure _
  apply (Program.preserves_query _ _).bind
  rintro (_ | _ | agent)
  · exact .pure _
  · exact .pure _
  apply (keepsTenants_canAccessAgentIP uid agent.ipAddr).membership.bind
  intro allowed
  split
  · exact .pure _
  refine (Program.preserves_update ?_).bind fun _ => ?_
  · intro s t hs
    obtain rfl := Option.some.inj hs
    rfl
  · split <;> exact .pure _

theorem preserves_firstGroupOf {α : Type} {f : Database → α} (uid : String) :
    (firstGroupOf uid).Preserves f := by
  apply (Program.preserves_query _ _).bind
  rintro (_ | gid) <;> exact .pure _

theorem preserves_syncAgent (now : ℤ) (ownerGid : ℕ) (remote : AgentStatus) :
    (syncAgent now ownerGid remote).Preserves Database.membership := by
  have hupdate : ∀ change : Database → Database,
      (∀ db, (change db).membership = db.membership) →
        (Program.update ({} : Mark) fun db => some (change db)).Preserves Database.membership := by
    intro change hchange
    refine Program.preserves_update fun s t hs => ?_
    obtain rfl := Option.some.inj hs
    exact hchange s
  unfold syncAgent
  split
  · exact .pure _
  apply (preserves_firstGroupOf _).bind
  intro agentGid
  apply (Program.preserves_query _ _).bind
  rintro (_ | _ | agent)
  · exact .pure _
  · exact hupdate _ fun _ => rfl
  · dsimp only
    split
    · exact (hupdate _ fun _ => rfl).bind fun _ => hupdate _ fun _ => rfl
    · exact hupdate _ fun _ => rfl

theorem preserves_syncAgentsFromDrop (now : ℤ) (ownerUid : String)
    (remotes : Option (List AgentStatus)) :
    (syncAgentsFromDrop now ownerUid remotes).Preserves Database.membership := by
  have heach : ∀ ownerGid remotes,
      (syncEach now ownerGid remotes).Preserves Database.membership := by
    intro ownerGid remotes
    induction remotes with
    | nil => exact .pure _
    | cons remote rest ih =>
        apply (preserves_syncAgent now ownerGid remote).bind
        intro goesOn
        split
        · exact ih
        · exact .pure _
  unfold syncAgentsFromDrop
  cases remotes with
  | none => exact .pure _
  | some remotes => exact (preserves_firstGroupOf ownerUid).bind fun _ => heach _ _

/-- Every request keeps a guarantee that governs its effects on groups. -/
theorem Governs.program_triple {g : Guarantee Database} {starts : GroupRequest → Prop}
    (hg : Governs g starts) (assigns analysisConfigured : Bool) {request : TenantRequest}
    (hgenuine : request.Genuine) (hstarts : ∀ r, request = .group r → starts r) :
    g.Triple (.top g) (request.program assigns analysisConfigured) fun _ => .top g := by
  have hframe : ∀ s t : Database, t.membership = s.membership → g.inv s →
      g.rel s t ∧ g.inv t := by
    intro s t hsame
    exact hg.frame s t (congrArg Prod.fst hsame) (congrArg Prod.snd hsame)
  cases request with
  | task request =>
      refine .of_preserves hframe
        (keepsTenants_program assigns analysisConfigured request ?_).membership
      rintro agents members rfl
      exact hgenuine
  | group request =>
      have hstart := hstarts request rfl
      cases request with
      | createGroup => exact (hg.createGroup_triple hstart).bind fun _ => .pure fun _ _ h => h
      | deleteGroup => exact (hg.deleteGroup_triple hstart).bind fun _ => .pure fun _ _ h => h
      | addMember => exact (hg.addMember_triple hstart).bind fun _ => .pure fun _ _ h => h
      | removeMember => exact (hg.removeMember_triple hstart).bind fun _ => .pure fun _ _ h => h
      | addAgent uid gid agentId =>
          exact .of_preserves hframe ((preserves_addAgent uid gid agentId).bind fun _ => .pure _)
      | syncAgents now uid remotes =>
          exact .of_preserves hframe (preserves_syncAgentsFromDrop now uid remotes)

/-! ## Owners are members -/

namespace Database

variable {s t : Database} {gid other : ℕ} {uid : String} {group : Group} {member : GroupMember}

theorem insertMember_eq_some (h : s.insertMember member = some t) :
    member ∉ s.members ∧ t = { s with members := s.members ++ [member] } := by
  unfold insertMember at h
  by_cases hmem : member ∈ s.members
  · simp [hmem] at h
  · rw [if_neg hmem] at h
    exact ⟨hmem, (Option.some.inj h).symm⟩

theorem createGroup_eq_some (h : s.createGroup group = some t) :
    group.gid ∉ s.groups ∧
      t = { s with
        groups := s.groups.insert group.gid group
        members := s.members ++ [⟨group.gid, group.ownerId⟩] } := by
  unfold createGroup at h
  by_cases hmem : group.gid ∈ s.groups
  · simp [hmem] at h
  · rw [if_neg hmem] at h
    exact ⟨hmem, (insertMember_eq_some h).2⟩

theorem groups_deleteGroup (other : ℕ) :
    (s.deleteGroup gid).groups[other]? =
      if other = gid then s.groups[gid]?.map fun group => { group with deleted := true }
      else s.groups[other]? := by
  unfold deleteGroup group?
  cases hrow : s.groups[gid]? with
  | none => split <;> simp_all
  | some group =>
      cases hdeleted : group.deleted
      · simp only [hdeleted, Option.filter_some, Bool.not_false, if_true,
          Std.ExtTreeMap.getElem?_insert, Nat.compare_eq_eq, eq_comm (a := gid)]
        rfl
      · have hsame : { group with deleted := true } = group := by rw [← hdeleted]
        simp only [hdeleted, Option.filter_some, Bool.not_true, Bool.false_eq_true, if_false,
          Option.map_some, hsame]
        split
        · subst_vars
          exact hrow
        · rfl

theorem mem_members_deleteGroup :
    member ∈ (s.deleteGroup gid).members ↔ member ∈ s.members ∧ member.gid ≠ gid := by
  simp [deleteGroup]

theorem mem_members_removeMember :
    member ∈ (s.removeMember gid uid).members ↔ member ∈ s.members ∧ member ≠ ⟨gid, uid⟩ := by
  simp [removeMember]

end Database

section Effects

variable {s t : Database} {uid : String} {gid other : ℕ} {group : Group} {member : GroupMember}

theorem OwnsGroup.createGroup (hcreate : s.createGroup group = some t)
    (h : OwnsGroup s uid other) : OwnsGroup t uid other := by
  obtain ⟨hfresh, rfl⟩ := Database.createGroup_eq_some hcreate
  obtain ⟨row, hrow, hown⟩ := h
  have hne : group.gid ≠ other := by
    rintro rfl
    exact hfresh (Std.ExtTreeMap.mem_iff_isSome_getElem?.mpr (by rw [hrow]; rfl))
  exact ⟨row, by simpa [Std.ExtTreeMap.getElem?_insert, hne] using hrow, hown⟩

theorem OwnsGroup.deleteGroup (h : OwnsGroup s uid other) :
    OwnsGroup (s.deleteGroup gid) uid other := by
  obtain ⟨row, hrow, hown⟩ := h
  unfold OwnsGroup
  rw [Database.groups_deleteGroup]
  by_cases hgid : other = gid
  · subst hgid
    rw [if_pos rfl, hrow]
    exact ⟨_, rfl, hown⟩
  · rw [if_neg hgid]
    exact ⟨row, hrow, hown⟩

/-! ### The invariant -/

theorem OwnersIn.empty : OwnersIn {} where
  keyed := by simp
  owner := by simp [Database.group?]
  known := by simp

theorem OwnersIn.frame (hmembers : t.members = s.members) (hgroups : t.groups = s.groups)
    (h : OwnersIn s) : OwnersIn t where
  keyed := hgroups ▸ h.keyed
  owner := by
    have hfind : ∀ gid, t.group? gid = s.group? gid := fun gid => by
      unfold Database.group?
      rw [hgroups]
    intro gid group hgroup
    rw [hmembers]
    exact h.owner gid group (hfind gid ▸ hgroup)
  known := by
    rw [hmembers, hgroups]
    exact h.known

theorem OwnersIn.createGroup (hcreate : s.createGroup group = some t) (h : OwnersIn s) :
    OwnersIn t := by
  obtain ⟨-, rfl⟩ := Database.createGroup_eq_some hcreate
  have hrow : ∀ gid, (s.groups.insert group.gid group)[gid]? =
      if group.gid = gid then some group else s.groups[gid]? := by
    intro gid
    rw [Std.ExtTreeMap.getElem?_insert]
    simp
  constructor
  · intro gid row hrow'
    rw [hrow] at hrow'
    by_cases hgid : group.gid = gid
    · rw [if_pos hgid] at hrow'
      exact Option.some.inj hrow' ▸ hgid
    · rw [if_neg hgid] at hrow'
      exact h.keyed gid row hrow'
  · intro gid row hfound
    unfold Database.group? at hfound
    rw [hrow] at hfound
    by_cases hgid : group.gid = gid
    · rw [if_pos hgid] at hfound
      obtain rfl := Option.some.inj (Option.filter_eq_some_iff.mp hfound).1
      exact List.mem_append_right _ (hgid ▸ List.mem_singleton_self _)
    · rw [if_neg hgid] at hfound
      exact List.mem_append_left _ (h.owner gid row hfound)
  · intro member hmem
    rw [Std.ExtTreeMap.mem_insert]
    rcases List.mem_append.mp hmem with hmem | hmem
    · exact .inr (h.known member hmem)
    · rw [List.mem_singleton.mp hmem]
      exact .inl (by simp)

theorem OwnersIn.deleteGroup (h : OwnersIn s) : OwnersIn (s.deleteGroup gid) := by
  constructor
  · intro other row hrow
    rw [Database.groups_deleteGroup] at hrow
    by_cases hgid : other = gid
    · subst hgid
      rw [if_pos rfl, Option.map_eq_some_iff] at hrow
      obtain ⟨group, hgroup, rfl⟩ := hrow
      exact h.keyed other group hgroup
    · rw [if_neg hgid] at hrow
      exact h.keyed other row hrow
  · intro other row hfound
    unfold Database.group? at hfound
    rw [Database.groups_deleteGroup] at hfound
    by_cases hgid : other = gid
    · subst hgid
      obtain ⟨hrow, hlive⟩ := Option.filter_eq_some_iff.mp hfound
      rw [if_pos rfl, Option.map_eq_some_iff] at hrow
      obtain ⟨group, -, rfl⟩ := hrow
      simp at hlive
    · rw [if_neg hgid] at hfound
      exact Database.mem_members_deleteGroup.mpr ⟨h.owner other row hfound, hgid⟩
  · intro member hmem
    obtain ⟨hmem, hgid⟩ := Database.mem_members_deleteGroup.mp hmem
    rw [Std.ExtTreeMap.mem_iff_isSome_getElem?, Database.groups_deleteGroup, if_neg hgid]
    exact Std.ExtTreeMap.mem_iff_isSome_getElem?.mp (h.known member hmem)

theorem OwnersIn.removeMember (howns : OwnsGroup s uid gid) {targetUid : String}
    (hother : targetUid ≠ uid) (h : OwnersIn s) : OwnersIn (s.removeMember gid targetUid) := by
  refine ⟨h.keyed, fun other row hfound => ?_, fun member hmem => ?_⟩
  · refine Database.mem_members_removeMember.mpr ⟨h.owner other row hfound, fun heq => ?_⟩
    obtain ⟨rfl, rfl⟩ := GroupMember.mk.inj heq
    obtain ⟨group, hgroup, rfl⟩ := howns
    obtain rfl := Option.some.inj (hgroup.symm.trans (Option.filter_eq_some_iff.mp hfound).1)
    exact hother rfl
  · exact h.known member (Database.mem_members_removeMember.mp hmem).1

theorem OwnersIn.insertMember (howns : OwnsGroup s uid member.gid)
    (hinsert : s.insertMember member = some t) (h : OwnersIn s) : OwnersIn t := by
  obtain ⟨-, rfl⟩ := Database.insertMember_eq_some hinsert
  refine ⟨h.keyed, fun gid row hfound => List.mem_append_left _ (h.owner gid row hfound),
    fun other hmem => ?_⟩
  rcases List.mem_append.mp hmem with hmem | hmem
  · exact h.known other hmem
  · obtain ⟨group, hgroup, -⟩ := howns
    rw [List.mem_singleton.mp hmem]
    exact Std.ExtTreeMap.mem_iff_isSome_getElem?.mpr (by rw [hgroup]; rfl)

end Effects

/-- Groups keep their owners. -/
def ownership : Guarantee Database where
  inv := OwnersIn
  rel s t := ∀ uid gid, OwnsGroup s uid gid → OwnsGroup t uid gid
  refl _ _ _ h := h
  trans hst htu uid gid h := htu uid gid (hst uid gid h)

theorem OwnsGroup.frame {s t : Database} {uid : String} {gid : ℕ} (hgroups : t.groups = s.groups)
    (h : OwnsGroup s uid gid) : OwnsGroup t uid gid := by
  unfold OwnsGroup
  rw [hgroups]
  exact h

theorem ownership_governs : Governs ownership fun _ => True where
  keyed _ gid group hinv hrow := hinv.keyed gid group hrow
  frame _ _ hmembers hgroups hinv := ⟨fun _ _ h => h.frame hgroups, hinv.frame hmembers hgroups⟩
  owners hrel := hrel _ _
  create _ hinv hcreate := ⟨fun _ _ h => h.createGroup hcreate, hinv.createGroup hcreate⟩
  delete _ hinv _ := ⟨fun _ _ h => h.deleteGroup, hinv.deleteGroup⟩
  remove _ hinv howns hother := ⟨fun _ _ h => h, hinv.removeMember howns hother⟩
  add _ := by
    refine ⟨.top _, fun _ _ _ _ _ => trivial, fun s t hinv howns _ hinsert => ?_⟩
    refine ⟨fun _ _ h => ?_, hinv.insertMember howns hinsert⟩
    obtain ⟨-, rfl⟩ := Database.insertMember_eq_some hinsert
    exact h

/-! ## Requests of one user -/

/-- `a` issues the request, and it does not make `b` a member of a group. -/
def GroupRequest.Spares (a b : String) (request : GroupRequest) : Prop :=
  request.issuer = a ∧ request.added ≠ some b

/-- The groups of `b` were groups of `b` before, with `a` as a member or not. -/
def NoNewGroup (a b : String) (s t : Database) : Prop :=
  ∀ gid, (⟨gid, b⟩ : GroupMember) ∈ t.members →
    ⟨gid, b⟩ ∈ s.members ∧ ((⟨gid, a⟩ : GroupMember) ∈ t.members ↔ ⟨gid, a⟩ ∈ s.members)

theorem NoNewGroup.trans {a b : String} {s t u : Database} (hst : NoNewGroup a b s t)
    (htu : NoNewGroup a b t u) : NoNewGroup a b s u := by
  intro gid hu
  obtain ⟨ht, hau⟩ := htu gid hu
  obtain ⟨hs, hat⟩ := hst gid ht
  exact ⟨hs, hau.trans hat⟩

theorem SharesGroup.of_noNewGroup {a b : String} {s t : Database} (hst : NoNewGroup a b s t)
    (h : SharesGroup t a b) : SharesGroup s a b := by
  obtain ⟨gid, ha, hb⟩ := h
  obtain ⟨hb, hiff⟩ := hst gid hb
  exact ⟨gid, hiff.mp ha, hb⟩

/-- Requests of `a` put no more groups between `a` and `b`. -/
def apart (a b : String) : Guarantee Database where
  inv := OwnersIn
  rel s t := ownership.rel s t ∧ NoNewGroup a b s t
  refl s := ⟨ownership.refl s, fun _ h => ⟨h, Iff.rfl⟩⟩
  trans hst htu := ⟨ownership.trans hst.1 htu.1, hst.2.trans htu.2⟩

/-- Where `b` is a member of the group, `a` is one. -/
def joined (a b : String) (gid : ℕ) : (apart a b).Fact where
  holds s := (⟨gid, b⟩ : GroupMember) ∈ s.members → ⟨gid, a⟩ ∈ s.members
  stable _ _ h hrel hb := by
    obtain ⟨hb, hiff⟩ := hrel.2 gid hb
    exact hiff.mpr (h hb)

theorem apart_governs {a b : String} (hne : a ≠ b) :
    Governs (apart a b) (GroupRequest.Spares a b) where
  keyed _ gid group hinv hrow := hinv.keyed gid group hrow
  frame s t hmembers hgroups hinv := by
    refine ⟨⟨fun _ _ h => h.frame hgroups, fun gid hb => ?_⟩, hinv.frame hmembers hgroups⟩
    rw [hmembers] at hb ⊢
    exact ⟨hb, Iff.rfl⟩
  owners hrel := hrel.1 _ _
  create {s t gid uid name} h hinv hcreate := by
    refine ⟨⟨fun _ _ h => h.createGroup hcreate, fun other hb => ?_⟩, hinv.createGroup hcreate⟩
    obtain ⟨hfresh, rfl⟩ := Database.createGroup_eq_some hcreate
    obtain rfl : uid = a := h.1
    -- `b` is in a known group, and the new one is not known
    have hold : (⟨other, b⟩ : GroupMember) ∈ s.members := by
      simpa [Ne.symm hne] using hb
    have hother : other ≠ gid := fun heq => hfresh (heq ▸ hinv.known _ hold)
    exact ⟨hold, by simp [hother]⟩
  delete {s uid gid} _ hinv _ := by
    refine ⟨⟨fun _ _ h => h.deleteGroup, fun other hb => ?_⟩, hinv.deleteGroup⟩
    obtain ⟨hold, hother⟩ := Database.mem_members_deleteGroup.mp hb
    exact ⟨hold, by simp [Database.mem_members_deleteGroup, hother]⟩
  remove {s uid gid targetUid} h hinv howns hother := by
    refine ⟨⟨fun _ _ h => h, fun other hb => ?_⟩, hinv.removeMember howns hother⟩
    obtain rfl : uid = a := h.1
    exact ⟨(Database.mem_members_removeMember.mp hb).1,
      by simp [Database.mem_members_removeMember, Ne.symm hother]⟩
  add {uid gid memberUid} h := by
    obtain rfl : uid = a := h.1
    refine ⟨joined uid b gid, fun s group hinv hgroup hown _ => ?_,
      fun s t hinv howns hjoined hinsert => ⟨⟨?_, fun other hb => ?_⟩,
        hinv.insertMember howns hinsert⟩⟩
    · exact hown ▸ hinv.owner gid group hgroup
    · obtain ⟨-, rfl⟩ := Database.insertMember_eq_some hinsert
      exact fun _ _ h => h
    · obtain ⟨-, rfl⟩ := Database.insertMember_eq_some hinsert
      have hspared : memberUid ≠ b := fun heq => h.2 (congrArg some heq)
      have hold : (⟨other, b⟩ : GroupMember) ∈ s.members := by
        simpa [Ne.symm hspared] using hb
      refine ⟨hold, ?_⟩
      -- where the new member is `a`, it was one already
      suffices other = gid → uid = memberUid → (⟨other, uid⟩ : GroupMember) ∈ s.members by
        simpa using this
      rintro rfl -
      exact hjoined hold

/-! ## Isolation -/

/-- All runs of requests and of the work that they start, with failing statements or without. -/
abbrev Served (assigns analysisConfigured : Bool) (starts : TenantRequest → Prop) (db : Database) :
    TenantPool → Prop :=
  Transition.Reachable (Pool.step (TenantRequest.program assigns analysisConfigured))
    (Pool.Permits starts (fun _ _ _ => True) fun _ => True) { store := db }

theorem ownersIn_of_served {assigns analysisConfigured : Bool} {pool : TenantPool}
    (h : Served assigns analysisConfigured TenantRequest.Genuine {} pool) :
    OwnersIn pool.store := by
  refine (Guarantee.of_reachable (g := ownership) OwnersIn.empty (fun request hgenuine => ?_) h).1
  exact ownership_governs.program_triple assigns analysisConfigured hgenuine fun _ _ => trivial

/-- No user but `a` issues the request. -/
def TenantRequest.OnlyBy (a : String) (request : TenantRequest) : Prop :=
  request.Genuine ∧ ∀ uid, request.issuer = some uid → uid = a

/-- And it does not make `b` a member of a group. -/
def TenantRequest.Spares (a b : String) (request : TenantRequest) : Prop :=
  request.OnlyBy a ∧ request.added ≠ some b

/-- Unless users put others into their groups, they see no more tasks of them than before, and
none at all without a common group. -/
theorem canAccess_of_served {assigns analysisConfigured : Bool} {before after : TenantPool}
    {a b tid : String} (hne : a ≠ b)
    (hbefore : Served assigns analysisConfigured TenantRequest.Genuine {} before)
    (hafter : Served assigns analysisConfigured (TenantRequest.Spares a b) before.store after)
    (howns : OwnsTask after.store b tid) (haccess : CanAccess after.store a tid) :
    SharesGroup before.store a b ∧
      ∀ tid, OwnsTask before.store b tid → CanAccess before.store a tid := by
  have hapart : (apart a b).rel before.store after.store := by
    refine (Guarantee.of_reachable (ownersIn_of_served hbefore) (fun request hspares => ?_)
      hafter).2
    refine (apart_governs hne).program_triple assigns analysisConfigured hspares.1.1 ?_
    rintro request rfl
    exact ⟨hspares.1.2 _ rfl, hspares.2⟩
  have hshares := (sharesGroup_of_canAccess hne howns haccess).of_noNewGroup hapart.2
  exact ⟨hshares, fun _ => hshares.canAccess⟩

instance (a : String) : DecidablePred (TenantRequest.OnlyBy a) := fun request =>
  decidable_of_iff (request.Genuine ∧ ∀ uid ∈ request.issuer, uid = a) Iff.rfl

instance (a b : String) : DecidablePred (TenantRequest.Spares a b) := fun _ =>
  inferInstanceAs (Decidable (_ ∧ _))

/-- The pool after these events. -/
def servedPool (db : Database) (events : List (Pool.Event TenantRequest)) : TenantPool :=
  Transition.after (Pool.step (TenantRequest.program true true)) { store := db } events

theorem served_servedPool {starts : TenantRequest → Prop} {db : Database}
    {events : List (Pool.Event TenantRequest)}
    (halong : Transition.Along (Pool.step (TenantRequest.program true true))
      (Pool.Permits starts (fun _ _ _ => True) fun _ => True) { store := db } events)
    (hsome : (Transition.run (Pool.step (TenantRequest.program true true)) { store := db }
      events).isSome) : Served true true starts db (servedPool db events) :=
  halong.reachable hsome

/-- User b samples a process on an agent of its own. -/
def sampledTask : List (Pool.Event TenantRequest) :=
  [.start (.group (.syncAgents 0 "b" (some [{ ipAddr := "10.0.0.7", uid := "b" }]))),
    .advance 0 false, .advance 0 false, .advance 0 false, .advance 0 false,
    .start (.task (.createTask 0 "t" "b" "user" ⟨"n", 0, 0, "10.0.0.7", 1, 10, 0, "", false, ""⟩
      (.answered 0 "OK"))),
    .advance 1 false, .advance 1 false, .advance 1 false, .advance 1 false, .advance 1 false]

/-- A user creates a group with another member, as threads `i` and `i + 1`. -/
def jointGroup (gid : ℕ) (uid memberUid : String) (i : ℕ) : List (Pool.Event TenantRequest) :=
  [.start (.group (.createGroup gid uid "g")), .advance i false,
    .start (.group (.addMember uid gid memberUid)), .advance (i + 1) false,
    .advance (i + 1) false]

/-- User b has taken a into a group. -/
def sharedTask : TenantPool := servedPool {} (sampledTask ++ jointGroup 1 "b" "a" 2)

/-- Then a sees no more of b by a further group that c joins. -/
theorem canAccess_of_served_sharedTask :
    SharesGroup sharedTask.store "a" "b" ∧
      ∀ tid, OwnsTask sharedTask.store "b" tid → CanAccess sharedTask.store "a" tid := by
  have hbefore : Served true true TenantRequest.Genuine {} sharedTask :=
    served_servedPool (by decide +kernel) (by decide +kernel)
  have hafter : Served true true (TenantRequest.Spares "a" "b") sharedTask.store
      (servedPool sharedTask.store (jointGroup 2 "a" "c" 0)) :=
    served_servedPool (by decide +kernel) (by decide +kernel)
  have hsees : OwnsTask (servedPool sharedTask.store (jointGroup 2 "a" "c" 0)).store "b" "t" ∧
      CanAccess (servedPool sharedTask.store (jointGroup 2 "a" "c" 0)).store "a" "t" := by
    decide +kernel
  exact canAccess_of_served (by decide) hbefore hafter hsees.1 hsees.2

/-- User a takes b into a group, and sees the task of b. -/
theorem not_isolated : ¬ ∀ before after : TenantPool,
    Served true true TenantRequest.Genuine {} before →
      Served true true (TenantRequest.OnlyBy "a") before.store after →
        ∀ tid, OwnsTask before.store "b" tid → CanAccess after.store "a" tid →
          CanAccess before.store "a" tid := by
  intro h
  have hgains := h (servedPool {} sampledTask)
    (servedPool (servedPool {} sampledTask).store (jointGroup 1 "a" "b" 0))
    (served_servedPool (by decide +kernel) (by decide +kernel))
    (served_servedPool (by decide +kernel) (by decide +kernel))
    "t" (by decide +kernel) (by decide +kernel)
  exact absurd hgains (by decide +kernel)

end MiniDrop
