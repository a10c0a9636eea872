import MiniDrop.Verification.Api.AgentSync
import MiniDrop.Verification.Api.Frames
import MiniDrop.Verification.Backend.Orphans

/-! # Dispatches and the access of their users

CreateTask and CreateContinuousTask look at the access of the user before they send a task.
RetryTask and the cron engine do not, and an answer may be outdated when the task is sent. -/

namespace MiniDrop

/-- In all runs from the start whose steps satisfy `ok`, every task was sent for a user who could
use its agent at that moment. -/
def DispatchesAuthorised (env : Environment)
    (ok : BackendPool → Pool.Event BackendRequest → Prop) : Prop :=
  ∀ pool : BackendPool,
    Transition.Reachable (Pool.step (BackendRequest.program env)) ok { store := {} } pool →
      ∀ dispatch ∈ pool.store.sent, dispatch.authorised = true

/-! ## The condition -/

/-- Whoever does not look at the access has it when the new row is written. -/
def ChecksAccess (mark : BackendMark) (b : Backend) (fails : Bool) : Prop :=
  fails = false → mark.unchecked = true → ∀ need ∈ mark.relies, Reaches b.db need.1 need.2

/-- While a request relies on the access of a user, the user keeps it, and while the access is
looked at, the user stays in all groups. -/
structure KeepsAccess (marks : List (Option BackendMark)) (mark : BackendMark) (b : Backend) :
    Prop where
  access : ∀ last ∈ marks, ∀ other ∈ last, ∀ need ∈ other.relies,
    Reaches b.db need.1 need.2 → Reaches (mark.change b.db) need.1 need.2
  groups : ∀ last ∈ marks, ∀ other ∈ last, other.table.tid = none → ∀ need ∈ other.relies,
    ∀ gid ∈ b.db.groupsOf need.1, gid ∈ (mark.change b.db).groupsOf need.1

instance (mark : BackendMark) (b : Backend) (fails : Bool) :
    Decidable (ChecksAccess mark b fails) :=
  inferInstanceAs (Decidable (fails = false → mark.unchecked = true → _))

instance (marks : List (Option BackendMark)) (mark : BackendMark) (b : Backend) :
    Decidable (KeepsAccess marks mark b) :=
  decidable_of_iff
    ((∀ last ∈ marks, ∀ other ∈ last, ∀ need ∈ other.relies,
        Reaches b.db need.1 need.2 → Reaches (mark.change b.db) need.1 need.2) ∧
      ∀ last ∈ marks, ∀ other ∈ last, other.table.tid = none → ∀ need ∈ other.relies,
        ∀ gid ∈ b.db.groupsOf need.1, gid ∈ (mark.change b.db).groupsOf need.1)
    ⟨fun h => ⟨h.1, h.2⟩, fun h => ⟨h.access, h.groups⟩⟩

/-- The steps of a run in which access is looked at and kept. -/
abbrev GuardedStep : BackendPool → Pool.Event BackendRequest → Prop :=
  Pool.Lawful (fun _ => True) fun marks _ mark b fails =>
    ChecksAccess mark b fails ∧ (fails = false → KeepsAccess marks mark b)

/-! ## Phases -/

/-- What a thread has seen of the access of a user: nothing, groups, or that there is access. -/
inductive AccessPhase where
  | free
  | seen (uid ip : String) (gids : List ℕ)
  | granted (uid ip : String)

namespace AccessPhase

/-- What the thread relies on. -/
def Holds : AccessPhase → Database → Prop
  | free, _ => True
  | seen uid _ gids, db => ∀ gid ∈ gids, gid ∈ db.groupsOf uid
  | granted uid ip, db => Reaches db uid ip

/-- The mark tells others what the thread relies on. -/
def Shown : AccessPhase → BackendMark → Prop
  | free, _ => True
  | seen uid ip _, mark => mark.relies = some (uid, ip) ∧ mark.table.tid = none
  | granted uid ip, mark => mark.relies = some (uid, ip)

end AccessPhase

/-- A statement sends nothing, or an authorised task. -/
def SendsAuthorised (b t : Backend) : Prop :=
  t.sent = b.sent ∨
    ∃ dispatch : Dispatch, dispatch.authorised = true ∧ t.sent = b.sent ++ [dispatch]

def accessLaw : Program.Law BackendMark Backend AccessPhase where
  knows φ b := φ.Holds b.db
  may := ChecksAccess
  allows _ mark b t φ' := SendsAuthorised b t ∧ (t.db = b.db ∨ t.db = mark.change b.db) ∧
    φ'.Holds t.db ∧ φ'.Shown mark

/-- All that threads rely on is the case, and other threads leave it so. -/
def accessOrder : Pool.Order BackendMark Backend AccessPhase where
  toLaw := accessLaw
  initial := .free
  final φ := φ = .free
  permits marks _ mark b fails :=
    ChecksAccess mark b fails ∧ (fails = false → KeepsAccess marks mark b)
  permits_may _ _ _ _ _ h := h.1
  fits slots b := (∀ dispatch ∈ b.sent, dispatch.authorised = true) ∧ ∀ slot ∈ slots,
    slot.1.Holds b.db ∧ (slot.1 ≠ .free → ∃ mark, slot.2 = some mark ∧ slot.1.Shown mark)
  fits_start slots b h := by
    refine ⟨h.1, fun slot hmem => ?_⟩
    rcases List.mem_append.mp hmem with hmem | hmem
    · exact h.2 slot hmem
    · rw [List.mem_singleton.mp hmem]
      exact ⟨trivial, fun hne => absurd rfl hne⟩
  fits_knows _ _ _ _ _ h hslot := (h.2 _ (List.mem_of_getElem? hslot)).1
  fits_advance slots b _ _ _ mark fails t φ' last' h _ hpermits hfails hallows hlast := by
    obtain ⟨hsends, hdb, hholds, hshown⟩ := hallows
    refine ⟨fun dispatch hmem => ?_, fun slot hmem => ?_⟩
    · rcases hsends with hsame | ⟨new, hauthorised, hsent⟩
      · exact h.1 dispatch (hsame ▸ hmem)
      · rw [hsent] at hmem
        rcases List.mem_append.mp hmem with hmem | hmem
        · exact h.1 dispatch hmem
        · rw [List.mem_singleton.mp hmem]
          exact hauthorised
    · rcases List.mem_set_cases hmem with rfl | hmem
      · refine ⟨hholds, fun hne => ?_⟩
        rcases hlast with hlast | ⟨-, hfree⟩
        · exact ⟨mark, hlast, hshown⟩
        · exact absurd hfree hne
      · have hold := List.mem_of_mem_eraseIdx hmem
        obtain ⟨hheld, hstands⟩ := h.2 slot hold
        refine ⟨?_, hstands⟩
        rcases hdb with hsame | hchange
        · rwa [hsame]
        · cases hf : fails with
          | true => rwa [hfails hf]
          | false =>
              have hkeeps := hpermits.2 hf
              have hlastMem := List.mem_map_of_mem (f := Prod.snd) hold
              cases hphase : slot.1 with
              | free => trivial
              | seen uid ip gids =>
                  obtain ⟨other, hlast', hother⟩ := hstands (by simp [hphase])
                  rw [hphase] at hheld hother
                  intro gid hgid
                  rw [hchange]
                  exact hkeeps.groups _ hlastMem other hlast' hother.2 _ hother.1 gid
                    (hheld gid hgid)
              | granted uid ip =>
                  obtain ⟨other, hlast', hother⟩ := hstands (by simp [hphase])
                  rw [hphase] at hheld hother
                  show Reaches t.db uid ip
                  rw [hchange]
                  exact hkeeps.access _ hlastMem other hlast' _ hother hheld

/-! ## Access in the tables -/

theorem reaches_of_tenants {db db' : Database} (h : db'.tenants = db.tenants) {uid ip : String} :
    Reaches db' uid ip ↔ Reaches db uid ip := by
  have hagents : db'.agents = db.agents := congrArg Prod.fst h
  have hmembers : db'.members = db.members := congrArg (fun tenants => tenants.2.1) h
  simp only [reaches_iff, Database.grants, Opens, Database.groupsOf, hagents, hmembers]

/-- The groups that were read, while the user is in them, give no more access than there is. -/
theorem reaches_of_count {db : Database} {uid ip : String} {gids : List ℕ} (hip : ip ≠ "")
    (hgids : ∀ gid ∈ gids, gid ∈ db.groupsOf uid)
    (hcount : 0 < (db.agents.filter fun agent => agent.ipAddr = ip &&
      (agent.uid = uid || agent.gid = 0 || gids.contains agent.gid)).length) :
    Reaches db uid ip := by
  obtain ⟨agent, hmem⟩ := List.length_pos_iff_exists_mem.mp hcount
  simp only [List.mem_filter, Bool.and_eq_true, Bool.or_eq_true, decide_eq_true_eq,
    List.contains_iff_mem, or_assoc] at hmem
  obtain ⟨hagent, haddr, hopens⟩ := hmem
  refine reaches_iff.mpr ⟨hip, (agent.uid, agent.gid), ?_, ?_⟩
  · exact List.mem_map.mpr ⟨agent, List.mem_filter.mpr ⟨hagent, decide_eq_true haddr⟩, rfl⟩
  · exact hopens.imp_right (Or.imp_right (hgids agent.gid))

/-! ## Requests that send nothing -/

/-- The program sends authorised tasks alone, and relies on nothing before and after. -/
abbrev SendsSafely {α : Type} (p : BackendProgram α) : Prop :=
  p.Abides accessLaw (fun φ _ => φ = .free) .free

section SendsSafely

variable {α β : Type}

theorem SendsSafely.pure (result : α) : SendsSafely (Pure.pure result) := rfl

theorem SendsSafely.bind {p : BackendProgram α} {k : α → BackendProgram β} (h : SendsSafely p)
    (hk : ∀ result, SendsSafely (k result)) : SendsSafely (p >>= k) := by
  refine Program.Abides.bind h ?_
  rintro φ result rfl
  exact hk result

theorem sendsSafely_onDb (mark : BackendMark) (p : Statements α) :
    SendsSafely (onDb mark p) := by
  induction p with
  | done result => exact rfl
  | stmt m act next failed ihnext ihfailed =>
      intro b _
      exact ⟨fun _ => ⟨.free, ⟨.inl rfl, .inr rfl, trivial, trivial⟩, ihnext b.db⟩,
        fun _ => ⟨.free, ⟨.inl rfl, .inl rfl, trivial, trivial⟩, ihfailed⟩⟩

theorem sendsSafely_query (mark : BackendMark) (read : Backend → α) :
    SendsSafely (Program.query mark read) := by
  intro b _
  exact ⟨fun _ => ⟨.free, ⟨.inl rfl, .inl rfl, trivial, trivial⟩, rfl⟩,
    fun _ => ⟨.free, ⟨.inl rfl, .inl rfl, trivial, trivial⟩, rfl⟩⟩

theorem sendsSafely_transact {mark : BackendMark} {change : Backend → α × Backend}
    (h : ∀ b, (change b).2.sent = b.sent ∧ (change b).2.db = b.db) :
    SendsSafely (Program.transact mark change) := by
  intro b _
  exact ⟨fun _ => ⟨.free, ⟨.inl (h b).1, .inl (h b).2, trivial, trivial⟩, rfl⟩,
    fun _ => ⟨.free, ⟨.inl rfl, .inl rfl, trivial, trivial⟩, rfl⟩⟩

/-- A call that is no dispatch. -/
theorem sendsSafely_callControl {mark : BackendMark} {now : ℤ} {call : ControlCall}
    {fate : Option RpcFate} : SendsSafely (callControl mark now call fate id) := by
  rcases fate with _ | (error | error | _)
  · exact .pure _
  · exact (sendsSafely_transact fun b => ⟨rfl, rfl⟩).bind fun _ => .pure _
  · refine (sendsSafely_transact ?_).bind fun _ => .pure _
    exact fun b => ⟨rfl, rfl⟩
  · refine (sendsSafely_transact ?_).bind ?_
    · exact fun b => ⟨rfl, rfl⟩
    · rintro (_ | response) <;> exact .pure _

theorem sendsSafely_createScheduleTask {parser : CronParser} {suffix uid userName : String}
    {req : CreateScheduleReq} :
    SendsSafely (Backend.createScheduleTask parser suffix uid userName req) := by
  unfold Backend.createScheduleTask
  split
  · exact .pure _
  apply (sendsSafely_onDb _ _).bind
  rintro (tid | _)
  · refine (sendsSafely_transact ?_).bind fun _ => .pure _
    exact fun b => ⟨rfl, rfl⟩
  · exact .pure _

theorem sendsSafely_deleteScheduleTask {uid tid : String} :
    SendsSafely (Backend.deleteScheduleTask uid tid) := by
  apply (sendsSafely_onDb _ _).bind
  rintro (_ | answer)
  · exact .pure _
  dsimp only
  split
  · refine (sendsSafely_transact ?_).bind fun _ => .pure _
    exact fun b => ⟨rfl, rfl⟩
  · exact .pure _

theorem sendsSafely_stopContinuousTask {now : ℤ} {uid tid : String} {fate : Option RpcFate} :
    SendsSafely (Backend.stopContinuousTask now uid tid fate) := by
  apply (sendsSafely_onDb _ _).bind
  rintro (_ | task)
  · exact .pure _
  · exact sendsSafely_callControl.bind fun _ => sendsSafely_onDb _ _

theorem sendsSafely_getContinuousWindows {assigns analysisConfigured reached : Bool}
    {uid tid : String} :
    SendsSafely (Backend.getContinuousWindows assigns analysisConfigured uid tid reached) := by
  apply (sendsSafely_onDb _ _).bind
  rintro (_ | parentTask)
  · exact .pure _
  dsimp only
  split
  · apply (sendsSafely_query _ _).bind
    rintro (_ | _ | windows)
    · exact .pure _
    · exact .pure _
    · exact (sendsSafely_onDb _ _).bind fun _ => .pure _
  · exact .pure _

end SendsSafely

/-! ## Looking at the access -/

/-- What a request knows that goes on to send a task. -/
def granting (fate : Option RpcFate) (uid ip : String) : AccessPhase :=
  if fate.isSome then .granted uid ip else .free

section Dispatch

variable {fate : Option RpcFate} {uid ip : String}

/-- The query for the agents, after the groups were read. -/
theorem abides_countAgents {mark : BackendMark} (hrelies : mark.relies = some (uid, ip))
    (hip : ip ≠ "") (gids : List ℕ) (goesOn : Bool) :
    (onDb mark (do
      let count := (← Program.query {} fun db =>
        (db.agents.filter fun agent => agent.ipAddr = ip &&
          (agent.uid = uid || agent.gid = 0 || gids.contains agent.gid)).length).getD 0
      pure (decide (count > 0)) : Statements Bool)).Abides accessLaw
      (fun φ allowed => φ = if allowed && goesOn then .granted uid ip else .free)
      (.seen uid ip gids) := by
  intro b hgids
  refine ⟨fun _ => ?_, fun _ => ⟨.free, ⟨.inl rfl, .inl rfl, trivial, trivial⟩, rfl⟩⟩
  have hfree : ∀ allowed : Bool, (allowed && goesOn) = false → ∃ φ,
      accessLaw.allows (.seen uid ip gids) { mark with table := {}, change := id } b b φ ∧
        φ = if allowed && goesOn then .granted uid ip else .free :=
    fun allowed hnot => ⟨.free, ⟨.inl rfl, .inl rfl, trivial, trivial⟩, by rw [hnot]; rfl⟩
  by_cases hcount : 0 < (b.db.agents.filter fun agent => agent.ipAddr = ip &&
      (agent.uid = uid || agent.gid = 0 || gids.contains agent.gid)).length
  · cases goesOn with
    | false => exact hfree _ (Bool.and_false _)
    | true =>
        exact ⟨.granted uid ip, ⟨.inl rfl, .inl rfl, reaches_of_count hip hgids hcount, hrelies⟩,
          (if_pos (by simpa using hcount)).symm⟩
  · exact hfree _ (Bool.and_eq_false_iff.mpr (.inl (decide_eq_false hcount)))

/-- A request that is let through and goes on relies on the access from then on. -/
theorem abides_canAccessAgentIP (goesOn : Bool) :
    (onDb { relies := reliesOn fate uid ip } (canAccessAgentIP uid ip)).Abides accessLaw
      (fun φ allowed => φ = if allowed && goesOn then granting fate uid ip else .free) .free := by
  cases fate with
  | none =>
      refine Program.Abides.mono (sendsSafely_onDb _ _) ?_
      intro φ allowed hφ
      rw [hφ]
      exact (ite_self _).symm
  | some fate =>
      unfold canAccessAgentIP
      by_cases hip : ip = ""
      · rw [if_pos hip]
        exact (rfl : AccessPhase.free = .free)
      · rw [if_neg hip]
        intro b _
        exact ⟨fun _ => ⟨.seen uid ip (b.db.groupsOf uid),
            ⟨.inl rfl, .inl rfl, fun _ h => h, rfl, rfl⟩, abides_countAgents rfl hip _ goesOn⟩,
          fun _ => ⟨.seen uid ip [], ⟨.inl rfl, .inl rfl, by simp [AccessPhase.Holds], rfl, rfl⟩,
            abides_countAgents rfl hip _ goesOn⟩⟩

/-- Statements on tasks leave it. -/
theorem abides_keepsTenants {α : Type} {mark : BackendMark}
    (hrelies : mark.relies = reliesOn fate uid ip) {p : Statements α} (h : KeepsTenants p) :
    (onDb mark p).Abides accessLaw (fun φ _ => φ = granting fate uid ip)
      (granting fate uid ip) := by
  cases fate with
  | none => exact sendsSafely_onDb mark p
  | some fate =>
      induction p with
      | done result => exact rfl
      | stmt m act next failed ihnext ihfailed =>
          intro b hreaches
          exact ⟨fun _ => ⟨.granted uid ip,
              ⟨.inl rfl, .inr rfl, (reaches_of_tenants (h.1 b.db)).mpr hreaches, hrelies⟩,
              ihnext b.db (h.2.1 b.db)⟩,
            fun _ => ⟨.granted uid ip, ⟨.inl rfl, .inl rfl, hreaches, hrelies⟩, ihfailed h.2.2⟩⟩

/-! ## Sending -/

/-- The task is sent while the user has access. -/
theorem abides_callControl {mark : BackendMark} {now : ℤ} {call : ControlCall} :
    (callControl mark now call fate (Backend.dispatched uid ip call)).Abides accessLaw
      (fun φ _ => φ = .free) (granting fate uid ip) := by
  have hsends : ∀ (b : Backend) (service : HotmethodService),
      accessLaw.knows (.granted uid ip) b →
      SendsAuthorised b { b.dispatched uid ip call with service } :=
    fun b _ hreaches =>
      .inr ⟨⟨uid, ip, call, ((canAccessAgentIP uid ip).run b.db).1⟩, hreaches, rfl⟩
  have hfails : ∀ (mark : BackendMark) (b : Backend), accessLaw.allows (.granted uid ip) mark b b
      .free := fun _ _ => ⟨.inl rfl, .inl rfl, trivial, trivial⟩
  rcases fate with _ | (error | error | _)
  · exact (rfl : AccessPhase.free = .free)
  · intro b hreaches
    exact ⟨fun _ => ⟨.free, ⟨hsends b _ hreaches, .inl rfl, trivial, trivial⟩, rfl⟩,
      fun _ => ⟨.free, hfails _ b, rfl⟩⟩
  · intro b hreaches
    exact ⟨fun _ => ⟨.free, ⟨hsends b _ hreaches, .inl rfl, trivial, trivial⟩, rfl⟩,
      fun _ => ⟨.free, hfails _ b, rfl⟩⟩
  · intro b hreaches
    exact ⟨fun _ => ⟨.free, ⟨hsends b _ hreaches, .inl rfl, trivial, trivial⟩, rfl⟩,
      fun _ => ⟨.free, hfails _ b, rfl⟩⟩

/-- The INSERT of a task whose user has access, or whose INSERT is the first look at it. -/
theorem abides_insertTask {mark : BackendMark} {m : Mark} {task : HotmethodTask}
    {φ : AccessPhase} (hrelies : mark.relies = reliesOn fate uid ip)
    (hφ : φ = granting fate uid ip ∨ φ = .free ∧ mark.unchecked = true) :
    (onDb mark (Program.update m fun db => db.createTask task)).Abides accessLaw
      (fun φ inserted => φ = if inserted then granting fate uid ip else .free) φ := by
  cases fate with
  | none =>
      obtain rfl : φ = .free := by
        rcases hφ with h | h
        · exact h
        · exact h.1
      refine Program.Abides.mono (sendsSafely_onDb _ _) ?_
      rintro φ (_ | _) rfl <;> rfl
  | some fate =>
      intro b hknows
      refine ⟨fun hchecks => ?_,
        fun _ => ⟨.free, ⟨.inl rfl, .inl rfl, trivial, trivial⟩, rfl⟩⟩
      have hreaches : Reaches b.db uid ip := by
        rcases hφ with rfl | ⟨-, hunchecked⟩
        · exact hknows
        · exact hchecks rfl hunchecked (uid, ip) hrelies
      dsimp only
      cases hcreate : b.db.createTask task with
      | none => exact ⟨.free, ⟨.inl rfl, .inl rfl, trivial, trivial⟩, rfl⟩
      | some db =>
          refine ⟨.granted uid ip, ⟨.inl rfl, .inr ?_, ?_, hrelies⟩, rfl⟩
          · simp [hcreate]
          · exact (reaches_of_tenants (Database.tenants_createTask hcreate)).mpr hreaches

theorem abides_dispatchTask {mark : BackendMark} {steadyNow : ℤ} {task : HotmethodTask}
    {taskDesc : TaskDesc} {created queued : String} {rejection : RpcReply → Option String}
    {φ : AccessPhase} (hrelies : mark.relies = reliesOn fate task.uid task.targetIp)
    (hφ : φ = granting fate task.uid task.targetIp ∨ φ = .free ∧ mark.unchecked = true) :
    (dispatchTask mark steadyNow task taskDesc created queued rejection fate).Abides accessLaw
      (fun φ _ => φ = .free) φ := by
  unfold dispatchTask
  refine (abides_insertTask hrelies hφ).bind ?_
  rintro _ (_ | _) rfl
  · exact (rfl : AccessPhase.free = .free)
  have hrecorded : ({ mark with unchecked := false } : BackendMark).relies =
      reliesOn fate task.uid task.targetIp := hrelies
  refine (abides_keepsTenants hrecorded (keepsTenants_recordStateChange _ _ _ _ _ _)).bind ?_
  rintro _ _ rfl
  refine abides_callControl.bind ?_
  rintro _ ⟨reply, _⟩ rfl
  dsimp only
  split
  · exact (sendsSafely_onDb _ _).bind fun _ => (sendsSafely_onDb _ _).bind fun _ => .pure _
  · exact (sendsSafely_onDb _ _).bind fun _ => .pure _

/-! ## The requests that send tasks -/

variable {now steadyNow : ℤ} {cleanup : RpcFate}

theorem sendsSafely_createTaskInternal {tid userName : String} {req : CreateTaskReq} :
    SendsSafely (Backend.createTaskInternal now steadyNow tid uid userName req fate) := by
  refine (abides_canAccessAgentIP
    (isValidTaskProfilerCombination req.type req.profilerType)).bind ?_
  rintro _ (_ | _) rfl
  · exact (rfl : AccessPhase.free = .free)
  cases hvalid : isValidTaskProfilerCombination req.type req.profilerType with
  | false => exact (rfl : AccessPhase.free = .free)
  | true =>
      simp only [Bool.and_self, Bool.not_true, Bool.false_eq_true, if_true, if_false]
      refine Program.Abides.bind (abides_dispatchTask ?_ ?_) ?_
      · exact (rfl : reliesOn fate uid req.targetIp = _)
      · exact .inl rfl
      · rintro _ (_ | reply) rfl <;> exact (rfl : AccessPhase.free = .free)

theorem sendsSafely_retryTask {userName tid newTid : String} :
    SendsSafely (Backend.retryTask now steadyNow uid userName tid newTid fate) := by
  apply (sendsSafely_onDb _ _).bind
  rintro (_ | task)
  · exact .pure _
  dsimp only
  split
  · exact .pure _
  · refine (abides_dispatchTask ?_ (.inr ⟨rfl, ?_⟩)).bind ?_
    · exact (rfl : reliesOn fate uid task.targetIp = _)
    · exact (rfl : true = true)
    · rintro _ (_ | reply) rfl <;> exact (rfl : AccessPhase.free = .free)

theorem sendsSafely_executeScheduledTask {newTid : String} {i : ℕ} :
    SendsSafely (Backend.executeScheduledTask now steadyNow newTid i fate) := by
  apply (sendsSafely_query _ _).bind
  rintro (_ | _ | ⟨_, schedule⟩)
  · exact .pure _
  · exact .pure _
  · refine (abides_dispatchTask ?_ (.inr ⟨rfl, ?_⟩)).bind ?_
    · exact (rfl : reliesOn fate schedule.uid schedule.targetIp = _)
    · exact (rfl : true = true)
    · rintro _ _ rfl
      exact (rfl : AccessPhase.free = .free)

theorem sendsSafely_createContinuousInternal {userName : String} {req : CreateContinuousReq} :
    SendsSafely (Backend.createContinuousInternal now steadyNow uid userName req fate cleanup) := by
  refine (abides_canAccessAgentIP true).bind ?_
  rintro _ (_ | _) rfl
  · exact (rfl : AccessPhase.free = .free)
  refine abides_callControl.bind ?_
  rintro _ ⟨_ | error | ⟨code, message⟩, tid⟩ rfl
  · exact (rfl : AccessPhase.free = .free)
  · exact (rfl : AccessPhase.free = .free)
  dsimp only
  split
  · exact (rfl : AccessPhase.free = .free)
  apply (sendsSafely_onDb _ _).bind
  intro inserted
  split
  · exact sendsSafely_callControl.bind fun _ => .pure _
  · exact (sendsSafely_onDb _ _).bind fun _ => .pure _

theorem sendsSafely_createNaturalLanguageTask {tid userName : String}
    {req : NaturalLanguageTaskReq} {order : List ℕ} :
    SendsSafely (Backend.createNaturalLanguageTask now steadyNow tid uid userName req order fate
      cleanup) := by
  have hfirst : SendsSafely (Backend.defaultAgent uid req order) := by
    unfold Backend.defaultAgent
    split
    · exact sendsSafely_onDb _ _
    · exact .pure _
  refine hfirst.bind fun firstAgent => ?_
  dsimp only
  split
  · exact .pure _
  cases (buildNaturalLanguagePlan req firstAgent).mode with
  | continuous => exact sendsSafely_createContinuousInternal
  | oneshot => exact sendsSafely_createTaskInternal

/-- Every request keeps to the law. -/
theorem sendsSafely_program (env : Environment) (request : BackendRequest) :
    SendsSafely (request.program env) := by
  cases request with
  | createTask now steadyNow tid uid userName req fate =>
      refine SendsSafely.bind ?_ fun _ => .pure _
      unfold Backend.createTask
      split
      · exact .pure _
      · exact sendsSafely_createTaskInternal
  | createNaturalLanguageTask =>
      exact sendsSafely_createNaturalLanguageTask.bind fun _ => .pure _
  | retryTask => exact sendsSafely_retryTask.bind fun _ => .pure _
  | createScheduleTask => exact sendsSafely_createScheduleTask.bind fun _ => .pure _
  | deleteScheduleTask => exact sendsSafely_deleteScheduleTask.bind fun _ => .pure _
  | executeScheduledTask => exact sendsSafely_executeScheduledTask
  | createContinuousTask now steadyNow uid userName req fate cleanup =>
      refine SendsSafely.bind ?_ fun _ => .pure _
      unfold Backend.createContinuousTask
      split
      · exact .pure _
      · exact sendsSafely_createContinuousInternal
  | stopContinuousTask => exact sendsSafely_stopContinuousTask.bind fun _ => .pure _
  | getContinuousWindows => exact sendsSafely_getContinuousWindows
  | deleteTask => exact (sendsSafely_onDb _ _).bind fun _ => .pure _
  | waitTaskResult => exact (sendsSafely_onDb _ _).bind fun _ => .pure _
  | triggerAnalysis => exact (sendsSafely_onDb _ _).bind fun _ => .pure _
  | runAnalysis => exact sendsSafely_onDb _ _
  | updateAnalysisStatus => exact (sendsSafely_onDb _ _).bind fun _ => .pure _
  | group request => exact sendsSafely_onDb _ _
  | agentCall event => exact (sendsSafely_transact fun b => ⟨rfl, rfl⟩).bind fun _ => .pure _

end Dispatch

/-! ## Runs -/

/-- In guarded runs every task was sent for a user with access. -/
theorem dispatchesAuthorised_of_guarded {env : Environment}
    {ok : BackendPool → Pool.Event BackendRequest → Prop}
    (h : ∀ pool event, ok pool event → GuardedStep pool event) : DispatchesAuthorised env ok := by
  intro pool hreach
  obtain ⟨_, _, hfits, _⟩ := Pool.Abides.of_reachable (d := accessOrder)
    ⟨by simp, by simp⟩ (fun request _ => sendsSafely_program env request) (hreach.mono h)
  exact hfits.1

/-- User u creates a task for an agent that everyone may use. -/
def createdTask : List (Pool.Event BackendRequest) :=
  [.start (.group (.syncAgents 0 "u" (some [{ ipAddr := "10.0.0.7", uid := "u" }]))),
    .advance 0 false, .advance 0 false, .advance 0 false, .advance 0 false,
    .start (.createTask 0 7 "t" "u" "user"
      { name := "cpu", targetIp := "10.0.0.7", pid := 1, duration := 10 } (some .answered)),
    .advance 1 false, .advance 1 false, .advance 1 false, .advance 1 false, .advance 1 false,
    .advance 1 false]

theorem dispatchesAuthorised_createdTask :
    (backendPool createdTask).store.sent.map Dispatch.authorised = [true] := by
  have hrun : Transition.Along (Pool.step (BackendRequest.program {})) GuardedStep { store := {} }
        createdTask ∧
      (Transition.run (Pool.step (BackendRequest.program {})) { store := {} } createdTask).isSome ∧
      (backendPool createdTask).store.sent.length = 1 := by
    decide +kernel
  obtain ⟨halong, hsome, hlength⟩ := hrun
  have hauthorised := dispatchesAuthorised_of_guarded (fun _ _ h => h) _ (halong.reachable hsome)
  obtain ⟨dispatch, hsent⟩ := List.length_eq_one_iff.mp hlength
  have hmem : dispatch ∈ (backendPool createdTask).store.sent := by
    rw [hsent]
    exact List.mem_singleton_self dispatch
  rw [hsent, List.map_singleton, hauthorised dispatch hmem]

/-- The agent moves to a group without user u, who then retries the task. -/
def retriedTask : List (Pool.Event BackendRequest) :=
  createdTask ++
    [.start (.group (.createGroup 1 "v" "team")), .advance 2 false,
      .start (.group (.syncAgents 0 "v" (some [{ ipAddr := "10.0.0.7", uid := "v" }]))),
      .advance 3 false, .advance 3 false, .advance 3 false, .advance 3 false,
      .start (.retryTask 0 8 "u" "user" "t" "r" (some .answered)),
      .advance 4 false, .advance 4 false, .advance 4 false, .advance 4 false]

/-- The task is sent all the same. -/
theorem not_dispatchesAuthorised : ¬ DispatchesAuthorised {} fun _ _ => True := by
  intro h
  have hrun : Transition.Along (Pool.step (BackendRequest.program {})) (fun _ _ => True)
        { store := {} } retriedTask ∧
      (Transition.run (Pool.step (BackendRequest.program {})) { store := {} } retriedTask).isSome ∧
      ∃ dispatch ∈ (backendPool retriedTask).store.sent, dispatch.authorised = false := by
    decide +kernel
  obtain ⟨halong, hsome, dispatch, hsent, hrefused⟩ := hrun
  have hauthorised := h (backendPool retriedTask) (halong.reachable hsome) dispatch hsent
  rw [hrefused] at hauthorised
  cases hauthorised

end MiniDrop
