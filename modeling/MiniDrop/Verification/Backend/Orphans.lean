import MiniDrop.Library.Pool
import MiniDrop.Model.Backend
import MiniDrop.Verification.Api.Tables
import MiniDrop.Verification.Hotmethod.Windows

/-! # Continuous tasks without a row

drop_server samples as long as it is not told to stop, and a user can only stop a task with a row.
A request that has started a task owes it a row, or its end. -/

namespace MiniDrop

/-- drop_server samples for a task that no query finds. -/
def Orphan (b : Backend) (p : String) : Prop := b.service.Running p ∧ b.db.task? p = none

/-- No request is creating a continuous task. -/
def BackendPool.Settled (pool : BackendPool) : Prop :=
  ∀ mark, some mark ∈ pool.marks → mark.creates = false

/-- In all runs from the start whose steps satisfy `ok`, every running task has a row, as long as
none is being created. -/
def StaysStoppable (env : Environment) (ok : BackendPool → Pool.Event BackendRequest → Prop) :
    Prop :=
  ∀ pool : BackendPool,
    Transition.Reachable (Pool.step (BackendRequest.program env)) ok { store := {} } pool →
      pool.Settled → ∀ p, pool.store.service.Running p → ∃ row, pool.store.db.task? p = some row

/-! ## The condition -/

/-- Who starts a task learns its id, or finds a row with this id. -/
def Answers (lost : Bool) (b : Backend) : ℤ × ControlCall → Prop
  | (now, .startContinuous request) => request.targetIp ≠ "" → 0 < request.pid →
      lost = true ∨ b.service.hasRoom request.targetIp = false →
        (b.db.task? (HotmethodService.parentTidAt now)).isSome
  | _ => True

/-- No row is deleted whose task runs; a call that starts a task is answered, and its queue has
room, unless there is a row for the id already; a call that stops what was started arrives, unless
there is a row or the task does not run. -/
structure Tidy (mark : BackendMark) (b : Backend) (fails : Bool) : Prop where
  keeps : fails = false → ∀ p, b.service.Running p → (b.db.task? p).isSome →
    ((mark.change b.db).task? p).isSome
  answers : fails = false → ∀ call ∈ mark.call, Answers mark.lost b call
  stops : ∀ p ∈ mark.abandons, fails = true ∨ mark.call = none → ¬ Orphan b p

instance (b : Backend) (p : String) : Decidable (Orphan b p) :=
  inferInstanceAs (Decidable (_ ∧ _))

instance (lost : Bool) (b : Backend) : DecidablePred (Answers lost b) := fun (now, call) => by
  cases call <;> simp only [Answers] <;> infer_instance

instance (mark : BackendMark) (b : Backend) (fails : Bool) : Decidable (Tidy mark b fails) :=
  decidable_of_iff
    ((fails = false → ∀ entry ∈ b.service.continuousTasks.toList, entry.2.running = true →
        (b.db.task? entry.1).isSome → ((mark.change b.db).task? entry.1).isSome) ∧
      (fails = false → ∀ call ∈ mark.call, Answers mark.lost b call) ∧
      ∀ p ∈ mark.abandons, fails = true ∨ mark.call = none → ¬ Orphan b p)
    ⟨fun ⟨hkeeps, hanswers, hstops⟩ => ⟨fun hfails p ⟨config, hconfig, hrun⟩ =>
        hkeeps hfails (p, config) (Std.ExtTreeMap.mem_toList_iff_getElem?_eq_some.mpr hconfig) hrun,
        hanswers, hstops⟩,
      fun h => ⟨fun hfails entry hentry hrun => h.keeps hfails entry.1
        ⟨entry.2, Std.ExtTreeMap.mem_toList_iff_getElem?_eq_some.mp hentry, hrun⟩,
        h.answers, h.stops⟩⟩

/-- The steps of a run, as far as they are tidy. -/
abbrev TidyStep : BackendPool → Pool.Event BackendRequest → Prop :=
  Pool.Lawful (fun _ => True) fun _ _ mark b fails => Tidy mark b fails

/-! ## The law -/

/-- A statement leaves no orphan but the one that its thread owes a row from then on. -/
def orphanLaw : Program.Law BackendMark Backend (Option String) where
  knows _ _ := True
  may := Tidy
  allows φ mark b t φ' :=
    (∀ p, Orphan t p → φ' = some p ∨ φ ≠ some p ∧ Orphan b p) ∧ (φ' ≠ none → mark.creates = true)

/-- Every orphan is owed by a request that is creating it. -/
def orphanOrder : Pool.Order BackendMark Backend (Option String) where
  toLaw := orphanLaw
  initial := none
  final φ := φ = none
  permits _ _ mark b fails := Tidy mark b fails
  permits_may _ _ _ _ _ h := h
  fits slots b := (∀ p, Orphan b p → ∃ slot ∈ slots, slot.1 = some p) ∧
    ∀ slot ∈ slots, slot.1 ≠ none → ∃ mark, slot.2 = some mark ∧ mark.creates = true
  fits_start slots b h := by
    refine ⟨fun p hp => ?_, fun slot hmem => ?_⟩
    · obtain ⟨slot, hmem, howes⟩ := h.1 p hp
      exact ⟨slot, List.mem_append_left _ hmem, howes⟩
    · rcases List.mem_append.mp hmem with hmem | hmem
      · exact h.2 slot hmem
      · rw [List.mem_singleton.mp hmem]
        exact fun hne => absurd rfl hne
  fits_knows _ _ _ _ _ _ _ := trivial
  fits_advance slots b i φ last mark fails t φ' last' h hslot _ _ hallows hlast := by
    obtain ⟨howed, hcreates⟩ := hallows
    have hi : i < slots.length := (List.getElem?_eq_some_iff.mp hslot).1
    have hset : (φ', last') ∈ slots.set i (φ', last') :=
      List.mem_iff_getElem?.mpr ⟨i, List.getElem?_set_self hi⟩
    refine ⟨fun p hp => ?_, fun slot hmem hne => ?_⟩
    · rcases howed p hp with rfl | ⟨hother, hold⟩
      · exact ⟨_, hset, rfl⟩
      · obtain ⟨slot, hmem, howes⟩ := h.1 p hold
        rcases List.mem_cases hslot hmem with rfl | hmem
        · exact absurd howes hother
        · exact ⟨slot, List.mem_set_of_mem_eraseIdx hmem, howes⟩
    · rcases List.mem_set_cases hmem with rfl | hmem
      · rcases hlast with hlast | ⟨-, hfinal⟩
        · exact ⟨mark, hlast, hcreates hne⟩
        · exact absurd hfinal hne
      · exact h.2 slot (List.mem_of_mem_eraseIdx hmem) hne

/-! ## Requests that start nothing -/

/-- Statements that start no continuous task, and whose marks tell what they do to the tables. -/
def StartsNothing {α : Type} : BackendProgram α → Prop
  | .done _ => True
  | .stmt mark act next failed =>
    (∀ b, (act b).db = mark.change b.db ∧
      ∀ p, (act b).service.Running p → b.service.Running p) ∧
    (∀ b, StartsNothing (next b)) ∧ StartsNothing failed

section StartsNothing

variable {α β : Type}

theorem StartsNothing.pure (result : α) : StartsNothing (Pure.pure result) := trivial

theorem StartsNothing.bind {p : BackendProgram α} {k : α → BackendProgram β} (h : StartsNothing p)
    (hk : ∀ result, StartsNothing (k result)) : StartsNothing (p >>= k) := by
  induction p with
  | done result => exact hk result
  | stmt mark act next failed ihnext ihfailed =>
      exact ⟨h.1, fun b => ihnext b (h.2.1 b), ihfailed h.2.2⟩

theorem startsNothing_onDb (mark : BackendMark) (p : Statements α) :
    StartsNothing (onDb mark p) := by
  induction p with
  | done result => trivial
  | stmt m act next failed ihnext ihfailed =>
      exact ⟨fun b => ⟨rfl, fun _ h => h⟩, fun b => ihnext b.db, ihfailed⟩

theorem startsNothing_query (mark : BackendMark) (hchange : mark.change = id)
    (read : Backend → α) : StartsNothing (Program.query mark read) :=
  ⟨fun b => ⟨by rw [hchange]; rfl, fun _ h => h⟩, fun _ => trivial, trivial⟩

theorem startsNothing_transact (mark : BackendMark) (hchange : mark.change = id)
    {change : Backend → α × Backend}
    (h : ∀ b, (change b).2.db = b.db ∧
      ∀ p, (change b).2.service.Running p → b.service.Running p) :
    StartsNothing (Program.transact mark change) :=
  ⟨fun b => ⟨by rw [hchange]; exact (h b).1, (h b).2⟩, fun _ => trivial, trivial⟩

/-- The thread owes nothing, and goes on owing nothing. -/
theorem StartsNothing.abides {p : BackendProgram α} (h : StartsNothing p) :
    p.Abides orphanLaw (fun φ _ => φ = none) none := by
  induction p with
  | done result => rfl
  | stmt mark act next failed ihnext ihfailed =>
      intro b _
      refine ⟨fun htidy => ⟨none, ⟨fun p hp => .inr ⟨by simp, ?_⟩, fun hne => absurd rfl hne⟩,
        ihnext b (h.2.1 b)⟩, fun _ => ⟨none, ⟨fun p hp => .inr ⟨by simp, hp⟩,
        fun hne => absurd rfl hne⟩, ihfailed h.2.2⟩⟩
      obtain ⟨hdb, hrunning⟩ := h.1 b
      have hold := hrunning p hp.1
      refine ⟨hold, Option.not_isSome_iff_eq_none.mp fun hsome => ?_⟩
      have hkept := htidy.keeps rfl p hold hsome
      rw [← hdb, hp.2] at hkept
      cases hkept

end StartsNothing

/-! ### drop_server -/

section Service

variable {s : HotmethodService} {p : String}

theorem HotmethodService.Running.of_same {t : HotmethodService}
    (h : t.continuousTasks = s.continuousTasks) (hrunning : t.Running p) : s.Running p := by
  unfold HotmethodService.Running at hrunning ⊢
  rwa [h] at hrunning

theorem HotmethodService.not_running_stop (s : HotmethodService) (p : String) :
    ¬ (s.stopContinuousTask p).1.Running p := by
  rintro ⟨config, hconfig, hrun⟩
  rw [Option.mem_def, stopContinuousTask_continuousTasks, if_pos rfl] at hconfig
  obtain ⟨old, -, rfl⟩ := Option.map_eq_some_iff.mp hconfig
  cases hrun

theorem HotmethodService.Running.of_stop {taskId : String}
    (h : (s.stopContinuousTask taskId).1.Running p) : s.Running p := by
  obtain ⟨config, hconfig, hrun⟩ := h
  rw [Option.mem_def, stopContinuousTask_continuousTasks] at hconfig
  by_cases heq : taskId = p
  · rw [if_pos heq] at hconfig
    obtain ⟨old, -, rfl⟩ := Option.map_eq_some_iff.mp hconfig
    cases hrun
  · rw [if_neg heq] at hconfig
    exact ⟨config, hconfig, hrun⟩

/-- A call that starts no continuous task leaves no new one running. -/
theorem HotmethodService.Running.of_handle {now : ℤ} {call : ControlCall}
    (hcall : ∀ request, call ≠ .startContinuous request)
    (h : (s.handle now call).1.Running p) : s.Running p := by
  cases call with
  | createTask targetIp taskDesc =>
      refine h.of_same ?_
      simp only [handle, createTaskRpc, pushTask]
      split
      · rfl
      · split
        · rfl
        · dsimp only
          split <;> rfl
  | startContinuous request => exact absurd rfl (hcall request)
  | stopContinuous taskId =>
      simp only [handle, stopContinuousRpc] at h
      by_cases hempty : taskId = ""
      · rwa [if_pos hempty] at h
      · rw [if_neg hempty] at h
        exact h.of_stop

/-- A started task is the one whose id the steady clock gives. -/
theorem HotmethodService.Running.of_start {now : ℤ} {request : StartContinuousRequest}
    (h : (s.handle now (.startContinuous request)).1.Running p) :
    s.Running p ∨ parentTidAt now = p ∧ request.targetIp ≠ "" ∧ 0 < request.pid := by
  simp only [handle, startContinuousRpc] at h
  by_cases hip : request.targetIp = ""
  · rw [if_pos hip] at h
    exact .inl h
  rw [if_neg hip] at h
  by_cases hpid : request.pid ≤ 0
  · rw [if_pos hpid] at h
    exact .inl h
  rw [if_neg hpid] at h
  by_cases hp : parentTidAt now = p
  · exact .inr ⟨hp, hip, Int32.not_le.mp hpid⟩
  · obtain ⟨config, hconfig, hrun⟩ := h
    refine .inl ⟨config, ?_, hrun⟩
    simpa [hp] using hconfig

theorem HotmethodService.running_of_agentCall {event : Event} (hagent : event.call.FromAgents)
    (h : ((s.step event).getD s).Running p) : s.Running p := by
  cases hstep : s.step event with
  | none => rwa [hstep] at h
  | some t =>
      rw [hstep] at h
      obtain ⟨traced, htraced, rfl⟩ := Traced.exists_step (s := { service := s }) hstep
      rcases Traced.running_step htraced h with hold | ⟨request, hcall, -⟩
      · exact hold
      · rw [hcall] at hagent
        exact hagent.elim

end Service

/-! ### The requests -/

section Requests

variable (env : Environment) {now steadyNow : ℤ} {fate : Option RpcFate} {cleanup : RpcFate}

theorem startsNothing_callControl {mark : BackendMark} (hchange : mark.change = id)
    {call : ControlCall} (hcall : ∀ request, call ≠ .startContinuous request)
    {note : Backend → Backend} (hnote : ∀ b, (note b).db = b.db ∧ (note b).service = b.service) :
    StartsNothing (callControl mark now call fate note) := by
  rcases fate with _ | (error | error | _)
  · exact .pure _
  · refine (startsNothing_transact mark hchange fun b => ⟨(hnote b).1, ?_⟩).bind fun _ => .pure _
    intro p h
    rwa [(hnote b).2] at h
  · exact (startsNothing_transact _ hchange fun b => ⟨(hnote b).1, fun p h =>
      h.of_handle hcall⟩).bind fun _ => .pure _
  · refine (startsNothing_transact _ hchange fun b => ⟨(hnote b).1, fun p h =>
      h.of_handle hcall⟩).bind ?_
    rintro (_ | response) <;> exact .pure _

theorem startsNothing_dispatchTask {mark : BackendMark} {task : HotmethodTask}
    {taskDesc : TaskDesc} {created queued : String} {rejection : RpcReply → Option String} :
    StartsNothing (dispatchTask mark steadyNow task taskDesc created queued rejection fate) := by
  unfold dispatchTask
  apply (startsNothing_onDb _ _).bind
  intro inserted
  split
  · exact .pure _
  apply (startsNothing_onDb _ _).bind
  intro _
  refine StartsNothing.bind (startsNothing_callControl rfl (by simp) ?_) ?_
  · exact fun _ => ⟨rfl, rfl⟩
  rintro ⟨reply, _⟩
  dsimp only
  split
  · exact (startsNothing_onDb _ _).bind fun _ => (startsNothing_onDb _ _).bind fun _ => .pure _
  · exact (startsNothing_onDb _ _).bind fun _ => .pure _

theorem startsNothing_createTaskInternal {tid uid userName : String} {req : CreateTaskReq} :
    StartsNothing (Backend.createTaskInternal now steadyNow tid uid userName req fate) := by
  apply (startsNothing_onDb _ _).bind
  intro allowed
  split
  · exact .pure _
  split
  · exact .pure _
  · apply startsNothing_dispatchTask.bind
    rintro (_ | reply) <;> exact .pure _

theorem startsNothing_retryTask {uid userName tid newTid : String} :
    StartsNothing (Backend.retryTask now steadyNow uid userName tid newTid fate) := by
  apply (startsNothing_onDb _ _).bind
  rintro (_ | task)
  · exact .pure _
  dsimp only
  split
  · exact .pure _
  · apply startsNothing_dispatchTask.bind
    rintro (_ | reply) <;> exact .pure _

theorem startsNothing_createScheduleTask {suffix uid userName : String}
    {req : CreateScheduleReq} :
    StartsNothing (Backend.createScheduleTask env.parser suffix uid userName req) := by
  unfold Backend.createScheduleTask
  split
  · exact .pure _
  apply (startsNothing_onDb _ _).bind
  rintro (tid | _)
  · exact (startsNothing_transact _ rfl fun _ => ⟨rfl, fun _ h => h⟩).bind fun _ => .pure _
  · exact .pure _

theorem startsNothing_deleteScheduleTask {uid tid : String} :
    StartsNothing (Backend.deleteScheduleTask uid tid) := by
  apply (startsNothing_onDb _ _).bind
  rintro (_ | answer)
  · exact .pure _
  dsimp only
  split
  · exact (startsNothing_transact _ rfl fun _ => ⟨rfl, fun _ h => h⟩).bind fun _ => .pure _
  · exact .pure _

theorem startsNothing_executeScheduledTask {newTid : String} {i : ℕ} :
    StartsNothing (Backend.executeScheduledTask now steadyNow newTid i fate) := by
  apply (startsNothing_query _ rfl _).bind
  rintro (_ | _ | ⟨_, schedule⟩)
  · exact .pure _
  · exact .pure _
  · exact startsNothing_dispatchTask.bind fun _ => .pure _

theorem startsNothing_stopContinuousTask {uid tid : String} :
    StartsNothing (Backend.stopContinuousTask now uid tid fate) := by
  apply (startsNothing_onDb _ _).bind
  rintro (_ | task)
  · exact .pure _
  · refine StartsNothing.bind (startsNothing_callControl rfl (by simp) ?_) ?_
    · exact fun _ => ⟨rfl, rfl⟩
    · exact fun _ => startsNothing_onDb _ _

theorem startsNothing_getContinuousWindows {uid tid : String} {reached : Bool} :
    StartsNothing (Backend.getContinuousWindows env.assigns env.analysisConfigured uid tid
      reached) := by
  apply (startsNothing_onDb _ _).bind
  rintro (_ | parentTask)
  · exact .pure _
  dsimp only
  split
  · apply (startsNothing_query _ rfl _).bind
    rintro (_ | _ | windows)
    · exact .pure _
    · exact .pure _
    · exact (startsNothing_onDb _ _).bind fun _ => .pure _
  · exact .pure _

end Requests

/-! ## The request that creates a continuous task -/

section Creation

variable {mark : BackendMark} {b t : Backend} {φ : Option String} {tid : String}

/-- The thread goes on to owe what it owes. -/
theorem allows_same (hsame : ∀ p, Orphan t p → Orphan b p) (hcreates : mark.creates = true) :
    orphanLaw.allows φ mark b t φ := by
  refine ⟨fun p hp => ?_, fun _ => hcreates⟩
  by_cases howes : φ = some p
  · exact .inl howes
  · exact .inr ⟨howes, hsame p hp⟩

/-- The thread owes nothing any more. -/
theorem allows_none (howes : φ = none ∨ φ = some tid) (hsame : ∀ p, Orphan t p → Orphan b p)
    (hsettled : φ = some tid → ¬ Orphan t tid) : orphanLaw.allows φ mark b t none := by
  refine ⟨fun p hp => .inr ⟨?_, hsame p hp⟩, fun hne => absurd rfl hne⟩
  rintro rfl
  rcases howes with howes | howes
  · cases howes
  · obtain rfl := Option.some.inj howes
    exact hsettled rfl hp

/-- The request owes the task that was answered with this id, or nothing. -/
def Owes (φ : Option String) (answer : RpcReply × String) : Prop :=
  φ = none ∨ φ = some answer.2 ∧ answer.2 ≠ "" ∧ ∃ message, answer.1 = .answered 0 message

theorem handle_start {s : HotmethodService} (now : ℤ) {request : StartContinuousRequest}
    (hip : request.targetIp ≠ "") (hpid : 0 < request.pid)
    (hroom : s.hasRoom request.targetIp = true) :
    (s.handle now (.startContinuous request)).2 =
      { code := 0, message := "OK", taskId := HotmethodService.parentTidAt now } := by
  have hnamed : HotmethodService.parentTidAt now ≠ "" := by
    simp [HotmethodService.parentTidAt]
  have hstarted : (s.startContinuousTask now request).2 = HotmethodService.parentTidAt now := by
    have hregistered : (s.registerContinuous (HotmethodService.continuousConfig
        (HotmethodService.parentTidAt now) request)).hasRoom request.targetIp = true := hroom
    simp [HotmethodService.startContinuousTask, hregistered]
  simp only [HotmethodService.handle, HotmethodService.startContinuousRpc, if_neg hip,
    if_neg (Int32.not_le.mpr hpid), hstarted, if_neg hnamed]

theorem abides_start {steadyNow : ℤ} {request : StartContinuousRequest} {fate : Option RpcFate}
    (uid targetIp : String) :
    (callControl { creates := true } steadyNow (.startContinuous request) fate
      (Backend.dispatched uid targetIp (.startContinuous request))).Abides orphanLaw Owes none := by
  have horphan : ∀ (b : Backend) p, Orphan b p →
      Orphan (Backend.dispatched uid targetIp (.startContinuous request) b) p := fun _ _ h => h
  -- what the call leaves running is running before, or the task that it starts
  have hnew : ∀ (b : Backend) p,
      Orphan { Backend.dispatched uid targetIp (.startContinuous request) b with
        service := (b.service.handle steadyNow (.startContinuous request)).1 } p →
      Orphan b p ∨ HotmethodService.parentTidAt steadyNow = p ∧ request.targetIp ≠ "" ∧
        0 < request.pid ∧ b.db.task? p = none := by
    rintro b p ⟨hrunning, hrow⟩
    rcases hrunning.of_start with hold | ⟨hp, hip, hpid⟩
    · exact .inl ⟨hold, hrow⟩
    · exact .inr ⟨hp, hip, hpid, hrow⟩
  rcases fate with _ | (error | error | _)
  · exact .inl rfl
  · intro b _
    have hkeep : orphanLaw.allows none { creates := true } b
        (Backend.dispatched uid targetIp (.startContinuous request) b) none :=
      allows_same (fun _ h => h) rfl
    exact ⟨fun _ => ⟨none, hkeep, .inl rfl⟩,
      fun _ => ⟨none, allows_same (fun _ h => h) rfl, .inl rfl⟩⟩
  · intro b _
    refine ⟨fun htidy => ⟨none, ⟨fun p hp => .inr ⟨by simp, ?_⟩, by simp⟩, .inl rfl⟩,
      fun _ => ⟨none, allows_same (fun _ h => h) rfl, .inl rfl⟩⟩
    rcases hnew b p hp with hold | ⟨rfl, hip, hpid, hrow⟩
    · exact hold
    · have hlive := htidy.answers rfl _ rfl hip hpid (.inl rfl)
      rw [hrow] at hlive
      cases hlive
  · intro b _
    refine ⟨fun htidy => ?_, fun _ => ⟨none, allows_same (fun _ h => h) rfl, .inl rfl⟩⟩
    by_cases hstarts : request.targetIp ≠ "" ∧ 0 < request.pid ∧
        b.service.hasRoom request.targetIp = true
    · obtain ⟨hip, hpid, hroom⟩ := hstarts
      refine ⟨some (HotmethodService.parentTidAt steadyNow), ⟨fun p hp => ?_, fun _ => rfl⟩, ?_⟩
      · rcases hnew b p hp with hold | ⟨rfl, -⟩
        · exact .inr ⟨by simp, hold⟩
        · exact .inl rfl
      · have hresponse := handle_start (s := b.service) steadyNow hip hpid hroom
        refine .inr ⟨?_, ?_, "OK", ?_⟩ <;> simp [hresponse, HotmethodService.parentTidAt]
    · refine ⟨none, ⟨fun p hp => .inr ⟨by simp, ?_⟩, by simp⟩, .inl rfl⟩
      rcases hnew b p hp with hold | ⟨rfl, hip, hpid, hrow⟩
      · exact hold
      · have hfull : b.service.hasRoom request.targetIp = false := by
          simpa [hip, hpid] using hstarts
        have hlive := htidy.answers rfl _ rfl hip hpid (.inr hfull)
        rw [hrow] at hlive
        cases hlive

/-- The INSERT settles what is owed for the id, if it takes place. -/
theorem abides_insert {task : HotmethodTask} (hname : task.tid = tid) (hlive : task.deleted = false)
    (howes : φ = none ∨ φ = some tid) :
    (onDb { creates := true } (Program.update { tid, writes := true } fun db =>
      db.createTask task)).Abides orphanLaw
        (fun φ' inserted => φ' = if inserted = true then none else φ) φ := by
  intro b _
  refine ⟨fun _ => ?_, fun _ => ⟨φ, allows_same (fun _ h => h) rfl, rfl⟩⟩
  show ∃ φ', orphanLaw.allows φ _ b { b with db := (b.db.createTask task).getD b.db } φ' ∧
    φ' = if (b.db.createTask task).isSome = true then none else φ
  cases hcreate : b.db.createTask task with
  | none => exact ⟨φ, allows_same (fun _ h => h) rfl, rfl⟩
  | some db =>
      obtain ⟨-, rfl⟩ := Database.createTask_eq_some b.db hcreate
      subst hname
      have hrow : ∀ p, ({ b.db with tasks := b.db.tasks.insert task.tid task } : Database).task? p =
          if task.tid = p then some task else b.db.task? p := by
        intro p
        by_cases hp : task.tid = p <;> simp [Database.task?, hp, hlive]
      refine ⟨none, allows_none howes (fun p hp => ?_) fun _ hp => ?_, rfl⟩
      · have hnone := hp.2
        rw [Option.getD_some, hrow] at hnone
        by_cases hname : task.tid = p
        · simp [hname] at hnone
        · exact ⟨hp.1, by rwa [if_neg hname] at hnone⟩
      · have hnone := hp.2
        rw [Option.getD_some, hrow, if_pos rfl] at hnone
        cases hnone

/-- The call that stops the task settles what is owed for the id. -/
theorem abides_cleanup {steadyNow : ℤ} {cleanup : RpcFate} (howes : φ = none ∨ φ = some tid)
    (hnamed : φ = some tid → tid ≠ "") :
    (callControl { creates := true, abandons := some tid } steadyNow (.stopContinuous tid)
      (some cleanup) id).Abides orphanLaw (fun φ _ => φ = none) φ := by
  have hstopped : ∀ b : Backend, φ = some tid →
      ¬ Orphan { b with service := (b.service.handle steadyNow (.stopContinuous tid)).1 } tid := by
    intro b howed horphan
    have hrunning := horphan.1
    simp only [HotmethodService.handle, HotmethodService.stopContinuousRpc,
      if_neg (hnamed howed)] at hrunning
    exact b.service.not_running_stop tid hrunning
  have hsame : ∀ (b : Backend) p,
      Orphan { b with service := (b.service.handle steadyNow (.stopContinuous tid)).1 } p →
        Orphan b p := fun b p h => ⟨h.1.of_handle (by simp), h.2⟩
  -- the call does not take place
  have hmissed : ∀ (b : Backend) (mark : BackendMark) (fails : Bool), Tidy mark b fails →
      mark.abandons = some tid → (fails = true ∨ mark.call = none) →
        orphanLaw.allows φ mark b b none := by
    intro b mark fails htidy habandons hmissed
    exact allows_none howes (fun _ h => h) fun _ => htidy.stops tid habandons hmissed
  rcases cleanup with error | error | _
  · intro b _
    exact ⟨fun htidy => ⟨none, hmissed b _ false htidy rfl (.inr rfl), rfl⟩,
      fun htidy => ⟨none, hmissed b _ true htidy rfl (.inl rfl), rfl⟩⟩
  · intro b _
    exact ⟨fun _ => ⟨none, allows_none howes (hsame b) (hstopped b), rfl⟩,
      fun htidy => ⟨none, hmissed b _ true htidy rfl (.inl rfl), rfl⟩⟩
  · intro b _
    exact ⟨fun _ => ⟨none, allows_none howes (hsame b) (hstopped b), rfl⟩,
      fun htidy => ⟨none, hmissed b _ true htidy rfl (.inl rfl), rfl⟩⟩

theorem abides_createContinuousInternal {now steadyNow : ℤ} {uid userName : String}
    {req : CreateContinuousReq} {fate : Option RpcFate} {cleanup : RpcFate} :
    (Backend.createContinuousInternal now steadyNow uid userName req fate cleanup).Abides
      orphanLaw (fun φ _ => φ = none) none := by
  apply (startsNothing_onDb _ _).abides.bind
  rintro _ allowed rfl
  split
  · exact (rfl : none = none)
  refine (abides_start uid req.targetIp).bind ?_
  rintro φ ⟨reply, tid⟩ howes
  -- without an answer of code 0 nothing is owed
  have hnothing : (∀ message, reply ≠ .answered 0 message) → φ = none := by
    intro hreply
    rcases howes with hnone | ⟨-, -, message, hanswered⟩
    · exact hnone
    · exact absurd hanswered (hreply message)
  cases reply with
  | notConnected => exact hnothing (by simp)
  | failed error => exact hnothing (by simp)
  | answered code message =>
      dsimp only
      by_cases hcode : code ≠ 0
      · rw [if_pos hcode]
        exact hnothing (by simpa using fun h => absurd h hcode)
      rw [if_neg hcode]
      have howes' : φ = none ∨ φ = some tid := howes.imp_right And.left
      have hnamed : φ = some tid → tid ≠ "" := by
        rintro rfl
        rcases howes with hnone | ⟨-, hnamed, -⟩
        · cases hnone
        · exact hnamed
      refine (abides_insert rfl rfl howes').bind ?_
      rintro _ inserted rfl
      cases inserted with
      | true => exact ((startsNothing_onDb _ _).bind fun _ => .pure _).abides
      | false =>
          exact (abides_cleanup howes' hnamed).bind fun φ' _ hφ' => (hφ' : φ' = none)

theorem abides_createNaturalLanguageTask {now steadyNow : ℤ} {tid uid userName : String}
    {req : NaturalLanguageTaskReq} {order : List ℕ} {fate : Option RpcFate} {cleanup : RpcFate} :
    (Backend.createNaturalLanguageTask now steadyNow tid uid userName req order fate
      cleanup).Abides orphanLaw (fun φ _ => φ = none) none := by
  have hfirst : StartsNothing (Backend.defaultAgent uid req order) := by
    unfold Backend.defaultAgent
    split
    · exact startsNothing_onDb _ _
    · exact .pure _
  refine hfirst.abides.bind ?_
  rintro _ firstAgent rfl
  dsimp only
  split
  · exact (rfl : none = none)
  cases (buildNaturalLanguagePlan req firstAgent).mode with
  | continuous => exact abides_createContinuousInternal
  | oneshot => exact startsNothing_createTaskInternal.abides

/-- Every request abides by the law. -/
theorem abides_program (env : Environment) (request : BackendRequest) :
    (request.program env).Abides orphanLaw (fun φ _ => φ = none) none := by
  have hdone : ∀ {α : Type} {p : BackendProgram α}, StartsNothing p →
      (p >>= fun _ => pure ()).Abides orphanLaw (fun φ (_ : Unit) => φ = none) none :=
    fun h => (h.bind fun _ => .pure _).abides
  cases request with
  | createTask now steadyNow tid uid userName req fate =>
      refine hdone ?_
      unfold Backend.createTask
      split
      · exact .pure _
      · exact startsNothing_createTaskInternal
  | createNaturalLanguageTask now steadyNow tid uid userName req order fate cleanup =>
      exact abides_createNaturalLanguageTask.bind fun φ _ hφ => (hφ : φ = none)
  | retryTask => exact hdone startsNothing_retryTask
  | createScheduleTask => exact hdone (startsNothing_createScheduleTask env)
  | deleteScheduleTask => exact hdone startsNothing_deleteScheduleTask
  | executeScheduledTask => exact startsNothing_executeScheduledTask.abides
  | createContinuousTask now steadyNow uid userName req fate cleanup =>
      refine Program.Abides.bind (Q := fun φ _ => φ = none) ?_ fun φ _ hφ => (hφ : φ = none)
      unfold Backend.createContinuousTask
      split
      · exact (rfl : none = none)
      · exact abides_createContinuousInternal
  | stopContinuousTask => exact hdone startsNothing_stopContinuousTask
  | getContinuousWindows => exact (startsNothing_getContinuousWindows env).abides
  | deleteTask => exact hdone (startsNothing_onDb _ _)
  | waitTaskResult => exact hdone (startsNothing_onDb _ _)
  | triggerAnalysis => exact hdone (startsNothing_onDb _ _)
  | runAnalysis => exact (startsNothing_onDb _ _).abides
  | updateAnalysisStatus => exact hdone (startsNothing_onDb _ _)
  | group => exact (startsNothing_onDb _ _).abides
  | agentCall event =>
      refine hdone (startsNothing_transact _ rfl fun b => ⟨rfl, fun p h => ?_⟩)
      dsimp only at h
      by_cases hagent : event.call.FromAgents
      · rw [if_pos hagent] at h
        exact HotmethodService.running_of_agentCall hagent h
      · rwa [if_neg hagent] at h

end Creation

/-! ## Runs -/

/-- In tidy runs every running task has a row. -/
theorem staysStoppable_of_tidy {env : Environment}
    {ok : BackendPool → Pool.Event BackendRequest → Prop}
    (h : ∀ pool event, ok pool event → TidyStep pool event) : StaysStoppable env ok := by
  intro pool hreach hsettled p hrunning
  have hempty : ∀ p, ¬ Orphan {} p := by
    rintro p ⟨⟨config, hconfig, -⟩, -⟩
    simp at hconfig
  obtain ⟨slots, hmarks, ⟨howed, hcreates⟩, -⟩ := Pool.Abides.of_reachable (d := orphanOrder)
    ⟨fun p hp => absurd hp (hempty p), by simp⟩ (fun request _ => abides_program env request)
    (hreach.mono h)
  by_contra hrow
  have horphan : Orphan pool.store p :=
    ⟨hrunning, Option.eq_none_iff_forall_ne_some.mpr fun row hfound => hrow ⟨row, hfound⟩⟩
  obtain ⟨slot, hmem, howes⟩ := howed p horphan
  obtain ⟨mark, hmark, hcreating⟩ := hcreates slot hmem (by simp [howes])
  have hquiet := hsettled mark (hmarks ▸ hmark ▸ List.mem_map_of_mem hmem)
  rw [hcreating] at hquiet
  cases hquiet

instance (pool : BackendPool) : Decidable pool.Settled :=
  decidable_of_iff (∀ last ∈ pool.marks, ∀ mark ∈ last, mark.creates = false)
    ⟨fun h mark hmark => h _ hmark mark rfl, fun h _ hlast mark hmark => h mark (hmark ▸ hlast)⟩

/-- User u starts to sample a process on an agent. -/
def startedTask : List (Pool.Event BackendRequest) :=
  [.start (.group (.syncAgents 0 "u" (some [{ ipAddr := "10.0.0.7", uid := "u" }]))),
    .advance 0 false, .advance 0 false, .advance 0 false, .advance 0 false,
    .start (.createContinuousTask 0 7 "u" "user" { targetIp := "10.0.0.7", pid := 1 }
      (some .answered) .answered),
    .advance 1 false, .advance 1 false, .advance 1 false, .advance 1 false, .advance 1 false]

/-- The pool after these events. -/
def backendPool (events : List (Pool.Event BackendRequest)) : BackendPool :=
  Transition.after (Pool.step (BackendRequest.program {})) { store := {} } events

theorem staysStoppable_startedTask :
    ∃ row, (backendPool startedTask).store.db.task? "cp_7" = some row := by
  have hrun : Transition.Along (Pool.step (BackendRequest.program {})) TidyStep { store := {} }
      startedTask ∧
      (Transition.run (Pool.step (BackendRequest.program {})) { store := {} } startedTask).isSome ∧
      (backendPool startedTask).Settled ∧
      (backendPool startedTask).store.service.Running "cp_7" := by
    decide +kernel
  obtain ⟨halong, hsome, hsettled, hrunning⟩ := hrun
  exact staysStoppable_of_tidy (fun _ _ h => h) _ (halong.reachable hsome) hsettled "cp_7" hrunning

/-- The user deletes the task while it runs. -/
def deletedTask : List (Pool.Event BackendRequest) :=
  startedTask ++ [.start (.deleteTask "u" "cp_7"), .advance 2 false, .advance 2 false]

/-- drop_server goes on to sample. -/
theorem not_staysStoppable : ¬ StaysStoppable {} fun _ _ => True := by
  intro h
  have hrun : Transition.Along (Pool.step (BackendRequest.program {})) (fun _ _ => True)
        { store := {} } deletedTask ∧
      (Transition.run (Pool.step (BackendRequest.program {})) { store := {} } deletedTask).isSome ∧
      (backendPool deletedTask).Settled ∧
      (backendPool deletedTask).store.service.Running "cp_7" ∧
      (backendPool deletedTask).store.db.task? "cp_7" = none := by
    decide +kernel
  obtain ⟨halong, hsome, hsettled, hrunning, hnone⟩ := hrun
  obtain ⟨row, hrow⟩ :=
    h (backendPool deletedTask) (halong.reachable hsome) hsettled "cp_7" hrunning
  rw [hnone] at hrow
  cases hrow

end MiniDrop
