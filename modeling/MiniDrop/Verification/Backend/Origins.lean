import MiniDrop.Verification.Api.Rows

/-! # Where tasks come from

A task descends from a request for one task or from a schedule: requests repeat it, and the cron
engine fires for its row. Between requests a row may become any row for the same work. -/

namespace MiniDrop

/-! ## Effects of a request -/

section Effects

variable {α : Type}

/-- The request, alone in `b`, leaves this row under a new tid. -/
def Inserts (p : BackendProgram α) (b : Backend) (tid : String) (task : HotmethodTask) : Prop :=
  tid ∉ b.db.tasks ∧ (p.run b).2.db.tasks[tid]? = some task

/-- The request, alone in `b`, sends the task of this row. -/
def Sends (p : BackendProgram α) (b : Backend) (task : HotmethodTask) (taskDesc : TaskDesc) :
    Prop :=
  Inserts p b taskDesc.taskId task ∧ ∃ uid targetIp authorised, (p.run b).2.sent =
    b.sent ++ [{ uid, targetIp, call := .createTask targetIp taskDesc, authorised }]

theorem Inserts.changes {p : BackendProgram α} {b : Backend} {tid : String}
    {task : HotmethodTask} (h : Inserts p b tid task) : (p.run b).2 ≠ b := by
  intro hsame
  have hrow := h.2
  rw [hsame, Std.ExtTreeMap.getElem?_eq_none h.1] at hrow
  cases hrow

end Effects

/-! ## Descent -/

/-- The row of a schedule, in the table or in the cron engine. -/
inductive Planned (parser : CronParser) (req : CreateScheduleReq) : HotmethodTask → Prop where
  | created {suffix uid userName : String} {b : Backend} {schedule : HotmethodTask}
      (h : Inserts (Backend.createScheduleTask parser suffix uid userName req) b
        ("sched-" ++ suffix) schedule) : Planned parser req schedule
  | registered {suffix uid userName : String} {b : Backend} {entry : ℕ × HotmethodTask}
      (h : entry ∈ ((Backend.createScheduleTask parser suffix uid userName req).run
        b).2.schedule.cron) (hnew : entry ∉ b.schedule.cron) : Planned parser req entry.2
  | kept {schedule schedule' : HotmethodTask} (h : Planned parser req schedule)
      (hkept : schedule.Kept schedule') : Planned parser req schedule'

/-- What a task was asked for with. -/
inductive TaskOrigin where
  | request (req : CreateTaskReq)
  | schedule (req : CreateScheduleReq)

/-- The row of a task of this origin. -/
inductive Descends (parser : CronParser) : TaskOrigin → HotmethodTask → Prop where
  | created {now steadyNow : ℤ} {tid uid userName : String} {req : CreateTaskReq}
      {fate : Option RpcFate} {b : Backend} {task : HotmethodTask}
      (h : Inserts (Backend.createTaskInternal now steadyNow tid uid userName req fate) b tid
        task) : Descends parser (.request req) task
  | planned {req : CreateScheduleReq} {schedule : HotmethodTask}
      (h : Planned parser req schedule) : Descends parser (.schedule req) schedule
  | fired {now steadyNow : ℤ} {newTid : String} {i id : ℕ} {fate : Option RpcFate} {b : Backend}
      {req : CreateScheduleReq} {schedule task : HotmethodTask} (h : Planned parser req schedule)
      (hentry : b.schedule.cron[i]? = some (id, schedule))
      (hinserts : Inserts (Backend.executeScheduledTask now steadyNow newTid i fate) b newTid
        task) : Descends parser (.schedule req) task
  | retried {now steadyNow : ℤ} {uid userName tid newTid : String} {fate : Option RpcFate}
      {b : Backend} {origin : TaskOrigin} {row task : HotmethodTask}
      (h : Descends parser origin row) (hrow : b.db.task? tid = some row)
      (hinserts : Inserts (Backend.retryTask now steadyNow uid userName tid newTid fate) b newTid
        task) : Descends parser origin task
  | kept {origin : TaskOrigin} {task task' : HotmethodTask} (h : Descends parser origin task)
      (hkept : task.Kept task') : Descends parser origin task'

/-- A request for one task sends this. -/
def Creates (req : CreateTaskReq) (task : HotmethodTask) (taskDesc : TaskDesc) : Prop :=
  ∃ (now steadyNow : ℤ) (tid uid userName : String) (fate : Option RpcFate) (b : Backend),
    Sends (Backend.createTaskInternal now steadyNow tid uid userName req fate) b task taskDesc

/-- A retry of a task of this origin sends this. -/
def Retries (parser : CronParser) (origin : TaskOrigin) (task : HotmethodTask)
    (taskDesc : TaskDesc) : Prop :=
  ∃ (now steadyNow : ℤ) (uid userName tid newTid : String) (fate : Option RpcFate) (b : Backend)
    (row : HotmethodTask), Descends parser origin row ∧ b.db.task? tid = some row ∧
      Sends (Backend.retryTask now steadyNow uid userName tid newTid fate) b task taskDesc

/-- A run of the schedule sends this. -/
def Fires (parser : CronParser) (req : CreateScheduleReq) (task : HotmethodTask)
    (taskDesc : TaskDesc) : Prop :=
  ∃ (now steadyNow : ℤ) (newTid : String) (i : ℕ) (fate : Option RpcFate) (b : Backend) (id : ℕ)
    (schedule : HotmethodTask), Planned parser req schedule ∧
      b.schedule.cron[i]? = some (id, schedule) ∧
      Sends (Backend.executeScheduledTask now steadyNow newTid i fate) b task taskDesc

/-! ## Undisturbed runs -/

@[simp] theorem run_onDb {α : Type} (mark : BackendMark) (p : Statements α) (b : Backend) :
    (onDb mark p).run b = ((p.run b.db).1, { b with db := (p.run b.db).2 }) := by
  unfold onDb
  rw [Program.run_lift] <;> intros <;> rfl

/-- A row with this tid stays for the same work. -/
def KeepsRow (tid : String) (db db' : Database) : Prop :=
  ∀ row, db.tasks[tid]? = some row → ∃ row', db'.tasks[tid]? = some row' ∧ row.Kept row'

theorem HotmethodTask.Kept.refl (row : HotmethodTask) : row.Kept row :=
  ⟨rfl, rfl, rfl, rfl, rfl, rfl, rfl, id⟩

theorem HotmethodTask.Kept.trans {row row' row'' : HotmethodTask} (h : row.Kept row')
    (h' : row'.Kept row'') : row.Kept row'' where
  tid := h'.tid.trans h.tid
  type := h'.type.trans h.type
  profilerType := h'.profilerType.trans h.profilerType
  targetIp := h'.targetIp.trans h.targetIp
  requestParams := h'.requestParams.trans h.requestParams
  uid := h'.uid.trans h.uid
  masterTaskTid := h'.masterTaskTid.trans h.masterTaskTid
  deleted hlive := h.deleted (h'.deleted hlive)

instance (tid : String) : Std.Refl (KeepsRow tid) :=
  ⟨fun _ row hrow => ⟨row, hrow, .refl row⟩⟩

instance (tid : String) : IsTrans Database (KeepsRow tid) where
  trans _ _ _ h h' row hrow := by
    obtain ⟨row', hrow', hkept⟩ := h row hrow
    obtain ⟨row'', hrow'', hkept'⟩ := h' row' hrow'
    exact ⟨row'', hrow'', hkept.trans hkept'⟩

theorem keepsRow_of_writes {α : Type} {p : Statements α} (h : Writes (fun _ _ _ => False) p)
    (tid : String) (db : Database) : KeepsRow tid db (p.run db).2 := by
  refine (h.mono fun db db' hrows row hrow => ?_).run_rel db
  have hmem := hrows.known tid (Std.ExtTreeMap.mem_iff_isSome_getElem?.mpr (by simp [hrow]))
  obtain ⟨row', hrow'⟩ := Option.isSome_iff_exists.mp
    (Std.ExtTreeMap.mem_iff_isSome_getElem?.mp hmem)
  rcases hrows.rows tid row' hrow' with ⟨old, hold, hkept⟩ | hfalse
  · obtain rfl : row = old := Option.some.inj (hrow.symm.trans hold)
    exact ⟨row', hrow', hkept⟩
  · exact hfalse.elim

section Runs

variable {mark : BackendMark} {now steadyNow : ℤ} {b : Backend}

theorem run_reads {α : Type} {p : Statements α} (h : p.Preserves id) (db : Database) :
    (p.run db).2 = db :=
  h.run_eq db

theorem run_checkTaskAccess {uid tid : String} {holds : Bool} {db : Database}
    {task : HotmethodTask} (h : ((checkTaskAccess uid tid holds).run db).1 = some task) :
    db.task? tid = some task := by
  unfold checkTaskAccess firstTask at h
  simp only [Program.run_bind, Program.run_query] at h
  cases htask : db.task? tid with
  | none => simp [htask] at h
  | some row =>
      simp only [htask, Program.run_pure, Program.run_bind] at h
      split at h
      · exact h
      · cases h

/-- The call leaves the tables and the schedules. -/
theorem run_callControl (mark : BackendMark) (now : ℤ) (call : ControlCall)
    (fate : Option RpcFate) (uid targetIp : String) (b : Backend) :
    ∃ (service : HotmethodService) (sent : List Dispatch),
      ((callControl mark now call fate (Backend.dispatched uid targetIp call)).run b).2 =
          { b with service, sent } ∧
        ∃ authorised, sent = if fate = none then b.sent else
          b.sent ++ [{ uid := uid, targetIp, call, authorised }] := by
  rcases fate with _ | (error | error | _)
  · exact ⟨b.service, b.sent, rfl, true, rfl⟩
  all_goals exact ⟨_, _, rfl, _, rfl⟩

section Dispatch

variable {task : HotmethodTask} {taskDesc : TaskDesc} {created queued : String}
  {rejection : RpcReply → Option String} {fate : Option RpcFate}

/-- What dispatchTask leaves behind. -/
structure Dispatched (b after : Backend) (task : HotmethodTask) (taskDesc : TaskDesc)
    (fate : Option RpcFate) : Prop where
  row : ∃ row, after.db.tasks[task.tid]? = some row ∧ task.Kept row
  schedule : after.schedule = b.schedule
  sent : ∃ authorised, after.sent = if fate = none then b.sent else
    b.sent ++ [{ uid := task.uid, targetIp := task.targetIp,
                 call := .createTask task.targetIp taskDesc, authorised }]

theorem run_dispatchTask (hnew : task.tid ∉ b.db.tasks) :
    Dispatched b
      ((dispatchTask mark steadyNow task taskDesc created queued rejection fate).run b).2
      task taskDesc fate := by
  have hcreate : b.db.createTask task =
      some { b.db with tasks := b.db.tasks.insert task.tid task } := if_neg hnew
  have hinserted : ({ b.db with tasks := b.db.tasks.insert task.tid task } : Database).tasks[
      task.tid]? = some task := Std.ExtTreeMap.getElem?_insert_self
  unfold dispatchTask
  simp only [Program.run_bind, run_onDb, Program.run_update, hcreate, Option.isSome_some,
    Option.getD_some, Bool.not_true, Bool.false_eq_true, if_false]
  generalize ({ b.db with tasks := b.db.tasks.insert task.tid task } : Database) = db at *
  obtain ⟨row, hrow, hkept⟩ := keepsRow_of_writes
    (writes_recordStateChange task.tid (-1) taskStatusNew created changeTypeTask true) task.tid
    db task hinserted
  generalize ((recordStateChange task.tid (-1) taskStatusNew created changeTypeTask true).run
    db).2 = db' at *
  obtain ⟨service, sent, hcalled, hsent⟩ := run_callControl {} steadyNow
    (.createTask task.targetIp taskDesc) fate task.uid task.targetIp { b with db := db' }
  rw [hcalled]
  -- what follows from the answer changes the tables alone
  split
  · rename_i reason _
    have hupdate : Writes (fun _ _ _ => False) (Program.update { tid := task.tid, writes := true }
        fun db => some (db.updateTask task.tid fun row =>
          { row with status := taskStatusFailed, statusInfo := reason })) :=
      writes_updateTask _ _ fun _ => ⟨rfl, rfl, rfl, rfl, rfl, rfl, rfl, id⟩
    obtain ⟨row', hrow', hkept'⟩ := keepsRow_of_writes (hupdate.bind fun _ =>
      writes_recordStateChange task.tid taskStatusNew taskStatusFailed reason changeTypeTask false)
      task.tid db' row hrow
    simp only [Program.run_bind, run_onDb, Program.run_pure] at hrow' ⊢
    exact ⟨⟨row', hrow', hkept.trans hkept'⟩, rfl, hsent⟩
  · obtain ⟨row', hrow', hkept'⟩ := keepsRow_of_writes (writes_updateTaskStatusInfo task.tid queued)
      task.tid db' row hrow
    simp only [Program.run_bind, run_onDb, Program.run_pure]
    exact ⟨⟨row', hrow', hkept.trans hkept'⟩, rfl, hsent⟩

end Dispatch

/-! ## What requests send -/

/-- The request does nothing, or it inserts this task and sends it. -/
def SendsOnly {α : Type} (p : BackendProgram α) (b : Backend) (task : HotmethodTask)
    (taskDesc : TaskDesc) (fate : Option RpcFate) : Prop :=
  (p.run b).2 = b ∨ task.tid ∉ b.db.tasks ∧ Dispatched b (p.run b).2 task taskDesc fate

section SendsOnly

variable {α : Type} {p : BackendProgram α} {task : HotmethodTask} {taskDesc : TaskDesc}
  {fate : Option RpcFate}

theorem SendsOnly.inserts (h : SendsOnly p b task taskDesc fate) {row : HotmethodTask}
    (hrow : Inserts p b task.tid row) : task.Kept row := by
  rcases h with hsame | ⟨-, hdispatched⟩
  · exact absurd hsame hrow.changes
  · obtain ⟨row', hrow', hkept⟩ := hdispatched.row
    obtain rfl : row' = row := Option.some.inj (hrow'.symm.trans hrow.2)
    exact hkept

theorem SendsOnly.sends (h : SendsOnly p b task taskDesc fate) (hid : taskDesc.taskId = task.tid)
    {row : HotmethodTask} {taskDesc' : TaskDesc} (hsends : Sends p b row taskDesc') :
    taskDesc' = taskDesc ∧ task.Kept row := by
  obtain ⟨hinserts, uid, targetIp, authorised, hsent⟩ := hsends
  have hne : b.sent ≠ b.sent ++ [⟨uid, targetIp, .createTask targetIp taskDesc', authorised⟩] :=
    fun heq => by simpa using congrArg List.length heq
  have hdesc : taskDesc' = taskDesc := by
    rcases h with hsame | ⟨-, hdispatched⟩
    · rw [hsame] at hsent
      exact absurd hsent hne
    · obtain ⟨authorised', hsent'⟩ := hdispatched.sent
      rw [hsent] at hsent'
      split at hsent'
      · exact absurd hsent'.symm hne
      · have hlast := List.append_cancel_left hsent'
        simp only [List.cons.injEq, Dispatch.mk.injEq, ControlCall.createTask.injEq] at hlast
        exact hlast.1.2.2.1.2
  refine ⟨hdesc, h.inserts ?_⟩
  rwa [hdesc, hid] at hinserts

/-- It sends the task, where the tid is new and there is a connection. -/
theorem Dispatched.sends {after : Backend} (h : Dispatched b after task taskDesc fate)
    (hafter : (p.run b).2 = after) (hid : taskDesc.taskId = task.tid)
    (hnew : task.tid ∉ b.db.tasks) (hfate : fate ≠ none) :
    ∃ row, Sends p b row taskDesc ∧ task.Kept row := by
  subst hafter
  obtain ⟨row, hrow, hkept⟩ := h.row
  obtain ⟨authorised, hsent⟩ := h.sent
  rw [if_neg hfate] at hsent
  exact ⟨row, ⟨⟨hid ▸ hnew, hid ▸ hrow⟩, _, _, authorised, hsent⟩, hkept⟩

end SendsOnly

section Requests

variable {uid userName tid newTid : String} {fate : Option RpcFate}

theorem sendsOnly_dispatchTask (mark : BackendMark) (steadyNow : ℤ) (task : HotmethodTask)
    (taskDesc : TaskDesc) (created queued : String) (rejection : RpcReply → Option String)
    (fate : Option RpcFate) (b : Backend) :
    SendsOnly (dispatchTask mark steadyNow task taskDesc created queued rejection fate) b task
      taskDesc fate := by
  by_cases hmem : task.tid ∈ b.db.tasks
  · left
    simp [dispatchTask, Database.createTask, hmem]
  · exact .inr ⟨hmem, run_dispatchTask hmem⟩

theorem sendsOnly_createTaskInternal (now steadyNow : ℤ) (tid uid userName : String)
    (req : CreateTaskReq) (fate : Option RpcFate) (b : Backend) :
    SendsOnly (Backend.createTaskInternal now steadyNow tid uid userName req fate) b
      (newTask now tid uid userName req) (req.message tid) fate := by
  unfold Backend.createTaskInternal SendsOnly
  simp only [Program.run_bind, run_onDb, run_reads (preserves_canAccessAgentIP _ _)]
  split
  · exact .inl rfl
  split
  · exact .inl rfl
  simp only [Program.run_bind]
  split <;> exact sendsOnly_dispatchTask _ _ _ _ _ _ _ _ b

/-- A retry repeats the row that it finds. -/
theorem sendsOnly_retryTask (now steadyNow : ℤ) (uid userName tid newTid : String)
    (fate : Option RpcFate) (b : Backend) :
    ((Backend.retryTask now steadyNow uid userName tid newTid fate).run b).2 = b ∨
      ∃ row, b.db.task? tid = some row ∧
        SendsOnly (Backend.retryTask now steadyNow uid userName tid newTid fate) b
          (newTask now newTid uid userName row.retryReq) (row.retryReq.message newTid) fate := by
  unfold Backend.retryTask SendsOnly
  simp only [Program.run_bind, run_onDb, run_reads (preserves_checkTaskAccess _ _ _)]
  cases hrow : ((checkTaskAccess uid tid false).run b.db).1 with
  | none => exact .inl rfl
  | some row =>
      dsimp only
      split
      · exact .inl rfl
      · refine .inr ⟨row, run_checkTaskAccess hrow, ?_⟩
        simp only [Program.run_bind]
        split <;> exact sendsOnly_dispatchTask _ _ _ _ _ _ _ _ b

/-- A run of a schedule repeats the row that the cron engine captured. -/
theorem sendsOnly_executeScheduledTask (now steadyNow : ℤ) (newTid : String) (i : ℕ)
    (fate : Option RpcFate) (b : Backend) :
    ((Backend.executeScheduledTask now steadyNow newTid i fate).run b).2 = b ∨
      ∃ id schedule, b.schedule.cron[i]? = some (id, schedule) ∧
        SendsOnly (Backend.executeScheduledTask now steadyNow newTid i fate) b
          (scheduledTask now newTid schedule) (Backend.scheduledMessage newTid schedule)
          fate := by
  unfold Backend.executeScheduledTask SendsOnly
  simp only [Program.run_bind, Program.run_query]
  cases hentry : b.schedule.cron[i]? with
  | none => exact .inl rfl
  | some entry =>
      obtain ⟨id, schedule⟩ := entry
      refine .inr ⟨id, schedule, rfl, ?_⟩
      simp only [Program.run_bind, Program.run_pure]
      exact sendsOnly_dispatchTask _ _ _ _ _ _ _ _ b

theorem run_createScheduleRow (tid uid userName : String) (req : CreateScheduleReq)
    (cronError : Option String) (db : Database) :
    let out := (createScheduleTask tid uid userName req cronError).run db
    (∃ httpStatus code message, out = (.refused httpStatus code message, db)) ∨
      ∃ db', db.createTask (scheduleTask tid uid userName req) = some db' ∧
        out = (.created tid, db') := by
  unfold createScheduleTask
  simp only [Program.run_bind, run_reads (preserves_canAccessAgentIP _ _)]
  split
  · exact .inl ⟨_, _, _, rfl⟩
  split
  · exact .inl ⟨_, _, _, rfl⟩
  split
  · exact .inl ⟨_, _, _, rfl⟩
  simp only [Program.run_bind, Program.run_update]
  obtain hcreate | ⟨db', hcreate⟩ :=
    Option.eq_none_or_eq_some (db.createTask (scheduleTask tid uid userName req))
  · simp [hcreate]
  · simp [hcreate]

/-- CreateScheduleTask inserts the row of the schedule, and hands it to the cron engine. -/
theorem run_createScheduleTask (parser : CronParser) (suffix uid userName : String)
    (req : CreateScheduleReq) (b : Backend) :
    let schedule := scheduleTask ("sched-" ++ suffix) uid userName req
    let after := ((Backend.createScheduleTask parser suffix uid userName req).run b).2
    after = b ∨ ∃ db, b.db.createTask schedule = some db ∧
      after = { b with db, schedule := b.schedule.register parser.accepts req.cronExpr schedule } := by
  unfold Backend.createScheduleTask
  dsimp only
  split
  · exact .inl rfl
  simp only [Program.run_bind, run_onDb]
  rcases run_createScheduleRow ("sched-" ++ suffix) uid userName req
    (parser.validate req.cronExpr) b.db with ⟨_, _, _, hrun⟩ | ⟨db, hcreate, hrun⟩
  · rw [hrun]
    exact .inl rfl
  · rw [hrun]
    exact .inr ⟨db, hcreate, rfl⟩

end Requests

end Runs

/-! ## What is sent -/

section Sent

variable {parser : CronParser} {task : HotmethodTask} {taskDesc : TaskDesc}

theorem Creates.sent {req : CreateTaskReq} (h : Creates req task taskDesc) :
    ∃ now tid uid userName, taskDesc = req.message tid ∧
      (newTask now tid uid userName req).Kept task := by
  obtain ⟨now, steadyNow, tid, uid, userName, fate, b, hsends⟩ := h
  have hsent := (sendsOnly_createTaskInternal now steadyNow tid uid userName req fate b).sends rfl
    hsends
  exact ⟨now, tid, uid, userName, hsent⟩

theorem Retries.sent {origin : TaskOrigin} (h : Retries parser origin task taskDesc) :
    ∃ now newTid uid userName row, Descends parser origin row ∧
      taskDesc = row.retryReq.message newTid ∧
      (newTask now newTid uid userName row.retryReq).Kept task := by
  obtain ⟨now, steadyNow, uid, userName, tid, newTid, fate, b, row, hrow, hfound, hsends⟩ := h
  rcases sendsOnly_retryTask now steadyNow uid userName tid newTid fate b with
    hsame | ⟨row', hfound', hretry⟩
  · exact absurd hsame hsends.1.changes
  · obtain rfl := Option.some.inj (hfound.symm.trans hfound')
    exact ⟨now, newTid, uid, userName, row, hrow, hretry.sends rfl hsends⟩

theorem Fires.sent {req : CreateScheduleReq} (h : Fires parser req task taskDesc) :
    ∃ now newTid schedule, Planned parser req schedule ∧
      taskDesc = Backend.scheduledMessage newTid schedule ∧
      (scheduledTask now newTid schedule).Kept task := by
  obtain ⟨now, steadyNow, newTid, i, fate, b, id, schedule, hplanned, hentry, hsends⟩ := h
  rcases sendsOnly_executeScheduledTask now steadyNow newTid i fate b with
    hsame | ⟨id', schedule', hentry', hfire⟩
  · exact absurd hsame hsends.1.changes
  · obtain ⟨-, rfl⟩ := Prod.mk.inj (Option.some.inj (hentry.symm.trans hentry'))
    exact ⟨now, newTid, schedule, hplanned, hfire.sends rfl hsends⟩

end Sent

/-! ## Rows of an origin -/

section Rows

variable {parser : CronParser} {P : HotmethodTask → Prop}
  (hkept : ∀ task task' : HotmethodTask, P task → task.Kept task' → P task')
include hkept

/-- What holds of the row of a new schedule and of what it is kept as holds of all its rows. -/
theorem Planned.induct {req : CreateScheduleReq} {schedule : HotmethodTask}
    (h : Planned parser req schedule)
    (hcreated : ∀ tid uid userName, P (scheduleTask tid uid userName req)) : P schedule := by
  induction h with
  | @created suffix uid userName b schedule h =>
      obtain ⟨hnew, hafter⟩ := h
      rcases run_createScheduleTask parser suffix uid userName req b with hsame | ⟨db, hdb, hrun⟩
      · exact absurd hsame (Inserts.changes ⟨hnew, hafter⟩)
      · rw [hrun, (Database.createTask_eq_some b.db hdb).2] at hafter
        obtain rfl := Option.some.inj (Std.ExtTreeMap.getElem?_insert_self.symm.trans hafter)
        exact hcreated _ _ _
  | @registered suffix uid userName b entry h hnew =>
      rcases run_createScheduleTask parser suffix uid userName req b with hsame | ⟨db, hdb, hrun⟩
      · rw [hsame] at h
        exact absurd h hnew
      · rw [hrun, ScheduleManager.register] at h
        split at h
        · rcases List.mem_append.mp h with hold | hlast
          · exact absurd hold hnew
          · rw [List.mem_singleton.mp hlast]
            exact hcreated _ _ _
        · exact absurd h hnew
  | kept _ hrow ih => exact hkept _ _ ih hrow

/-- What the requests give to the rows that they insert holds of all rows of the origin. -/
theorem Descends.induct {origin : TaskOrigin} {task : HotmethodTask}
    (h : Descends parser origin task)
    (hcreated : ∀ now tid uid userName req, origin = .request req →
      P (newTask now tid uid userName req))
    (hscheduled : ∀ tid uid userName req, origin = .schedule req →
      P (scheduleTask tid uid userName req))
    (hfired : ∀ now newTid schedule, P schedule → P (scheduledTask now newTid schedule))
    (hretried : ∀ now tid uid userName row, P row →
      P (newTask now tid uid userName row.retryReq)) : P task := by
  induction h with
  | created h =>
      exact hkept _ _ (hcreated _ _ _ _ _ rfl)
        ((sendsOnly_createTaskInternal _ _ _ _ _ _ _ _).inserts h)
  | planned h => exact h.induct hkept fun tid uid userName => hscheduled tid uid userName _ rfl
  | @fired now steadyNow newTid i id fate b req schedule task h hentry hinserts =>
      have hrow : P schedule := h.induct hkept fun tid uid userName =>
        hscheduled tid uid userName _ rfl
      rcases sendsOnly_executeScheduledTask now steadyNow newTid i fate b with
        hsame | ⟨id', schedule', hentry', hsends⟩
      · exact absurd hsame hinserts.changes
      · obtain ⟨-, rfl⟩ := Prod.mk.inj (Option.some.inj (hentry.symm.trans hentry'))
        exact hkept _ _ (hfired now newTid schedule hrow) (hsends.inserts hinserts)
  | @retried now steadyNow uid userName tid newTid fate b origin row task h hrow hinserts ih =>
      rcases sendsOnly_retryTask now steadyNow uid userName tid newTid fate b with
        hsame | ⟨row', hrow', hsends⟩
      · exact absurd hsame hinserts.changes
      · obtain rfl := Option.some.inj (hrow.symm.trans hrow')
        exact hkept _ _ (hretried now newTid uid userName row (ih hcreated hscheduled))
          (hsends.inserts hinserts)
  | kept _ hrow ih => exact hkept _ _ (ih hcreated hscheduled) hrow

end Rows

/-! ## Requests that go through -/

/-- createTaskInternal takes the request; its numbers are of their types. -/
structure CreateTaskReq.Accepted (req : CreateTaskReq) : Prop where
  valid : isValidTaskProfilerCombination req.type req.profilerType = true
  targetIp : req.targetIp ≠ ""
  pid : -2147483648 ≤ req.pid ∧ req.pid ≤ 2147483647
  duration : 0 ≤ req.duration ∧ req.duration < 18446744073709551616
  hz : 0 ≤ req.hz ∧ req.hz < 4294967296

/-- CreateScheduleTask takes the request. -/
structure CreateScheduleReq.Accepted (parser : CronParser) (req : CreateScheduleReq) : Prop where
  binds : req.binds = true
  valid : isValidTaskProfilerCombination req.type req.profilerType = true
  validate : parser.validate req.cronExpr = none
  accepts : parser.accepts req.cronExpr = true

def TaskOrigin.Accepted (parser : CronParser) : TaskOrigin → Prop
  | request req => req.Accepted
  | schedule req => req.Accepted parser

/-- A server with one agent, of this user. -/
def Backend.withAgent (uid ipAddr : String) : Backend := { db := { agents := [{ ipAddr, uid }] } }

theorem run_canAccessAgentIP_withAgent (uid : String) {ip : String} (hip : ip ≠ "") :
    ((canAccessAgentIP uid ip).run (Backend.withAgent uid ip).db).1 = true := by
  simp [canAccessAgentIP, hip, Backend.withAgent]

section Existence

variable {b : Backend}

/-- A task that does not reach drop_server has failed, and its row can be retried. -/
theorem task?_dispatchTask (mark : BackendMark) (steadyNow : ℤ) {task : HotmethodTask}
    (taskDesc : TaskDesc) (created queued : String) (hnew : task.tid ∉ b.db.tasks)
    (hlive : task.deleted = false) :
    ((dispatchTask mark steadyNow task taskDesc created queued RpcReply.rejection
      (some (.unreached ""))).run b).2.db.task? task.tid =
        some { task with status := taskStatusFailed, statusInfo := "dispatch failed: " } := by
  have hcreate : b.db.createTask task =
      some { b.db with tasks := b.db.tasks.insert task.tid task } := if_neg hnew
  have hinserted : ({ b.db with tasks := b.db.tasks.insert task.tid task } : Database).task?
      task.tid = some task := by
    simp [Database.task?, hlive]
  unfold dispatchTask
  simp only [Program.run_bind, run_onDb, Program.run_update, hcreate, Option.isSome_some,
    Option.getD_some, Bool.not_true, Bool.false_eq_true, if_false]
  generalize ({ b.db with tasks := b.db.tasks.insert task.tid task } : Database) = db at *
  simp only [recordStateChange, callControl, Program.run_bind, Program.run_update, Program.run_transact, Program.run_pure,
    RpcReply.rejection, run_onDb, Option.getD_some, Backend.dispatched]
  rw [Database.task?_addHistory, Database.task?_updateTask, if_pos rfl,
    Database.task?_addHistory, hinserted]
  · rfl
  · exact fun _ => rfl

theorem run_createTaskInternal_of_accepted (now steadyNow : ℤ) (tid : String)
    {req : CreateTaskReq} (h : req.Accepted) (fate : Option RpcFate) : ∃ mark,
    ((Backend.createTaskInternal now steadyNow tid "u" "" req fate).run
      (.withAgent "u" req.targetIp)).2 =
    ((dispatchTask mark steadyNow (newTask now tid "u" "" req) (req.message tid)
      "task created and pending dispatch" "queued in drop_server" RpcReply.rejection fate).run
        (.withAgent "u" req.targetIp)).2 := by
  refine ⟨{ relies := reliesOn fate "u" req.targetIp }, ?_⟩
  have haccess := run_canAccessAgentIP_withAgent "u" h.targetIp
  simp only [Backend.createTaskInternal, Program.run_bind, run_onDb, haccess, h.valid,
    run_reads (preserves_canAccessAgentIP _ _), Bool.not_true, Bool.false_eq_true, if_false]
  split <;> rfl

theorem exists_creates {req : CreateTaskReq} (h : req.Accepted) (tid : String) :
    ∃ task, Creates req task (req.message tid) := by
  have hnew : (newTask 0 tid "u" "" req).tid ∉ (Backend.withAgent "u" req.targetIp).db.tasks :=
    Std.ExtTreeMap.not_mem_empty
  obtain ⟨mark, hrun⟩ := run_createTaskInternal_of_accepted 0 0 tid h
    (some (.unreached ""))
  obtain ⟨task, hsends, -⟩ := (run_dispatchTask hnew).sends hrun rfl hnew (by simp)
  exact ⟨task, 0, 0, tid, "u", "", _, _, hsends⟩

/-- The owner retries a task. -/
theorem Descends.retries {parser : CronParser} {origin : TaskOrigin} {row : HotmethodTask}
    (h : Descends parser origin row) (hlive : row.deleted = false)
    (hvalid : isValidTaskProfilerCombination row.type row.profilerType = true) {newTid : String}
    (hne : row.tid ≠ newTid) :
    ∃ task, Retries parser origin task (row.retryReq.message newTid) := by
  let b : Backend := { db := { tasks := (∅ : StdMap HotmethodTask).insert row.tid row } }
  have hfound : b.db.task? row.tid = some row := by simp [b, Database.task?, hlive]
  have hnew : (newTask 0 newTid row.uid "" row.retryReq).tid ∉ b.db.tasks := by
    simpa [b, newTask] using hne
  have hrun : ∃ mark, ((Backend.retryTask 0 0 row.uid "" row.tid newTid
      (some (.unreached ""))).run b).2 =
      ((dispatchTask mark 0 (newTask 0 newTid row.uid "" row.retryReq)
        (row.retryReq.message newTid) "retry task created and pending dispatch"
        "queued in drop_server" RpcReply.rejection (some (.unreached ""))).run b).2 := by
    refine ⟨{ relies := reliesOn (some (.unreached "")) row.uid row.retryReq.targetIp
              unchecked := true }, ?_⟩
    have haccess : (checkTaskAccess row.uid row.tid false).run b.db = (some row, b.db) := by
      simp [checkTaskAccess, firstTask, mayAccess, hfound]
    simp only [Backend.retryTask, Program.run_bind, run_onDb, haccess, hvalid, Bool.not_true,
      Bool.false_eq_true, if_false]
    split <;> rfl
  obtain ⟨mark, hrun⟩ := hrun
  obtain ⟨task, hsends, -⟩ := (run_dispatchTask hnew).sends hrun rfl hnew (by simp)
  exact ⟨task, 0, 0, row.uid, "", row.tid, newTid, _, b, row, h, hfound, hsends⟩

/-- The cron engine fires. -/
theorem Planned.fires {parser : CronParser} {req : CreateScheduleReq} {schedule : HotmethodTask}
    (h : Planned parser req schedule) (newTid : String) :
    ∃ task, Fires parser req task (Backend.scheduledMessage newTid schedule) := by
  let b : Backend := { schedule := { cron := [(1, schedule)] } }
  have hnew : (scheduledTask 0 newTid schedule).tid ∉ b.db.tasks := Std.ExtTreeMap.not_mem_empty
  have hrun : ∃ mark, ((Backend.executeScheduledTask 0 0 newTid 0
      (some (.unreached ""))).run b).2 =
      ((dispatchTask mark 0 (scheduledTask 0 newTid schedule)
        (Backend.scheduledMessage newTid schedule) "scheduled task created and pending dispatch"
        "queued in drop_server (cron)" RpcReply.cronRejection
        (some (.unreached ""))).run b).2 := by
    refine ⟨{ relies := reliesOn (some (.unreached "")) schedule.uid schedule.targetIp
              unchecked := true }, ?_⟩
    simp only [Backend.executeScheduledTask, Program.run_bind, Program.run_query]
    simp [b]
  obtain ⟨mark, hrun⟩ := hrun
  obtain ⟨task, hsends, -⟩ := (run_dispatchTask hnew).sends hrun rfl hnew (by simp)
  exact ⟨task, 0, 0, newTid, 0, _, b, 1, schedule, h, rfl, hsends⟩

/-- The row that createTaskInternal leaves of a task that does not reach drop_server. -/
theorem exists_descends (parser : CronParser) {req : CreateTaskReq} (h : req.Accepted)
    (tid : String) : Descends parser (.request req) { newTask 0 tid "u" "" req with
      status := taskStatusFailed, statusInfo := "dispatch failed: " } := by
  have hnew : (newTask 0 tid "u" "" req).tid ∉ (Backend.withAgent "u" req.targetIp).db.tasks :=
    Std.ExtTreeMap.not_mem_empty
  obtain ⟨mark, hrun⟩ := run_createTaskInternal_of_accepted 0 0 tid h
    (some (.unreached ""))
  have hrow := task?_dispatchTask mark 0 (req.message tid) "task created and pending dispatch"
    "queued in drop_server" hnew rfl
  rw [← hrun] at hrow
  exact .created ⟨hnew, (Option.filter_eq_some_iff.mp hrow).1⟩

/-- The row that the cron engine captures. -/
theorem exists_planned {parser : CronParser} {req : CreateScheduleReq} (h : req.Accepted parser)
    (suffix : String) : Planned parser req (scheduleTask ("sched-" ++ suffix) "u" "" req) := by
  have hip : req.targetIp ≠ "" := by
    have hbinds := h.binds
    simp only [CreateScheduleReq.binds, decide_eq_true_eq] at hbinds
    exact hbinds.2.1
  have haccess := run_canAccessAgentIP_withAgent "u" hip
  have hcreate : (Backend.withAgent "u" req.targetIp).db.createTask
      (scheduleTask ("sched-" ++ suffix) "u" "" req) = some _ :=
    if_neg Std.ExtTreeMap.not_mem_empty
  have hcron : ((Backend.createScheduleTask parser suffix "u" "" req).run
      (.withAgent "u" req.targetIp)).2.schedule.cron =
        [(1, scheduleTask ("sched-" ++ suffix) "u" "" req)] := by
    simp only [Backend.createScheduleTask, createScheduleTask, h.binds, h.valid, h.validate,
      Program.run_bind, run_onDb, haccess, run_reads (preserves_canAccessAgentIP _ _),
      Bool.not_true, Bool.false_eq_true, if_false, Program.run_update, hcreate,
      Option.isSome_some, Option.getD_some, Program.run_pure, Program.run_transact,
      ScheduleManager.register, h.accepts, if_true]
    rfl
  have hmem := List.mem_singleton_self (1, scheduleTask ("sched-" ++ suffix) "u" "" req)
  rw [← hcron] at hmem
  exact .registered hmem List.not_mem_nil

end Existence

end MiniDrop
