import MiniDrop.Model.Backend
import MiniDrop.Verification.Api.Tables

/-! # What requests write into the table of tasks

Most statements leave a row what it was created as. The others are an INSERT and the update of the
task of a window. -/

namespace MiniDrop

/-- The row is still for the same work of the same user; a deleted one stays deleted. -/
structure HotmethodTask.Kept (row row' : HotmethodTask) : Prop where
  tid : row'.tid = row.tid
  type : row'.type = row.type
  profilerType : row'.profilerType = row.profilerType
  targetIp : row'.targetIp = row.targetIp
  requestParams : row'.requestParams = row.requestParams
  uid : row'.uid = row.uid
  masterTaskTid : row'.masterTaskTid = row.masterTaskTid
  deleted : row'.deleted = false → row.deleted = false

/-- Each row is kept, or `P` relates it to the row that had its tid before. -/
structure RowsFrom (P : String → Option HotmethodTask → HotmethodTask → Prop)
    (db db' : Database) : Prop where
  known : ∀ tid ∈ db.tasks, tid ∈ db'.tasks
  rows : ∀ tid row', db'.tasks[tid]? = some row' →
    (∃ row, db.tasks[tid]? = some row ∧ row.Kept row') ∨ P tid db.tasks[tid]? row'

variable {P : String → Option HotmethodTask → HotmethodTask → Prop}

namespace RowsFrom

variable {db db' : Database}

theorem of_tasks_eq (h : db'.tasks = db.tasks) : RowsFrom P db db' where
  known _ hmem := h ▸ hmem
  rows _ row' hrow := .inl ⟨row', h ▸ hrow, ⟨rfl, rfl, rfl, rfl, rfl, rfl, rfl, id⟩⟩

theorem refl (db : Database) : RowsFrom P db db := of_tasks_eq rfl

theorem updateTask (db : Database) (tid : String) {change : HotmethodTask → HotmethodTask}
    (h : ∀ row, row.Kept (change row) ∨ P tid (some row) (change row)) :
    RowsFrom P db (db.updateTask tid change) where
  known t hmem := by
    unfold Database.updateTask
    cases db.task? tid with
    | none => exact hmem
    | some row => exact Std.ExtTreeMap.mem_insert.mpr (.inr hmem)
  rows t row' hrow := by
    rw [Database.tasks_updateTask] at hrow
    split at hrow
    · rename_i heq
      obtain ⟨rfl, -⟩ := heq
      obtain ⟨row, hold, rfl⟩ := Option.map_eq_some_iff.mp hrow
      rcases h row with hkept | hnew
      · exact .inl ⟨row, hold, hkept⟩
      · exact .inr (hold ▸ hnew)
    · exact .inl ⟨row', hrow, ⟨rfl, rfl, rfl, rfl, rfl, rfl, rfl, id⟩⟩

theorem createTask {task : HotmethodTask} (hcreate : db.createTask task = some db')
    (h : P task.tid none task) : RowsFrom P db db' := by
  obtain ⟨hnew, rfl⟩ := Database.createTask_eq_some db hcreate
  refine ⟨fun tid hmem => Std.ExtTreeMap.mem_insert.mpr (.inr hmem), fun tid row' hrow => ?_⟩
  by_cases htid : task.tid = tid
  · subst htid
    obtain rfl : task = row' := by simpa using hrow
    exact .inr (by rwa [Std.ExtTreeMap.getElem?_eq_none hnew])
  · refine .inl ⟨row', ?_, ⟨rfl, rfl, rfl, rfl, rfl, rfl, rfl, id⟩⟩
    simpa [Std.ExtTreeMap.getElem?_insert, htid] using hrow

theorem addHistory (h : RowsFrom P db db') (row : TaskStateHistory) :
    RowsFrom P db (db'.addHistory row) :=
  ⟨h.known, h.rows⟩

end RowsFrom

/-! ## Statements -/

/-- The program keeps rows, up to `P`. -/
abbrev Writes (P : String → Option HotmethodTask → HotmethodTask → Prop) {α : Type}
    (p : Statements α) : Prop :=
  p.Moves (RowsFrom P)

theorem writes_query {α : Type} (mark : Mark) (read : Database → α) :
    Writes P (Program.query mark read) :=
  Program.moves_query RowsFrom.refl mark read

theorem writes_update {mark : Mark} {change : Database → Database}
    (h : ∀ db, RowsFrom P db (change db)) :
    Writes P (Program.update mark fun db => some (change db)) :=
  Program.moves_update RowsFrom.refl fun db _ hs => by
    obtain rfl := Option.some.inj hs
    exact h db

theorem writes_other {mark : Mark} {change : Database → Database}
    (h : ∀ db, (change db).tasks = db.tasks) :
    Writes P (Program.update mark fun db => some (change db)) :=
  writes_update fun db => .of_tasks_eq (h db)

theorem writes_updateTask (mark : Mark) (tid : String) {change : HotmethodTask → HotmethodTask}
    (h : ∀ row : HotmethodTask, row.Kept (change row)) :
    Writes P (Program.update mark fun db => some (db.updateTask tid change)) :=
  writes_update fun db => .updateTask db tid fun row => .inl (h row)

theorem writes_createTask (mark : Mark) {task : HotmethodTask} (h : P task.tid none task) :
    Writes P (Program.update mark fun db => db.createTask task) :=
  Program.moves_update RowsFrom.refl fun _ _ hs => .createTask hs h

/-- Programs that only read write nothing. -/
theorem writes_of_reads {α : Type} {p : Statements α} (h : p.Preserves id) : Writes P p :=
  h.moves fun db db' hsame => by
    obtain rfl : db' = db := hsame
    exact .refl db'

theorem writes_firstTask (tid : String) (holds : Bool) : Writes P (firstTask tid holds) :=
  writes_of_reads (preserves_firstTask tid holds)

theorem writes_recordStateChange (tid : String) (fromState toState : ℤ) (reason : String)
    (changeType : ℤ) (holds : Bool) :
    Writes P (recordStateChange tid fromState toState reason changeType holds) := by
  refine (writes_other ?_).bind fun _ => .pure _
  exact fun _ => rfl

theorem writes_mayAccess (mark : Mark) (uid : String) (task : HotmethodTask) :
    Writes P (mayAccess mark uid task) :=
  writes_of_reads (preserves_mayAccess mark uid task)

theorem writes_checkTaskAccess (uid tid : String) (holds : Bool) :
    Writes P (checkTaskAccess uid tid holds) :=
  writes_of_reads (preserves_checkTaskAccess uid tid holds)

theorem writes_canAccessAgentIP (uid ip : String) : Writes P (canAccessAgentIP uid ip) :=
  writes_of_reads (preserves_canAccessAgentIP uid ip)

theorem writes_updateTaskStatusInfo (tid reason : String) :
    Writes P (updateTaskStatusInfo tid reason) := by
  refine (writes_updateTask _ tid ?_).bind fun _ => .pure _
  exact fun _ => ⟨rfl, rfl, rfl, rfl, rfl, rfl, rfl, id⟩

/-! ## Task status -/

theorem writes_transitionTaskStatus (now : ℤ) (tid : String) (toState : ℤ) (reason : String)
    (endTime : Option ℤ) : Writes P (transitionTaskStatus now tid toState reason endTime) := by
  unfold transitionTaskStatus
  apply (writes_firstTask tid true).bind
  rintro (_ | task)
  · exact .pure _
  refine (writes_update fun db => ?_).bind fun _ => .pure _
  unfold applyTransition
  dsimp only
  split
  · refine RowsFrom.addHistory (.updateTask db tid ?_) _
    exact fun _ => .inl ⟨rfl, rfl, rfl, rfl, rfl, rfl, rfl, id⟩
  · refine .updateTask db tid ?_
    exact fun _ => .inl ⟨rfl, rfl, rfl, rfl, rfl, rfl, rfl, id⟩

theorem writes_syncDropTaskStatus (now : ℤ) (tid : String) (status : ℤ) (reason : String) :
    Writes P (syncDropTaskStatus now tid status reason) := by
  unfold syncDropTaskStatus
  dsimp only
  split
  · exact writes_transitionTaskStatus _ _ _ _ _
  · split <;> exact writes_transitionTaskStatus _ _ _ _ _

theorem writes_ensureTaskReached (now : ℤ) (tid : String) (state : ℤ) (reason : String) :
    Writes P (ensureTaskReached now tid state reason) := by
  unfold ensureTaskReached
  apply (writes_firstTask tid false).bind
  rintro (_ | task)
  · exact .pure _
  dsimp only
  split
  · exact writes_transitionTaskStatus _ _ _ _ _
  · exact .pure _

theorem writes_settleResult (now : ℤ) (tid : String) (resp : FetchDataResponse)
    (storage : StorageReply) : Writes P (settleResult now tid resp storage) := by
  unfold settleResult
  cases persistFetchedResultFile storage tid resp with
  | error storeErr =>
      apply (writes_ensureTaskReached _ _ _ _).bind
      intro _
      exact (writes_transitionTaskStatus _ _ _ _ _).bind fun _ => .pure _
  | ok cosKey =>
      apply (writes_ensureTaskReached _ _ _ _).bind
      intro _
      apply (writes_ensureTaskReached _ _ _ _).bind
      intro _
      apply (writes_transitionTaskStatus _ _ _ _ _).bind
      intro _
      apply (writes_firstTask _ _).bind
      rintro (_ | task) <;> exact .pure _

theorem writes_pollOnce (tid : String) (poll : Poll) : Writes P (pollOnce tid poll) := by
  cases poll with
  | cancelled now error => exact (writes_transitionTaskStatus _ _ _ _ _).bind fun _ => .pure _
  | expired now => exact (writes_transitionTaskStatus _ _ _ _ _).bind fun _ => .pure _
  | unreachable => exact .pure _
  | fetched now resp storage =>
      simp only [pollOnce]
      cases parseDropStatusMessage resp.message with
      | some reported =>
          apply (writes_syncDropTaskStatus _ _ _ _).bind
          intro _
          split
          · exact .pure _
          · split
            · exact writes_settleResult _ _ _ _
            · exact .pure _
      | none =>
          dsimp only
          split
          · exact writes_settleResult _ _ _ _
          · split
            · apply (writes_ensureTaskReached _ _ _ _).bind
              intro _
              exact (writes_transitionTaskStatus _ _ _ _ _).bind fun _ => .pure _
            · exact .pure _

theorem writes_waitTaskResult (tid : String) (polls : List Poll) :
    Writes P (waitTaskResult tid polls) := by
  induction polls with
  | nil => exact .pure _
  | cons poll polls ih =>
      apply (writes_pollOnce tid poll).bind
      rintro (_ | ⟨artifact, analysis⟩)
      · exact ih
      · exact .pure _

/-! ## Schedules and deletion -/

theorem writes_softDelete (mark : Mark) (tid : String) (hides : HotmethodTask → Bool) :
    Writes P (Program.transact mark (softDelete tid hides)) := by
  refine Program.moves_transact fun db => ?_
  unfold softDelete
  cases db.task? tid with
  | none => exact .refl db
  | some row =>
      dsimp only
      split
      · exact .updateTask db tid fun _ =>
          .inl ⟨rfl, rfl, rfl, rfl, rfl, rfl, rfl, fun h => by cases h⟩
      · exact .refl db

theorem writes_deleteTask (uid tid : String) : Writes P (deleteTask uid tid) := by
  unfold deleteTask
  apply (writes_checkTaskAccess _ _ _).bind
  rintro (_ | task)
  · exact .pure _
  apply (writes_softDelete _ _ _).bind
  rintro (_ | _ | _) <;> exact .pure _

/-! ## Continuous tasks -/

theorem writes_settleStop (now : ℤ) (tid : String) (task : HotmethodTask) (reply : RpcReply) :
    Writes P (settleStop now tid task reply) := by
  cases reply with
  | notConnected => exact .pure _
  | failed error => exact .pure _
  | answered code message =>
      unfold settleStop
      dsimp only
      split
      · exact .pure _
      refine Program.Moves.bind (writes_updateTask _ _ ?_) fun _ => ?_
      · exact fun _ => ⟨rfl, rfl, rfl, rfl, rfl, rfl, rfl, id⟩
      split
      · exact (writes_recordStateChange _ _ _ _ _ _).bind fun _ => .pure _
      · exact .pure _

theorem writes_storeWindow (tid : String) (w : ContinuousWindowInfo) :
    Writes P (storeWindow tid w) := by
  unfold storeWindow
  apply (writes_query _ _).bind
  rintro (_ | _ | existing)
  · exact .pure _
  · refine (Program.moves_update RowsFrom.refl fun db db' h => ?_).bind fun _ => .pure _
    split at h
    · cases h
    · obtain rfl := Option.some.inj h
      exact .of_tasks_eq rfl
  · refine (writes_other ?_).bind fun _ => .pure _
    exact fun _ => rfl

/-- A window gets a new row, or its row is updated. -/
theorem writes_ensureContinuousWindowTask (assigns : Bool) {parent : HotmethodTask}
    {w : ContinuousWindowInfo} (hnew : P w.windowTid none (windowTask parent w))
    (hold : ∀ existing row,
      P w.windowTid (some row) (updateWindowTask parent w existing row)) :
    Writes P (ensureContinuousWindowTask assigns parent w) := by
  unfold ensureContinuousWindowTask
  dsimp only
  split
  · exact .pure _
  split
  · exact .pure _
  apply (writes_firstTask _ _).bind
  rintro ((_ | _) | existing)
  · apply (writes_createTask _ hnew).bind
    intro inserted
    split
    · exact .pure _
    · exact (writes_recordStateChange _ _ _ _ _ _).bind fun _ => .pure _
  · exact .pure _
  · dsimp only
    generalize (if assigns then updateWindowTask parent w existing existing else existing) = updated
    refine Program.Moves.bind (writes_update fun db => .updateTask db _ fun row => ?_)
      fun done => ?_
    · exact .inr (hold existing row)
    split
    · exact .pure _
    split
    · exact (writes_recordStateChange _ _ _ _ _ _).bind fun _ => .pure _
    · exact .pure _

theorem writes_syncWindows (assigns analysisConfigured : Bool) {parent : HotmethodTask}
    {windows : List ContinuousWindowInfo}
    (hnew : ∀ w ∈ windows, P w.windowTid none (windowTask parent w))
    (hold : ∀ w ∈ windows, ∀ existing row,
      P w.windowTid (some row) (updateWindowTask parent w existing row)) :
    Writes P (syncWindows assigns analysisConfigured parent windows) := by
  induction windows with
  | nil => exact .pure _
  | cons w windows ih =>
      have hwindow : Writes P (syncWindow assigns analysisConfigured parent w) := by
        apply (writes_storeWindow _ _).bind
        rintro (_ | ⟨windowCreated, previousStatus⟩)
        · exact .pure _
        apply (writes_ensureContinuousWindowTask assigns (hnew w List.mem_cons_self)
          (hold w List.mem_cons_self)).bind
        rintro (_ | ⟨childTask, childCreated⟩) <;> exact .pure _
      have hrest := ih (fun w' hmem => hnew w' (List.mem_cons_of_mem w hmem))
        (fun w' hmem => hold w' (List.mem_cons_of_mem w hmem))
      exact hwindow.bind fun _ => hrest.bind fun _ => .pure _

/-! ## Analysis -/

theorem writes_updateAnalysisStatusInfo (tid reason : String) :
    Writes P (updateAnalysisStatusInfo tid reason) := by
  unfold updateAnalysisStatusInfo
  split
  · exact .pure _
  apply (writes_firstTask _ _).bind
  rintro (_ | task)
  · exact .pure _
  refine (writes_updateTask _ _ ?_).bind fun _ => .pure _
  exact fun _ => ⟨rfl, rfl, rfl, rfl, rfl, rfl, rfl, id⟩

theorem writes_transitionAnalysisStatus (assigns : Bool) (tid : String) (toState : ℤ)
    (reason : String) : Writes P (transitionAnalysisStatus assigns tid toState reason) := by
  unfold transitionAnalysisStatus
  apply (writes_firstTask _ _).bind
  rintro (_ | task)
  · exact .pure _
  dsimp only
  split
  · split
    · exact writes_updateAnalysisStatusInfo _ _
    · exact .pure _
  · refine (writes_update fun db => ?_).bind fun _ => .pure _
    refine RowsFrom.addHistory (.updateTask db tid ?_) _
    exact fun _ => .inl ⟨rfl, rfl, rfl, rfl, rfl, rfl, rfl, id⟩

theorem writes_updateAnalysisStatus (assigns : Bool) (uid tid : String)
    (analysisStatus : ℤ) (statusInfo : String) :
    Writes P (updateAnalysisStatus assigns uid tid analysisStatus statusInfo) := by
  unfold updateAnalysisStatus
  apply (writes_checkTaskAccess _ _ _).bind
  rintro (_ | task)
  · exact .pure _
  apply (writes_firstTask _ _).bind
  rintro (_ | task)
  · exact .pure _
  exact (writes_transitionAnalysisStatus _ _ _ _).bind fun _ => .pure _

theorem writes_runAnalysis (tid : String) (failure : Option (String × String)) :
    Writes P (runAnalysis tid failure) := by
  unfold runAnalysis
  rcases failure with _ | ⟨error, stderr⟩
  · exact .pure _
  apply (writes_firstTask _ _).bind
  rintro (_ | task)
  · exact .pure _
  dsimp only
  split
  · refine (writes_updateTask _ _ ?_).bind fun _ => writes_recordStateChange _ _ _ _ _ _
    exact fun _ => ⟨rfl, rfl, rfl, rfl, rfl, rfl, rfl, id⟩
  · exact .pure _

theorem writes_triggerAnalysis (assigns analysisConfigured : Bool) (uid tid : String) :
    Writes P (triggerAnalysis assigns analysisConfigured uid tid) := by
  unfold triggerAnalysis
  apply (writes_checkTaskAccess _ _ _).bind
  rintro (_ | task)
  · exact .pure _
  dsimp only
  split
  · exact .pure _
  split
  · exact .pure _
  split
  · exact .pure _
  exact (writes_transitionAnalysisStatus _ _ _ _).bind fun _ => .pure _

/-! ## Groups and agents -/

theorem writes_firstGroupRow (gid : ℕ) : Writes P (firstGroupRow gid) := by
  apply (writes_query _ _).bind
  rintro (_ | group) <;> exact .pure _

theorem writes_ownedGroup (uid : String) (gid : ℕ) : Writes P (ownedGroup uid gid) := by
  apply (writes_firstGroupRow gid).bind
  rintro (_ | group) <;> exact .pure _

theorem writes_insertMember (mark : Mark) (member : GroupMember) :
    Writes P (Program.transact mark fun db =>
      match db.insertMember member with
      | none => (false, db)
      | some db => (true, db)) := by
  refine Program.moves_transact fun db => ?_
  cases hinsert : db.insertMember member with
  | none => exact .refl db
  | some db' =>
      unfold Database.insertMember at hinsert
      split at hinsert
      · cases hinsert
      · obtain rfl := Option.some.inj hinsert
        exact .of_tasks_eq rfl

theorem tasks_createGroup {db db' : Database} {group : Group}
    (h : db.createGroup group = some db') : db'.tasks = db.tasks := by
  unfold Database.createGroup Database.insertMember at h
  split at h
  · cases h
  split at h
  · cases h
  · obtain rfl := Option.some.inj h
    rfl

theorem writes_addAgent (uid : String) (gid agentId : ℕ) : Writes P (addAgent uid gid agentId) := by
  unfold addAgent
  split
  · exact .pure _
  apply (writes_ownedGroup _ _).bind
  rintro (_ | group)
  · exact .pure _
  apply (writes_query _ _).bind
  rintro (_ | _ | agent)
  · exact .pure _
  · exact .pure _
  apply (writes_canAccessAgentIP _ _).bind
  intro allowed
  split
  · exact .pure _
  refine Program.Moves.bind (writes_other ?_) fun done => ?_
  · exact fun _ => rfl
  split <;> exact .pure _

theorem preserves_firstAccessibleOnlineAgentIP {α : Type} {f : Database → α} (uid : String)
    (order : List ℕ) : (Backend.firstAccessibleOnlineAgentIP uid order).Preserves f := by
  have hfirst : ∀ agents, (Backend.firstAccessible uid agents).Preserves f := by
    intro agents
    induction agents with
    | nil => exact .pure _
    | cons agent agents ih =>
        apply (preserves_canAccessAgentIP _ _).bind
        intro allowed
        split
        · exact .pure _
        · exact ih
  apply (Program.preserves_query _ _).bind
  rintro (_ | agents)
  · exact .pure _
  · exact hfirst agents

theorem writes_firstAccessibleOnlineAgentIP (uid : String) (order : List ℕ) :
    Writes P (Backend.firstAccessibleOnlineAgentIP uid order) :=
  writes_of_reads (preserves_firstAccessibleOnlineAgentIP uid order)

theorem writes_firstGroupOf (uid : String) : Writes P (firstGroupOf uid) := by
  apply (writes_query _ _).bind
  rintro (_ | gid) <;> exact .pure _

theorem writes_syncAgent (now : ℤ) (ownerGid : ℕ) (remote : AgentStatus) :
    Writes P (syncAgent now ownerGid remote) := by
  unfold syncAgent
  split
  · exact .pure _
  apply (writes_firstGroupOf _).bind
  intro gid
  apply (writes_query _ _).bind
  rintro (_ | _ | agent)
  · exact .pure _
  · refine writes_other ?_
    exact fun _ => rfl
  · have hsync : Writes P (Program.update {} fun db =>
        some (db.updateAgent agent.id fun row => row.sync now (gid.getD ownerGid) remote)) := by
      refine writes_other ?_
      exact fun _ => rfl
    dsimp only
    split
    · refine Program.Moves.bind (writes_other ?_) fun _ => hsync
      exact fun _ => rfl
    · exact hsync

theorem writes_syncAgentsFromDrop (now : ℤ) (ownerUid : String)
    (remotes : Option (List AgentStatus)) : Writes P (syncAgentsFromDrop now ownerUid remotes) := by
  have heach : ∀ gid remotes, Writes P (syncEach now gid remotes) := by
    intro gid remotes
    induction remotes with
    | nil => exact .pure _
    | cons remote rest ih =>
        apply (writes_syncAgent _ _ _).bind
        intro goesOn
        split
        · exact ih
        · exact .pure _
  unfold syncAgentsFromDrop
  cases remotes with
  | none => exact .pure _
  | some remotes => exact (writes_firstGroupOf _).bind fun _ => heach _ _

/-- Requests on groups and agents write no task. -/
theorem writes_group (request : GroupRequest) : Writes P request.program := by
  cases request with
  | createGroup gid uid name =>
      refine Program.Moves.bind ?_ fun _ => .pure _
      unfold createGroup
      split
      · exact .pure _
      · refine (Program.moves_update RowsFrom.refl fun _ _ h =>
          .of_tasks_eq (tasks_createGroup h)).bind fun done => ?_
        split <;> exact .pure _
  | deleteGroup uid gid =>
      refine Program.Moves.bind ?_ fun _ => .pure _
      apply (writes_firstGroupRow gid).bind
      rintro (_ | group)
      · exact .pure _
      dsimp only
      split
      · exact .pure _
      · refine Program.Moves.bind (writes_other ?_) fun done => ?_
        · exact fun _ => rfl
        split <;> exact .pure _
  | addMember uid gid memberUid =>
      refine Program.Moves.bind ?_ fun _ => .pure _
      unfold addMember
      split
      · exact .pure _
      apply (writes_ownedGroup _ _).bind
      rintro (_ | group)
      · exact .pure _
      apply (writes_insertMember _ _).bind
      rintro (_ | _ | _) <;> exact .pure _
  | removeMember uid gid targetUid =>
      refine Program.Moves.bind ?_ fun _ => .pure _
      apply (writes_ownedGroup _ _).bind
      rintro (_ | group)
      · exact .pure _
      dsimp only
      split
      · exact .pure _
      · refine (writes_other ?_).bind fun _ => .pure _
        exact fun _ => rfl
  | addAgent uid gid agentId => exact (writes_addAgent uid gid agentId).bind fun _ => .pure _
  | syncAgents now uid remotes => exact writes_syncAgentsFromDrop now uid remotes

end MiniDrop
