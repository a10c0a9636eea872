import MiniDrop.Model.Requests
import MiniDrop.Verification.Api.Tables

/-! # Requests on tasks leave users and agents alone -/

namespace MiniDrop

/-- Agents, groups and their members. -/
def Database.tenants (db : Database) : List AgentInfo × List GroupMember × Std.ExtTreeMap ℕ Group :=
  (db.agents, db.members, db.groups)

namespace Database

variable (db : Database)

@[simp] theorem tenants_updateTask (tid : String) (change : HotmethodTask → HotmethodTask) :
    (db.updateTask tid change).tenants = db.tenants := by
  unfold updateTask
  split <;> rfl

@[simp] theorem tenants_addHistory (row : TaskStateHistory) :
    (db.addHistory row).tenants = db.tenants := rfl

theorem tenants_createTask {db db' : Database} {task : HotmethodTask}
    (h : db.createTask task = some db') : db'.tenants = db.tenants := by
  unfold createTask at h
  split at h
  · cases h
  · obtain rfl := Option.some.inj h
    rfl

end Database

/-! ## Statements -/

/-- The program leaves users and agents alone. -/
abbrev KeepsTenants {α : Type} (p : Statements α) : Prop := p.Preserves Database.tenants

theorem keepsTenants_query {α : Type} (mark : Mark) (read : Database → α) :
    KeepsTenants (Program.query mark read) :=
  Program.preserves_query mark read

theorem keepsTenants_update {mark : Mark} {change : Database → Database}
    (h : ∀ db, (change db).tenants = db.tenants) :
    KeepsTenants (Program.update mark fun db => some (change db)) :=
  Program.preserves_update fun db _ hs => by
    obtain rfl := Option.some.inj hs
    exact h db

theorem keepsTenants_updateTask (mark : Mark) (tid : String)
    (change : HotmethodTask → HotmethodTask) :
    KeepsTenants (Program.update mark fun db => some (db.updateTask tid change)) :=
  keepsTenants_update fun db => db.tenants_updateTask tid change

theorem keepsTenants_createTask (mark : Mark) (task : HotmethodTask) :
    KeepsTenants (Program.update mark fun db => db.createTask task) :=
  Program.preserves_update fun _ _ h => Database.tenants_createTask h

theorem keepsTenants_firstTask (tid : String) (holds : Bool) :
    KeepsTenants (firstTask tid holds) :=
  preserves_firstTask tid holds

theorem keepsTenants_recordStateChange (tid : String) (fromState toState : ℤ) (reason : String)
    (changeType : ℤ) (holds : Bool) :
    KeepsTenants (recordStateChange tid fromState toState reason changeType holds) := by
  refine (keepsTenants_update ?_).bind fun _ => .pure _
  exact fun db => db.tenants_addHistory _

theorem keepsTenants_checkTaskAccess (uid tid : String) (holds : Bool) :
    KeepsTenants (checkTaskAccess uid tid holds) :=
  preserves_checkTaskAccess uid tid holds

theorem keepsTenants_canAccessAgentIP (uid ip : String) :
    KeepsTenants (canAccessAgentIP uid ip) :=
  preserves_canAccessAgentIP uid ip

/-! ## Task status -/

theorem keepsTenants_transitionTaskStatus (now : ℤ) (tid : String) (toState : ℤ) (reason : String)
    (endTime : Option ℤ) : KeepsTenants (transitionTaskStatus now tid toState reason endTime) := by
  unfold transitionTaskStatus
  apply (keepsTenants_firstTask tid true).bind
  rintro (_ | task)
  · exact .pure _
  refine (keepsTenants_update fun db => ?_).bind fun _ => .pure _
  unfold applyTransition
  dsimp only
  split <;> simp

theorem keepsTenants_syncDropTaskStatus (now : ℤ) (tid : String) (status : ℤ) (reason : String) :
    KeepsTenants (syncDropTaskStatus now tid status reason) := by
  unfold syncDropTaskStatus
  dsimp only
  split
  · exact keepsTenants_transitionTaskStatus _ _ _ _ _
  · split <;> exact keepsTenants_transitionTaskStatus _ _ _ _ _

theorem keepsTenants_ensureTaskReached (now : ℤ) (tid : String) (state : ℤ) (reason : String) :
    KeepsTenants (ensureTaskReached now tid state reason) := by
  unfold ensureTaskReached
  apply (keepsTenants_firstTask tid false).bind
  rintro (_ | task)
  · exact .pure _
  dsimp only
  split
  · exact keepsTenants_transitionTaskStatus _ _ _ _ _
  · exact .pure _

theorem keepsTenants_settleResult (now : ℤ) (tid : String) (resp : FetchDataResponse)
    (storage : StorageReply) : KeepsTenants (settleResult now tid resp storage) := by
  unfold settleResult
  cases persistFetchedResultFile storage tid resp with
  | error storeErr =>
      apply (keepsTenants_ensureTaskReached _ _ _ _).bind
      intro _
      exact (keepsTenants_transitionTaskStatus _ _ _ _ _).bind fun _ => .pure _
  | ok cosKey =>
      apply (keepsTenants_ensureTaskReached _ _ _ _).bind
      intro _
      apply (keepsTenants_ensureTaskReached _ _ _ _).bind
      intro _
      apply (keepsTenants_transitionTaskStatus _ _ _ _ _).bind
      intro _
      apply (keepsTenants_firstTask _ _).bind
      rintro (_ | task) <;> exact .pure _

theorem keepsTenants_pollOnce (tid : String) (poll : Poll) : KeepsTenants (pollOnce tid poll) := by
  cases poll with
  | cancelled now error =>
      exact (keepsTenants_transitionTaskStatus _ _ _ _ _).bind fun _ => .pure _
  | expired now => exact (keepsTenants_transitionTaskStatus _ _ _ _ _).bind fun _ => .pure _
  | unreachable => exact .pure _
  | fetched now resp storage =>
      simp only [pollOnce]
      cases parseDropStatusMessage resp.message with
      | some reported =>
          apply (keepsTenants_syncDropTaskStatus _ _ _ _).bind
          intro _
          split
          · exact .pure _
          · split
            · exact keepsTenants_settleResult _ _ _ _
            · exact .pure _
      | none =>
          dsimp only
          split
          · exact keepsTenants_settleResult _ _ _ _
          · split
            · apply (keepsTenants_ensureTaskReached _ _ _ _).bind
              intro _
              exact (keepsTenants_transitionTaskStatus _ _ _ _ _).bind fun _ => .pure _
            · exact .pure _

theorem keepsTenants_waitTaskResult (tid : String) (polls : List Poll) :
    KeepsTenants (waitTaskResult tid polls) := by
  induction polls with
  | nil => exact .pure _
  | cons poll polls ih =>
      apply (keepsTenants_pollOnce tid poll).bind
      rintro (_ | ⟨artifact, analysis⟩)
      · exact ih
      · exact .pure _

/-! ## Creating and deleting tasks -/

theorem keepsTenants_dispatchNewTask (task : HotmethodTask) (created queued : String)
    (rejection : Option String) :
    KeepsTenants (dispatchNewTask task created queued rejection) := by
  unfold dispatchNewTask
  apply (keepsTenants_createTask _ task).bind
  intro inserted
  split
  · exact .pure _
  apply (keepsTenants_recordStateChange _ _ _ _ _ _).bind
  intro _
  cases rejection with
  | none => exact ((keepsTenants_updateTask _ _ _).bind fun _ => .pure _).bind fun _ => .pure _
  | some reason =>
      apply (keepsTenants_updateTask _ _ _).bind
      intro _
      exact (keepsTenants_recordStateChange _ _ _ _ _ _).bind fun _ => .pure _

theorem keepsTenants_createTaskInternal (now : ℤ) (tid uid userName : String) (req : CreateTaskReq)
    (dispatch : RpcReply) :
    KeepsTenants (createTaskInternal now tid uid userName req dispatch) := by
  unfold createTaskInternal
  apply (keepsTenants_canAccessAgentIP _ _).bind
  intro allowed
  split
  · exact .pure _
  split
  · exact .pure _
  apply (keepsTenants_dispatchNewTask _ _ _ _).bind
  intro inserted
  split <;> exact .pure _

theorem keepsTenants_retryTask (now : ℤ) (uid userName tid newTid : String)
    (dispatch : RpcReply) : KeepsTenants (retryTask now uid userName tid newTid dispatch) := by
  unfold retryTask
  apply (keepsTenants_checkTaskAccess _ _ _).bind
  rintro (_ | task)
  · exact .pure _
  dsimp only
  split
  · exact .pure _
  apply (keepsTenants_dispatchNewTask _ _ _ _).bind
  intro inserted
  split <;> exact .pure _

theorem keepsTenants_executeScheduledTask (now : ℤ) (newTid : String) (schedule : HotmethodTask)
    (dispatch : RpcReply) : KeepsTenants (executeScheduledTask now newTid schedule dispatch) :=
  (keepsTenants_dispatchNewTask _ _ _ _).bind fun _ => .pure _

theorem tenants_softDelete (tid : String) (hides : HotmethodTask → Bool) (db : Database) :
    (softDelete tid hides db).2.tenants = db.tenants := by
  unfold softDelete
  split
  · rfl
  · split <;> simp

theorem keepsTenants_deleteTask (uid tid : String) : KeepsTenants (deleteTask uid tid) := by
  unfold deleteTask
  apply (keepsTenants_checkTaskAccess _ _ _).bind
  rintro (_ | task)
  · exact .pure _
  apply (Program.preserves_transact (tenants_softDelete tid _)).bind
  rintro (_ | _ | _) <;> exact .pure _

theorem keepsTenants_deleteScheduleTask (uid tid : String) :
    KeepsTenants (deleteScheduleTask uid tid) := by
  unfold deleteScheduleTask
  apply (Program.preserves_transact (tenants_softDelete tid _)).bind
  rintro (_ | _ | _) <;> exact .pure _

theorem keepsTenants_createScheduleTask (tid uid userName : String) (req : CreateScheduleReq)
    (cronError : Option String) :
    KeepsTenants (createScheduleTask tid uid userName req cronError) := by
  unfold createScheduleTask
  apply (keepsTenants_canAccessAgentIP _ _).bind
  intro allowed
  split
  · exact .pure _
  split
  · exact .pure _
  cases cronError with
  | some error => exact .pure _
  | none =>
      apply (keepsTenants_createTask _ _).bind
      intro inserted
      split <;> exact .pure _

/-! ## Continuous tasks -/

theorem keepsTenants_createContinuousInternal (now : ℤ) (tid uid userName : String)
    (req : CreateContinuousReq) (reply : RpcReply) :
    KeepsTenants (createContinuousInternal now tid uid userName req reply) := by
  unfold createContinuousInternal
  apply (keepsTenants_canAccessAgentIP _ _).bind
  intro allowed
  split
  · exact .pure _
  cases reply with
  | notConnected => exact .pure _
  | failed error => exact .pure _
  | answered code message =>
      dsimp only
      split
      · exact .pure _
      apply (keepsTenants_createTask _ _).bind
      intro inserted
      split
      · exact .pure _
      exact (keepsTenants_recordStateChange _ _ _ _ _ _).bind fun _ => .pure _

theorem keepsTenants_stopContinuousTask (now : ℤ) (uid tid : String) (reply : RpcReply) :
    KeepsTenants (stopContinuousTask now uid tid reply) := by
  unfold stopContinuousTask
  apply (keepsTenants_checkTaskAccess _ _ _).bind
  rintro (_ | task)
  · exact .pure _
  cases reply with
  | notConnected => exact .pure _
  | failed error => exact .pure _
  | answered code message =>
      dsimp only
      split
      · exact .pure _
      apply (keepsTenants_updateTask _ _ _).bind
      intro _
      split
      · exact (keepsTenants_recordStateChange _ _ _ _ _ _).bind fun _ => .pure _
      · exact .pure _

theorem keepsTenants_storeWindow (tid : String) (w : ContinuousWindowInfo) :
    KeepsTenants (storeWindow tid w) := by
  unfold storeWindow
  apply (keepsTenants_query _ _).bind
  rintro (_ | _ | existing)
  · exact .pure _
  · refine (Program.preserves_update fun db db' h => ?_).bind fun _ => .pure _
    split at h
    · cases h
    · obtain rfl := Option.some.inj h
      rfl
  · refine (keepsTenants_update ?_).bind fun _ => .pure _
    exact fun _ => rfl

theorem keepsTenants_ensureContinuousWindowTask (assigns : Bool) (parent : HotmethodTask)
    (w : ContinuousWindowInfo) :
    KeepsTenants (ensureContinuousWindowTask assigns parent w) := by
  unfold ensureContinuousWindowTask
  dsimp only
  split
  · exact .pure _
  split
  · exact .pure _
  apply (keepsTenants_firstTask _ _).bind
  rintro ((_ | _) | existing)
  · apply (keepsTenants_createTask _ _).bind
    intro inserted
    split
    · exact .pure _
    · exact (keepsTenants_recordStateChange _ _ _ _ _ _).bind fun _ => .pure _
  · exact .pure _
  · dsimp only
    generalize (if assigns then updateWindowTask parent w existing existing else existing) = updated
    apply (keepsTenants_updateTask _ _ _).bind
    intro done
    split
    · exact .pure _
    split
    · exact (keepsTenants_recordStateChange _ _ _ _ _ _).bind fun _ => .pure _
    · exact .pure _

theorem keepsTenants_syncWindows (assigns analysisConfigured : Bool) (parent : HotmethodTask)
    (windows : List ContinuousWindowInfo) :
    KeepsTenants (syncWindows assigns analysisConfigured parent windows) := by
  induction windows with
  | nil => exact .pure _
  | cons w windows ih =>
      have hwindow : KeepsTenants (syncWindow assigns analysisConfigured parent w) := by
        apply (keepsTenants_storeWindow _ _).bind
        rintro (_ | ⟨windowCreated, previousStatus⟩)
        · exact .pure _
        apply (keepsTenants_ensureContinuousWindowTask _ _ _).bind
        rintro (_ | ⟨childTask, childCreated⟩) <;> exact .pure _
      exact hwindow.bind fun _ => ih.bind fun _ => .pure _

theorem keepsTenants_getContinuousWindows (assigns analysisConfigured : Bool) (uid tid : String)
    (reply : Option (List ContinuousWindowInfo)) (earliest latest : Option ℤ) :
    KeepsTenants
      (getContinuousWindows assigns analysisConfigured uid tid reply earliest latest) := by
  unfold getContinuousWindows
  apply (keepsTenants_checkTaskAccess _ _ _).bind
  rintro (_ | parentTask)
  · exact .pure _
  apply (keepsTenants_syncWindows _ _ _ _).bind
  intro analysed
  exact (keepsTenants_query _ _).bind fun _ => .pure _

/-! ## Analysis -/

theorem keepsTenants_updateAnalysisStatusInfo (tid reason : String) :
    KeepsTenants (updateAnalysisStatusInfo tid reason) := by
  unfold updateAnalysisStatusInfo
  split
  · exact .pure _
  apply (keepsTenants_firstTask _ _).bind
  rintro (_ | task)
  · exact .pure _
  exact (keepsTenants_updateTask _ _ _).bind fun _ => .pure _

theorem keepsTenants_transitionAnalysisStatus (assigns : Bool) (tid : String) (toState : ℤ)
    (reason : String) : KeepsTenants (transitionAnalysisStatus assigns tid toState reason) := by
  unfold transitionAnalysisStatus
  apply (keepsTenants_firstTask _ _).bind
  rintro (_ | task)
  · exact .pure _
  dsimp only
  split
  · split
    · exact keepsTenants_updateAnalysisStatusInfo _ _
    · exact .pure _
  · exact (keepsTenants_update fun db => by simp).bind fun _ => .pure _

theorem keepsTenants_updateAnalysisStatus (assigns : Bool) (uid tid : String)
    (analysisStatus : ℤ) (statusInfo : String) :
    KeepsTenants (updateAnalysisStatus assigns uid tid analysisStatus statusInfo) := by
  unfold updateAnalysisStatus
  apply (keepsTenants_checkTaskAccess _ _ _).bind
  rintro (_ | task)
  · exact .pure _
  apply (keepsTenants_firstTask _ _).bind
  rintro (_ | task)
  · exact .pure _
  exact (keepsTenants_transitionAnalysisStatus _ _ _ _).bind fun _ => .pure _

theorem keepsTenants_runAnalysis (tid : String) (failure : Option (String × String)) :
    KeepsTenants (runAnalysis tid failure) := by
  unfold runAnalysis
  rcases failure with _ | ⟨error, stderr⟩
  · exact .pure _
  apply (keepsTenants_firstTask _ _).bind
  rintro (_ | task)
  · exact .pure _
  dsimp only
  split
  · exact (keepsTenants_updateTask _ _ _).bind fun _ => keepsTenants_recordStateChange _ _ _ _ _ _
  · exact .pure _

theorem keepsTenants_triggerAnalysis (assigns analysisConfigured : Bool) (uid tid : String) :
    KeepsTenants (triggerAnalysis assigns analysisConfigured uid tid) := by
  unfold triggerAnalysis
  apply (keepsTenants_checkTaskAccess _ _ _).bind
  rintro (_ | task)
  · exact .pure _
  dsimp only
  split
  · exact .pure _
  split
  · exact .pure _
  split
  · exact .pure _
  exact (keepsTenants_transitionAnalysisStatus _ _ _ _).bind fun _ => .pure _

/-- Only `changeGroups` changes users and agents. -/
theorem keepsTenants_program (assigns analysisConfigured : Bool) (request : Request)
    (h : ∀ agents members, request ≠ .changeGroups agents members) :
    KeepsTenants (request.program assigns analysisConfigured) := by
  cases request with
  | createTask => exact (keepsTenants_createTaskInternal _ _ _ _ _ _).bind fun _ => .pure _
  | retryTask => exact (keepsTenants_retryTask _ _ _ _ _ _).bind fun _ => .pure _
  | waitTaskResult => exact (keepsTenants_waitTaskResult _ _).bind fun _ => .pure _
  | triggerAnalysis => exact (keepsTenants_triggerAnalysis _ _ _ _).bind fun _ => .pure _
  | runAnalysis => exact keepsTenants_runAnalysis _ _
  | updateAnalysisStatus =>
      exact (keepsTenants_updateAnalysisStatus _ _ _ _ _).bind fun _ => .pure _
  | deleteTask => exact (keepsTenants_deleteTask _ _).bind fun _ => .pure _
  | createContinuousTask =>
      exact (keepsTenants_createContinuousInternal _ _ _ _ _ _).bind fun _ => .pure _
  | getContinuousWindows =>
      exact (keepsTenants_getContinuousWindows _ _ _ _ _ _ _).bind fun _ => .pure _
  | stopContinuousTask => exact (keepsTenants_stopContinuousTask _ _ _ _).bind fun _ => .pure _
  | createScheduleTask =>
      exact (keepsTenants_createScheduleTask _ _ _ _ _).bind fun _ => .pure _
  | executeScheduledTask => exact keepsTenants_executeScheduledTask _ _ _ _
  | deleteScheduleTask => exact (keepsTenants_deleteScheduleTask _ _).bind fun _ => .pure _
  | changeGroups agents members => exact absurd rfl (h agents members)

end MiniDrop
