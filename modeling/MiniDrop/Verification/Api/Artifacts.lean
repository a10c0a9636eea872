import MiniDrop.Library.Runs
import MiniDrop.Verification.Api.StatusTexts

/-! # Which objects a task makes readable

The requests for artifacts only serve keys of the task itself, or keys that drop_server returned
for it, as long as no text that comes from outside carries the marker of a foreign key. -/

namespace MiniDrop

/-! ## Texts from outside -/

/-- The text that a fetched result leaves. -/
def settleText (tid : String) (resp : FetchDataResponse) (storage : StorageReply) : String :=
  match persistFetchedResultFile storage tid resp with
  | .error storeErr => storeErr
  | .ok cosKey => readyReason cosKey

/-- The texts that a pass of the loop writes. -/
def pollTexts (tid : String) : Poll → List String
  | .cancelled _ error => ["cancelled: " ++ error]
  | .expired _ => []
  | .unreachable => []
  | .fetched _ resp storage =>
    match parseDropStatusMessage resp.message with
    | some (status, reason) =>
      reason :: if ¬ (status = taskStatusSuccess ∨ status = taskStatusFailed) ∧ resp.code = 0 then
        [settleText tid resp storage] else []
    | none =>
      if resp.code = 0 then [settleText tid resp storage]
      else if resp.message ≠ "" ∧ resp.message ≠ "Result not found" then [resp.message]
      else []

/-- The key in a response. -/
def pollKey : Poll → Option String
  | .fetched _ resp _ => if resp.cosKey ≠ "" then some resp.cosKey else none
  | _ => none

namespace Request

/-- The status texts that a request takes from outside, each with its task. -/
def texts : Request → List (String × String)
  | createTask _ tid _ _ _ dispatch => dispatch.rejection.toList.map fun text => (tid, text)
  | retryTask _ _ _ _ newTid dispatch => dispatch.rejection.toList.map fun text => (newTid, text)
  | waitTaskResult tid polls => (polls.flatMap (pollTexts tid)).map fun text => (tid, text)
  | runAnalysis tid failure => failure.toList.map fun (error, stderr) =>
      (tid, "analysis failed: " ++ error ++ ", stderr: " ++ stderr)
  | updateAnalysisStatus _ tid _ statusInfo => [(tid, statusInfo)]
  | executeScheduledTask _ newTid _ dispatch =>
    dispatch.cronRejection.toList.map fun text => (newTid, text)
  | _ => []

/-- The keys that drop_server returns to waitTaskResult, each with its task. -/
def returnedKeys : Request → List (String × String)
  | waitTaskResult tid polls => (polls.filterMap pollKey).map fun key => (tid, key)
  | _ => []

/-- The texts from outside name no key that the task may not have. -/
def NamesOwnKeys (request : Request) : Prop :=
  ∀ entry ∈ request.texts, NamesOwnKey request.returnedKeys entry.1 entry.2

instance (request : Request) : Decidable request.NamesOwnKeys :=
  inferInstanceAs (Decidable (∀ entry ∈ _, _))

end Request

/-- The keys that drop_server has returned to the requests of a pool. -/
def ServerPool.returnedKeys (pool : ServerPool) : List (String × String) :=
  pool.started.flatMap Request.returnedKeys

/-- A request for artifacts reads the key from the object store or presigns it. -/
inductive Serves (db : Database) (uid tid key : String) : Prop where
  | artifact (query : String) (h : ((getTaskArtifact uid tid query).run db).1 = .reads key)
  | detail (store : Option ObjectStore) (presign : String → Option String) (detail : TaskDetail)
    (h : ((getTaskDetail store presign uid tid).run db).1 = .ok detail)
    (hkey : key ∈ detail.cosFiles.map Prod.fst)
  | cosFiles (store : Option ObjectStore) (presign : String → Option String)
    (files : List (String × String))
    (h : ((getCOSFiles store presign uid tid).run db).1 = .ok files)
    (hkey : key ∈ files.map Prod.fst)

/-- In all runs whose steps satisfy `ok`, from a database without tasks, a task only makes
its own keys readable and those that drop_server returned for it. -/
def ConfinesArtifacts (assigns analysisConfigured : Bool)
    (ok : ServerPool → Pool.Event Request → Prop) : Prop :=
  ∀ (db : Database) (pool : ServerPool), (∀ tid : String, db.tasks[tid]? = none) →
    Transition.Reachable (Pool.step (Request.program assigns analysisConfigured)) ok
      { store := db } pool →
    ∀ uid tid key, Serves pool.store uid tid key →
      OwnKey tid key ∨ (tid, key) ∈ pool.returnedKeys

/-! ## The requests write what they are given -/

section Writers

variable {listed : List (String × String)} {α : Type}

theorem Confines.weaken {Q : α → Prop} {p : Statements α} (h : Confines listed Q p) :
    Confines listed (fun _ => True) p :=
  Program.Follows.mono h fun _ _ _ => trivial

theorem confines_read (mark : Mark) (read : Database → α) :
    Confines listed (fun _ => True) (Program.query mark read) :=
  (confines_query (R := fun _ => True) fun _ _ => trivial).weaken

/-- An update whose status text names an own key. -/
theorem confines_updateTask {mark : Mark} (tid : String) (change : HotmethodTask → HotmethodTask)
    (htid : ∀ row, (change row).tid = row.tid)
    (htext : ∀ row, NamesOwnKey listed tid row.statusInfo →
      NamesOwnKey listed tid (change row).statusInfo) :
    Confines listed (fun _ => True)
      (Program.update mark fun db => some (db.updateTask tid change) : Statements Bool) := by
  apply confines_update
  intro db db' hdb hchange
  obtain rfl := Option.some.inj hchange
  exact hdb.updateTask tid change htid htext

theorem confines_firstTask (tid : String) (holds : Bool) :
    Confines listed (fun result => ∀ task, result = .ok task →
      task.tid = tid ∧ NamesOwnKey listed tid task.statusInfo) (firstTask tid holds) := by
  unfold firstTask
  refine (confines_query (R := fun row => ∀ task, row = some task →
    task.tid = tid ∧ NamesOwnKey listed tid task.statusInfo) ?_).bind ?_
  · intro db hdb task htask
    exact hdb tid task (Option.filter_eq_some_iff.mp htask).1
  · rintro (_ | _ | row) hrow
    · exact .pure (by simp)
    · exact .pure (by simp)
    · apply Confines.pure
      rintro task ⟨⟩
      exact hrow _ rfl _ rfl

theorem confines_recordStateChange (tid : String) (fromState toState : ℤ) (reason : String)
    (changeType : ℤ) (holds : Bool) :
    Confines listed (fun _ => True)
      (recordStateChange tid fromState toState reason changeType holds) := by
  refine (confines_update ?_).bind fun _ _ => .pure trivial
  intro db db' hdb hchange
  obtain rfl := Option.some.inj hchange
  exact hdb

theorem confines_mayAccess (mark : Mark) (uid : String) (task : HotmethodTask) :
    Confines listed (fun _ => True) (mayAccess mark uid task) := by
  unfold mayAccess
  split
  · exact .pure trivial
  apply (confines_read _ _).bind
  intro gids _
  dsimp only
  split
  · exact .pure trivial
  · exact (confines_read _ _).bind fun _ _ => .pure trivial

theorem confines_checkTaskAccess (uid tid : String) (holds : Bool) :
    Confines listed (fun result => ∀ task, result = some task →
      task.tid = tid ∧ NamesOwnKey listed tid task.statusInfo)
      (checkTaskAccess uid tid holds) := by
  unfold checkTaskAccess
  apply (confines_firstTask tid holds).bind
  rintro (_ | row) hrow
  · exact .pure (by simp)
  apply (confines_mayAccess _ uid row).bind
  rintro (_ | _) _
  · exact .pure (by simp)
  · apply Confines.pure
    rintro task ⟨⟩
    exact hrow _ rfl

theorem confines_canAccessAgentIP (uid ip : String) :
    Confines listed (fun _ => True) (canAccessAgentIP uid ip) := by
  unfold canAccessAgentIP
  split
  · exact .pure trivial
  · apply (confines_read _ _).bind
    intro gids _
    exact (confines_read _ _).bind fun _ _ => .pure trivial

theorem confines_transitionTaskStatus (now : ℤ) (tid : String) (toState : ℤ) (reason : String)
    (endTime : Option ℤ) (hreason : NamesOwnKey listed tid reason) :
    Confines listed (fun _ => True) (transitionTaskStatus now tid toState reason endTime) := by
  unfold transitionTaskStatus
  apply (confines_firstTask tid true).bind
  rintro (_ | task) _
  · exact .pure trivial
  refine (confines_update ?_).bind fun _ _ => .pure trivial
  intro db db' hdb hchange
  obtain rfl := Option.some.inj hchange
  unfold applyTransition
  dsimp only
  split
  all_goals refine Confined.updateTask hdb tid _ ?_ ?_
  · exact fun _ => rfl
  · exact fun _ _ => hreason
  · exact fun _ => rfl
  · exact fun _ _ => hreason

theorem confines_syncDropTaskStatus (now : ℤ) (tid : String) (status : ℤ) (reason : String)
    (hreason : NamesOwnKey listed tid reason) :
    Confines listed (fun _ => True) (syncDropTaskStatus now tid status reason) := by
  unfold syncDropTaskStatus
  dsimp only
  split
  · exact confines_transitionTaskStatus now tid _ reason _ hreason
  · split <;> exact confines_transitionTaskStatus now tid _ reason _ hreason

theorem confines_ensureTaskReached (now : ℤ) (tid : String) (state : ℤ) (reason : String)
    (hreason : NamesOwnKey listed tid reason) :
    Confines listed (fun _ => True) (ensureTaskReached now tid state reason) := by
  unfold ensureTaskReached
  apply (confines_firstTask tid false).bind
  rintro (_ | task) _
  · exact .pure trivial
  dsimp only
  split
  · exact confines_transitionTaskStatus now tid _ reason none hreason
  · exact .pure trivial

theorem confines_updateTaskStatusInfo (tid reason : String)
    (hreason : NamesOwnKey listed tid reason) :
    Confines listed (fun _ => True) (updateTaskStatusInfo tid reason) := by
  refine (confines_updateTask tid _ ?_ ?_).bind fun _ _ => .pure trivial
  · exact fun _ => rfl
  · exact fun _ _ => hreason

theorem confines_settleResult (now : ℤ) (tid : String) (resp : FetchDataResponse)
    (storage : StorageReply) (htext : NamesOwnKey listed tid (settleText tid resp storage)) :
    Confines listed (fun _ => True) (settleResult now tid resp storage) := by
  unfold settleText at htext
  unfold settleResult
  cases hstored : persistFetchedResultFile storage tid resp with
  | error storeErr =>
      simp only [hstored] at htext
      apply (confines_ensureTaskReached now tid _ _ (.fixed (by simp [fixedTexts]))).bind
      intro _ _
      exact (confines_transitionTaskStatus now tid _ _ _ htext).bind fun _ _ => .pure trivial
  | ok cosKey =>
      simp only [hstored] at htext
      apply (confines_ensureTaskReached now tid _ _ (.fixed (by simp [fixedTexts]))).bind
      intro _ _
      apply (confines_ensureTaskReached now tid _ _ (.fixed (by simp [fixedTexts]))).bind
      intro _ _
      apply (confines_transitionTaskStatus now tid _ _ _ htext).bind
      intro _ _
      apply (confines_firstTask tid false).bind
      rintro (_ | task) _ <;> exact .pure trivial

theorem confines_pollOnce (tid : String) (poll : Poll)
    (htexts : ∀ text ∈ pollTexts tid poll, NamesOwnKey listed tid text) :
    Confines listed (fun _ => True) (pollOnce tid poll) := by
  cases poll with
  | cancelled now error =>
      refine (confines_transitionTaskStatus now tid _ _ _ ?_).bind fun _ _ => .pure trivial
      exact htexts _ (by simp [pollTexts])
  | expired now =>
      exact (confines_transitionTaskStatus now tid _ _ _ (.fixed (by simp [fixedTexts]))).bind
        fun _ _ => .pure trivial
  | unreachable => exact .pure trivial
  | fetched now resp storage =>
      unfold pollTexts at htexts
      cases hparse : parseDropStatusMessage resp.message with
      | some reported =>
          obtain ⟨status, reason⟩ := reported
          simp only [hparse] at htexts
          simp only [pollOnce, hparse]
          refine (confines_syncDropTaskStatus now tid _ _ ?_).bind ?_
          · exact htexts reason (by simp)
          intro _ _
          split
          · exact .pure trivial
          · rename_i hlive
            split
            · rename_i hcode
              exact confines_settleResult now tid resp storage (htexts _ (by simp [hlive, hcode]))
            · exact .pure trivial
      | none =>
          simp only [hparse] at htexts
          simp only [pollOnce, hparse]
          split
          · rename_i hcode
            exact confines_settleResult now tid resp storage (htexts _ (by simp [hcode]))
          · rename_i hcode
            split
            · rename_i hmessage
              apply (confines_ensureTaskReached now tid _ _ (.fixed (by simp [fixedTexts]))).bind
              intro _ _
              refine (confines_transitionTaskStatus now tid _ _ _ ?_).bind fun _ _ => .pure trivial
              exact htexts _ (by simp [hcode, hmessage])
            · exact .pure trivial

theorem confines_waitTaskResult (tid : String) (polls : List Poll)
    (htexts : ∀ poll ∈ polls, ∀ text ∈ pollTexts tid poll, NamesOwnKey listed tid text) :
    Confines listed (fun _ => True) (waitTaskResult tid polls) := by
  induction polls with
  | nil => exact .pure trivial
  | cons poll polls ih =>
      apply (confines_pollOnce tid poll (htexts poll (by simp))).bind
      intro result _
      cases result with
      | again => exact ih fun poll hpoll => htexts poll (List.mem_cons_of_mem _ hpoll)
      | ended artifact analysis => exact .pure trivial

theorem confines_dispatchNewTask (task : HotmethodTask) (created queued : String)
    (rejection : Option String) (hinfo : NamesOwnKey listed task.tid task.statusInfo)
    (hqueued : NamesOwnKey listed task.tid queued)
    (hrejection : ∀ reason, rejection = some reason → NamesOwnKey listed task.tid reason) :
    Confines listed (fun _ => True) (dispatchNewTask task created queued rejection) := by
  unfold dispatchNewTask
  refine (confines_update ?_).bind ?_
  · intro db db' hdb hcreate
    exact hdb.createTask hcreate hinfo
  intro inserted _
  split
  · exact .pure trivial
  apply (confines_recordStateChange _ _ _ _ _ _).bind
  intro _ _
  cases rejection with
  | some reason =>
      refine (confines_updateTask task.tid _ ?_ ?_).bind fun _ _ => ?_
      · exact fun _ => rfl
      · exact fun _ _ => hrejection reason rfl
      · exact (confines_recordStateChange _ _ _ _ _ _).bind fun _ _ => .pure trivial
  | none => exact (confines_updateTaskStatusInfo _ _ hqueued).bind fun _ _ => .pure trivial

theorem confines_createTaskInternal (now : ℤ) (tid uid userName : String) (req : CreateTaskReq)
    (dispatch : RpcReply)
    (hrejection : ∀ reason, dispatch.rejection = some reason → NamesOwnKey listed tid reason) :
    Confines listed (fun _ => True) (createTaskInternal now tid uid userName req dispatch) := by
  unfold createTaskInternal
  apply (confines_canAccessAgentIP uid req.targetIp).bind
  intro allowed _
  split
  · exact .pure trivial
  split
  · exact .pure trivial
  have hqueued : NamesOwnKey listed tid "queued in drop_server" := .fixed (by simp [fixedTexts])
  apply (confines_dispatchNewTask (newTask now tid uid userName req) _ _ _ (.empty tid) hqueued
    hrejection).bind
  intro inserted _
  split <;> exact .pure trivial

theorem confines_retryTask (now : ℤ) (uid userName tid newTid : String) (dispatch : RpcReply)
    (hrejection : ∀ reason, dispatch.rejection = some reason → NamesOwnKey listed newTid reason) :
    Confines listed (fun _ => True) (retryTask now uid userName tid newTid dispatch) := by
  unfold retryTask
  apply (confines_checkTaskAccess uid tid false).bind
  rintro (_ | task) _
  · exact .pure trivial
  dsimp only
  split
  · exact .pure trivial
  have hqueued : NamesOwnKey listed newTid "queued in drop_server" := .fixed (by simp [fixedTexts])
  apply (confines_dispatchNewTask (newTask now newTid uid userName _) _ _ _ (.empty newTid) hqueued
    hrejection).bind
  intro inserted _
  split <;> exact .pure trivial

theorem confines_executeScheduledTask (now : ℤ) (newTid : String) (schedule : HotmethodTask)
    (dispatch : RpcReply) (hrejection : ∀ reason, dispatch.cronRejection = some reason →
      NamesOwnKey listed newTid reason) :
    Confines listed (fun _ => True) (executeScheduledTask now newTid schedule dispatch) := by
  have hqueued : NamesOwnKey listed newTid "queued in drop_server (cron)" :=
    .fixed (by simp [fixedTexts])
  unfold executeScheduledTask
  refine Confines.bind (Q := fun _ => True) ?_ fun _ _ => .pure trivial
  exact confines_dispatchNewTask (scheduledTask now newTid schedule) _ _ _ (.empty newTid) hqueued
    hrejection

theorem confines_updateAnalysisStatusInfo (tid reason : String)
    (hreason : NamesOwnKey listed tid reason) :
    Confines listed (fun _ => True) (updateAnalysisStatusInfo tid reason) := by
  unfold updateAnalysisStatusInfo
  split
  · exact .pure trivial
  apply (confines_firstTask tid false).bind
  rintro (_ | task) htask
  · exact .pure trivial
  refine (confines_updateTask tid _ ?_ ?_).bind fun _ _ => .pure trivial
  · exact fun _ => rfl
  · exact fun _ _ => (htask task rfl).2.merge hreason

theorem confines_transitionAnalysisStatus (assigns : Bool) (tid : String) (toState : ℤ)
    (reason : String) (hreason : NamesOwnKey listed tid reason) :
    Confines listed (fun _ => True) (transitionAnalysisStatus assigns tid toState reason) := by
  unfold transitionAnalysisStatus
  apply (confines_firstTask tid false).bind
  rintro (_ | task) htask
  · exact .pure trivial
  dsimp only
  split
  · split
    · exact confines_updateAnalysisStatusInfo tid reason hreason
    · exact .pure trivial
  · refine (confines_update ?_).bind fun _ _ => .pure trivial
    intro db db' hdb hchange
    obtain rfl := Option.some.inj hchange
    refine Confined.updateTask hdb tid _ ?_ ?_
    · exact fun _ => rfl
    · exact fun _ _ => (htask task rfl).2.merge hreason

theorem confines_updateAnalysisStatus (assigns : Bool) (uid tid : String) (analysisStatus : ℤ)
    (statusInfo : String) (htext : NamesOwnKey listed tid statusInfo) :
    Confines listed (fun _ => True)
      (updateAnalysisStatus assigns uid tid analysisStatus statusInfo) := by
  unfold updateAnalysisStatus
  apply (confines_checkTaskAccess uid tid false).bind
  rintro (_ | task) _
  · exact .pure trivial
  apply (confines_firstTask tid false).bind
  rintro (_ | task) _
  · exact .pure trivial
  exact (confines_transitionAnalysisStatus assigns tid analysisStatus statusInfo htext).bind
    fun _ _ => .pure trivial

theorem confines_runAnalysis (tid : String) (failure : Option (String × String))
    (htext : ∀ error stderr, failure = some (error, stderr) → NamesOwnKey listed tid
      ("analysis failed: " ++ error ++ ", stderr: " ++ stderr)) :
    Confines listed (fun _ => True) (runAnalysis tid failure) := by
  unfold runAnalysis
  rcases failure with _ | ⟨error, stderr⟩
  · exact .pure trivial
  apply (confines_firstTask tid false).bind
  rintro (_ | task) _
  · exact .pure trivial
  dsimp only
  split
  · refine (confines_updateTask tid _ ?_ ?_).bind fun _ _ => ?_
    · exact fun _ => rfl
    · exact fun _ _ => htext error stderr rfl
    · exact confines_recordStateChange _ _ _ _ _ _
  · exact .pure trivial

theorem confines_triggerAnalysis (assigns analysisConfigured : Bool) (uid tid : String) :
    Confines listed (fun _ => True) (triggerAnalysis assigns analysisConfigured uid tid) := by
  unfold triggerAnalysis
  apply (confines_checkTaskAccess uid tid false).bind
  rintro (_ | task) _
  · exact .pure trivial
  dsimp only
  split
  · exact .pure trivial
  split
  · exact .pure trivial
  split
  · exact .pure trivial
  exact (confines_transitionAnalysisStatus assigns tid _ _ (.fixed (by simp [fixedTexts]))).bind
    fun _ _ => .pure trivial

theorem Confined.softDelete {db : Database} (h : Confined listed db) (tid : String)
    (hides : HotmethodTask → Bool) : Confined listed (softDelete tid hides db).2 := by
  unfold MiniDrop.softDelete
  split
  · exact h
  split
  · refine h.updateTask tid _ ?_ ?_
    · exact fun _ => rfl
    · exact fun _ hold => hold
  · exact h

theorem confines_deleteTask (uid tid : String) :
    Confines listed (fun _ => True) (deleteTask uid tid) := by
  unfold deleteTask
  apply (confines_checkTaskAccess uid tid false).bind
  rintro (_ | task) _
  · exact .pure trivial
  apply (confines_transact fun db hdb => hdb.softDelete tid _).bind
  rintro (_ | _ | _) _ <;> exact .pure trivial

theorem confines_deleteScheduleTask (uid tid : String) :
    Confines listed (fun _ => True) (deleteScheduleTask uid tid) := by
  unfold deleteScheduleTask
  apply (confines_transact fun db hdb => hdb.softDelete tid _).bind
  rintro (_ | _ | _) _ <;> exact .pure trivial

theorem confines_createScheduleTask (tid uid userName : String) (req : CreateScheduleReq)
    (cronError : Option String) :
    Confines listed (fun _ => True) (createScheduleTask tid uid userName req cronError) := by
  unfold createScheduleTask
  apply (confines_canAccessAgentIP uid req.targetIp).bind
  intro allowed _
  split
  · exact .pure trivial
  split
  · exact .pure trivial
  cases cronError with
  | some error => exact .pure trivial
  | none =>
      refine (confines_update ?_).bind ?_
      · intro db db' hdb hcreate
        exact hdb.createTask hcreate (.empty tid)
      · intro inserted _
        split <;> exact .pure trivial

theorem confines_createContinuousInternal (now : ℤ) (tid uid userName : String)
    (req : CreateContinuousReq) (reply : RpcReply) :
    Confines listed (fun _ => True)
      (createContinuousInternal now tid uid userName req reply) := by
  unfold createContinuousInternal
  apply (confines_canAccessAgentIP uid req.targetIp).bind
  intro allowed _
  split
  · exact .pure trivial
  cases reply with
  | notConnected => exact .pure trivial
  | failed error => exact .pure trivial
  | answered code message =>
      dsimp only
      split
      · exact .pure trivial
      refine (confines_update ?_).bind ?_
      · intro db db' hdb hcreate
        have hinfo : NamesOwnKey listed tid "continuous profiling running" :=
          .fixed (by simp [fixedTexts])
        exact hdb.createTask hcreate hinfo
      · intro inserted _
        split
        · exact .pure trivial
        · exact (confines_recordStateChange _ _ _ _ _ _).bind fun _ _ => .pure trivial

theorem confines_stopContinuousTask (now : ℤ) (uid tid : String) (reply : RpcReply) :
    Confines listed (fun _ => True) (stopContinuousTask now uid tid reply) := by
  unfold stopContinuousTask
  apply (confines_checkTaskAccess uid tid _).bind
  rintro (_ | task) _
  · exact .pure trivial
  cases reply with
  | notConnected => exact .pure trivial
  | failed error => exact .pure trivial
  | answered code message =>
      dsimp only
      split
      · exact .pure trivial
      have hstopped : NamesOwnKey listed tid "用户停止" := .fixed (by simp [fixedTexts])
      refine (confines_updateTask tid _ ?_ ?_).bind fun _ _ => ?_
      · exact fun _ => rfl
      · exact fun _ _ => hstopped
      split
      · exact (confines_recordStateChange _ _ _ _ _ _).bind fun _ _ => .pure trivial
      · exact .pure trivial

theorem namesOwnKey_windowOutcome (tid : String) (w : ContinuousWindowInfo) :
    NamesOwnKey listed tid (windowOutcome w).2 := by
  unfold windowOutcome
  split <;> exact .fixed (by simp [fixedTexts])

theorem confines_ensureContinuousWindowTask (assigns : Bool) (parent : HotmethodTask)
    (w : ContinuousWindowInfo) :
    Confines listed (fun _ => True) (ensureContinuousWindowTask assigns parent w) := by
  unfold ensureContinuousWindowTask
  dsimp only
  split
  · exact .pure trivial
  split
  · exact .pure trivial
  apply (confines_firstTask w.windowTid true).bind
  rintro ((_ | _) | existing) _
  · refine (confines_update ?_).bind ?_
    · intro db db' hdb hcreate
      exact hdb.createTask hcreate (namesOwnKey_windowOutcome _ w)
    · intro inserted _
      split
      · exact .pure trivial
      · exact (confines_recordStateChange _ _ _ _ _ _).bind fun _ _ => .pure trivial
  · exact .pure trivial
  · dsimp only
    generalize (if assigns then updateWindowTask parent w existing existing else existing) = updated
    refine (confines_updateTask w.windowTid _ ?_ ?_).bind ?_
    · exact fun _ => rfl
    · exact fun _ _ => namesOwnKey_windowOutcome _ w
    · intro done _
      split
      · exact .pure trivial
      split
      · exact (confines_recordStateChange _ _ _ _ _ _).bind fun _ _ => .pure trivial
      · exact .pure trivial

theorem confines_storeWindow (tid : String) (w : ContinuousWindowInfo) :
    Confines listed (fun _ => True) (storeWindow tid w) := by
  unfold storeWindow
  apply (confines_read _ _).bind
  rintro (_ | _ | existing) _
  · exact .pure trivial
  all_goals
    refine (confines_update ?_).bind fun _ _ => .pure trivial
    intro db db' hdb hchange
  · split at hchange
    · cases hchange
    · obtain rfl := Option.some.inj hchange
      exact hdb
  · obtain rfl := Option.some.inj hchange
    exact hdb

theorem confines_getContinuousWindows (assigns analysisConfigured : Bool) (uid tid : String)
    (reply : Option (List ContinuousWindowInfo)) (earliest latest : Option ℤ) :
    Confines listed (fun _ => True)
      (getContinuousWindows assigns analysisConfigured uid tid reply earliest latest) := by
  have hsync : ∀ parent windows, Confines listed (fun _ => True)
      (syncWindows assigns analysisConfigured parent windows) := by
    intro parent windows
    induction windows with
    | nil => exact .pure trivial
    | cons w windows ih =>
        refine Confines.bind (Q := fun _ => True) ?_ fun started _ =>
          ih.bind fun others _ => .pure trivial
        unfold syncWindow
        apply (confines_storeWindow parent.tid w).bind
        rintro (_ | ⟨windowCreated, previousStatus⟩) _
        · exact .pure trivial
        apply (confines_ensureContinuousWindowTask assigns parent w).bind
        rintro (_ | ⟨childTask, childCreated⟩) _ <;> exact .pure trivial
  unfold getContinuousWindows
  apply (confines_checkTaskAccess uid tid false).bind
  rintro (_ | task) _
  · exact .pure trivial
  apply (hsync _ _).bind
  intro analysed _
  exact (confines_read _ _).bind fun _ _ => .pure trivial

/-- A request whose texts name listed keys keeps the tables confined. -/
theorem confines_program (assigns analysisConfigured : Bool) (request : Request)
    (htexts : ∀ entry ∈ request.texts, NamesOwnKey listed entry.1 entry.2) :
    Confines listed (fun _ => True) (request.program assigns analysisConfigured) := by
  have hend : ∀ {α : Type} {p : Statements α}, Confines listed (fun _ => True) p →
      Confines listed (fun _ => True) (do let _ ← p : Statements Unit) := by
    intro α p hp
    exact hp.bind fun _ _ => .pure trivial
  cases request with
  | createTask now tid uid userName req dispatch =>
      refine hend (confines_createTaskInternal now tid uid userName req dispatch ?_)
      intro reason hreason
      exact htexts (tid, reason) (by simp [Request.texts, hreason])
  | retryTask now uid userName tid newTid dispatch =>
      refine hend (confines_retryTask now uid userName tid newTid dispatch ?_)
      intro reason hreason
      exact htexts (newTid, reason) (by simp [Request.texts, hreason])
  | waitTaskResult tid polls =>
      refine hend (confines_waitTaskResult tid polls ?_)
      intro poll hpoll text htext
      apply htexts (tid, text)
      simp only [Request.texts, List.mem_map, List.mem_flatMap]
      exact ⟨text, ⟨poll, hpoll, htext⟩, rfl⟩
  | triggerAnalysis uid tid => exact hend (confines_triggerAnalysis assigns _ uid tid)
  | runAnalysis tid failure =>
      refine confines_runAnalysis tid failure ?_
      intro error stderr hfailure
      exact htexts (tid, _) (by simp [Request.texts, hfailure])
  | updateAnalysisStatus uid tid analysisStatus statusInfo =>
      refine hend (confines_updateAnalysisStatus assigns uid tid analysisStatus statusInfo ?_)
      exact htexts (tid, statusInfo) (by simp [Request.texts])
  | deleteTask uid tid => exact hend (confines_deleteTask uid tid)
  | createContinuousTask now tid uid userName req reply =>
      exact hend (confines_createContinuousInternal now tid uid userName req reply)
  | getContinuousWindows uid tid reply earliest latest =>
      exact hend (confines_getContinuousWindows assigns _ uid tid reply earliest latest)
  | stopContinuousTask now uid tid reply =>
      exact hend (confines_stopContinuousTask now uid tid reply)
  | createScheduleTask tid uid userName req cronError =>
      exact hend (confines_createScheduleTask tid uid userName req cronError)
  | executeScheduledTask now newTid schedule dispatch =>
      refine confines_executeScheduledTask now newTid schedule dispatch ?_
      intro reason hreason
      exact htexts (newTid, reason) (by simp [Request.texts, hreason])
  | deleteScheduleTask uid tid => exact hend (confines_deleteScheduleTask uid tid)
  | changeGroups agents members =>
      refine hend (confines_update ?_)
      intro db db' hdb hchange
      obtain rfl := Option.some.inj hchange
      exact hdb

end Writers

/-! ## The requests for artifacts -/

section Readers

variable {listed : List (String × String)} {db : Database} {uid tid key : String}

/-- An undisturbed run ends with such a result. -/
theorem Confines.run {α : Type} {Q : α → Prop} {p : Statements α} (h : Confines listed Q p)
    (hdb : Confined listed db) : Q (p.run db).1 := by
  obtain ⟨_, hresult⟩ := Program.Follows.run_spec h (fun _ _ _ _ _ _ hs => hs) hdb
  exact hresult

theorem key_of_isTaskArtifactKey {task : HotmethodTask} (htid : task.tid = tid)
    (hnames : NamesOwnKey listed tid task.statusInfo) (h : isTaskArtifactKey task key = true) :
    OwnKey tid key ∨ (tid, key) ∈ listed := by
  subst htid
  unfold isTaskArtifactKey at h
  split at h
  · cases h
  rename_i hne
  split at h
  · exact .inl ‹_›
  · have hkey : key = extractCollectorResultKey task.statusInfo := by simpa using h
    rcases hnames with hempty | hown | hlisted
    · exact absurd (hkey.trans hempty) hne
    · exact .inl (hkey ▸ hown)
    · exact .inr (hkey ▸ hlisted)

theorem hasPrefix_append (start name : String) : hasPrefix (start ++ name) start := by
  simp [hasPrefix]

theorem hasPrefix_of_mem_list {store : Option ObjectStore} {start : String}
    (h : key ∈ listStorageObjects store start) : hasPrefix key start := by
  unfold listStorageObjects at h
  split at h
  · cases h
  split at h
  · obtain ⟨name, -, rfl⟩ := List.mem_map.mp (List.mem_filter.mp h).1
    exact hasPrefix_append start name
  · simpa using (List.mem_filter.mp h).2

theorem key_of_mem_taskObjects {store : Option ObjectStore} {statusInfo : String}
    (hnames : NamesOwnKey listed tid statusInfo) (h : key ∈ taskObjects store tid statusInfo) :
    OwnKey tid key ∨ (tid, key) ∈ listed := by
  have hobjects : key ∈ listStorageObjects store ("profiler/" ++ tid ++ "/") ++
      listStorageObjects store (tid ++ "/") → OwnKey tid key := by
    intro hmem
    rcases List.mem_append.mp hmem with hmem | hmem
    · exact .inr (hasPrefix_of_mem_list hmem)
    · exact .inl (hasPrefix_of_mem_list hmem)
  unfold taskObjects at h
  dsimp only at h
  split at h
  · rename_i hne
    have hcases : key ∈ listStorageObjects store ("profiler/" ++ tid ++ "/") ++
        listStorageObjects store (tid ++ "/") ∨ key = extractCollectorResultKey statusInfo := by
      unfold appendUnique at h
      split at h
      · exact .inl h
      · simpa [or_assoc] using h
    rcases hcases with hmem | rfl
    · exact .inl (hobjects hmem)
    · rcases hnames with hempty | hown | hlisted
      · exact absurd hempty hne
      · exact .inl hown
      · exact .inr hlisted
  · exact .inl (hobjects h)

theorem mem_of_mem_presignAll {presign : String → Option String} {objects : List String}
    (h : key ∈ (presignAll presign objects).map Prod.fst) : key ∈ objects := by
  obtain ⟨⟨_, url⟩, hmem, rfl⟩ := List.mem_map.mp h
  obtain ⟨object, hobject, hurl⟩ := List.mem_filterMap.mp hmem
  obtain ⟨_, -, heq⟩ := Option.map_eq_some_iff.mp hurl
  rw [← (Prod.mk.inj heq).1]
  exact hobject

/-- The requests for artifacts serve keys of the task and listed ones. -/
theorem key_of_serves (hdb : Confined listed db) (h : Serves db uid tid key) :
    OwnKey tid key ∨ (tid, key) ∈ listed := by
  cases h with
  | artifact query h =>
      have hartifact : Confines listed (fun answer => ∀ key, answer = .reads key →
          OwnKey tid key ∨ (tid, key) ∈ listed) (getTaskArtifact uid tid query) := by
        unfold getTaskArtifact
        dsimp only
        split
        · exact .pure (by simp)
        apply (confines_checkTaskAccess uid tid false).bind
        rintro (_ | task) htask
        · exact .pure (by simp)
        obtain ⟨htid, hnames⟩ := htask task rfl
        dsimp only
        split
        · exact .pure (by simp)
        · rename_i hkey
          apply Confines.pure
          rintro key ⟨⟩
          exact key_of_isTaskArtifactKey htid hnames (by simpa using hkey)
      exact hartifact.run hdb key h
  | detail store presign detail h hkey =>
      have hdetail : Confines listed (fun answer => ∀ detail, answer = .ok detail →
          ∀ key ∈ detail.cosFiles.map Prod.fst, OwnKey tid key ∨ (tid, key) ∈ listed)
          (getTaskDetail store presign uid tid) := by
        unfold getTaskDetail
        apply (confines_firstTask tid false).bind
        rintro ((_ | _) | task) htask
        · exact .pure (by simp)
        · exact .pure (by simp)
        apply (confines_mayAccess _ uid task).bind
        rintro (_ | _) _
        · exact .pure (by simp)
        apply (confines_read _ _).bind
        intro stateHistory _
        apply Confines.pure
        rintro detail ⟨⟩ key hkey
        dsimp only at hkey
        split at hkey
        · exact key_of_mem_taskObjects (htask task rfl).2 (mem_of_mem_presignAll hkey)
        · cases hkey
      exact hdetail.run hdb detail h key hkey
  | cosFiles store presign files h hkey =>
      have hfiles : Confines listed (fun answer => ∀ files, answer = .ok files →
          ∀ key ∈ files.map Prod.fst, OwnKey tid key ∨ (tid, key) ∈ listed)
          (getCOSFiles store presign uid tid) := by
        unfold getCOSFiles
        split
        · exact .pure (by simp)
        apply (confines_firstTask tid false).bind
        rintro (_ | task) htask
        · exact .pure (by simp)
        apply (confines_mayAccess _ uid task).bind
        rintro (_ | _) _
        · exact .pure (by simp)
        apply Confines.pure
        rintro files ⟨⟩ key hkey
        exact key_of_mem_taskObjects (htask task rfl).2 (mem_of_mem_presignAll hkey)
      exact hfiles.run hdb files h key hkey

end Readers

/-! ## Runs -/

/-- The tables stay confined, whatever the interleaving. -/
def confining (listed : List (String × String)) : Pool.Discipline Mark Database Unit where
  toContract := confinement listed
  initial := ()
  final _ := True
  admits _ _ _ := True
  fits _ db := Confined listed db
  fits_start _ _ h := h
  fits_knows _ _ _ _ _ h _ := h
  fits_advance _ _ _ _ _ _ _ _ _ _ _ _ hallows _ := hallows

/-- Only requests begin whose texts name no foreign key; every statement may fail. -/
abbrev StartsOwnKeys : ServerPool → Pool.Event Request → Prop :=
  Pool.Permits Request.NamesOwnKeys (fun _ _ _ => True) fun _ => True

/-- Runs of such requests make no foreign key readable. -/
theorem confinesArtifacts_of_startsOwnKeys (assigns analysisConfigured : Bool) :
    ConfinesArtifacts assigns analysisConfigured StartsOwnKeys := by
  intro db pool hempty hreach uid tid key hserves
  have hinit : Confined pool.returnedKeys db := by
    intro t row hrow
    rw [hempty t] at hrow
    cases hrow
  have hconforms := Pool.Conforms.of_reachable (d := confining pool.returnedKeys) hinit
    (fun request hrequest => ?_) (Pool.reachable_started hreach)
  · obtain ⟨slots, -, hfits, -⟩ := hconforms
    exact key_of_serves hfits hserves
  · apply (confines_program assigns analysisConfigured request _ : Confines _ _ _)
    intro entry hentry
    apply (hrequest.1 entry hentry).mono
    intro listedKey hkey
    exact List.mem_flatMap.mpr ⟨request, hrequest.2, hkey⟩

/-- The owner of a task sets its analysis status and names an object of another task. -/
def foreignStatusInfo : List (Pool.Event Request) :=
  [.start (.createTask 0 "t" "u" "user" ⟨"n", 0, 0, "a", 1, 10, 0, "", false, ""⟩
      (.answered 0 "OK")),
    .advance 0 false, .advance 0 false, .advance 0 false, .advance 0 false, .advance 0 false,
    .start (.updateAnalysisStatus "u" "t" 2 "collector result ready: profiler/other/secret.html"),
    .advance 1 false, .advance 1 false, .advance 1 false, .advance 1 false]

/-- Then the object of the other task is read through his own one. -/
theorem not_confinesArtifacts_foreignStatusInfo :
    ¬ ConfinesArtifacts true true fun _ _ => True := by
  intro h
  have hkey := h { agents := [{ ipAddr := "a" }] }
    (Transition.after (Pool.step (Request.program true true))
      { store := { agents := [{ ipAddr := "a" }] } } foreignStatusInfo)
    (fun tid => Std.ExtTreeMap.getElem?_empty)
    (Transition.Along.reachable (by decide +kernel) (by decide +kernel))
    "u" "t" "profiler/other/secret.html"
    (.artifact "profiler/other/secret.html" (by decide +kernel))
  exact absurd hkey (by decide +kernel)

end MiniDrop
