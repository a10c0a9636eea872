import MiniDrop.Library.Runs
import MiniDrop.Verification.Api.StatusMoves

/-! # The audit trail of task statuses

The rows of a task lead from its creation to its stored status whenever no operation is under
way, provided that no operation writes the status between the read and the last row of another
one, and that no write fails whose failure the code does not check. -/

namespace MiniDrop

/-- The history of `t` leads from its creation to the stored status. -/
structure Audited (db : Database) (t : String) : Prop where
  begins : ∀ row ∈ (db.taskRows t).head?, row.fromState = -1
  contiguous : (db.taskRows t).IsChain fun a b => a.toState = b.fromState
  current : (db.taskRows t).getLast?.map TaskStateHistory.toState =
    (db.tasks[t]?).map fun task => normalizeTaskStatus task.status

/-- In all runs whose steps satisfy `ok`, from a database that stores normalized statuses, the
history of `t` stays complete. -/
def KeepsAudit (assigns analysisConfigured : Bool) (t : String)
    (ok : ApiPool → Pool.Event StatusOperation → Prop) : Prop :=
  ∀ (db : Database) (pool : ApiPool), Audited db t → (∀ task ∈ db.tasks[t]?, Normal task.status) →
    Transition.Reachable (Pool.step (StatusOperation.program assigns analysisConfigured)) ok
      { store := db } pool →
    pool.Quiet → Audited pool.store t

/-! ## Single statements -/

section Statements

variable (t : String) {α β : Type}

/-- An operation, or a part of it, that leaves nothing to be written for `t`. -/
def Obeys (p : Statements α) : Prop := p.Follows (contract t) (fun φ _ => φ = .free) .free

/-- The phase of an operation that knows the status of `u`. -/
def stage (u : String) (holds : Bool) (status : ℤ) : Phase :=
  if u = t ∧ holds = true then .seen status else .free

/-- The phase of an operation that has written the status of `u`. -/
def due (u : String) (holds : Bool) (fromState toState : ℤ) : Phase :=
  if u = t ∧ holds = true then .owes fromState toState else .free

theorem not_owing_stage (u : String) (holds : Bool) (status : ℤ) :
    ¬ (stage t u holds status).Owing := by
  unfold stage
  split <;> exact id

variable {t}

theorem Obeys.pure (result : α) : Obeys t (Pure.pure result) := rfl

theorem Obeys.bind {p : Statements α} {k : α → Statements β} (h : Obeys t p)
    (hk : ∀ result, Obeys t (k result)) : Obeys t (p >>= k) := by
  apply Program.Follows.bind h
  rintro φ result rfl
  exact hk result

theorem move_same {mark : Mark} {db db' : Database} {φ φ' : Phase} (hφ : ¬ φ.Owing)
    (hview : db'.view t = db.view t) (h : φ' = .free ∨ φ' = φ ∧ StandsAt t (some mark)) :
    Move t mark db db' φ φ' := by
  rcases h with rfl | ⟨rfl, hstands⟩
  · exact .rest hφ hview
  · cases φ' with
    | free => exact .rest hφ hview
    | seen status => exact .keep hstands hview
    | owes fromState toState => exact (hφ trivial).elim

/-- A query may be answered with keeping in mind what is known. -/
theorem follows_query {mark : Mark} {read : Database → β} {φ : Phase} (hφ : ¬ φ.Owing)
    (next : Option β → Phase)
    (hnext : ∀ answer, next answer = .free ∨ next answer = φ ∧ StandsAt t (some mark)) :
    (Program.query mark read).Follows (contract t) (fun φ' answer => φ' = next answer) φ := by
  intro db _
  exact ⟨⟨next (some (read db)), move_same hφ rfl (hnext _), rfl⟩,
    fun _ => ⟨next none, move_same hφ rfl (hnext _), rfl⟩⟩

theorem obeys_query (mark : Mark) (read : Database → β) : Obeys t (Program.query mark read) :=
  follows_query id (fun _ => .free) fun _ => .inl rfl

/-- A statement that does not touch the status and the history of `t`. -/
theorem obeys_update {mark : Mark} {change : Database → Option Database}
    (hview : ∀ db db', change db = some db' → db'.view t = db.view t) :
    Obeys t (Program.update mark change) := by
  intro db _
  refine ⟨⟨.free, .rest id ?_, rfl⟩, fun _ => ⟨.free, .rest id rfl, rfl⟩⟩
  cases hchange : change db with
  | none => simp [hchange]
  | some db' => simpa [hchange] using hview db db' hchange

theorem follows_firstTask (u : String) (holds : Bool) :
    (firstTask u holds).Follows (contract t)
      (fun φ result => φ = match result with
        | .ok task => stage t u holds task.status
        | .error _ => .free) .free := by
  intro db _
  refine ⟨?_, fun _ => ⟨.free, .rest id rfl, rfl⟩⟩
  dsimp only [id]
  cases hrow : db.task? u with
  | none => exact ⟨.free, .rest id rfl, rfl⟩
  | some task =>
      refine ⟨stage t u holds task.status, ?_, rfl⟩
      unfold stage
      split
      · rename_i h
        obtain ⟨rfl, rfl⟩ := h
        apply Move.read _ rfl
        · simp [Database.view, hrow]
        · exact ⟨_, rfl, rfl, rfl⟩
      · exact .rest id rfl

theorem follows_recordStateChange (u : String) (fromState toState : ℤ) (reason : String)
    (holds : Bool) :
    (recordStateChange u fromState toState reason changeTypeTask holds).Follows (contract t)
      (fun φ _ => φ = stage t u holds toState) (due t u true fromState toState) := by
  intro db _
  by_cases h : u = t
  · subst h
    refine ⟨⟨stage u u holds toState, ?_, rfl⟩, fun hchecked => nomatch hchecked rfl⟩
    have hview := db.view_addHistory (t := u) ⟨u, fromState, toState, reason, changeTypeTask⟩
    rw [if_pos ⟨rfl, rfl⟩] at hview
    cases holds with
    | true =>
        simp only [stage, due, and_self, if_true]
        exact .recordAndHold rfl rfl ⟨_, rfl, rfl, rfl⟩ hview
    | false =>
        simp only [stage, due, and_self, if_true, and_false, if_false, Bool.false_eq_true]
        exact .record rfl rfl hview
  · simp only [stage, due, h, false_and, if_false]
    refine ⟨⟨.free, .rest id ?_, rfl⟩, fun _ => ⟨.free, .rest id rfl, rfl⟩⟩
    have hview := db.view_addHistory (t := t) ⟨u, fromState, toState, reason, changeTypeTask⟩
    simpa [h] using hview

/-- A status is written outside of a transaction. -/
theorem follows_writeStatus (u : String) (fromState toState : ℤ) (hnormal : Normal toState)
    {holds unchecked unrecorded : Bool} (hholds : holds = false → unrecorded = false →
      fromState = toState) (change : HotmethodTask → HotmethodTask)
    (hkeep : ∀ row, (change row).deleted = row.deleted)
    (hstatus : ∀ row, (change row).status = toState) :
    (Program.update { tid := some u, writes := true, holds, unchecked, unrecorded } fun db =>
        some (db.updateTask u change) : Statements Bool).Follows (contract t)
      (fun φ done => φ = if done || unchecked then due t u holds fromState toState else .free)
      (stage t u true fromState) := by
  intro db hknows
  by_cases h : u = t
  · subst h
    simp only [contract, stage, and_self, if_true] at hknows ⊢
    obtain ⟨hfound, -⟩ := hknows fromState rfl
    have hview := db.view_updateTask hfound change hkeep hstatus
    constructor
    · refine ⟨due u u holds fromState toState, ?_, rfl⟩
      cases holds with
      | true =>
          simp only [due, and_self, if_true]
          exact .write ⟨rfl, rfl⟩ ⟨_, rfl, rfl, rfl⟩ hnormal hview
      | false =>
          simp only [due, and_false, if_false, Bool.false_eq_true]
          cases unrecorded with
          | true => exact .lapse ⟨rfl, rfl⟩ rfl
          | false =>
              refine .change [] ⟨rfl, rfl⟩ hnormal ?_ ?_
              · rw [if_pos (hholds rfl rfl)]
              · rw [Option.getD_some, hview, List.append_nil]
    · intro hchecked
      refine ⟨.free, .rest id rfl, ?_⟩
      rw [show unchecked = false from hchecked rfl]
      rfl
  · simp only [stage, due, h, false_and, if_false, ite_self]
    exact ⟨⟨.free, .rest id (db.view_updateTask_ne h change), rfl⟩,
      fun _ => ⟨.free, .rest id rfl, rfl⟩⟩

theorem follows_createTask (u : String) (status : ℤ) (hnormal : Normal status)
    (task : HotmethodTask) (hu : task.tid = u) (hstatus : task.status = status)
    (hdeleted : task.deleted = false) :
    (Program.update { tid := some u, writes := true, holds := true } fun db =>
        db.createTask task : Statements Bool).Follows (contract t)
      (fun φ done => φ = if done then due t u true (-1) status else .free) .free := by
  subst hu hstatus
  intro db _
  refine ⟨?_, fun _ => ⟨.free, .rest id rfl, rfl⟩⟩
  dsimp only
  cases hcreate : db.createTask task with
  | none => exact ⟨.free, .rest id rfl, rfl⟩
  | some db' =>
      refine ⟨due t task.tid true (-1) task.status, ?_, rfl⟩
      by_cases h : task.tid = t
      · subst h
        obtain ⟨hstored, hview⟩ := db.view_createTask hdeleted hcreate
        simp only [due, and_self, if_true]
        exact .create ⟨rfl, rfl⟩ ⟨_, rfl, rfl, rfl⟩ hnormal hstored hview
      · simp only [due, h, false_and, if_false]
        exact .rest id (db.view_createTask_ne h hcreate)

end Statements

/-! ## The operations -/

section Operations

variable (t : String)

/-- The transaction writes the status and, where it changes, the row. -/
theorem move_applyTransition {db : Database} (now : ℤ) (tid : String) (task : HotmethodTask)
    (toState : ℤ) (reason : String) (endTime : Option ℤ)
    (hknows : (contract t).knows (stage t tid true task.status) db) :
    Move t { tid := some tid, writes := true } db
      (applyTransition now tid task (normalizeTaskStatus task.status)
        (normalizeTaskStatus toState) reason endTime db)
      (stage t tid true task.status) .free := by
  have hnormal := normal_normalize toState
  generalize normalizeTaskStatus toState = toState at hnormal ⊢
  unfold applyTransition
  dsimp only
  generalize hchange : (fun row : HotmethodTask =>
    { row with
      status := toState
      statusInfo := reason
      beginTime := if toState = taskStatusRunning ∧ task.beginTime = none then some now
        else row.beginTime
      endTime := endTime.or row.endTime }) = change
  have hkeep : ∀ row, (change row).deleted = row.deleted := by
    subst hchange
    exact fun _ => rfl
  have hstatus : ∀ row, (change row).status = toState := by
    subst hchange
    exact fun _ => rfl
  by_cases h : tid = t
  · subst h
    simp only [contract, stage, and_self, if_true] at hknows ⊢
    obtain ⟨hfound, hstored⟩ := hknows task.status rfl
    have hview := db.view_updateTask hfound change hkeep hstatus
    rw [show normalizeTaskStatus task.status = task.status from hstored]
    split
    · rename_i hne
      refine .change [⟨tid, task.status, toState, reason, changeTypeTask⟩] ⟨rfl, rfl⟩ hnormal
        ?_ ?_
      · rw [if_neg hne]
        exact ⟨_, rfl, rfl, rfl⟩
      · simp [Database.view_addHistory, hview]
    · rename_i heq
      refine .change [] ⟨rfl, rfl⟩ hnormal ?_ ?_
      · rw [if_pos (Classical.not_not.mp heq)]
      · rw [hview, List.append_nil]
  · simp only [stage, h, false_and, if_false]
    apply Move.rest id
    split
    · simp [Database.view_addHistory, h, db.view_updateTask_ne h change]
    · exact db.view_updateTask_ne h change

theorem obeys_transitionTaskStatus (now : ℤ) (tid : String) (toState : ℤ) (reason : String)
    (endTime : Option ℤ) : Obeys t (transitionTaskStatus now tid toState reason endTime) := by
  unfold transitionTaskStatus
  apply (follows_firstTask tid true).bind
  rintro φ (err | task) rfl
  · rfl
  · intro db hknows
    constructor
    · exact ⟨.free, move_applyTransition t now tid task toState reason endTime hknows, rfl⟩
    · intro _
      exact ⟨.free, .rest (not_owing_stage t tid true task.status) rfl, rfl⟩

theorem obeys_syncDropTaskStatus (now : ℤ) (tid : String) (status : ℤ) (reason : String) :
    Obeys t (syncDropTaskStatus now tid status reason) := by
  unfold syncDropTaskStatus
  dsimp only
  split
  · exact obeys_transitionTaskStatus t now tid _ reason _
  · split <;> exact obeys_transitionTaskStatus t now tid _ reason _

theorem obeys_ensureTaskReached (now : ℤ) (tid : String) (state : ℤ) (reason : String) :
    Obeys t (ensureTaskReached now tid state reason) := by
  unfold ensureTaskReached
  apply (follows_firstTask tid false).bind
  rintro φ (err | task) rfl
  · rfl
  · simp only [stage, Bool.false_eq_true, and_false, if_false]
    split
    · exact obeys_transitionTaskStatus t now tid _ reason none
    · rfl

theorem obeys_updateTaskStatusInfo (tid reason : String) :
    Obeys t (updateTaskStatusInfo tid reason) := by
  refine (obeys_update ?_).bind fun _ => .pure _
  intro db db' hchange
  obtain rfl := Option.some.inj hchange
  exact db.view_updateTask_same _ (fun _ => rfl) (fun _ => rfl)

theorem obeys_settleResult (now : ℤ) (tid : String) (resp : FetchDataResponse)
    (storage : StorageReply) : Obeys t (settleResult now tid resp storage) := by
  unfold settleResult
  split
  · apply (obeys_ensureTaskReached t now tid _ _).bind
    intro _
    apply (obeys_transitionTaskStatus t now tid _ _ _).bind
    intro _
    rfl
  · apply (obeys_ensureTaskReached t now tid _ _).bind
    intro _
    apply (obeys_ensureTaskReached t now tid _ _).bind
    intro _
    apply (obeys_transitionTaskStatus t now tid _ _ _).bind
    intro _
    apply (follows_firstTask tid false).bind
    rintro φ (err | task) rfl
    · rfl
    · simp only [stage, Bool.false_eq_true, and_false, if_false]
      rfl

theorem obeys_pollOnce (tid : String) (poll : Poll) : Obeys t (pollOnce tid poll) := by
  cases poll with
  | cancelled now error =>
      exact (obeys_transitionTaskStatus t now tid _ _ _).bind fun _ => rfl
  | expired now =>
      exact (obeys_transitionTaskStatus t now tid _ _ _).bind fun _ => rfl
  | unreachable => rfl
  | fetched now resp storage =>
      simp only [pollOnce]
      split
      · apply (obeys_syncDropTaskStatus t now tid _ _).bind
        intro _
        split
        · rfl
        · split
          · exact obeys_settleResult t now tid resp storage
          · rfl
      · split
        · exact obeys_settleResult t now tid resp storage
        · split
          · apply (obeys_ensureTaskReached t now tid _ _).bind
            intro _
            exact (obeys_transitionTaskStatus t now tid _ _ _).bind fun _ => rfl
          · rfl

theorem obeys_waitTaskResult (tid : String) (polls : List Poll) :
    Obeys t (waitTaskResult tid polls) := by
  induction polls with
  | nil => rfl
  | cons poll polls ih =>
      apply (obeys_pollOnce t tid poll).bind
      intro result
      cases result with
      | again => exact ih
      | ended artifact analysis => rfl

theorem obeys_canAccessAgentIP (uid ip : String) : Obeys t (canAccessAgentIP uid ip) := by
  unfold canAccessAgentIP
  split
  · rfl
  · apply (obeys_query _ _).bind
    intro gids
    apply (obeys_query _ _).bind
    intro count
    rfl

theorem obeys_dispatchNewTask (task : HotmethodTask) (created queued : String)
    (rejection : Option String) (hstatus : task.status = taskStatusNew)
    (hdeleted : task.deleted = false) :
    Obeys t (dispatchNewTask task created queued rejection) := by
  unfold dispatchNewTask
  apply (follows_createTask task.tid taskStatusNew rfl task rfl hstatus hdeleted).bind
  rintro φ inserted rfl
  cases inserted with
  | false => rfl
  | true =>
      apply (follows_recordStateChange task.tid (-1) taskStatusNew _ _).bind
      rintro φ _ rfl
      cases rejection with
      | some reason =>
          refine (follows_writeStatus task.tid taskStatusNew taskStatusFailed rfl ?_ _ ?_ ?_).bind
            ?_
          · intro h
            cases h
          · exact fun _ => rfl
          · exact fun _ => rfl
          rintro φ done rfl
          rw [Bool.or_true, if_pos rfl]
          apply (follows_recordStateChange task.tid taskStatusNew taskStatusFailed _ _).bind
          rintro φ _ rfl
          simp only [stage, Bool.false_eq_true, and_false, if_false]
          rfl
      | none =>
          simp only [stage, Option.isSome_none, Bool.false_eq_true, and_false, if_false]
          exact (obeys_updateTaskStatusInfo t task.tid _).bind fun _ => .pure _

theorem obeys_createTaskInternal (now : ℤ) (tid uid userName : String) (req : CreateTaskReq)
    (dispatch : RpcReply) :
    Obeys t (createTaskInternal now tid uid userName req dispatch) := by
  unfold createTaskInternal
  apply (obeys_canAccessAgentIP t uid req.targetIp).bind
  intro allowed
  split
  · rfl
  split
  · rfl
  apply (obeys_dispatchNewTask t _ _ _ _ rfl rfl).bind
  intro inserted
  split <;> rfl

/-- An operation keeps what it knows while its access is checked. -/
theorem follows_mayAccess {mark : Mark} {φ : Phase} (hφ : ¬ φ.Owing)
    (hstands : φ = .free ∨ StandsAt t (some mark)) (uid : String) (task : HotmethodTask) :
    (mayAccess mark uid task).Follows (contract t)
      (fun φ' allowed => φ' = if allowed then φ else .free) φ := by
  have hkeep : φ = .free ∨ φ = φ ∧ StandsAt t (some mark) :=
    hstands.imp_right fun h => ⟨rfl, h⟩
  unfold mayAccess
  split
  · rfl
  refine (follows_query hφ (fun groups => if groups.getD [] = [] then .free else φ) ?_).bind ?_
  · intro groups
    split
    · exact .inl rfl
    · exact hkeep
  rintro _ groups rfl
  by_cases hgroups : groups.getD [] = []
  · simp only [hgroups, if_true]
    rfl
  simp only [hgroups, if_false]
  refine (follows_query hφ (fun count => if count.getD 0 > 0 then φ else .free) ?_).bind ?_
  · intro count
    split
    · exact hkeep
    · exact .inl rfl
  rintro _ count rfl
  by_cases hcount : count.getD 0 > 0
  · simp only [hcount, if_true, decide_true]
    rfl
  · simp only [hcount, if_false, decide_false]
    rfl

/-- The status is known afterwards where access is granted. -/
theorem follows_checkTaskAccess (uid tid : String) (holds : Bool) :
    (checkTaskAccess uid tid holds).Follows (contract t)
      (fun φ result => φ = match result with
        | some task => stage t tid holds task.status
        | none => .free) .free := by
  unfold checkTaskAccess
  apply (follows_firstTask tid holds).bind
  rintro φ (err | task) rfl
  · rfl
  have hstands : stage t tid holds task.status = .free ∨
      StandsAt t (some { tid := some tid, holds }) := by
    unfold stage
    split
    · rename_i h
      exact .inr ⟨_, rfl, congrArg some h.1, h.2⟩
    · exact .inl rfl
  apply (follows_mayAccess t (not_owing_stage t tid holds task.status) hstands uid task).bind
  rintro φ (_ | _) rfl <;> rfl

theorem obeys_stopContinuousTask (now : ℤ) (uid tid : String) (reply : RpcReply) :
    Obeys t (stopContinuousTask now uid tid reply) := by
  unfold stopContinuousTask
  apply (follows_checkTaskAccess t uid tid _).bind
  rintro φ (_ | task) rfl
  · rfl
  cases reply with
  | notConnected => simp [stage, RpcReply.rejection, Program.Follows, pure]
  | failed error => simp [stage, RpcReply.rejection, Program.Follows, pure]
  | answered code message =>
      by_cases hcode : code = 0
      · simp only [RpcReply.rejection, hcode, ne_eq, not_true_eq_false, if_false,
          Option.isNone_none]
        refine (follows_writeStatus tid task.status taskStatusSuccess rfl ?_ _ ?_ ?_).bind ?_
        · intro h _
          simpa using h
        · exact fun _ => rfl
        · exact fun _ => rfl
        rintro φ done rfl
        by_cases hchanges : task.status = taskStatusSuccess
        · simp [hchanges, due, Program.Follows, pure]
        · simp only [hchanges, not_false_eq_true, decide_true, Bool.or_true, if_true]
          apply (follows_recordStateChange tid task.status taskStatusSuccess _ _).bind
          rintro φ _ rfl
          simp only [stage, Bool.false_eq_true, and_false, if_false]
          rfl
      · simp [stage, RpcReply.rejection, hcode, Program.Follows, pure]

theorem obeys_storeWindow (tid : String) (w : ContinuousWindowInfo) :
    Obeys t (storeWindow tid w) := by
  unfold storeWindow
  apply (obeys_query _ _).bind
  rintro (_ | _ | existing)
  · rfl
  · refine (obeys_update ?_).bind fun _ => .pure _
    intro db db' hchange
    split at hchange
    · cases hchange
    · obtain rfl := Option.some.inj hchange
      rfl
  · refine (obeys_update ?_).bind fun _ => .pure _
    intro db db' hchange
    obtain rfl := Option.some.inj hchange
    rfl

theorem normal_windowOutcome (w : ContinuousWindowInfo) : Normal (windowOutcome w).1 := by
  unfold windowOutcome
  split <;> rfl

theorem obeys_ensureContinuousWindowTask (assigns : Bool) (parent : HotmethodTask)
    (w : ContinuousWindowInfo) : Obeys t (ensureContinuousWindowTask assigns parent w) := by
  unfold ensureContinuousWindowTask
  dsimp only
  split
  · rfl
  split
  · rfl
  apply (follows_firstTask w.windowTid true).bind
  rintro φ ((_ | _) | existing) rfl
  · refine (follows_createTask w.windowTid (windowOutcome w).1 (normal_windowOutcome w) _
      ?_ ?_ ?_).bind ?_
    · rfl
    · rfl
    · rfl
    rintro φ created rfl
    cases created with
    | false => rfl
    | true =>
        apply (follows_recordStateChange w.windowTid (-1) (windowOutcome w).1 _ _).bind
        rintro φ _ rfl
        simp only [stage, Bool.false_eq_true, and_false, if_false]
        rfl
  · rfl
  · dsimp only
    -- the record in memory has the old status or the new one
    have hupdated : ∀ updated : HotmethodTask, updated =
        (if assigns then updateWindowTask parent w existing existing else existing) →
        updated.status ≠ (windowOutcome w).1 → updated.status = existing.status := by
      intro updated hupdated hne
      split at hupdated
      · rw [hupdated] at hne
        exact absurd rfl hne
      · rw [hupdated]
    generalize (if assigns then updateWindowTask parent w existing existing else existing) =
      updated at hupdated ⊢
    refine (follows_writeStatus w.windowTid existing.status (windowOutcome w).1
      (normal_windowOutcome w) ?_ _ ?_ ?_).bind ?_
    · intro hrecorded hunrecorded
      simpa [hrecorded] using hunrecorded
    · exact fun _ => rfl
    · exact fun _ => rfl
    rintro φ done rfl
    cases done with
    | false => rfl
    | true =>
        by_cases hrecorded : updated.status = (windowOutcome w).1
        · simp [hrecorded, due, Program.Follows, pure]
        · have hsame := hupdated updated rfl hrecorded
          rw [hsame] at hrecorded ⊢
          simp only [hrecorded, ne_eq, not_false_eq_true, decide_true, if_true, Bool.true_or]
          apply (follows_recordStateChange w.windowTid existing.status (windowOutcome w).1 _ _).bind
          rintro φ _ rfl
          simp only [stage, Bool.false_eq_true, and_false, if_false]
          rfl

theorem obeys_getContinuousWindows (assigns analysisConfigured : Bool) (uid tid : String)
    (reply : Option (List ContinuousWindowInfo)) (earliest latest : Option ℤ) :
    Obeys t (getContinuousWindows assigns analysisConfigured uid tid reply earliest latest) := by
  have hsync : ∀ parent windows,
      Obeys t (syncWindows assigns analysisConfigured parent windows) := by
    intro parent windows
    induction windows with
    | nil => rfl
    | cons w windows ih =>
        refine Obeys.bind ?_ fun started => ih.bind fun others => .pure _
        unfold syncWindow
        apply (obeys_storeWindow t parent.tid w).bind
        rintro (_ | ⟨windowCreated, previousStatus⟩)
        · rfl
        · apply (obeys_ensureContinuousWindowTask t assigns parent w).bind
          rintro (_ | ⟨childTask, childCreated⟩) <;> rfl
  unfold getContinuousWindows
  apply (follows_checkTaskAccess t uid tid false).bind
  rintro φ (_ | task) rfl
  · rfl
  simp only [stage, Bool.false_eq_true, and_false, if_false]
  apply (hsync _ _).bind
  intro analysed
  exact (obeys_query _ _).bind fun _ => .pure _

theorem obeys_program (assigns analysisConfigured : Bool) (op : StatusOperation) :
    Obeys t (op.program assigns analysisConfigured) := by
  cases op with
  | createTask now tid uid userName req dispatch =>
      exact (obeys_createTaskInternal t now tid uid userName req dispatch).bind fun _ => .pure _
  | waitTaskResult tid polls => exact (obeys_waitTaskResult t tid polls).bind fun _ => .pure _
  | stopContinuousTask now uid tid reply =>
      exact (obeys_stopContinuousTask t now uid tid reply).bind fun _ => .pure _
  | getContinuousWindows uid tid reply earliest latest =>
      exact (obeys_getContinuousWindows t assigns analysisConfigured uid tid reply earliest
        latest).bind fun _ => .pure _

end Operations

/-! ## Runs -/

/-- A write of the status of `t` is recorded and meets no other operation that stands at this
status, and no unchecked write about `t` fails. -/
abbrev Undisturbed (t : String) : ApiPool → Pool.Event StatusOperation → Prop :=
  Pool.Permits (fun _ => True) (Admits t) (Checked t)

/-- Every undisturbed run keeps the history complete. -/
theorem keepsAudit_of_undisturbed (assigns analysisConfigured : Bool) (t : String) :
    KeepsAudit assigns analysisConfigured t (Undisturbed t) := by
  intro db pool hstart hnormal hreach hquiet
  have hinit : Fits t (db.view t) [] := by
    refine ⟨⟨hstart.begins, hstart.contiguous⟩, ?_, by simp, by simp, ?_, by simp, by simp⟩
    · intro status hstatus
      obtain ⟨task, htask, rfl⟩ := Option.map_eq_some_iff.mp hstatus
      exact hnormal task htask
    · intro _
      refine hstart.current.trans ?_
      cases htask : db.tasks[t]? with
      | none => simp [Database.view, htask]
      | some task =>
          simp [Database.view, htask, show normalizeTaskStatus task.status = task.status from
            hnormal task htask]
  obtain ⟨slots, hmarks, hfits, -⟩ := Pool.Conforms.of_reachable (d := discipline t) hinit
    (fun op _ => obeys_program t assigns analysisConfigured op) hreach
  have hlast := Pool.marks_eq_none_of_quiet hreach hquiet
  -- no operation is at a mark, so none owes a row
  have hfree : ∀ slot ∈ slots, ¬ slot.1.Owing := by
    intro slot hmem howing
    obtain ⟨mark, hmark, -⟩ := hfits.inside slot hmem (fun h => by simp [h, Phase.Owing] at howing)
    have hnone := hlast slot.2 (hmarks ▸ List.mem_map_of_mem hmem)
    rw [hnone] at hmark
    cases hmark
  refine ⟨hfits.linked.begins, hfits.linked.contiguous, (hfits.settled hfree).trans ?_⟩
  cases htask : pool.store.tasks[t]? with
  | none => simp [Database.view, htask]
  | some task =>
      have hstored : Normal task.status := hfits.normal task.status (by simp [Database.view, htask])
      simp [Database.view, htask, show normalizeTaskStatus task.status = task.status from hstored]

/-- A continuous task that has just been started. -/
def runningParent : Database :=
  { tasks := (∅ : StdMap HotmethodTask).insert "cp_7" { tid := "cp_7", uid := "u", status := 2 }
    history := [⟨"cp_7", -1, 2, "continuous profiling started", 0⟩] }

/-- Two requests to stop it, of which both read the row before either writes it. -/
def concurrentStops : List (Pool.Event StatusOperation) :=
  [.start (.stopContinuousTask 1 "u" "cp_7" (.answered 0 "OK")),
    .start (.stopContinuousTask 2 "u" "cp_7" (.answered 0 "OK")),
    .advance 0 false, .advance 1 false, .advance 0 false, .advance 0 false,
    .advance 1 false, .advance 1 false]

-- one request after the other is harmless, also when the window query fails in between
example : Transition.Along (Pool.step (StatusOperation.program true true)) (Undisturbed "cp_7")
    { store := runningParent }
    [.start (.stopContinuousTask 1 "u" "cp_7" (.answered 0 "OK")),
      .start (.getContinuousWindows "u" "cp_7" none none none),
      .start (.stopContinuousTask 2 "u" "cp_7" (.answered 0 "OK")),
      .advance 0 false, .advance 0 false, .advance 1 false, .advance 0 false, .advance 1 true,
      .advance 2 false, .advance 2 false] := by
  decide +kernel

/-- Both of them record the step from RUNNING to DONE. -/
theorem not_keepsAudit_concurrentStops : ¬ KeepsAudit true true "cp_7" fun _ _ => True := by
  intro h
  have haudited := h runningParent
    (Transition.after (Pool.step (StatusOperation.program true true)) { store := runningParent }
      concurrentStops)
    ⟨by decide +kernel, by decide +kernel, by decide +kernel⟩ (by decide +kernel)
    (Transition.Along.reachable (by decide +kernel) (by decide +kernel)) (by decide +kernel)
  exact absurd haudited.contiguous (by decide +kernel)

end MiniDrop
