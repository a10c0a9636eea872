import MiniDrop.Model.Continuous
import MiniDrop.Model.Artifacts
import MiniDrop.Verification.Api.Tenants

/-! # Polling the windows of a continuous task

Each GetContinuousWindows stores what ListWindows answers once more: it writes status and text of
the task of a finished window, and starts the analysis where the window is new or was not completed
before. -/

namespace MiniDrop

/-! ## Runs -/

/-- The windows of an answer of ListWindows, under distinct tids. -/
structure WindowsReply where
  windows : List ContinuousWindowInfo
  distinct : (windows.map ContinuousWindowInfo.windowTid).Nodup

/-- What the analysis of a task reports between two polls. -/
inductive AnalysisUpdate where
  | triggered (uid tid : String)
  | reported (uid tid : String) (analysisStatus : ℤ) (statusInfo : String)
  | ended (tid : String) (failure : Option (String × String))

def AnalysisUpdate.program (assigns analysisConfigured : Bool) : AnalysisUpdate → Statements Unit
  | triggered uid tid => do
    let _ ← triggerAnalysis assigns analysisConfigured uid tid
  | reported uid tid analysisStatus statusInfo => do
    let _ ← updateAnalysisStatus assigns uid tid analysisStatus statusInfo
  | ended tid failure => runAnalysis tid failure

/-- The polls of one continuous task so far. -/
structure WindowPolls where
  db : Database
  /-- What ListWindows answered last. -/
  previous : Option (List ContinuousWindowInfo) := none
  /-- Windows that were reported as completed with a key. -/
  completed : List String := []
  /-- Windows whose analysis was started by a poll. -/
  analysed : List String := []

/-- A poll, or what happens between polls. -/
inductive WindowEvent where
  | poll (uid : String) (reply : Option WindowsReply) (earliest latest : Option ℤ)
  | update (update : AnalysisUpdate)

/-- The window is completed and has a key. -/
abbrev ContinuousWindowInfo.Ready (w : ContinuousWindowInfo) : Prop := w.status = 1 ∧ w.cosKey ≠ ""

/-- The polls of task `tid`, one after the other. -/
def WindowPolls.step (assigns analysisConfigured : Bool) (tid : String) (s : WindowPolls) :
    WindowEvent → Option WindowPolls
  | .poll uid reply earliest latest =>
    let windows := reply.map WindowsReply.windows
    match (getContinuousWindows assigns analysisConfigured uid tid windows earliest latest).run
        s.db with
    | (none, db) => some { s with db }
    | (some list, db) =>
      some {
        db
        previous := windows.or s.previous
        completed := s.completed ++ ((windows.getD []).filter fun w => w.Ready).map
          ContinuousWindowInfo.windowTid
        analysed := s.analysed ++ list.analysed }
  | .update update => some { s with db := ((update.program assigns analysisConfigured).run s.db).2 }

/-! ## Statement -/

/-- What a user sees of the outcome of a task. -/
def HotmethodTask.verdict (task : HotmethodTask) : ℤ × ℤ × String :=
  (task.status, task.analysisStatus, task.statusInfo)

/-- No task changes its outcome, nothing is recorded, and no analysis is started. -/
structure LeavesTasks (s t : WindowPolls) : Prop where
  verdicts : ∀ tid, (t.db.task? tid).map HotmethodTask.verdict =
    (s.db.task? tid).map HotmethodTask.verdict
  history : t.db.history = s.db.history
  analysed : t.analysed = s.analysed

/-- A poll that gets the windows of the poll before. -/
def WindowEvent.Repeats (s : WindowPolls) : WindowEvent → Prop
  | .poll _ (some reply) _ _ => s.previous = some reply.windows
  | _ => False

/-- In all runs whose steps satisfy `ok`, repeated polls change nothing, and the analysis of a
window is started once at most. -/
def PollsIdempotent (assigns analysisConfigured : Bool) (tid : String)
    (ok : WindowPolls → WindowEvent → Prop) : Prop :=
  ∀ db s, Transition.Reachable (WindowPolls.step assigns analysisConfigured tid) ok { db } s →
    s.analysed.Nodup ∧ ∀ event t, ok s event → event.Repeats s →
      s.step assigns analysisConfigured tid event = some t → LeavesTasks s t

/-! ## The condition -/

/-- The window has a task once it is in this state. -/
abbrev ContinuousWindowInfo.Finished (w : ContinuousWindowInfo) : Prop :=
  w.windowTid ≠ "" ∧ (w.status = 1 ∨ w.status = 2)

/-- The tasks of the windows have the text that a poll gives them. -/
def TextsStand (db : Database) (windows : List ContinuousWindowInfo) : Prop :=
  ∀ w ∈ windows, w.Finished → ∀ task ∈ db.task? w.windowTid,
    task.statusInfo = (windowOutcome w).2

/-- The window is not taken for one that completes now: it is stored as completed, or the status of
its analysis is no longer that of a new task. -/
def StaysCompleted (db : Database) (windowTid : String) : Prop :=
  (∃ row ∈ db.windows[windowTid]?, row.status = 1) ∨
    ∀ task ∈ db.task? windowTid, task.analysisStatus ≠ analysisStatusPending

/-- Windows that are reported as they were before have tasks with the text of the poll, and windows
that are completed once more are not taken for new ones. -/
def SteadyPoll (tid : String) (s : WindowPolls) : WindowEvent → Prop
  | .poll uid (some reply) _ _ => CanAccess s.db uid tid →
    (s.previous = some reply.windows → TextsStand s.db reply.windows) ∧
      ∀ w ∈ reply.windows, w.Ready → w.windowTid ∈ s.completed → StaysCompleted s.db w.windowTid
  | _ => True

instance (db : Database) (windows : List ContinuousWindowInfo) :
    Decidable (TextsStand db windows) :=
  inferInstanceAs (Decidable (∀ w ∈ windows, _))

instance (db : Database) (windowTid : String) : Decidable (StaysCompleted db windowTid) :=
  inferInstanceAs (Decidable (_ ∨ _))

instance (tid : String) (s : WindowPolls) (event : WindowEvent) :
    Decidable (SteadyPoll tid s event) :=
  match event with
  | .poll _ (some _) _ _ => inferInstanceAs (Decidable (_ → _ ∧ _))
  | .poll _ none _ _ => inferInstanceAs (Decidable True)
  | .update _ => inferInstanceAs (Decidable True)

/-! ## One window -/

section Windows

variable {assigns analysisConfigured : Bool} {parent : HotmethodTask} {w : ContinuousWindowInfo}
  {db : Database}

/-- The window and its task are stored as reported. -/
structure Settled (db : Database) (w : ContinuousWindowInfo) : Prop where
  row : ∃ row, db.windows[w.windowTid]? = some row ∧ row.status = w.status
  stored : w.Finished → w.windowTid ∈ db.tasks
  status : w.Finished → ∀ task, db.task? w.windowTid = some task →
    task.status = (windowOutcome w).1

/-- The row of the window is stored; `created` and `previous` tell what it was before. -/
structure WindowStored (w : ContinuousWindowInfo) (db : Database) (created : Bool) (previous : ℤ)
    (db' : Database) : Prop where
  before : ∀ row, db.windows[w.windowTid]? = some row → created = false ∧ previous = row.status
  row : ∃ row, db'.windows[w.windowTid]? = some row ∧ row.status = w.status
  others : ∀ t ≠ w.windowTid, db'.windows[t]? = db.windows[t]?
  tasks : db'.tasks = db.tasks
  history : db'.history = db.history

theorem run_storeWindow (tid : String) (w : ContinuousWindowInfo) (db : Database) :
    ∃ created previous db', (storeWindow tid w).run db = (some (created, previous), db') ∧
      WindowStored w db created previous db' := by
  unfold storeWindow
  cases hrow : db.windows[w.windowTid]? with
  | none =>
      have hnew : w.windowTid ∉ db.windows := by
        rw [Std.ExtTreeMap.mem_iff_isSome_getElem?, hrow]
        exact Bool.false_ne_true
      simp only [Program.run_bind, Program.run_query, hrow, Program.run_update, hnew, if_false,
        Option.getD_some, Program.run_pure]
      refine ⟨true, -1, _, rfl, ?_, ⟨_, Std.ExtTreeMap.getElem?_insert_self, rfl⟩, fun t ht => ?_,
        rfl, rfl⟩
      · intro row hbefore
        rw [hrow] at hbefore
        cases hbefore
      · simp [Std.ExtTreeMap.getElem?_insert, Ne.symm ht]
  | some existing =>
      simp only [Program.run_bind, Program.run_query, hrow, Program.run_update, Option.getD_some,
        Program.run_pure]
      refine ⟨false, existing.status, _, rfl, ?_, ?_, fun t ht => ?_, rfl, rfl⟩
      · intro row hbefore
        rw [hrow] at hbefore
        exact ⟨rfl, by rw [Option.some.inj hbefore]⟩
      · simp [hrow]
      · simp [Std.ExtTreeMap.getElem?_modify, Ne.symm ht]

theorem WindowStored.task? {created : Bool} {previous : ℤ} {db' : Database}
    (h : WindowStored w db created previous db') (t : String) : db'.task? t = db.task? t := by
  unfold Database.task?
  rw [h.tasks]

theorem run_ensure_unfinished (h : ¬ w.Finished) :
    (ensureContinuousWindowTask assigns parent w).run db = (none, db) := by
  unfold ensureContinuousWindowTask
  by_cases htid : w.windowTid = ""
  · rw [if_pos htid, Program.run_pure]
  · have hstatus : w.status ≠ 1 ∧ w.status ≠ 2 := by
      by_contra hstatus
      exact h ⟨htid, by omega⟩
    rw [if_neg htid, if_pos hstatus, Program.run_pure]

/-- The task of a window was deleted. -/
theorem run_ensure_hidden (hstored : w.windowTid ∈ db.tasks) (hnone : db.task? w.windowTid = none) :
    (ensureContinuousWindowTask assigns parent w).run db = (none, db) := by
  by_cases hfinished : w.Finished
  · have hrefused : db.createTask (windowTask parent w) = none := if_pos hstored
    unfold ensureContinuousWindowTask firstTask
    rw [if_neg hfinished.1, if_neg (by omega)]
    simp [hnone, hrefused]
  · exact run_ensure_unfinished hfinished

theorem run_ensure_new (hfinished : w.Finished) (hnew : w.windowTid ∉ db.tasks) :
    (ensureContinuousWindowTask assigns parent w).run db =
      (some (windowTask parent w, true),
        { db with tasks := db.tasks.insert w.windowTid (windowTask parent w) }.addHistory
          ⟨w.windowTid, -1, (windowOutcome w).1, (windowOutcome w).2, changeTypeTask⟩) := by
  have hcreated : db.createTask (windowTask parent w) =
      some { db with tasks := db.tasks.insert w.windowTid (windowTask parent w) } := if_neg hnew
  have hnone : db.task? w.windowTid = none := by
    rw [Database.task?, Std.ExtTreeMap.getElem?_eq_none hnew]
    rfl
  unfold ensureContinuousWindowTask firstTask recordStateChange
  rw [if_neg hfinished.1, if_neg (by omega)]
  simp [hnone, hcreated]

theorem run_ensure_known (assigns : Bool) (parent : HotmethodTask) {existing : HotmethodTask}
    (hfinished : w.Finished)
    (hknown : db.task? w.windowTid = some existing) :
    ∃ child db', (ensureContinuousWindowTask assigns parent w).run db =
        (some (child, false), db') ∧ child.analysisStatus = existing.analysisStatus ∧
      (∀ t, db'.tasks[t]? = if w.windowTid = t then
        some (updateWindowTask parent w existing existing) else db.tasks[t]?) ∧
      db'.windows = db.windows ∧
      (existing.status = (windowOutcome w).1 → db'.history = db.history) := by
  have hlookup : ∀ t, (db.updateTask w.windowTid (updateWindowTask parent w existing)).tasks[t]? =
      if w.windowTid = t then some (updateWindowTask parent w existing existing)
        else db.tasks[t]? := by
    intro t
    have hstored : db.tasks[w.windowTid]? = some existing :=
      (Option.filter_eq_some_iff.mp hknown).1
    rw [Database.tasks_updateTask, hknown]
    by_cases ht : w.windowTid = t
    · subst ht
      simp [hstored]
    · simp [ht]
  have hupdated : existing.status = (windowOutcome w).1 →
      (if assigns then updateWindowTask parent w existing existing else existing).status =
        (windowOutcome w).1 := by
    intro hstatus
    split
    · rfl
    · exact hstatus
  unfold ensureContinuousWindowTask firstTask recordStateChange
  rw [if_neg hfinished.1, if_neg (by omega)]
  simp only [Program.run_bind, Program.run_query, hknown, Program.run_pure, Program.run_update]
  by_cases hrecorded : (if assigns then updateWindowTask parent w existing existing
      else existing).status = (windowOutcome w).1
  · simp only [hrecorded, ne_eq, not_true_eq_false, decide_false, Option.isSome_some, Bool.not_true,
      Bool.false_eq_true, if_false, Program.run_pure, Option.getD_some]
    exact ⟨_, _, rfl, rfl, hlookup, Database.updateTask_windows _ _ _,
      fun _ => Database.updateTask_history _ _ _⟩
  · simp only [hrecorded, ne_eq, not_false_eq_true, decide_true, Option.isSome_some, Bool.not_true,
      Bool.false_eq_true, if_false, if_true, Program.run_bind, Program.run_update,
      Program.run_pure, Option.getD_some]
    exact ⟨_, _, rfl, rfl, hlookup, Database.updateTask_windows _ _ _,
      fun hstatus => absurd (hupdated hstatus) hrecorded⟩

/-- What a turn of the loop does about its window. -/
structure WindowSynced (w : ContinuousWindowInfo) (db : Database) (starts : Bool)
    (db' : Database) : Prop where
  settled : Settled db' w
  others : ∀ t ≠ w.windowTid, db'.tasks[t]? = db.tasks[t]? ∧ db'.windows[t]? = db.windows[t]?
  grows : w.windowTid ∈ db.tasks → w.windowTid ∈ db'.tasks
  started : starts = true → w.Ready ∧ w.windowTid ∈ db'.tasks ∧
    (w.windowTid ∈ db.windows → w.windowTid ∈ db.tasks → ¬ StaysCompleted db w.windowTid)
  quiet : Settled db w → starts = false ∧ db'.history = db.history ∧
    (db'.task? w.windowTid).map HotmethodTask.verdict = (db.task? w.windowTid).map fun task =>
      (task.status, task.analysisStatus,
        if w.Finished then (windowOutcome w).2 else task.statusInfo)

section Turns

variable {created : Bool} {previous : ℤ} {stored db' : Database}

/-- There is no task to write. -/
theorem WindowStored.synced_none (h : WindowStored w db created previous stored)
    (hstored : w.Finished → w.windowTid ∈ db.tasks)
    (hnone : w.Finished → db.task? w.windowTid = none) : WindowSynced w db false stored where
  settled :=
    { row := h.row
      stored := fun hfinished => h.tasks ▸ hstored hfinished
      status := fun hfinished task htask => by
        rw [h.task?, hnone hfinished] at htask
        cases htask }
  others t ht := ⟨by rw [h.tasks], h.others t ht⟩
  grows hmem := h.tasks ▸ hmem
  started hstarts := absurd hstarts Bool.false_ne_true
  quiet _ := by
    refine ⟨rfl, h.history, ?_⟩
    rw [h.task?]
    by_cases hfinished : w.Finished
    · rw [hnone hfinished]
      rfl
    · simp only [if_neg hfinished]
      rfl

/-- The task is written once more. -/
theorem WindowStored.synced_known {existing : HotmethodTask} {starts : Bool}
    (h : WindowStored w db created previous stored) (hfinished : w.Finished)
    (hlive : db.task? w.windowTid = some existing)
    (hlookup : ∀ t, db'.tasks[t]? = if w.windowTid = t then
      some (updateWindowTask parent w existing existing) else stored.tasks[t]?)
    (hwindows : db'.windows = stored.windows)
    (hhistory : existing.status = (windowOutcome w).1 → db'.history = stored.history)
    (hstarts : starts = true → w.Ready ∧ (created = true ∨ previous ≠ 1) ∧
      existing.analysisStatus = analysisStatusPending) : WindowSynced w db starts db' := by
  have hupdated : db'.task? w.windowTid = some (updateWindowTask parent w existing existing) := by
    have hdeleted := (Option.filter_eq_some_iff.mp hlive).2
    rw [Database.task?, hlookup, if_pos rfl]
    exact Option.filter_eq_some_iff.mpr ⟨rfl, hdeleted⟩
  have hmem : w.windowTid ∈ db'.tasks := by
    rw [Std.ExtTreeMap.mem_iff_isSome_getElem?, hlookup, if_pos rfl]
    rfl
  constructor
  case settled =>
    refine ⟨hwindows ▸ h.row, fun _ => hmem, fun _ task htask => ?_⟩
    rw [hupdated] at htask
    rw [← Option.some.inj htask]
    rfl
  case others =>
    intro t ht
    rw [hlookup, if_neg (Ne.symm ht), hwindows, h.tasks]
    exact ⟨rfl, h.others t ht⟩
  case grows => exact fun _ => hmem
  case started =>
    intro hs
    obtain ⟨hready, hchanged, hpending⟩ := hstarts hs
    refine ⟨hready, hmem, fun hwindow _ => ?_⟩
    obtain ⟨row, hbefore⟩ := Option.isSome_iff_exists.mp
      (Std.ExtTreeMap.mem_iff_isSome_getElem?.mp hwindow)
    obtain ⟨rfl, rfl⟩ := h.before row hbefore
    rintro (⟨row', hrow, hcompleted⟩ | hbegun)
    · obtain rfl := Option.some.inj (hbefore.symm.trans hrow)
      simp [hcompleted] at hchanged
    · exact hbegun existing hlive hpending
  case quiet =>
    intro hsettled
    obtain ⟨row, hbefore, hsame⟩ := hsettled.row
    obtain ⟨rfl, rfl⟩ := h.before row hbefore
    have hstatus := hsettled.status hfinished existing hlive
    refine ⟨?_, (hhistory hstatus).trans h.history, ?_⟩
    · by_contra hs
      obtain ⟨⟨hone, -⟩, hchanged, -⟩ := hstarts (by simpa using hs)
      simp [hsame, hone] at hchanged
    · rw [hupdated, hlive]
      simp only [Option.map_some, if_pos hfinished, hstatus]
      rfl

/-- The window gets a task. -/
theorem WindowStored.synced_new {starts : Bool} {row : TaskStateHistory}
    (h : WindowStored w db created previous stored) (hfinished : w.Finished)
    (hnew : w.windowTid ∉ db.tasks) (hstarts : starts = true → w.Ready) :
    WindowSynced w db starts ({ stored with
      tasks := stored.tasks.insert w.windowTid (windowTask parent w) }.addHistory row) where
  settled := by
    refine ⟨h.row, fun _ => Std.ExtTreeMap.mem_insert_self, fun _ task htask => ?_⟩
    rw [Database.task?_addHistory, Database.task?, Std.ExtTreeMap.getElem?_insert_self] at htask
    rw [← Option.some.inj htask]
    rfl
  others t ht := by
    refine ⟨?_, h.others t ht⟩
    rw [Database.addHistory_tasks, Std.ExtTreeMap.getElem?_insert,
      if_neg (by simpa using Ne.symm ht), h.tasks]
  grows hmem := absurd hmem hnew
  started hs := ⟨hstarts hs, Std.ExtTreeMap.mem_insert_self, fun _ hmem => absurd hmem hnew⟩
  quiet hsettled := absurd (hsettled.stored hfinished) hnew

end Turns

theorem windowSynced (assigns analysisConfigured : Bool) (parent : HotmethodTask)
    (w : ContinuousWindowInfo) (db : Database) :
    WindowSynced w db ((syncWindow assigns analysisConfigured parent w).run db).1
      ((syncWindow assigns analysisConfigured parent w).run db).2 := by
  obtain ⟨created, previous, stored, hstore, h⟩ := run_storeWindow parent.tid w db
  unfold syncWindow
  simp only [Program.run_bind, hstore]
  by_cases hfinished : w.Finished
  · by_cases hknown : w.windowTid ∈ db.tasks
    · cases hlive : db.task? w.windowTid with
      | none =>
          rw [run_ensure_hidden (h.tasks ▸ hknown) ((h.task? _).trans hlive)]
          exact h.synced_none (fun _ => hknown) fun _ => hlive
      | some existing =>
          obtain ⟨child, db', hrun, hchild, hlookup, hwindows, hhistory⟩ :=
            run_ensure_known assigns parent hfinished ((h.task? _).trans hlive)
          rw [hrun]
          refine h.synced_known hfinished hlive hlookup hwindows hhistory fun hstarts => ?_
          simp only [Program.run_pure, Bool.and_eq_true, decide_eq_true_eq, Bool.false_eq_true,
            false_or, hchild] at hstarts
          exact ⟨⟨hstarts.1.1, hstarts.1.2.1⟩, hstarts.1.2.2.1, hstarts.1.2.2.2⟩
    · rw [run_ensure_new hfinished (h.tasks ▸ hknown)]
      refine h.synced_new hfinished hknown fun hstarts => ?_
      simp only [Program.run_pure, Bool.and_eq_true, decide_eq_true_eq] at hstarts
      exact ⟨hstarts.1.1, hstarts.1.2.1⟩
  · rw [run_ensure_unfinished hfinished]
    exact h.synced_none (absurd · hfinished) (absurd · hfinished)

/-! ## One poll -/

/-- Only the rows of the window matter. -/
theorem Settled.congr {db' : Database} (htasks : db'.tasks[w.windowTid]? = db.tasks[w.windowTid]?)
    (hwindows : db'.windows[w.windowTid]? = db.windows[w.windowTid]?) (h : Settled db w) :
    Settled db' w where
  row := hwindows ▸ h.row
  stored hfinished := by
    rw [Std.ExtTreeMap.mem_iff_isSome_getElem?, htasks, ← Std.ExtTreeMap.mem_iff_isSome_getElem?]
    exact h.stored hfinished
  status hfinished := by
    rw [Database.task?, htasks]
    exact h.status hfinished

theorem Settled.mem_windows (h : Settled db w) : w.windowTid ∈ db.windows := by
  obtain ⟨row, hrow, -⟩ := h.row
  rw [Std.ExtTreeMap.mem_iff_isSome_getElem?, hrow]
  rfl

/-- What the loop does about the windows. -/
structure WindowsSynced (windows : List ContinuousWindowInfo) (db : Database)
    (analysed : List String) (db' : Database) : Prop where
  settled : ∀ w ∈ windows, Settled db' w
  others : ∀ t ∉ windows.map ContinuousWindowInfo.windowTid,
    db'.tasks[t]? = db.tasks[t]? ∧ db'.windows[t]? = db.windows[t]?
  grows : ∀ t ∈ db.tasks, t ∈ db'.tasks
  distinct : analysed.Nodup
  started : ∀ t ∈ analysed, ∃ w ∈ windows, w.windowTid = t ∧ w.Ready ∧ t ∈ db'.tasks ∧
    (t ∈ db.windows → t ∈ db.tasks → ¬ StaysCompleted db t)
  quiet : (∀ w ∈ windows, Settled db w) → analysed = [] ∧ db'.history = db.history ∧
    ∀ w ∈ windows, (db'.task? w.windowTid).map HotmethodTask.verdict =
      (db.task? w.windowTid).map fun task => (task.status, task.analysisStatus,
        if w.Finished then (windowOutcome w).2 else task.statusInfo)

theorem WindowsSynced.nil (db : Database) : WindowsSynced [] db [] db where
  settled _ hmem := by cases hmem
  others _ _ := ⟨rfl, rfl⟩
  grows _ hmem := hmem
  distinct := .nil
  started _ hmem := by cases hmem
  quiet _ := ⟨rfl, rfl, fun _ hmem => by cases hmem⟩

/-- Turns about different windows do not disturb each other. -/
theorem WindowSynced.cons {windows : List ContinuousWindowInfo} {starts : Bool}
    {db₁ db₂ : Database} {analysed : List String} (hfirst : WindowSynced w db starts db₁)
    (hrest : WindowsSynced windows db₁ analysed db₂)
    (hfresh : w.windowTid ∉ windows.map ContinuousWindowInfo.windowTid) :
    WindowsSynced (w :: windows) db (if starts then w.windowTid :: analysed else analysed) db₂ := by
  have hother : ∀ w' ∈ windows, w'.windowTid ≠ w.windowTid := fun w' hmem heq =>
    hfresh (heq ▸ List.mem_map_of_mem hmem)
  have hkept := hrest.others w.windowTid hfresh
  have hlater : ∀ t ∈ analysed, t ≠ w.windowTid := by
    intro t hmem
    obtain ⟨w', hmem', rfl, -⟩ := hrest.started t hmem
    exact hother w' hmem'
  constructor
  case settled =>
    intro w' hmem
    rcases List.mem_cons.mp hmem with rfl | hmem
    · exact hfirst.settled.congr hkept.1 hkept.2
    · exact hrest.settled w' hmem
  case others =>
    intro t ht
    rw [List.map_cons, List.mem_cons, not_or] at ht
    have hbefore := hfirst.others t ht.1
    have hafter := hrest.others t ht.2
    exact ⟨hafter.1.trans hbefore.1, hafter.2.trans hbefore.2⟩
  case grows =>
    intro t hmem
    refine hrest.grows t ?_
    by_cases ht : t = w.windowTid
    · rw [ht] at hmem ⊢
      exact hfirst.grows hmem
    · rw [Std.ExtTreeMap.mem_iff_isSome_getElem?] at hmem ⊢
      rw [(hfirst.others t ht).1]
      exact hmem
  case distinct =>
    split
    · exact List.nodup_cons.mpr ⟨fun hmem => hlater _ hmem rfl, hrest.distinct⟩
    · exact hrest.distinct
  case started =>
    intro t hmem
    have hcases : starts = true ∧ t = w.windowTid ∨ t ∈ analysed := by
      split at hmem
      · next hstarts => exact (List.mem_cons.mp hmem).imp_left fun h => ⟨hstarts, h⟩
      · exact .inr hmem
    rcases hcases with ⟨hstarts, rfl⟩ | hmem
    · obtain ⟨hready, hstored, hnew⟩ := hfirst.started hstarts
      exact ⟨w, List.mem_cons_self, rfl, hready, hrest.grows _ hstored, hnew⟩
    · obtain ⟨w', hmem', heq, hready, hstored, hnew⟩ := hrest.started t hmem
      obtain ⟨htasks, hwindows⟩ := hfirst.others t (hlater t hmem)
      unfold StaysCompleted Database.task? at hnew ⊢
      rw [Std.ExtTreeMap.mem_iff_isSome_getElem?, Std.ExtTreeMap.mem_iff_isSome_getElem?, htasks,
        hwindows, ← Std.ExtTreeMap.mem_iff_isSome_getElem?,
        ← Std.ExtTreeMap.mem_iff_isSome_getElem?] at hnew
      exact ⟨w', List.mem_cons_of_mem _ hmem', heq, hready, hstored, hnew⟩
  case quiet =>
    intro hsettled
    obtain ⟨hstarts, hhistory, hverdict⟩ := hfirst.quiet (hsettled w List.mem_cons_self)
    obtain ⟨hnone, hhistory', hverdicts⟩ := hrest.quiet fun w' hmem => by
      obtain ⟨htasks, hwindows⟩ := hfirst.others w'.windowTid (hother w' hmem)
      exact (hsettled w' (List.mem_cons_of_mem _ hmem)).congr htasks hwindows
    refine ⟨by rw [hstarts, hnone]; rfl, hhistory'.trans hhistory, fun w' hmem => ?_⟩
    rcases List.mem_cons.mp hmem with rfl | hmem
    · rw [← hverdict, Database.task?, hkept.1, ← Database.task?]
    · rw [hverdicts w' hmem, Database.task?, (hfirst.others _ (hother w' hmem)).1, ← Database.task?]

theorem windowsSynced (assigns analysisConfigured : Bool) (parent : HotmethodTask)
    {windows : List ContinuousWindowInfo}
    (hdistinct : (windows.map ContinuousWindowInfo.windowTid).Nodup) (db : Database) :
    WindowsSynced windows db ((syncWindows assigns analysisConfigured parent windows).run db).1
      ((syncWindows assigns analysisConfigured parent windows).run db).2 := by
  induction windows generalizing db with
  | nil => exact .nil db
  | cons w windows ih =>
      rw [List.map_cons, List.nodup_cons] at hdistinct
      simp only [syncWindows, Program.run_bind, Program.run_pure]
      exact (windowSynced assigns analysisConfigured parent w db).cons (ih hdistinct.2 _)
        hdistinct.1

/-- A poll comes down to the loop, for users who may access the task. -/
theorem run_getContinuousWindows (assigns analysisConfigured : Bool) (uid tid : String)
    (reply : Option (List ContinuousWindowInfo)) (earliest latest : Option ℤ) (db : Database) :
    (¬ CanAccess db uid tid ∧ (getContinuousWindows assigns analysisConfigured uid tid reply
      earliest latest).run db = (none, db)) ∨
    ∃ parent list, CanAccess db uid tid ∧ (getContinuousWindows assigns analysisConfigured uid tid
        reply earliest latest).run db = (some list,
          ((syncWindows assigns analysisConfigured parent (reply.getD [])).run db).2) ∧
      list.analysed =
        ((syncWindows assigns analysisConfigured parent (reply.getD [])).run db).1 := by
  have hstore : ((checkTaskAccess uid tid false).run db).2 = db :=
    (preserves_checkTaskAccess (f := id) uid tid false).run_eq db
  unfold getContinuousWindows CanAccess
  simp only [Program.run_bind]
  generalize (checkTaskAccess uid tid false).run db = access at hstore ⊢
  obtain ⟨task, _⟩ := access
  obtain rfl := hstore
  cases task with
  | none => exact .inl ⟨Bool.false_ne_true, rfl⟩
  | some parent =>
      simp only [Program.run_bind, Program.run_query, Program.run_pure]
      exact .inr ⟨parent, _, rfl, rfl, rfl⟩

/-- The rows of the windows, and which tasks there are, with their status. -/
def Database.progress (db : Database) :
    StdMap ContinuousWindow × (String → Option (ℤ × Bool)) :=
  (db.windows, fun tid => (db.tasks[tid]?).map fun task => (task.status, task.deleted))

theorem progress_updateTask {tid : String} {change : HotmethodTask → HotmethodTask}
    (hstatus : ∀ row, (change row).status = row.status)
    (hdeleted : ∀ row, (change row).deleted = row.deleted) :
    (db.updateTask tid change).progress = db.progress := by
  unfold Database.progress
  refine Prod.ext (Database.updateTask_windows _ _ _) (funext fun t => ?_)
  dsimp only
  rw [Database.tasks_updateTask]
  split
  · cases db.tasks[t]? <;> simp [hstatus, hdeleted]
  · rfl

theorem preserves_progress_updateAnalysisStatusInfo (tid reason : String) :
    (updateAnalysisStatusInfo tid reason).Preserves Database.progress := by
  unfold updateAnalysisStatusInfo
  split
  · exact .pure _
  apply (preserves_firstTask tid false).bind
  rintro (_ | task)
  · exact .pure _
  refine (Program.preserves_update fun s t hs => ?_).bind fun _ => .pure _
  rw [← Option.some.inj hs]
  exact progress_updateTask (fun _ => rfl) fun _ => rfl

theorem preserves_progress_transition (tid : String) (toState : ℤ) (reason : String) :
    (transitionAnalysisStatus assigns tid toState reason).Preserves Database.progress := by
  unfold transitionAnalysisStatus
  apply (preserves_firstTask tid false).bind
  rintro (_ | task)
  · exact .pure _
  dsimp only
  split
  · split
    · exact preserves_progress_updateAnalysisStatusInfo tid reason
    · exact .pure _
  refine (Program.preserves_update fun s t hs => ?_).bind fun _ => .pure _
  rw [← Option.some.inj hs]
  exact progress_updateTask (fun _ => rfl) fun _ => rfl

/-- Analyses move windows and tasks no further. -/
theorem preserves_progress_analysis (update : AnalysisUpdate) :
    (update.program assigns analysisConfigured).Preserves Database.progress := by
  cases update with
  | triggered uid tid =>
      have htrigger : (triggerAnalysis assigns analysisConfigured uid tid).Preserves
          Database.progress := by
        unfold triggerAnalysis
        apply (preserves_checkTaskAccess uid tid false).bind
        rintro (_ | task)
        · exact .pure _
        dsimp only
        split
        · exact .pure _
        split
        · exact .pure _
        split
        · exact .pure _
        exact (preserves_progress_transition tid _ _).bind fun _ => .pure _
      exact htrigger.bind fun _ => .pure _
  | reported uid tid analysisStatus statusInfo =>
      have hreport : (updateAnalysisStatus assigns uid tid analysisStatus statusInfo).Preserves
          Database.progress := by
        unfold updateAnalysisStatus
        apply (preserves_checkTaskAccess uid tid false).bind
        rintro (_ | task)
        · exact .pure _
        apply (preserves_firstTask tid false).bind
        rintro (_ | row)
        · exact .pure _
        exact (preserves_progress_transition tid _ _).bind fun _ => .pure _
      exact hreport.bind fun _ => .pure _
  | ended tid failure =>
      unfold AnalysisUpdate.program runAnalysis
      cases failure with
      | none => exact .pure _
      | some failure =>
          apply (preserves_firstTask tid false).bind
          rintro (_ | task)
          · exact .pure _
          dsimp only
          split
          · refine (Program.preserves_update fun s t hs => ?_).bind fun _ => ?_
            · rw [← Option.some.inj hs]
              exact progress_updateTask (fun _ => rfl) fun _ => rfl
            · refine (Program.preserves_update fun s t hs => ?_).bind fun _ => .pure _
              rw [← Option.some.inj hs]
              rfl
          · exact .pure _

/-! ## All polls -/

theorem mem_tasks_of_progress {db' : Database} (h : db'.progress = db.progress) {t : String} :
    t ∈ db'.tasks ↔ t ∈ db.tasks := by
  have hrow := congrArg Option.isSome (congrFun (congrArg Prod.snd h) t)
  simp only [Database.progress, Option.isSome_map] at hrow
  rw [Std.ExtTreeMap.mem_iff_isSome_getElem?, Std.ExtTreeMap.mem_iff_isSome_getElem?, hrow]

theorem Settled.frame {db' : Database} (hframe : db'.progress = db.progress)
    (h : Settled db w) : Settled db' w where
  row := by
    have hwindows : db'.windows = db.windows := congrArg Prod.fst hframe
    rw [hwindows]
    exact h.row
  stored hfinished := (mem_tasks_of_progress hframe).mpr (h.stored hfinished)
  status hfinished task htask := by
    have hrow := congrFun (congrArg Prod.snd hframe) w.windowTid
    obtain ⟨hstored, hlive⟩ := Option.filter_eq_some_iff.mp htask
    simp only [Database.progress, hstored, Option.map_some] at hrow
    obtain ⟨before, hbefore, hsame⟩ := Option.map_eq_some_iff.mp hrow.symm
    obtain ⟨hstatus, hdeleted⟩ := Prod.mk.inj hsame
    rw [← hstatus]
    refine h.status hfinished before (Option.filter_eq_some_iff.mpr ⟨hbefore, ?_⟩)
    rw [hdeleted]
    exact hlive

/-- What was reported last is stored, and what was analysed was stored as well. -/
structure PollsOrdered (s : WindowPolls) : Prop where
  settled : ∀ windows, s.previous = some windows → ∀ w ∈ windows, Settled s.db w
  stored : ∀ t ∈ s.analysed, t ∈ s.completed ∧ t ∈ s.db.windows ∧ t ∈ s.db.tasks
  distinct : s.analysed.Nodup

theorem PollsOrdered.update {s : WindowPolls} {db' : Database}
    (hframe : db'.progress = s.db.progress) (h : PollsOrdered s) :
    PollsOrdered { s with db := db' } where
  settled windows hprevious w hmem := (h.settled windows hprevious w hmem).frame hframe
  stored t hmem := by
    obtain ⟨hcompleted, hwindow, htask⟩ := h.stored t hmem
    have hwindows : db'.windows = s.db.windows := congrArg Prod.fst hframe
    exact ⟨hcompleted, hwindows ▸ hwindow, (mem_tasks_of_progress hframe).mpr htask⟩
  distinct := h.distinct

theorem WindowsSynced.mem_windows {windows : List ContinuousWindowInfo} {analysed : List String}
    {db' : Database} (h : WindowsSynced windows db analysed db') {t : String}
    (hmem : t ∈ db.windows) : t ∈ db'.windows := by
  by_cases ht : t ∈ windows.map ContinuousWindowInfo.windowTid
  · obtain ⟨w, hw, rfl⟩ := List.mem_map.mp ht
    exact (h.settled w hw).mem_windows
  · rw [Std.ExtTreeMap.mem_iff_isSome_getElem?] at hmem ⊢
    rw [(h.others t ht).2]
    exact hmem

/-- A poll starts the analysis of no window for which an earlier one did. -/
theorem PollsOrdered.poll {s : WindowPolls} {windows : List ContinuousWindowInfo}
    {analysed : List String} {db' : Database} (h : PollsOrdered s)
    (hsynced : WindowsSynced windows s.db analysed db')
    (hstays : ∀ w ∈ windows, w.Ready → w.windowTid ∈ s.completed →
      StaysCompleted s.db w.windowTid) :
    PollsOrdered
      { db := db'
        previous := some windows
        completed := s.completed ++ (windows.filter fun w => w.Ready).map
          ContinuousWindowInfo.windowTid
        analysed := s.analysed ++ analysed } where
  settled := by
    rintro _ ⟨⟩
    exact hsynced.settled
  stored t hmem := by
    rcases List.mem_append.mp hmem with hmem | hmem
    · obtain ⟨hcompleted, hwindow, htask⟩ := h.stored t hmem
      exact ⟨List.mem_append_left _ hcompleted, hsynced.mem_windows hwindow, hsynced.grows t htask⟩
    · obtain ⟨w, hw, rfl, hready, htask, -⟩ := hsynced.started t hmem
      have hlisted : w ∈ windows.filter fun w => w.Ready :=
        List.mem_filter.mpr ⟨hw, decide_eq_true hready⟩
      exact ⟨List.mem_append_right _ (List.mem_map_of_mem hlisted),
        (hsynced.settled w hw).mem_windows, htask⟩
  distinct := by
    refine List.nodup_append.mpr ⟨h.distinct, hsynced.distinct, ?_⟩
    rintro t hbefore _ hnow rfl
    obtain ⟨hcompleted, hwindow, htask⟩ := h.stored t hbefore
    obtain ⟨w, hw, rfl, hready, -, hnew⟩ := hsynced.started t hnow
    exact hnew hwindow htask (hstays w hw hready hcompleted)

/-- A repeated poll only writes the texts. -/
theorem leavesTasks_iff {s : WindowPolls} {windows : List ContinuousWindowInfo}
    {analysed completed : List String} {db' : Database} (h : PollsOrdered s)
    (hprevious : s.previous = some windows)
    (hsynced : WindowsSynced windows s.db analysed db') :
    LeavesTasks s ⟨db', some windows, completed, s.analysed ++ analysed⟩ ↔
      TextsStand s.db windows := by
  obtain ⟨rfl, hhistory, hverdicts⟩ := hsynced.quiet (h.settled windows hprevious)
  constructor
  · intro hleaves w hw hfinished task htask
    have hsame := (hverdicts w hw).symm.trans (hleaves.verdicts w.windowTid)
    rw [htask, Option.map_some, Option.map_some, if_pos hfinished, Option.some.injEq] at hsame
    exact (congrArg (fun verdict => verdict.2.2) hsame).symm
  · intro htexts
    refine ⟨fun t => ?_, hhistory, List.append_nil _⟩
    by_cases ht : t ∈ windows.map ContinuousWindowInfo.windowTid
    · obtain ⟨w, hw, rfl⟩ := List.mem_map.mp ht
      refine (hverdicts w hw).trans (Option.map_congr fun task htask => ?_)
      by_cases hfinished : w.Finished
      · rw [if_pos hfinished, ← htexts w hw hfinished task htask]
        rfl
      · rw [if_neg hfinished]
        rfl
    · dsimp only
      unfold Database.task?
      rw [(hsynced.others t ht).1]

end Windows

/-! ## Runs -/

section Runs

variable {assigns analysisConfigured : Bool} {tid : String}

theorem PollsOrdered.step {s t : WindowPolls} {event : WindowEvent} (h : PollsOrdered s)
    (hsteady : SteadyPoll tid s event)
    (hs : s.step assigns analysisConfigured tid event = some t) :
    PollsOrdered t ∧ (event.Repeats s → LeavesTasks s t) := by
  cases event with
  | update update =>
      rw [← Option.some.inj hs]
      exact ⟨h.update ((preserves_progress_analysis update).run_eq s.db), False.elim⟩
  | poll uid reply earliest latest =>
      rcases run_getContinuousWindows assigns analysisConfigured uid tid
        (reply.map WindowsReply.windows) earliest latest s.db with
        ⟨-, hrun⟩ | ⟨parent, list, haccess, hrun, hlist⟩
      · simp only [WindowPolls.step, hrun, Option.some.injEq] at hs
        rw [← hs]
        exact ⟨h, fun _ => ⟨fun _ => rfl, rfl, rfl⟩⟩
      · simp only [WindowPolls.step, hrun, Option.some.injEq, hlist] at hs
        rw [← hs]
        cases reply with
        | none =>
            simp only [Option.map_none, Option.getD_none, syncWindows, Program.run_pure,
              Option.none_or, List.filter_nil, List.map_nil, List.append_nil]
            exact ⟨h, False.elim⟩
        | some reply =>
            obtain ⟨htexts, hstays⟩ := hsteady haccess
            have hsynced := windowsSynced assigns analysisConfigured parent reply.distinct s.db
            exact ⟨h.poll hsynced hstays, fun hrepeats =>
              (leavesTasks_iff h hrepeats hsynced).mpr (htexts hrepeats)⟩

/-- Polls are idempotent where texts stand and windows stay completed. -/
theorem pollsIdempotent_of_steady {ok : WindowPolls → WindowEvent → Prop}
    (h : ∀ s event, ok s event → SteadyPoll tid s event) :
    PollsIdempotent assigns analysisConfigured tid ok := by
  intro db s hreach
  have hordered : PollsOrdered s := by
    refine hreach.invariant ?_ fun s event t hs hok hstep => (hs.step (h s event hok) hstep).1
    exact ⟨(fun _ h => by cases h), (fun _ h => by cases h), .nil⟩
  exact ⟨hordered.distinct, fun event t hok hrepeats hs =>
    (hordered.step (h s event hok) hs).2 hrepeats⟩

/-- Task c runs, and its window is completed. -/
def windowServer : Database :=
  { tasks := (∅ : StdMap HotmethodTask).insert "c" { tid := "c", uid := "u", type := 2 } }

/-- Window 0 of task c. -/
def windowReply (status : ℤ) : WindowsReply where
  windows := [⟨"c_w0", 0, 0, 300, status, "profiler/c_w0/c_w0.collapsed"⟩]
  distinct := by simp

def windowPoll (status : ℤ) : WindowEvent := .poll "u" (some (windowReply status)) none none

def windowRun (assigns : Bool) (events : List WindowEvent) : WindowPolls :=
  Transition.after (WindowPolls.step assigns true "c") { db := windowServer } events

/-- The analysis succeeds and repeats the text of the poll. -/
def analysedBetween : List WindowEvent :=
  [windowPoll 0, windowPoll 1, windowPoll 1,
    .update (.reported "u" "c_w0" analysisStatusSuccess "continuous window completed")]

theorem pollsIdempotent_analysedBetween :
    (windowRun true analysedBetween).analysed = ["c_w0"] ∧
      ∀ t, (windowRun true analysedBetween).step true true "c" (windowPoll 1) = some t →
        LeavesTasks (windowRun true analysedBetween) t := by
  have hrun : Transition.Along (WindowPolls.step true true "c") (SteadyPoll "c")
        { db := windowServer } analysedBetween ∧
      (Transition.run (WindowPolls.step true true "c") { db := windowServer }
        analysedBetween).isSome ∧
      (windowRun true analysedBetween).analysed = ["c_w0"] ∧
      SteadyPoll "c" (windowRun true analysedBetween) (windowPoll 1) ∧
      (windowRun true analysedBetween).previous = some (windowReply 1).windows := by
    decide +kernel
  obtain ⟨halong, hsome, hanalysed, hsteady, hprevious⟩ := hrun
  exact ⟨hanalysed, fun t hs => (pollsIdempotent_of_steady (fun _ _ h => h) _ _
    (halong.reachable hsome)).2 (windowPoll 1) t hsteady hprevious hs⟩

/-- The analysis succeeds and says so. -/
def analysisReported : List WindowEvent :=
  [windowPoll 1, .update (.reported "u" "c_w0" analysisStatusSuccess "analysis completed")]

/-- The next poll takes the text of the analysis back. -/
theorem not_pollsIdempotent : ¬ ∃ assigns, PollsIdempotent assigns true "c" fun _ _ => True := by
  rintro ⟨assigns, h⟩
  have hrun : Transition.Along (WindowPolls.step assigns true "c") (fun _ _ => True)
        { db := windowServer } analysisReported ∧
      (Transition.run (WindowPolls.step assigns true "c") { db := windowServer }
        analysisReported).isSome ∧
      (windowRun assigns analysisReported).previous = some (windowReply 1).windows ∧
      ∃ t ∈ (windowRun assigns analysisReported).step assigns true "c" (windowPoll 1),
        (t.db.task? "c_w0").map HotmethodTask.verdict ≠
          ((windowRun assigns analysisReported).db.task? "c_w0").map HotmethodTask.verdict := by
    cases assigns <;> decide +kernel
  obtain ⟨halong, hsome, hprevious, t, hs, hchanged⟩ := hrun
  exact hchanged (((h _ _ (halong.reachable hsome)).2 (windowPoll 1) t trivial hprevious
    hs).verdicts "c_w0")

end Runs

end MiniDrop
