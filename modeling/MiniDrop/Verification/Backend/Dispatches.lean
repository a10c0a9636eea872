import MiniDrop.Library.Guarantee
import MiniDrop.Verification.Api.Rows
import MiniDrop.Verification.Backend.Orphans
import MiniDrop.Verification.Backend.Schedules

/-! # What is sent to drop_server

Requests that bind a body check the parameters of a task. RetryTask and the cron engine read them
off rows, and the rows of windows have no duration. -/

namespace MiniDrop

/-! ## The property -/

/-- The task has a process and a duration, and the type that its data is analysed as fits the
collector. -/
def ControlCall.Proper (db : Database) : ControlCall → Prop
  | .createTask _ taskDesc =>
    taskDesc.sampleArgv.pid ≠ 0 ∧ 1 ≤ taskDesc.sampleArgv.duration ∧
      ∃ row ∈ db.tasks[taskDesc.taskId]?, taskDesc.taskType = .ofInt row.type ∧
        taskDesc.profilerType = .ofInt row.profilerType ∧
        isValidTaskProfilerCombination row.type row.profilerType = true
  | .startContinuous request =>
    -- the windows are analysed as tasks of type 0
    request.pid ≠ 0 ∧ 1 ≤ request.windowSec ∧
      isValidTaskProfilerCombination 0 request.profilerType.toNat = true
  | .stopContinuous _ => True

instance (db : Database) (call : ControlCall) : Decidable (call.Proper db) := by
  unfold ControlCall.Proper
  refine call.casesOn ?_ ?_ ?_ <;> intros <;> dsimp only <;> infer_instance

/-- All that was sent is proper, and so are the tasks that stand for windows. -/
structure SendsProper (b : Backend) : Prop where
  sent : ∀ dispatch ∈ b.sent, dispatch.call.Proper b.db
  windows : ∀ (tid : String) (row : HotmethodTask), b.db.tasks[tid]? = some row →
    row.masterTaskTid ≠ "" → isValidTaskProfilerCombination row.type row.profilerType = true

/-- In all runs from the start whose steps satisfy `ok`, only proper tasks are sent. -/
def DispatchesProper (env : Environment) (ok : BackendPool → RestartEvent → Prop) : Prop :=
  ∀ pool : BackendPool, Transition.Reachable (restartStep env) ok { store := {} } pool →
    SendsProper pool.store

/-! ## The condition -/

/-- A duration that is read off a row as `float64` fits `uint64`. -/
def HotmethodTask.Fits (task : HotmethodTask) : Prop :=
  numberParam task.requestParams "duration" < 18446744073709551616

instance (task : HotmethodTask) : Decidable task.Fits := inferInstanceAs (Decidable (_ < _))

/-- RetryTask does not read the row of a window, and durations fit. -/
structure RepeatsProper (mark : BackendMark) (b : Backend) (fails : Bool) : Prop where
  retries : fails = false → ∀ tid ∈ mark.retries, ∀ row ∈ b.db.task? tid,
    row.masterTaskTid = "" ∧ row.Fits
  fires : fails = false → ∀ i ∈ mark.fires, ∀ entry ∈ b.schedule.cron[i]?, entry.2.Fits

instance (mark : BackendMark) (b : Backend) (fails : Bool) :
    Decidable (RepeatsProper mark b fails) :=
  decidable_of_iff
    ((fails = false → ∀ tid ∈ mark.retries, ∀ row ∈ b.db.task? tid,
        row.masterTaskTid = "" ∧ row.Fits) ∧
      (fails = false → ∀ i ∈ mark.fires, ∀ entry ∈ b.schedule.cron[i]?, entry.2.Fits))
    ⟨fun h => ⟨h.1, h.2⟩, fun h => ⟨h.retries, h.fires⟩⟩

/-- A fresh id is not one of a continuous task. -/
def Fresh (tid : String) : Prop := ¬ hasPrefix tid "cp_"

instance (tid : String) : Decidable (Fresh tid) := inferInstanceAs (Decidable (¬ _))

/-- Continuous tasks collect with perf, and ids are fresh. -/
def BackendRequest.AsksProper : BackendRequest → Prop
  | createTask _ _ tid .. => Fresh tid
  | createNaturalLanguageTask _ _ tid _ _ req .. =>
    Fresh tid ∧ ((buildNaturalLanguagePlan req "").mode = .continuous →
      (buildNaturalLanguagePlan req "").profilerType = 0)
  | retryTask _ _ _ _ _ newTid _ => Fresh newTid
  | executeScheduledTask _ _ newTid .. => Fresh newTid
  | createContinuousTask _ _ _ _ req .. => req.profilerType = 0
  | _ => True

instance (request : BackendRequest) : Decidable request.AsksProper := by
  unfold BackendRequest.AsksProper
  split <;> infer_instance

/-- The steps of a run that repeats no window, with continuous tasks for perf alone. -/
abbrev ProperStep : BackendPool → RestartEvent → Prop :=
  Pool.LawfulOrReset BackendRequest.AsksProper (fun _ _ => RepeatsProper) fun _ => True

/-! ## Numbers -/

theorem asFloat64_of_lt {n : ℤ} (h : n.natAbs < 9007199254740992) : asFloat64 n = n := by
  have hlog : n.natAbs.log2 - 52 = 0 := by
    by_cases hzero : n.natAbs = 0
    · rw [hzero, Nat.log2_zero]
    · have := (Nat.log2_lt (k := 53) hzero).mpr h
      omega
  simp [asFloat64, hlog]

theorem one_le_asFloat64 {n : ℤ} (h : 1 ≤ n) : 1 ≤ asFloat64 n := by
  obtain ⟨m, rfl⟩ := Int.eq_ofNat_of_zero_le (show 0 ≤ n by omega)
  have hm : m ≠ 0 := by omega
  have hunit : 2 ^ (m.log2 - 52) ≤ m :=
    (Nat.pow_le_pow_right (by omega) (Nat.sub_le _ _)).trans (Nat.log2_self_le hm)
  have hpos : 1 ≤ 2 ^ (m.log2 - 52) := Nat.one_le_two_pow
  have hcast : (2 : ℤ) ^ (m.log2 - 52) = ((2 ^ (m.log2 - 52) : ℕ) : ℤ) := by
    push_cast
    rfl
  simp only [asFloat64, Int.natAbs_natCast, hcast]
  generalize 2 ^ (m.log2 - 52) = unit at *
  have hq : 1 ≤ (m : ℤ) / unit := Int.le_ediv_of_mul_le (by omega) (by omega)
  split
  · exact Int.mul_pos (by omega) (by omega)
  · exact Int.mul_pos (by omega) (by omega)

theorem int32_ne_zero {n : ℤ} (hne : n ≠ 0) (hleast : -2147483648 ≤ n) (hmost : n ≤ 2147483647) :
    Int32.ofInt n ≠ 0 := by
  intro h
  have hzero := congrArg Int32.toInt h
  rw [Int32.toInt_ofInt_of_le (by omega) (by omega)] at hzero
  exact hne hzero

theorem one_le_uint64 {n : ℤ} (hleast : 1 ≤ n) (hmost : n < 18446744073709551616) :
    1 ≤ UInt64.ofInt n := by
  rw [UInt64.le_iff_toNat_le, UInt64.ofInt, UInt64.toNat_ofNat']
  simp only [UInt64.toNat_one]
  omega

theorem one_le_uint32 {n : ℤ} (hleast : 1 ≤ n) (hmost : n < 4294967296) : 1 ≤ UInt32.ofInt n := by
  rw [UInt32.le_iff_toNat_le, UInt32.ofInt, UInt32.toNat_ofNat']
  simp only [UInt32.toNat_one]
  omega

/-! ## Sound parameters -/

/-- The parameters of a task that may be sent. -/
structure CreateTaskReq.Sound (req : CreateTaskReq) : Prop where
  valid : isValidTaskProfilerCombination req.type req.profilerType = true
  pid : req.pid ≠ 0 ∧ -2147483648 ≤ req.pid ∧ req.pid ≤ 2147483647
  duration : 1 ≤ req.duration ∧ req.duration < 18446744073709551616

/-- The row of a task that may be repeated. -/
structure HotmethodTask.Sound (task : HotmethodTask) : Prop where
  valid : isValidTaskProfilerCombination task.type task.profilerType = true
  pid : numberParam task.requestParams "pid" ≠ 0 ∧
    -2147483648 ≤ numberParam task.requestParams "pid" ∧
    numberParam task.requestParams "pid" ≤ 2147483647
  duration : 1 ≤ numberParam task.requestParams "duration"

theorem CreateTaskReq.Sound.newTask {req : CreateTaskReq} (h : req.Sound) (now : ℤ)
    (tid uid userName : String) : (newTask now tid uid userName req).Sound := by
  obtain ⟨hne, hleast, hmost⟩ := h.pid
  have hpid : numberParam (MiniDrop.newTask now tid uid userName req).requestParams "pid" =
      req.pid := asFloat64_of_lt (by omega)
  refine ⟨h.valid, ?_, one_le_asFloat64 h.duration.1⟩
  rw [hpid]
  exact h.pid

theorem HotmethodTask.Sound.retryReq {task : HotmethodTask} (h : task.Sound) (hfits : task.Fits) :
    task.retryReq.Sound := by
  have hduration : uint64Param task.requestParams "duration" =
      numberParam task.requestParams "duration" := if_pos hfits
  refine ⟨h.valid, h.pid, ?_⟩
  show 1 ≤ uint64Param task.requestParams "duration" ∧
    uint64Param task.requestParams "duration" < 18446744073709551616
  rw [hduration]
  exact ⟨h.duration, hfits⟩

/-- The row of a continuous task has type 2, that of a window type 0. -/
structure RowSound (tid : String) (row : HotmethodTask) : Prop where
  key : row.tid = tid
  task : Fresh tid → row.Sound
  perf : ¬ Fresh tid → row.profilerType = 0
  parent : ¬ Fresh tid → row.masterTaskTid = "" → row.type = 2 ∧ parentOf tid = none
  window : ¬ Fresh tid → row.masterTaskTid ≠ "" → row.type = 0

theorem RowSound.kept {tid : String} {row row' : HotmethodTask} (h : RowSound tid row)
    (hkept : row.Kept row') : RowSound tid row' where
  key := hkept.tid.trans h.key
  task hfresh := by
    obtain ⟨hvalid, hpid, hduration⟩ := h.task hfresh
    refine ⟨?_, hkept.requestParams ▸ hpid, hkept.requestParams ▸ hduration⟩
    rw [hkept.type, hkept.profilerType]
    exact hvalid
  perf hold := hkept.profilerType.trans (h.perf hold)
  parent hold hmaster := by
    rw [hkept.type]
    exact h.parent hold (hkept.masterTaskTid ▸ hmaster)
  window hold hmaster := hkept.type.trans (h.window hold (hkept.masterTaskTid ▸ hmaster))

/-- A window is analysed with a collector that fits, and so is a one-shot task. -/
theorem RowSound.valid {tid : String} {row : HotmethodTask} (h : RowSound tid row)
    (hmaster : row.masterTaskTid ≠ "") :
    isValidTaskProfilerCombination row.type row.profilerType = true := by
  by_cases hfresh : Fresh tid
  · exact (h.task hfresh).valid
  · rw [h.window hfresh hmaster, h.perf hfresh]
    rfl

theorem RowSound.of_task {task : HotmethodTask} (h : task.Sound) (hfresh : Fresh task.tid) :
    RowSound task.tid task :=
  ⟨rfl, fun _ => h, fun hold => absurd hfresh hold, fun hold => absurd hfresh hold,
    fun hold => absurd hfresh hold⟩

/-! ## The guarantee -/

/-- Rows with fresh ids are only inserted, and all rows are sound. -/
def SoundWrite (tid : String) (old : Option HotmethodTask) (row' : HotmethodTask) : Prop :=
  (Fresh tid → old = none) ∧ ((∀ row ∈ old, RowSound tid row) → RowSound tid row')

/-- What was sent stays known under a fresh id. -/
structure ControlCall.Sound (db : Database) (call : ControlCall) : Prop where
  proper : call.Proper db
  fresh : ∀ targetIp taskDesc, call = .createTask targetIp taskDesc → Fresh taskDesc.taskId

/-- All rows, entries of the cron engine and sent tasks are sound. -/
structure Backend.Sound (b : Backend) : Prop where
  named : b.service.Named
  rows : ∀ (tid : String) row, b.db.tasks[tid]? = some row → RowSound tid row
  cron : ∀ entry ∈ b.schedule.cron, entry.2.Sound
  sent : ∀ dispatch ∈ b.sent, dispatch.call.Sound b.db

/-- Rows with fresh ids stay what they are. -/
def KeepsFresh (db db' : Database) : Prop :=
  ∀ (tid : String) row, Fresh tid → db.tasks[tid]? = some row →
    ∃ row', db'.tasks[tid]? = some row' ∧ row'.type = row.type ∧
      row'.profilerType = row.profilerType

theorem KeepsFresh.refl (db : Database) : KeepsFresh db db :=
  fun _ row _ hrow => ⟨row, hrow, rfl, rfl⟩

theorem KeepsFresh.trans {db db' db'' : Database} (h : KeepsFresh db db')
    (h' : KeepsFresh db' db'') : KeepsFresh db db'' := by
  intro tid row hfresh hrow
  obtain ⟨row', hrow', htype, hprofiler⟩ := h tid row hfresh hrow
  obtain ⟨row'', hrow'', htype', hprofiler'⟩ := h' tid row' hfresh hrow'
  exact ⟨row'', hrow'', htype'.trans htype, hprofiler'.trans hprofiler⟩

theorem ControlCall.Sound.mono {db db' : Database} {call : ControlCall} (h : call.Sound db)
    (hkeeps : KeepsFresh db db') : call.Sound db' := by
  refine ⟨?_, h.fresh⟩
  cases call with
  | createTask targetIp taskDesc =>
      obtain ⟨hpid, hduration, row, hrow, htype, hprofiler, hvalid⟩ := h.proper
      obtain ⟨row', hrow', htype', hprofiler'⟩ := hkeeps _ row (h.fresh _ _ rfl) hrow
      refine ⟨hpid, hduration, row', hrow', ?_, ?_, ?_⟩
      · rw [htype', htype]
      · rw [hprofiler', hprofiler]
      · rw [htype', hprofiler', hvalid]
  | startContinuous request => exact h.proper
  | stopContinuous taskId => trivial

theorem Backend.Sound.sendsProper {b : Backend} (h : b.Sound) : SendsProper b where
  sent dispatch hmem := (h.sent dispatch hmem).proper
  windows tid row hrow hmaster := (h.rows tid row hrow).valid hmaster

def soundness : Guarantee Backend where
  inv := Backend.Sound
  rel b t := KeepsFresh b.db t.db
  refl b := .refl b.db
  trans := .trans

theorem keepsFresh_of_rowsFrom {db db' : Database} (h : RowsFrom SoundWrite db db') :
    KeepsFresh db db' := by
  intro tid row hfresh hrow
  have hknown := h.known tid (Std.ExtTreeMap.mem_iff_isSome_getElem?.mpr (by simp [hrow]))
  obtain ⟨row', hrow'⟩ := Option.isSome_iff_exists.mp
    (Std.ExtTreeMap.mem_iff_isSome_getElem?.mp hknown)
  rcases h.rows tid row' hrow' with ⟨old, hold, hkept⟩ | ⟨hnone, -⟩
  · obtain rfl : row = old := Option.some.inj (hrow.symm.trans hold)
    exact ⟨row', hrow', hkept.type, hkept.profilerType⟩
  · rw [hnone hfresh] at hrow
    cases hrow

theorem rowSound_of_rowsFrom {db db' : Database} (h : RowsFrom SoundWrite db db')
    (hrows : ∀ (tid : String) row, db.tasks[tid]? = some row → RowSound tid row) (tid : String)
    (row' : HotmethodTask) (hrow' : db'.tasks[tid]? = some row') : RowSound tid row' := by
  rcases h.rows tid row' hrow' with ⟨row, hrow, hkept⟩ | ⟨-, hsound⟩
  · exact (hrows tid row hrow).kept hkept
  · exact hsound fun row hrow => hrows tid row hrow

theorem Backend.Sound.setDb {b : Backend} {db : Database} (h : b.Sound)
    (hrows : RowsFrom SoundWrite b.db db) : ({ b with db } : Backend).Sound where
  named := h.named
  rows := rowSound_of_rowsFrom hrows h.rows
  cron := h.cron
  sent dispatch hmem := (h.sent dispatch hmem).mono (keepsFresh_of_rowsFrom hrows)

theorem Backend.Sound.setService {b : Backend} {service : HotmethodService} (h : b.Sound)
    (hnamed : service.Named) : ({ b with service } : Backend).Sound :=
  ⟨hnamed, h.rows, h.cron, h.sent⟩

theorem Backend.Sound.dispatched {b : Backend} {uid targetIp : String} {call : ControlCall}
    (h : b.Sound) (hcall : call.Sound b.db) : (b.dispatched uid targetIp call).Sound where
  named := h.named
  rows := h.rows
  cron := h.cron
  sent dispatch hmem := by
    rcases List.mem_append.mp hmem with hmem | hmem
    · exact h.sent dispatch hmem
    · rw [List.mem_singleton.mp hmem]
      exact hcall

/-! ## Statements -/

section Statements

variable {α β : Type} {P : soundness.Fact} {mark : BackendMark} {m : Mark}

theorem onDb_update (change : Database → Option Database) :
    onDb mark (Program.update m change) =
      Program.update { mark with change := fun db => (change db).getD db, table := m } fun b =>
        (change b.db).map fun db => { b with db } := by
  have hact : (fun b : Backend => { b with db := (change b.db).getD b.db }) = fun b =>
      ((change b.db).map fun db => { b with db }).getD b := by
    funext b
    cases change b.db <;> rfl
  have hnext : ∀ b : Backend, ((change b.db).map fun db => { b with db }).isSome =
      (change b.db).isSome := fun b => Option.isSome_map
  simp only [onDb, Program.update, Program.lift, hact, hnext]

theorem keeps_onDb {p : Statements α} (h : Writes SoundWrite p) :
    soundness.Triple P (onDb mark p) fun _ => P := by
  refine Guarantee.Triple.of_moves (R := fun b t => ∃ db, t = { b with db } ∧
    RowsFrom SoundWrite b.db db) ?_ (Program.Moves.lift h ?_)
  · rintro b _ ⟨db, rfl, hrows⟩ hsound
    exact ⟨keepsFresh_of_rowsFrom hrows, hsound.setDb hrows⟩
  · exact fun db b hrows => ⟨db, rfl, hrows⟩

/-- A change of the memory of the server. -/
theorem keeps_transact {change : Backend → α × Backend}
    (h : ∀ b, b.Sound → (change b).2.Sound ∧ (change b).2.db = b.db) :
    soundness.Triple P (Program.transact mark change) fun _ => P := by
  refine Guarantee.Triple.transact ?_ ?_
  · intro b hsound hP
    obtain ⟨hsound', hdb⟩ := h b hsound
    have hrel : soundness.rel b (change b).2 := by
      show KeepsFresh b.db (change b).2.db
      rw [hdb]
      exact .refl b.db
    exact ⟨hrel, hsound', P.stable hsound hsound' hP hrel⟩
  · exact fun _ _ hP => hP

/-- The row of the task is there, for the collector that it was created for. -/
def stored (task : HotmethodTask) (hfresh : Fresh task.tid) : soundness.Fact where
  holds b := ∃ row, b.db.tasks[task.tid]? = some row ∧ row.type = task.type ∧
    row.profilerType = task.profilerType
  stable _ _ hstored hrel := by
    obtain ⟨row, hrow, htype, hprofiler⟩ := hstored
    obtain ⟨row', hrow', htype', hprofiler'⟩ := hrel task.tid row hfresh hrow
    exact ⟨row', hrow', htype'.trans htype, hprofiler'.trans hprofiler⟩

theorem soundWrite_new {task : HotmethodTask} (h : RowSound task.tid task) :
    SoundWrite task.tid none task :=
  ⟨fun _ => rfl, fun _ => h⟩

theorem triple_insertTask {task : HotmethodTask} (h : task.Sound) (hfresh : Fresh task.tid) :
    soundness.Triple P (onDb mark (Program.update m fun db => db.createTask task)) fun inserted =>
      if inserted then stored task hfresh else .top _ := by
  rw [onDb_update]
  refine Guarantee.Triple.update ?_ fun _ _ _ => trivial
  intro b t hsound _ hcreate
  obtain ⟨db, hdb, rfl⟩ := Option.map_eq_some_iff.mp hcreate
  have hrows := RowsFrom.createTask hdb (soundWrite_new (.of_task h hfresh))
  refine ⟨keepsFresh_of_rowsFrom hrows, hsound.setDb hrows, task, ?_, rfl, rfl⟩
  rw [(Database.createTask_eq_some b.db hdb).2]
  exact Std.ExtTreeMap.getElem?_insert_self

/-! ## Calls -/

/-- Continuous tasks have ids of their own kind. -/
theorem taskId_start {s : HotmethodService} {now : ℤ} {request : StartContinuousRequest}
    (h : (s.handle now (.startContinuous request)).2.code = 0) :
    (s.handle now (.startContinuous request)).2.taskId = HotmethodService.parentTidAt now := by
  simp only [HotmethodService.handle, HotmethodService.startContinuousRpc] at h ⊢
  split at h
  · cases h
  · split at h
    · cases h
    · rename_i hip hpid
      rw [if_neg hip, if_neg hpid]
      cases hroom : s.hasRoom request.targetIp with
      | false =>
          rw [s.startContinuousTask_of_full now hroom] at h
          cases h
      | true =>
          rw [s.startContinuousTask_of_hasRoom now hroom]
          exact if_neg (parentTidAt_ne now) ▸ rfl

/-- What an accepted call answers with. -/
def Names (call : ControlCall) (answer : RpcReply × String) : Prop :=
  ∀ request message, call = .startContinuous request → answer.1 = .answered 0 message →
    ∃ now, answer.2 = HotmethodService.parentTidAt now

theorem triple_callControl {now : ℤ} {call : ControlCall} {fate : Option RpcFate}
    {note : Backend → Backend}
    (hnote : ∀ b, b.Sound → P.holds b → (note b).Sound ∧ (note b).db = b.db) :
    soundness.Triple P (callControl mark now call fate note) fun answer =>
      .pure (Names call answer) := by
  have hfailed : ∀ error tid, Names call (.failed error, tid) := fun _ _ _ _ _ h => by cases h
  have hkeeps : ∀ b service, b.Sound → P.holds b → service.Named →
      soundness.rel b { note b with service } ∧ ({ note b with service } : Backend).Sound := by
    intro b service hsound hP hnamed
    obtain ⟨hsound', hdb⟩ := hnote b hsound hP
    refine ⟨?_, hsound'.setService hnamed⟩
    show KeepsFresh b.db (note b).db
    rw [hdb]
    exact .refl b.db
  rcases fate with _ | (error | error | _)
  · exact Guarantee.Triple.pure fun _ _ _ _ _ _ h => by cases h
  · refine Guarantee.Triple.bind (Q := fun _ => .top _) (Guarantee.Triple.transact ?_ ?_) ?_
    · exact fun b hsound hP =>
        ⟨(hkeeps b _ hsound hP (hnote b hsound hP).1.named).1, (hnote b hsound hP).1, trivial⟩
    · exact fun _ _ _ => trivial
    · exact fun _ => Guarantee.Triple.pure fun _ _ _ => hfailed error ""
  · refine Guarantee.Triple.bind (Q := fun _ => .top _) (Guarantee.Triple.transact ?_ ?_) ?_
    · intro b hsound hP
      obtain ⟨hrel, hsound'⟩ := hkeeps b _ hsound hP (hsound.named.handle now call)
      exact ⟨hrel, hsound', trivial⟩
    · exact fun _ _ _ => trivial
    · exact fun _ => Guarantee.Triple.pure fun _ _ _ => hfailed error ""
  · refine Guarantee.Triple.bind (Q := fun response => .pure (∀ answer ∈ response,
      Names call (.answered answer.code answer.message, answer.taskId)))
      (Guarantee.Triple.transact ?_ ?_) ?_
    · intro b hsound hP
      obtain ⟨hrel, hsound'⟩ := hkeeps b _ hsound hP (hsound.named.handle now call)
      refine ⟨hrel, hsound', fun answer hanswer request message hcall hcode => ?_⟩
      obtain rfl := Option.some.inj hanswer
      subst hcall
      exact ⟨now, taskId_start (RpcReply.answered.inj hcode).1⟩
    · exact fun _ _ _ _ h => by cases h
    · rintro (_ | response)
      · exact Guarantee.Triple.pure fun _ _ _ => hfailed "" ""
      · exact Guarantee.Triple.pure fun _ _ h => h response rfl

end Statements

/-! ## Sending a task with its row -/

/-- The message says of a task what its row says. -/
structure TaskDesc.Describes (taskDesc : TaskDesc) (task : HotmethodTask) : Prop where
  taskId : taskDesc.taskId = task.tid
  taskType : taskDesc.taskType = .ofInt task.type
  profilerType : taskDesc.profilerType = .ofInt task.profilerType
  pid : taskDesc.sampleArgv.pid ≠ 0
  duration : 1 ≤ taskDesc.sampleArgv.duration

theorem CreateTaskReq.Sound.message {req : CreateTaskReq} (h : req.Sound) (now : ℤ)
    (tid uid userName : String) :
    (req.message tid).Describes (MiniDrop.newTask now tid uid userName req) where
  taskId := rfl
  taskType := rfl
  profilerType := rfl
  pid := int32_ne_zero h.pid.1 h.pid.2.1 h.pid.2.2
  duration := one_le_uint64 h.duration.1 h.duration.2

theorem HotmethodTask.Sound.scheduledMessage {schedule : HotmethodTask} (h : schedule.Sound)
    (hfits : schedule.Fits) (now : ℤ) (newTid : String) :
    (Backend.scheduledMessage newTid schedule).Describes (scheduledTask now newTid schedule) where
  taskId := rfl
  taskType := rfl
  profilerType := rfl
  pid := int32_ne_zero h.pid.1 h.pid.2.1 h.pid.2.2
  duration := by
    have hduration : uint64Param schedule.requestParams "duration" =
        numberParam schedule.requestParams "duration" := if_pos hfits
    show 1 ≤ UInt64.ofInt (uint64Param schedule.requestParams "duration")
    rw [hduration]
    exact one_le_uint64 h.duration hfits

section Requests

variable {α β : Type} {P : soundness.Fact} {mark : BackendMark} {now steadyNow : ℤ}
  {fate : Option RpcFate} {cleanup : RpcFate} {uid userName : String}

theorem triple_dispatchTask {task : HotmethodTask} {taskDesc : TaskDesc} {created queued : String}
    {rejection : RpcReply → Option String} (h : task.Sound) (hfresh : Fresh task.tid)
    (hdesc : taskDesc.Describes task) :
    soundness.Triple P
      (dispatchTask mark steadyNow task taskDesc created queued rejection fate)
      fun _ => .top _ := by
  unfold dispatchTask
  refine (triple_insertTask h hfresh).bind fun inserted => ?_
  cases inserted with
  | false => exact Guarantee.Triple.pure fun _ _ _ => trivial
  | true =>
      apply (keeps_onDb (writes_recordStateChange _ _ _ _ _ _)).bind
      intro _
      refine Guarantee.Triple.bind (triple_callControl ?_) ?_
      · intro b hsound hstored
        obtain ⟨row, hrow, htype, hprofiler⟩ : ∃ row, _ := hstored
        refine ⟨hsound.dispatched ⟨⟨hdesc.pid, hdesc.duration, row, ?_, ?_, ?_, ?_⟩, ?_⟩, rfl⟩
        · rw [hdesc.taskId]
          exact hrow
        · rw [hdesc.taskType, htype]
        · rw [hdesc.profilerType, hprofiler]
        · rw [htype, hprofiler]
          exact h.valid
        · intro targetIp taskDesc' heq
          obtain ⟨-, rfl⟩ := ControlCall.createTask.inj heq
          rw [hdesc.taskId]
          exact hfresh
      · rintro ⟨reply, tid⟩
        refine Guarantee.Triple.of_pure fun _ => ?_
        dsimp only
        cases rejection reply with
        | none =>
            exact (keeps_onDb (writes_updateTaskStatusInfo _ _)).bind fun _ =>
              Guarantee.Triple.pure fun _ _ _ => trivial
        | some reason =>
            apply Guarantee.Triple.bind (Q := fun _ => .top _)
              (keeps_onDb (writes_updateTask _ _ ?_))
            · intro _
              exact (keeps_onDb (writes_recordStateChange _ _ _ _ _ _)).bind fun _ =>
                Guarantee.Triple.pure fun _ _ _ => trivial
            · exact fun _ => ⟨rfl, rfl, rfl, rfl, rfl, rfl, rfl, id⟩

/-- The program sends sound tasks alone, as long as `RepeatsProper` holds. -/
abbrev SendsSound (p : BackendProgram α) : Prop :=
  soundness.TripleIf RepeatsProper (.top _) p fun _ => .top _

theorem SendsSound.pure (result : α) : SendsSound (Pure.pure result) :=
  Guarantee.TripleIf.pure fun _ _ _ => trivial

theorem SendsSound.bind {p : BackendProgram α} {k : α → BackendProgram β} (h : SendsSound p)
    (hk : ∀ result, SendsSound (k result)) : SendsSound (p >>= k) :=
  Guarantee.TripleIf.bind h hk

theorem sendsSound_onDb {p : Statements α} (h : Writes SoundWrite p) : SendsSound (onDb mark p) :=
  (keeps_onDb h).restrict

theorem sendsSound_createTaskInternal {tid : String} {req : CreateTaskReq} (hfresh : Fresh tid)
    (hreq : isValidTaskProfilerCombination req.type req.profilerType = true → req.Sound) :
    SendsSound (Backend.createTaskInternal now steadyNow tid uid userName req fate) := by
  apply (sendsSound_onDb (writes_canAccessAgentIP _ _)).bind
  intro allowed
  split
  · exact .pure _
  cases hvalid : isValidTaskProfilerCombination req.type req.profilerType with
  | false => exact .pure _
  | true =>
      have hsound := hreq hvalid
      refine SendsSound.bind (triple_dispatchTask (hsound.newTask now tid uid userName) hfresh
        (hsound.message now tid uid userName)).restrict ?_
      rintro (_ | reply) <;> exact .pure _

theorem sendsSound_createTask {tid : String} {req : CreateTaskReq} (hfresh : Fresh tid) :
    SendsSound (Backend.createTask now steadyNow tid uid userName req fate) := by
  unfold Backend.createTask
  split
  · exact .pure _
  · rename_i hbinds
    simp only [CreateTaskReq.binds, Bool.not_eq_true', decide_eq_false_iff_not, not_not] at hbinds
    obtain ⟨-, -, hne, hleast, hmost, hduration, hfits, -⟩ := hbinds
    exact sendsSound_createTaskInternal hfresh fun hvalid =>
      ⟨hvalid, ⟨hne, hleast, hmost⟩, hduration, hfits⟩

/-! ## Reading a row -/

/-- The row that a request reads has a property that all such rows have. -/
theorem tripleIf_checkTaskAccess {may : BackendMark → Backend → Bool → Prop} {tid : String}
    {holds : Bool} {R : HotmethodTask → Prop}
    (hread : ∀ b table, b.Sound → may { mark with table, change := id } b false →
      ∀ row, b.db.task? tid = some row → R row) :
    soundness.TripleIf may P (onDb mark (checkTaskAccess uid tid holds)) fun task =>
      .pure (∀ row, task = some row → R row) := by
  unfold checkTaskAccess firstTask
  rw [onDb_bind, onDb_bind]
  refine Guarantee.TripleIf.bind (Q := fun found => .pure (∀ row, found = .ok row → R row)) ?_ ?_
  · refine Guarantee.TripleIf.bind
      (Q := fun found => .pure (∀ row, found = some (some row) → R row))
      (Guarantee.TripleIf.query ?_ ?_) ?_
    · intro b hsound _ hmay row hrow
      exact hread b _ hsound hmay row (Option.some.inj hrow)
    · exact fun _ _ _ row hrow => by cases hrow
    · rintro (_ | _ | row)
      · exact Guarantee.TripleIf.pure fun _ _ _ row hrow => by cases hrow
      · exact Guarantee.TripleIf.pure fun _ _ _ row hrow => by cases hrow
      · refine Guarantee.TripleIf.pure fun _ _ hR row' hrow' => ?_
        obtain rfl := Except.ok.inj hrow'
        exact hR row rfl
  · rintro (error | row)
    · exact Guarantee.TripleIf.pure fun _ _ _ row hrow => by cases hrow
    · dsimp only
      rw [onDb_bind]
      refine Guarantee.TripleIf.bind (keeps_onDb (writes_mayAccess _ _ _)).restrict ?_
      intro allowed
      cases allowed with
      | false => exact Guarantee.TripleIf.pure fun _ _ _ row hrow => by cases hrow
      | true =>
          refine Guarantee.TripleIf.pure fun _ _ hR row' hrow' => ?_
          obtain rfl := Option.some.inj hrow'
          exact hR row rfl

theorem sendsSound_retryTask {tid newTid : String} (hfresh : Fresh newTid) :
    SendsSound (Backend.retryTask now steadyNow uid userName tid newTid fate) := by
  -- a row with a combination that fits is that of a one-shot task, unless it is a window
  refine Guarantee.TripleIf.bind (tripleIf_checkTaskAccess (R := fun row =>
    isValidTaskProfilerCombination row.type row.profilerType = true → row.Sound ∧ row.Fits) ?_) ?_
  · intro b table hsound hmay row hrow hvalid
    obtain ⟨hmaster, hfits⟩ := hmay.retries rfl tid rfl row hrow
    have hstored := hsound.rows tid row (Option.filter_eq_some_iff.mp hrow).1
    by_cases hfresh : Fresh tid
    · exact ⟨hstored.task hfresh, hfits⟩
    · rw [(hstored.parent hfresh hmaster).1, hstored.perf hfresh] at hvalid
      cases hvalid
  · rintro (_ | task)
    · exact Guarantee.TripleIf.pure fun _ _ _ => trivial
    refine Guarantee.TripleIf.of_pure fun hrow => ?_
    dsimp only
    cases hvalid : isValidTaskProfilerCombination task.type task.profilerType with
    | false => exact SendsSound.pure _
    | true =>
        obtain ⟨hsound, hfits⟩ := hrow task rfl hvalid
        have hreq := hsound.retryReq hfits
        refine SendsSound.bind (triple_dispatchTask (hreq.newTask now newTid uid userName) hfresh
          (hreq.message now newTid uid userName)).restrict ?_
        rintro (_ | reply) <;> exact .pure _

theorem sendsSound_executeScheduledTask {newTid : String} {i : ℕ} (hfresh : Fresh newTid) :
    SendsSound (Backend.executeScheduledTask now steadyNow newTid i fate) := by
  refine Guarantee.TripleIf.bind (Q := fun found => .pure (∀ entry : ℕ × HotmethodTask,
    found = some (some entry) → entry.2.Sound ∧ entry.2.Fits)) (Guarantee.TripleIf.query ?_ ?_) ?_
  · intro b hsound _ hmay entry hentry
    have hfound := Option.some.inj hentry
    exact ⟨hsound.cron entry (List.mem_of_getElem? hfound), hmay.fires rfl i rfl entry hfound⟩
  · exact fun _ _ _ _ h => by cases h
  · rintro (_ | _ | ⟨id, schedule⟩)
    · exact Guarantee.TripleIf.pure fun _ _ _ => trivial
    · exact Guarantee.TripleIf.pure fun _ _ _ => trivial
    · refine Guarantee.TripleIf.of_pure fun hentry => ?_
      obtain ⟨hsound, hfits⟩ := hentry _ rfl
      have hrun : (scheduledTask now newTid schedule).Sound :=
        ⟨hsound.valid, hsound.pid, hsound.duration⟩
      exact SendsSound.bind (triple_dispatchTask hrun hfresh
        (hsound.scheduledMessage hfits now newTid)).restrict fun _ => .pure _

/-! ## Continuous tasks -/

/-- The parameters of a continuous task that collects with perf. -/
structure CreateContinuousReq.Sound (req : CreateContinuousReq) : Prop where
  perf : req.profilerType = 0
  pid : req.pid ≠ 0 ∧ -2147483648 ≤ req.pid ∧ req.pid ≤ 2147483647
  windowSec : 0 ≤ req.windowSec ∧ req.windowSec < 4294967296

theorem CreateContinuousReq.Sound.message {req : CreateContinuousReq} (h : req.Sound)
    (db : Database) : (ControlCall.startContinuous req.message).Sound db := by
  refine ⟨⟨int32_ne_zero h.pid.1 h.pid.2.1 h.pid.2.2, ?_, ?_⟩, fun _ _ heq => by cases heq⟩
  · obtain ⟨hleast, hmost⟩ := h.windowSec
    apply one_le_uint32
    · split <;> omega
    · split <;> omega
  · show isValidTaskProfilerCombination 0 (UInt32.ofInt req.profilerType).toNat = true
    rw [h.perf]
    rfl

/-- The id of a continuous task is not that of a window. -/
theorem parentOf_parentTidAt (now : ℤ) : parentOf (HotmethodService.parentTidAt now) = none := by
  have hmark : ¬ "_w".toList <:+: (HotmethodService.parentTidAt now).toList := by
    intro hinfix
    have hmem : 'w' ∈ (HotmethodService.parentTidAt now).toList := hinfix.subset (by decide)
    rw [HotmethodService.parentTidAt, String.toList_append, List.mem_append,
      toList_toString_int] at hmem
    have hdigits : ∀ n, 'w' ∉ Nat.toDigits 10 n := fun n h => by
      have := Nat.isDigit_of_mem_toDigits (by omega) (by omega) h
      cases this
    rcases hmem with hmem | hmem
    · revert hmem
      decide
    · split at hmem <;> simp [hdigits] at hmem
  rw [parentOf, splitWindowTid, Text.rfind_eq_none_iff.mpr hmark]
  rfl

theorem not_fresh_parentTidAt (now : ℤ) : ¬ Fresh (HotmethodService.parentTidAt now) :=
  fun hfresh => hfresh (isPrefix_parentTidAt now)

theorem CreateContinuousReq.Sound.row {req : CreateContinuousReq} (h : req.Sound) (now started : ℤ)
    (uid userName : String) :
    let task := continuousTask now (HotmethodService.parentTidAt started) uid userName req
    RowSound task.tid task where
  key := rfl
  task hfresh := absurd hfresh (not_fresh_parentTidAt started)
  perf _ := h.perf
  parent _ _ := ⟨rfl, parentOf_parentTidAt started⟩
  window _ hmaster := absurd rfl hmaster

theorem triple_createContinuousInternal {req : CreateContinuousReq} (h : req.Sound) :
    soundness.Triple P
      (Backend.createContinuousInternal now steadyNow uid userName req fate cleanup) fun _ =>
        .top _ := by
  unfold Backend.createContinuousInternal
  apply Guarantee.Triple.bind (Q := fun _ => P) (keeps_onDb (writes_canAccessAgentIP _ _))
  intro allowed
  cases allowed with
  | false => exact Guarantee.Triple.pure fun _ _ _ => trivial
  | true =>
      refine Guarantee.Triple.bind (triple_callControl ?_) ?_
      · exact fun b hsound _ => ⟨hsound.dispatched (h.message b.db), rfl⟩
      · rintro ⟨_ | error | ⟨code, message⟩, tid⟩
        · exact Guarantee.Triple.pure fun _ _ _ => trivial
        · exact Guarantee.Triple.pure fun _ _ _ => trivial
        refine Guarantee.Triple.of_pure fun hnames => ?_
        dsimp only
        split
        · exact Guarantee.Triple.pure fun _ _ _ => trivial
        · rename_i hcode
          obtain rfl : code = 0 := not_not.mp hcode
          obtain ⟨started, rfl⟩ := hnames req.message message rfl rfl
          apply Guarantee.Triple.bind
            (keeps_onDb (writes_createTask _ (soundWrite_new (h.row now started uid userName))))
          intro inserted
          cases inserted with
          | false =>
              refine Guarantee.Triple.bind (triple_callControl ?_) fun _ =>
                Guarantee.Triple.pure fun _ _ _ => trivial
              exact fun b hsound _ => ⟨hsound, rfl⟩
          | true =>
              exact (keeps_onDb (writes_recordStateChange _ _ _ _ _ _)).bind fun _ =>
                Guarantee.Triple.pure fun _ _ _ => trivial

theorem sendsSound_createContinuousTask {req : CreateContinuousReq} (hperf : req.profilerType = 0) :
    SendsSound (Backend.createContinuousTask now steadyNow uid userName req fate cleanup) := by
  unfold Backend.createContinuousTask
  split
  · exact .pure _
  · rename_i hbinds
    simp only [CreateContinuousReq.binds, Bool.not_eq_true', decide_eq_false_iff_not, not_not]
      at hbinds
    obtain ⟨-, hne, hleast, hmost, -, -, hwindow, hfits⟩ := hbinds
    exact (triple_createContinuousInternal
      ⟨hperf, ⟨hne, hleast, hmost⟩, hwindow, hfits⟩).restrict

/-! ## Plans -/

namespace NaturalLanguageTaskPlan

/-- What the description leaves of a plan that it does not make continuous. -/
structure OneShot (plan : NaturalLanguageTaskPlan) : Prop where
  valid : isValidTaskProfilerCombination plan.type plan.profilerType = true
  duration : plan.mode = .oneshot → 1 ≤ plan.duration ∧ plan.duration ≤ 3600
  windowSec : plan.windowSec = 300

theorem oneShot_readNumbers (d : Description) (targetIp : String) (pid : Int32) :
    OneShot (readNumbers d { targetIp, pid }) := by
  refine ⟨rfl, fun _ => ?_, rfl⟩
  unfold readNumbers
  dsimp only
  split
  · unfold clampInt
    omega
  · omega

theorem OneShot.chooseMode {plan : NaturalLanguageTaskPlan} (h : plan.OneShot) (d : Description) :
    (plan.chooseMode d).OneShot := by
  unfold NaturalLanguageTaskPlan.chooseMode
  split
  · exact ⟨h.valid, fun hmode => (by cases hmode), rfl⟩
  · exact h

theorem OneShot.chooseKind {plan : NaturalLanguageTaskPlan} (h : plan.OneShot) (d : Description) :
    (plan.chooseKind d).OneShot := by
  unfold NaturalLanguageTaskPlan.chooseKind
  repeat' split
  all_goals exact ⟨(by first | exact h.valid | rfl), h.duration, h.windowSec⟩

theorem OneShot.settleContinuous {plan : NaturalLanguageTaskPlan} (h : plan.OneShot) :
    plan.settleContinuous.windowSec = 300 ∧
      (plan.settleContinuous.mode = .oneshot → plan.settleContinuous.OneShot) := by
  unfold NaturalLanguageTaskPlan.settleContinuous
  split
  · rename_i hmode
    exact ⟨h.windowSec, fun hone => by cases hmode.symm.trans hone⟩
  · exact ⟨h.windowSec, fun _ => h⟩

theorem pid_of_missing {plan : NaturalLanguageTaskPlan} (h : plan.missing.missingFields = []) :
    0 < plan.pid := by
  obtain ⟨-, hpid⟩ := List.append_eq_nil_iff.mp h
  by_contra hle
  rw [if_pos (Int32.not_lt.mp hle)] at hpid
  cases hpid

/-- Two plans are for the same kind of task. -/
def SameKind (plan other : NaturalLanguageTaskPlan) : Prop :=
  plan.mode = other.mode ∧ plan.profilerType = other.profilerType

theorem SameKind.chooseMode {plan other : NaturalLanguageTaskPlan} (h : plan.SameKind other)
    (d : Description) : (plan.chooseMode d).SameKind (other.chooseMode d) := by
  unfold NaturalLanguageTaskPlan.chooseMode
  split
  · exact ⟨rfl, h.2⟩
  · exact h

theorem SameKind.chooseKind {plan other : NaturalLanguageTaskPlan} (h : plan.SameKind other)
    (d : Description) : (plan.chooseKind d).SameKind (other.chooseKind d) := by
  unfold NaturalLanguageTaskPlan.chooseKind
  repeat' split
  all_goals exact ⟨h.1, (by first | exact h.2 | rfl)⟩

theorem sameKind_settled (plan : NaturalLanguageTaskPlan) :
    plan.settleContinuous.missing.SameKind plan := by
  unfold NaturalLanguageTaskPlan.settleContinuous
  split <;> exact ⟨rfl, rfl⟩

end NaturalLanguageTaskPlan

/-- The agent makes no difference for the kind of a plan. -/
theorem sameKind_plan (req : NaturalLanguageTaskReq) (firstAgent other : String) :
    (buildNaturalLanguagePlan req firstAgent).SameKind (buildNaturalLanguagePlan req other) := by
  have hkind : ∀ plan plan' : NaturalLanguageTaskPlan, plan.SameKind plan' →
      ((plan.chooseMode req.text).chooseKind req.text).settleContinuous.missing.SameKind
        ((plan'.chooseMode req.text).chooseKind req.text).settleContinuous.missing := by
    intro plan plan' h
    have hchosen := (h.chooseMode req.text).chooseKind req.text
    have hleft := NaturalLanguageTaskPlan.sameKind_settled
      ((plan.chooseMode req.text).chooseKind req.text)
    have hright := NaturalLanguageTaskPlan.sameKind_settled
      ((plan'.chooseMode req.text).chooseKind req.text)
    exact ⟨(hleft.1.trans hchosen.1).trans hright.1.symm,
      (hleft.2.trans hchosen.2).trans hright.2.symm⟩
  exact hkind _ _ ⟨rfl, rfl⟩

/-- A plan without missing fields has a process, and parameters for its mode. -/
theorem plan_spec (req : NaturalLanguageTaskReq) (firstAgent : String)
    (hcomplete : (buildNaturalLanguagePlan req firstAgent).missingFields = []) :
    0 < (buildNaturalLanguagePlan req firstAgent).pid ∧
      (buildNaturalLanguagePlan req firstAgent).windowSec = 300 ∧
      ((buildNaturalLanguagePlan req firstAgent).mode = .oneshot →
        (buildNaturalLanguagePlan req firstAgent).OneShot) := by
  unfold buildNaturalLanguagePlan at hcomplete ⊢
  dsimp only at hcomplete ⊢
  have hplan := ((NaturalLanguageTaskPlan.oneShot_readNumbers req.text
    (if (if req.text.ip ≠ "" then req.text.ip else req.targetIp) = "" then firstAgent
      else if req.text.ip ≠ "" then req.text.ip else req.targetIp) req.pid).chooseMode
    req.text).chooseKind req.text
  obtain ⟨hwindow, hone⟩ := hplan.settleContinuous
  refine ⟨NaturalLanguageTaskPlan.pid_of_missing hcomplete, hwindow, fun hmode => ?_⟩
  obtain ⟨hvalid, hduration, hwindow⟩ := hone hmode
  exact ⟨hvalid, hduration, hwindow⟩

theorem sendsSound_createNaturalLanguageTask {tid : String} {req : NaturalLanguageTaskReq}
    {order : List ℕ} (hfresh : Fresh tid)
    (hperf : (buildNaturalLanguagePlan req "").mode = .continuous →
      (buildNaturalLanguagePlan req "").profilerType = 0) :
    SendsSound (Backend.createNaturalLanguageTask now steadyNow tid uid userName req order fate
      cleanup) := by
  have hfirst : SendsSound (Backend.defaultAgent uid req order) := by
    unfold Backend.defaultAgent
    split
    · exact sendsSound_onDb (writes_firstAccessibleOnlineAgentIP _ _)
    · exact .pure _
  refine hfirst.bind fun firstAgent => ?_
  obtain ⟨hmode, hprofiler⟩ := sameKind_plan req firstAgent ""
  have hspec := plan_spec req firstAgent
  dsimp only
  generalize buildNaturalLanguagePlan req firstAgent = plan at hmode hprofiler hspec
  split
  · exact .pure _
  · rename_i hcomplete
    obtain ⟨hpid, hwindow, hone⟩ := hspec (not_not.mp hcomplete)
    have hrange : plan.pid.toInt ≠ 0 ∧ -2147483648 ≤ plan.pid.toInt ∧
        plan.pid.toInt ≤ 2147483647 := by
      have hpos : 0 < plan.pid.toInt := Int32.lt_iff_toInt_lt.mp hpid
      have hmost := plan.pid.toInt_lt
      omega
    cases hcase : plan.mode with
    | continuous =>
        refine (triple_createContinuousInternal ⟨?_, hrange, ?_⟩).restrict
        · exact hprofiler.trans (hperf (hmode.symm.trans hcase))
        · dsimp only
          omega
    | oneshot =>
        obtain ⟨hvalid, hduration, -⟩ := hone hcase
        obtain ⟨hleast, hmost⟩ := hduration hcase
        refine sendsSound_createTaskInternal hfresh fun _ => ⟨hvalid, hrange, ?_⟩
        dsimp only
        omega

/-! ## Windows -/

theorem soundWrite_window {parent : HotmethodTask} {p : String} {w : ContinuousWindowInfo}
    (hparent : RowSound p parent) (hp : ¬ Fresh p) (hw : ¬ Fresh w.windowTid)
    (hwindow : IsWindowOf p w.windowTid) :
    SoundWrite w.windowTid none (windowTask parent w) ∧
      ∀ existing row,
        SoundWrite w.windowTid (some row) (updateWindowTask parent w existing row) := by
  have hmaster : parent.tid ≠ "" := by
    rw [hparent.key]
    exact hwindow.parent_ne
  refine ⟨⟨fun _ => rfl, fun _ => ⟨rfl, fun hfresh => absurd hfresh hw, fun _ => hparent.perf hp,
    fun _ heq => absurd heq hmaster, fun _ _ => rfl⟩⟩, fun existing row => ⟨fun hfresh =>
    absurd hfresh hw, fun hrow => ?_⟩⟩
  have hold := hrow row rfl
  refine ⟨hold.key, fun hfresh => absurd hfresh hw, fun _ => hparent.perf hp,
    fun _ heq => absurd heq hmaster, fun _ _ => ?_⟩
  by_cases hrow' : row.masterTaskTid = ""
  · rw [IsWindowOf, (hold.parent hw hrow').2] at hwindow
    cases hwindow
  · exact hold.window hw hrow'

theorem sendsSound_getContinuousWindows {assigns analysisConfigured reached : Bool}
    {tid : String} :
    SendsSound (Backend.getContinuousWindows assigns analysisConfigured uid tid reached) := by
  refine Guarantee.TripleIf.bind (tripleIf_checkTaskAccess (R := RowSound tid) ?_) ?_
  · exact fun b _ hsound _ row hrow => hsound.rows tid row (Option.filter_eq_some_iff.mp hrow).1
  · rintro (_ | parentTask)
    · exact Guarantee.TripleIf.pure fun _ _ _ => trivial
    refine Guarantee.TripleIf.of_pure fun hrow => ?_
    have hparent := hrow parentTask rfl
    dsimp only
    split
    · -- windows are only recorded for continuous tasks
      refine Guarantee.TripleIf.bind
        (Q := fun found => .pure (∀ windows, found = some (some windows) →
          ∀ record ∈ windows, ¬ Fresh tid ∧ ¬ Fresh record.windowTid ∧
            IsWindowOf tid record.windowTid)) (Guarantee.TripleIf.query ?_ ?_) ?_
      · intro b hsound _ _ windows hwindows record hrecord
        have hlisted := Option.some.inj hwindows
        unfold HotmethodService.listWindows at hlisted
        split at hlisted
        · cases hlisted
        · obtain rfl := Option.some.inj hlisted
          obtain ⟨hknown, hwindow⟩ := hsound.named.windows tid record hrecord
          obtain ⟨started, rfl⟩ := hsound.named.parents tid hknown
          exact ⟨not_fresh_parentTidAt started,
            fun hfresh => hfresh (hsound.named.isPrefix_window hrecord), hwindow⟩
      · exact fun _ _ _ _ h => by cases h
      · rintro (_ | _ | windows)
        · exact Guarantee.TripleIf.pure fun _ _ _ => trivial
        · exact Guarantee.TripleIf.pure fun _ _ _ => trivial
        · refine Guarantee.TripleIf.of_pure fun hrecords => ?_
          have hwrites : ∀ w ∈ windows.map Backend.windowInfo,
              SoundWrite w.windowTid none (windowTask parentTask w) ∧ ∀ existing row,
                SoundWrite w.windowTid (some row) (updateWindowTask parentTask w existing row) := by
            intro w hw
            obtain ⟨record, hrecord, rfl⟩ := List.mem_map.mp hw
            obtain ⟨hp, hfresh, hwindow⟩ := hrecords windows rfl record hrecord
            exact soundWrite_window hparent hp hfresh hwindow
          exact (sendsSound_onDb (writes_syncWindows assigns analysisConfigured
            (fun w hw => (hwrites w hw).1) fun w hw => (hwrites w hw).2)).bind fun _ => .pure _
    · exact SendsSound.pure _

/-! ## Schedules -/

theorem sound_scheduleTask {tid : String} {req : CreateScheduleReq} (hbinds : req.binds = true)
    (hvalid : isValidTaskProfilerCombination req.type req.profilerType = true) :
    (scheduleTask tid uid userName req).Sound := by
  simp only [CreateScheduleReq.binds, decide_eq_true_eq] at hbinds
  obtain ⟨-, -, hne, hleast, hmost, hduration, -⟩ := hbinds
  have hpid : numberParam (scheduleTask tid uid userName req).requestParams "pid" = req.pid :=
    asFloat64_of_lt (by omega)
  refine ⟨hvalid, ?_, one_le_asFloat64 hduration⟩
  rw [hpid]
  exact ⟨hne, hleast, hmost⟩

theorem Backend.Sound.setSchedule {b : Backend} {schedule : ScheduleManager} (h : b.Sound)
    (hcron : ∀ entry ∈ schedule.cron, entry.2.Sound) : ({ b with schedule } : Backend).Sound :=
  ⟨h.named, h.rows, hcron, h.sent⟩

theorem ScheduleManager.sound_register {sm : ScheduleManager} {accepts : String → Bool}
    {cronExpr : String} {task : HotmethodTask} (h : ∀ entry ∈ sm.cron, entry.2.Sound)
    (htask : task.Sound) : ∀ entry ∈ (sm.register accepts cronExpr task).cron, entry.2.Sound := by
  unfold ScheduleManager.register
  split
  · intro entry hentry
    rcases List.mem_append.mp hentry with hentry | hentry
    · exact h entry hentry
    · rw [List.mem_singleton.mp hentry]
      exact htask
  · exact h

theorem ScheduleManager.sound_unregister {sm : ScheduleManager} {tid : String}
    (h : ∀ entry ∈ sm.cron, entry.2.Sound) :
    ∀ entry ∈ (sm.unregister tid).cron, entry.2.Sound := by
  unfold ScheduleManager.unregister
  cases sm.entries[tid]? with
  | none => exact h
  | some id => exact fun entry hentry => h entry (List.mem_of_mem_filter hentry)

theorem ScheduleManager.sound_load {accepts : String → Bool} {rows : List HotmethodTask}
    (h : ∀ row ∈ rows, row.Sound) :
    ∀ entry ∈ (ScheduleManager.load accepts rows).cron, entry.2.Sound := by
  have hfold : ∀ rows : List HotmethodTask, (∀ row ∈ rows, row.Sound) →
      ∀ sm : ScheduleManager, (∀ entry ∈ sm.cron, entry.2.Sound) →
      ∀ entry ∈ (rows.foldl (fun sm task =>
        if textParam task.requestParams "cron_expr" = "" then sm
        else sm.register accepts (textParam task.requestParams "cron_expr") task) sm).cron,
        entry.2.Sound := by
    intro rows
    induction rows with
    | nil => exact fun _ sm hsm => hsm
    | cons row rows ih =>
        intro hrows sm hsm
        refine ih (fun other hother => hrows other (List.mem_cons_of_mem row hother)) _ ?_
        dsimp only
        split
        · exact hsm
        · exact sound_register hsm (hrows row List.mem_cons_self)
  exact hfold rows h {} (by simp)

theorem fresh_of_schedule {tid : String} (h : hasPrefix tid "sched-") : Fresh tid := by
  rintro ⟨rest, hrest⟩
  obtain ⟨rest', hrest'⟩ := h
  have heads := congrArg List.head? (hrest.trans hrest'.symm)
  simp at heads

theorem sendsSound_createScheduleTask {parser : CronParser} {suffix : String}
    {req : CreateScheduleReq} :
    SendsSound (Backend.createScheduleTask parser suffix uid userName req) := by
  unfold Backend.createScheduleTask
  cases hbinds : req.binds with
  | false => exact .pure _
  | true =>
      simp only [Bool.not_true, Bool.false_eq_true, if_false]
      have hfresh : Fresh ("sched-" ++ suffix) := by
        apply fresh_of_schedule
        rw [hasPrefix, String.toList_append]
        exact List.prefix_append _ _
      generalize "sched-" ++ suffix = tid at hfresh
      refine Guarantee.TripleIf.bind (Q := fun result => .pure (∀ created,
        result = .created created → (scheduleTask tid uid userName req).Sound)) ?_ ?_
      · refine Guarantee.Triple.restrict ?_
        unfold MiniDrop.createScheduleTask
        rw [onDb_bind]
        refine Guarantee.Triple.bind (keeps_onDb (writes_canAccessAgentIP _ _)) fun allowed => ?_
        cases allowed with
        | false => exact Guarantee.Triple.pure fun _ _ _ _ h => by cases h
        | true =>
            cases hvalid : isValidTaskProfilerCombination req.type req.profilerType with
            | false => exact Guarantee.Triple.pure fun _ _ _ _ h => by cases h
            | true =>
                have hsound : (scheduleTask tid uid userName req).Sound :=
                  sound_scheduleTask hbinds hvalid
                cases parser.validate req.cronExpr with
                | some error => exact Guarantee.Triple.pure fun _ _ _ _ h => by cases h
                | none =>
                    simp only [Bool.not_true, Bool.false_eq_true, if_false]
                    rw [onDb_bind]
                    refine Guarantee.Triple.bind (keeps_onDb (writes_createTask _
                      (soundWrite_new (.of_task hsound hfresh)))) fun inserted => ?_
                    cases inserted with
                    | false => exact Guarantee.Triple.pure fun _ _ _ _ _ => hsound
                    | true => exact Guarantee.Triple.pure fun _ _ _ _ _ => hsound
      · rintro (created | ⟨httpStatus, code, message⟩)
        · refine Guarantee.TripleIf.of_pure fun hcreated => ?_
          have hsound := hcreated created rfl
          refine SendsSound.bind (Guarantee.Triple.restrict (keeps_transact ?_)) fun _ => .pure _
          exact fun b hb =>
            ⟨hb.setSchedule (ScheduleManager.sound_register hb.cron hsound), rfl⟩
        · exact Guarantee.TripleIf.pure fun _ _ _ => trivial

theorem sendsSound_deleteScheduleTask {tid : String} :
    SendsSound (Backend.deleteScheduleTask uid tid) := by
  have hdelete : Writes SoundWrite (deleteScheduleTask uid tid) := by
    apply (writes_softDelete _ _ _).bind
    rintro (_ | _ | _) <;> exact .pure _
  apply (sendsSound_onDb hdelete).bind
  rintro (_ | answer)
  · exact .pure _
  dsimp only
  split
  · refine SendsSound.bind (Guarantee.Triple.restrict (keeps_transact ?_)) fun _ => .pure _
    exact fun b hb => ⟨hb.setSchedule (ScheduleManager.sound_unregister hb.cron), rfl⟩
  · exact .pure _

theorem sendsSound_stopContinuousTask {tid : String} :
    SendsSound (Backend.stopContinuousTask now uid tid fate) := by
  apply (sendsSound_onDb (writes_checkTaskAccess _ _ _)).bind
  rintro (_ | task)
  · exact .pure _
  · refine Guarantee.TripleIf.bind (Guarantee.Triple.restrict (triple_callControl ?_)) ?_
    · exact fun b hsound _ => ⟨hsound, rfl⟩
    · exact fun _ => Guarantee.TripleIf.of_pure fun _ => sendsSound_onDb (writes_settleStop _ _ _ _)

/-- Every request keeps the guarantee. -/
theorem sendsSound_program (env : Environment) (request : BackendRequest)
    (hasks : request.AsksProper) : SendsSound (request.program env) := by
  cases request with
  | createTask now steadyNow tid uid userName req fate =>
      exact (sendsSound_createTask hasks).bind fun _ => .pure _
  | createNaturalLanguageTask =>
      exact (sendsSound_createNaturalLanguageTask hasks.1 hasks.2).bind fun _ => .pure _
  | retryTask => exact (sendsSound_retryTask hasks).bind fun _ => .pure _
  | createScheduleTask => exact sendsSound_createScheduleTask.bind fun _ => .pure _
  | deleteScheduleTask => exact sendsSound_deleteScheduleTask.bind fun _ => .pure _
  | executeScheduledTask => exact sendsSound_executeScheduledTask hasks
  | createContinuousTask =>
      exact (sendsSound_createContinuousTask hasks).bind fun _ => .pure _
  | stopContinuousTask => exact sendsSound_stopContinuousTask.bind fun _ => .pure _
  | getContinuousWindows => exact sendsSound_getContinuousWindows
  | deleteTask => exact (sendsSound_onDb (writes_deleteTask _ _)).bind fun _ => .pure _
  | waitTaskResult => exact (sendsSound_onDb (writes_waitTaskResult _ _)).bind fun _ => .pure _
  | triggerAnalysis =>
      exact (sendsSound_onDb (writes_triggerAnalysis _ _ _ _)).bind fun _ => .pure _
  | runAnalysis => exact sendsSound_onDb (writes_runAnalysis _ _)
  | updateAnalysisStatus =>
      exact (sendsSound_onDb (writes_updateAnalysisStatus _ _ _ _ _)).bind fun _ => .pure _
  | group request => exact sendsSound_onDb (writes_group request)
  | agentCall event =>
      refine SendsSound.bind (Guarantee.Triple.restrict (keeps_transact ?_)) fun _ => .pure _
      exact fun b hb => ⟨hb.setService (hb.named.agentCall event), rfl⟩

end Requests

/-! ## Runs -/

theorem Backend.Sound.restart {parser : CronParser} {b : Backend} (h : b.Sound) (fails : Bool) :
    (Backend.restart parser fails b).Sound := by
  refine h.setSchedule (ScheduleManager.sound_load fun row hrow => ?_)
  cases fails with
  | true => cases hrow
  | false =>
      obtain ⟨hmem, hlive⟩ := List.mem_filter.mp hrow
      obtain ⟨⟨tid, row⟩, hstored, rfl⟩ := List.mem_map.mp hmem
      simp only [Bool.and_eq_true, Bool.not_eq_true'] at hlive
      have hsound := (h.rows tid row
        (Std.ExtTreeMap.mem_toList_iff_getElem?_eq_some.mp hstored)).task
          (fresh_of_schedule (List.isPrefixOf_iff_prefix.mp hlive.2))
      exact ⟨hsound.valid, hsound.pid, hsound.duration⟩

/-- In runs that repeat no window, with continuous tasks for perf alone, only proper tasks are
sent. -/
theorem dispatchesProper_of_properSteps {env : Environment}
    {ok : BackendPool → RestartEvent → Prop}
    (h : ∀ pool event, ok pool event → ProperStep pool event) : DispatchesProper env ok := by
  intro pool hreach
  have hempty : ({} : Backend).Sound := by
    refine ⟨.empty, ?_, ?_, ?_⟩ <;> simp
  have hsound := soundness.inv_of_reachable_reset hempty (sendsSound_program env)
    (fun fails b _ hb => hb.restart fails) (hreach.mono h)
  exact hsound.sendsProper

/-- The schedule of user u fires, and the user retries the task. -/
def repeatedSchedule : List RestartEvent :=
  createdSchedule ++
    [.inl (.start (.executeScheduledTask 0 8 "run" 0 (some .answered))), .inl (.advance 2 false),
      .inl (.advance 2 false), .inl (.advance 2 false), .inl (.advance 2 false),
      .inl (.advance 2 false),
      .inl (.start (.retryTask 0 9 "u" "user" "run" "again" (some .answered))),
      .inl (.advance 3 false), .inl (.advance 3 false), .inl (.advance 3 false),
      .inl (.advance 3 false), .inl (.advance 3 false), .inr false]

theorem dispatchesProper_repeatedSchedule :
    (restartPool repeatedSchedule).store.sent.length = 2 ∧
      SendsProper (restartPool repeatedSchedule).store := by
  have hrun : Transition.Along (restartStep {}) ProperStep { store := {} } repeatedSchedule ∧
      (Transition.run (restartStep {}) { store := {} } repeatedSchedule).isSome ∧
      (restartPool repeatedSchedule).store.sent.length = 2 := by
    decide +kernel
  obtain ⟨halong, hsome, hlength⟩ := hrun
  exact ⟨hlength, dispatchesProper_of_properSteps (fun _ _ h => h) _ (halong.reachable hsome)⟩

/-- A window of the continuous task is reported, gets its row, and is retried. -/
def retriedWindow : List (Pool.Event BackendRequest) :=
  startedTask ++
    [.start (.agentCall ⟨8, .notifyResult 0 { taskId := "cp_7_w0", cosKey := "perf.data" }⟩),
      .advance 2 false, .start (.getContinuousWindows "u" "cp_7" true), .advance 3 false,
      .advance 3 false, .advance 3 false, .advance 3 false, .advance 3 false, .advance 3 false,
      .advance 3 false, .start (.retryTask 0 9 "u" "user" "cp_7_w0" "again" (some .answered)),
      .advance 4 false, .advance 4 false, .advance 4 false, .advance 4 false]

/-- The new task has no duration. -/
theorem not_dispatchesProper : ¬ DispatchesProper {} fun _ _ => True := by
  intro h
  have hrun : Transition.Along (restartStep {}) (fun _ _ => True) { store := {} }
        (retriedWindow.map .inl) ∧
      (Transition.run (restartStep {}) { store := {} } (retriedWindow.map .inl)).isSome ∧
      ∃ dispatch ∈ (restartPool (retriedWindow.map .inl)).store.sent,
        ¬ dispatch.call.Proper (restartPool (retriedWindow.map .inl)).store.db := by
    decide +kernel
  obtain ⟨halong, hsome, dispatch, hsent, himproper⟩ := hrun
  exact himproper ((h _ (halong.reachable hsome)).sent dispatch hsent)

end MiniDrop
