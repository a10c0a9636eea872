import MiniDrop.Model.ControlService
import MiniDrop.Verification.Hotmethod.Entries
import MiniDrop.Verification.Hotmethod.WindowTid

/-! # Cached results

Collect and FetchData read them, and the TTL loop removes them with the entries of their tasks. The
result of a failed collection is cached as well. -/

namespace MiniDrop.HotmethodService

/-! ## Retrieval -/

/-- Both answers are about one entry: Collect gives its reason, FetchData its status message, or the
error that led to it. -/
def SameOutcome (s : HotmethodService) (taskId : String) : Prop :=
  ∃ state ∈ s.getTaskStatus taskId, (s.collectEnd taskId).message = state.reason ∧
    ((s.fetchData taskId).message = statusMessage state ∨
      ∃ result ∈ s.getResult taskId, state.reason = resultReason result ∧
        (s.fetchData taskId).message = result.errorMessage)

/-- Collect succeeds where FetchData does, and where neither does, they give reasons for the same
outcome. -/
structure RetrievalsAgree (s : HotmethodService) (taskId : String) : Prop where
  codes : (s.collectEnd taskId).code = 0 ↔ (s.fetchData taskId).code = 0
  reasons : (s.collectEnd taskId).code ≠ 0 → (s.fetchData taskId).code ≠ 0 →
    s.SameOutcome taskId

variable {s : HotmethodService} {taskId : String}

theorem fetchData_of_result (hnamed : taskId ≠ "") {result : TaskResult}
    (h : s.getResult taskId = some result) :
    s.fetchData taskId =
      if result.errorMessage ≠ "" then { code := -1, message := result.errorMessage }
      else { code := 0, message := "OK", file := result.file, cosKey := result.cosKey } := by
  simp [fetchData, fetchResult, hnamed, h]

theorem fetchData_of_no_result (hnamed : taskId ≠ "") (h : s.getResult taskId = none) :
    s.fetchData taskId = s.fetchStatus taskId := by
  simp [fetchData, fetchResult, hnamed, h]

theorem fetchData_nameless (s : HotmethodService) :
    s.fetchData "" = { code := -1, message := "task_id is required" } := rfl

theorem collectEnd_of_result {result : TaskResult} (h : s.getResult taskId = some result) :
    s.collectEnd taskId = { code := 0, message := "OK", result := some result } := by
  rw [getResult] at h
  simp [collectEnd, collectFinished, h]

/-- Without a result Collect gives the reason of a failed entry. -/
theorem collectEnd_of_failed (hresult : s.getResult taskId = none)
    (h : s.collectFinished taskId) : ∃ state ∈ s.getTaskStatus taskId,
      (s.collectEnd taskId).code ≠ 0 ∧ (s.collectEnd taskId).message = state.reason := by
  rw [getResult] at hresult
  cases hstate : s.tasksState[taskId]? with
  | none => simp [collectFinished, hresult, hstate] at h
  | some state =>
      refine ⟨state, hstate, ?_⟩
      simp only [collectEnd, h, Bool.not_true, Bool.false_eq_true, if_false, hresult, hstate]
      split <;> simp

theorem nameless_ne_statusMessage (state : TaskStateInfo) :
    "task_id is required" ≠ statusMessage state := by
  intro h
  have hfirst := congrArg (fun message => message.toList.head?) h
  simp [statusMessage] at hfirst

/-- FetchData tells a failed collection from a successful one, and Collect does not. -/
theorem retrievalsAgree_iff (h : s.collectFinished taskId) :
    s.RetrievalsAgree taskId ↔
      taskId ≠ "" ∧ ∀ result ∈ s.getResult taskId, result.errorMessage = "" := by
  cases hresult : s.getResult taskId with
  | some result =>
      have hcollect := collectEnd_of_result hresult
      constructor
      · intro hagree
        have hcode : (s.fetchData taskId).code = 0 := hagree.codes.mp (by rw [hcollect])
        have hnamed : taskId ≠ "" := by
          rintro rfl
          rw [fetchData_nameless] at hcode
          cases hcode
        refine ⟨hnamed, fun other hother => ?_⟩
        obtain rfl := Option.some.inj hother
        by_contra herror
        rw [fetchData_of_result hnamed hresult, if_pos herror] at hcode
        cases hcode
      · rintro ⟨hnamed, hsuccess⟩
        have hfetch := fetchData_of_result hnamed hresult
        rw [if_neg (not_not.mpr (hsuccess result rfl))] at hfetch
        refine ⟨by rw [hcollect, hfetch], fun hcode => absurd ?_ hcode⟩
        rw [hcollect]
  | none =>
      obtain ⟨state, hstate, hcode, hreason⟩ := collectEnd_of_failed hresult h
      constructor
      · rintro hagree
        refine ⟨?_, fun _ hmem => by cases hmem⟩
        rintro rfl
        obtain ⟨other, hother, hsame, hmessage | ⟨result, hmem, -⟩⟩ :=
          hagree.reasons hcode (by rw [fetchData_nameless]; decide)
        · exact nameless_ne_statusMessage other hmessage
        · rw [hresult] at hmem
          cases hmem
      · rintro ⟨hnamed, -⟩
        have hfetch := fetchData_of_no_result hnamed hresult
        unfold fetchStatus at hfetch
        rw [Option.mem_def.mp hstate] at hfetch
        refine ⟨⟨fun hzero => absurd hzero hcode, fun hzero => ?_⟩, fun _ _ =>
          ⟨state, hstate, hreason, .inl (by rw [hfetch])⟩⟩
        rw [hfetch] at hzero
        cases hzero

/-- The agent collects; its first task comes to a result, its second one fails. -/
def collectedRun : List Event :=
  [⟨0, .pushTask "a" { taskId := "t" }⟩, ⟨1, .pushTask "a" { taskId := "u" }⟩, ⟨2, .popTask "a"⟩,
    ⟨3, .popTask "a"⟩, ⟨4, .notifyResult 0 { taskId := "t", cosKey := "profiler/t/t.data" }⟩,
    ⟨5, .notifyResult 0 { taskId := "u", errorMessage := "perf failed" }⟩]

theorem retrievalsAgree_collectedRun :
    (Transition.after step {} collectedRun).RetrievalsAgree "t" :=
  (retrievalsAgree_iff (by decide +kernel)).mpr (by decide +kernel)

/-- Collect reports the failed collection as a success. -/
theorem not_retrievalsAgree : ¬ ∀ s, Transition.Reachable step (fun _ _ => True) {} s →
    ∀ taskId, s.collectFinished taskId → s.RetrievalsAgree taskId := by
  intro h
  have hreach : Transition.Reachable step (fun _ _ => True) {}
      (Transition.after step {} collectedRun) :=
    Transition.Along.reachable (by decide +kernel) (by decide +kernel)
  have hagree := h _ hreach "u" (by decide +kernel)
  have hcode : ((Transition.after step {} collectedRun).fetchData "u").code = 0 :=
    hagree.codes.mp (by decide +kernel)
  exact absurd hcode (by decide +kernel)

/-! ## Reclamation -/

/-- The task whose entry the call overwrites, NotifyResult for its own task apart. -/
def rewrites (s : HotmethodService) (e : Event) : Option String :=
  match e.call with
  | .pushTask targetIp task => if s.hasRoom targetIp then some task.taskId else none
  | .popTask targetIp => (s.queue targetIp).head?.map TaskDesc.taskId
  | .updateTaskStatus request => some request.taskId
  | .notifyResult _ request => (s.successor request).map fun next => next.2.taskId
  | .startContinuousTask request =>
    if s.hasRoom request.targetIp then some (windowTid (parentTidAt e.now) 0) else none
  | .cleanupTimeoutTasks | .stopContinuousTask _ => none

end MiniDrop.HotmethodService

namespace MiniDrop

open HotmethodService

/-- The service, with the clock reading of the last NotifyResult for each task. -/
structure ResultLog where
  service : HotmethodService := {}
  notified : StdMap ℤ := ∅

namespace ResultLog

def step (s : ResultLog) (e : Event) : Option ResultLog :=
  (s.service.step e).map fun service =>
    { service
      notified := match e.call with
        | .notifyResult _ request => s.notified.insert request.taskId e.now
        | _ => s.notified }

/-- In all runs whose steps satisfy `ok`, tasks with a result have an entry, and a cleanup pass
leaves no result whose last NotifyResult is more than an hour ago. -/
def Reclaims (ok : ResultLog → Event → Prop) : Prop :=
  ∀ s, Transition.Reachable step ok {} s →
    (∀ taskId ∈ s.service.results, taskId ∈ s.service.tasksState) ∧
      ∀ now t, ok s ⟨now, .cleanupTimeoutTasks⟩ → s.step ⟨now, .cleanupTimeoutTasks⟩ = some t →
        ∀ taskId ∈ t.service.results, ∀ stamp ∈ t.notified[taskId]?,
          now - stamp ≤ 3600 * 1000000000

/-- The entry of a task stays as NotifyResult wrote it while its result is cached. No cleanup pass
takes place less than a second after a result has been cached for an hour, which `duration_cast`
rounds down. -/
structure SparesResults (s : ResultLog) (e : Event) : Prop where
  spares : ∀ taskId ∈ s.service.rewrites e, taskId ∉ s.service.results
  whole : e.call = .cleanupTimeoutTasks → ∀ entry ∈ s.notified.toList,
    entry.1 ∈ s.service.results →
      e.now - entry.2 ≤ 3600 * 1000000000 ∨ 3601 * 1000000000 ≤ e.now - entry.2

instance (s : ResultLog) (e : Event) : Decidable (SparesResults s e) :=
  decidable_of_iff
    ((∀ taskId ∈ s.service.rewrites e, taskId ∉ s.service.results) ∧
      (e.call = .cleanupTimeoutTasks → ∀ entry ∈ s.notified.toList,
        entry.1 ∈ s.service.results →
          e.now - entry.2 ≤ 3600 * 1000000000 ∨ 3601 * 1000000000 ≤ e.now - entry.2))
    ⟨fun h => ⟨h.1, h.2⟩, fun h => ⟨h.spares, h.whole⟩⟩

/-- Each cached result has its entry still as NotifyResult wrote it. -/
def Stamped (s : ResultLog) : Prop :=
  ∀ taskId ∈ s.service.results, ∃ stamp state, s.notified[taskId]? = some stamp ∧
    s.service.tasksState[taskId]? = some state ∧ state.status.terminal ∧ state.timestamp = stamp

variable {s t : ResultLog} {e : Event}

/-- The entry of a task without a result is overwritten. -/
theorem Stamped.write (h : s.Stamped) {service : HotmethodService} {id : String}
    {info : TaskStateInfo} (hresults : service.results = s.service.results)
    (hstate : service.tasksState = s.service.tasksState.insert id info)
    (hid : id ∉ s.service.results) : Stamped { s with service } := by
  intro taskId hmem
  dsimp only at hmem ⊢
  rw [hresults] at hmem
  have hne : id ≠ taskId := fun heq => hid (heq ▸ hmem)
  rw [hstate, Std.ExtTreeMap.getElem?_insert, if_neg (by simpa using hne)]
  exact h taskId hmem

theorem Stamped.keep (h : s.Stamped) {service : HotmethodService}
    (hresults : service.results = s.service.results)
    (hstate : service.tasksState = s.service.tasksState) : Stamped { s with service } := by
  intro taskId hmem
  dsimp only at hmem ⊢
  rw [hresults] at hmem
  rw [hstate]
  exact h taskId hmem

/-- NotifyResult stamps its task. -/
theorem Stamped.notify (h : s.Stamped) (now sysNow : ℤ) (request : TaskResult) :
    Stamped ⟨s.service.bookkeep now sysNow request, s.notified.insert request.taskId now⟩ := by
  intro taskId hmem
  dsimp only at hmem ⊢
  rw [bookkeep_results, Std.ExtTreeMap.mem_insert] at hmem
  rw [bookkeep_tasksState, Std.ExtTreeMap.getElem?_insert, Std.ExtTreeMap.getElem?_insert]
  by_cases hid : request.taskId = taskId
  · refine ⟨now, ⟨resultStatus request, resultReason request, now⟩, by simp [hid], by simp [hid],
      ?_, rfl⟩
    unfold resultStatus
    split <;> rfl
  · rw [if_neg (by simpa using hid), if_neg (by simpa using hid)]
    exact h taskId (hmem.resolve_left (by simpa using hid))

/-- A cleanup pass keeps the results whose entries have not outlived the hour. -/
theorem Stamped.cleanup (h : s.Stamped) (now timeoutSec : ℤ) {taskId : String}
    (hmem : taskId ∈ (s.service.cleanupTimeoutTasks now timeoutSec).results) :
    ∃ stamp state, s.notified[taskId]? = some stamp ∧
      (s.service.cleanupTimeoutTasks now timeoutSec).tasksState[taskId]? = some state ∧
      state.status.terminal ∧ state.timestamp = stamp ∧ elapsedSeconds now stamp ≤ 3600 ∧
      taskId ∈ s.service.results := by
  rw [Std.ExtTreeMap.mem_iff_isSome_getElem?, cleanupTimeoutTasks_results] at hmem
  by_cases hgone : ∃ state ∈ s.service.tasksState[taskId]?,
      afterCleanup now timeoutSec state = none
  · rw [if_pos hgone] at hmem
    cases hmem
  · rw [if_neg hgone, ← Std.ExtTreeMap.mem_iff_isSome_getElem?] at hmem
    obtain ⟨stamp, state, hstamp, hstate, hterminal, htime⟩ := h taskId hmem
    have hover : overdue now timeoutSec state = false := by
      cases hstatus : state.status <;> simp_all [overdue, TaskStatus.terminal]
    have hkept : afterTimeout now timeoutSec state = state := by
      rw [afterTimeout, hover]
      rfl
    have hfresh : outlived now state = false := by
      by_contra hout
      refine hgone ⟨state, hstate, ?_⟩
      rw [afterCleanup, hkept, if_pos (by simpa using hout)]
    refine ⟨stamp, state, hstamp, ?_, hterminal, htime, ?_, hmem⟩
    · rw [cleanupTimeoutTasks_tasksState, hstate, Option.bind_some, afterCleanup, hkept, hfresh]
      rfl
    · simp only [outlived, hterminal, htime, Bool.true_and, decide_eq_false_iff_not] at hfresh
      omega

theorem Stamped.step (h : s.Stamped) (hspares : SparesResults s e) (hs : s.step e = some t) :
    t.Stamped := by
  obtain ⟨hspares, -⟩ := hspares
  obtain ⟨now, call⟩ := e
  obtain ⟨service, hservice, rfl⟩ := Option.map_eq_some_iff.mp hs
  cases call with
  | pushTask targetIp task =>
      obtain rfl := Option.some.inj hservice
      simp only [pushTask]
      split
      · next hroom => exact h.write rfl rfl (hspares _ (if_pos hroom))
      · exact h
  | popTask targetIp =>
      obtain rfl := Option.some.inj hservice
      cases hqueue : s.service.queue targetIp with
      | nil =>
          rw [s.service.popTask_nil now hqueue]
          exact h
      | cons task rest =>
          rw [s.service.popTask_cons now hqueue]
          refine h.write rfl rfl (hspares task.taskId ?_)
          simp [rewrites, hqueue]
  | updateTaskStatus request =>
      obtain rfl := Option.some.inj hservice
      exact h.write rfl rfl (hspares _ rfl)
  | notifyResult sysNow request =>
      have hnotified := h.notify now sysNow request
      rcases s.service.notifyResult_eq_some now sysNow request hservice with
        ⟨-, rfl⟩ | ⟨ip, task, reason, hnext, -, rfl⟩
      · exact hnotified
      · have hfresh : task.taskId ∉ s.service.results := by
          refine hspares task.taskId ?_
          simp [rewrites, hnext]
        obtain ⟨p, seq, next, config, hsplit, -, -, hseq, -, rfl⟩ :=
          s.service.successor_eq_some request hnext
        have hne := windowTid_ne_of_split hsplit hseq (isWindowOf_of_split hsplit).parent_ne
        refine hnotified.write rfl rfl ?_
        rw [bookkeep_results, Std.ExtTreeMap.mem_insert]
        rintro (hsame | hmem)
        · exact hne (Std.LawfulEqCmp.eq_of_compare hsame).symm
        · exact hfresh hmem
  | cleanupTimeoutTasks =>
      obtain rfl := Option.some.inj hservice
      intro taskId hmem
      obtain ⟨stamp, state, hstamp, hstate, hterminal, htime, -⟩ := h.cleanup now _ hmem
      exact ⟨stamp, state, hstamp, hstate, hterminal, htime⟩
  | startContinuousTask request =>
      obtain rfl := Option.some.inj hservice
      by_cases hroom : s.service.hasRoom request.targetIp = true
      · rw [s.service.startContinuousTask_of_hasRoom now hroom]
        exact h.write rfl rfl (hspares _ (if_pos hroom))
      · rw [s.service.startContinuousTask_of_full now (by simpa using hroom)]
        exact h
  | stopContinuousTask id =>
      obtain rfl := Option.some.inj hservice
      exact h.keep (by simp) (by simp)

/-- In all runs, tasks with a result have an entry. -/
theorem mem_tasksState_of_mem_results {ok : ResultLog → Event → Prop}
    (hreach : Transition.Reachable step ok {} s) :
    ∀ taskId ∈ s.service.results, taskId ∈ s.service.tasksState := by
  have hentry : ∀ taskId, (s.service.results[taskId]?).isSome →
      (s.service.statusOf taskId).isSome := by
    refine hreach.invariant (I := fun s => ∀ taskId, (s.service.results[taskId]?).isSome →
      (s.service.statusOf taskId).isSome) (by simp) ?_
    intro s e t ih _ hs taskId hresult
    obtain ⟨service, hservice, rfl⟩ := Option.map_eq_some_iff.mp hs
    dsimp only at hresult ⊢
    have hstep := entryStep taskId hservice
    generalize e.call = call at hstep
    cases hstep with
    | kept hstatus hsame =>
        rw [hsame] at hresult
        rw [hstatus]
        exact ih taskId hresult
    | queued hstatus | dispatched hstatus | updated _ hstatus | expired hstatus =>
        rw [hstatus]
        rfl
    | notified _ hstatus => rcases hstatus with hstatus | hstatus <;> simp [hstatus]
    | removed _ hnone => simp [hnone] at hresult
  intro taskId hmem
  have hsome := hentry taskId (Std.ExtTreeMap.mem_iff_isSome_getElem?.mp hmem)
  rw [Std.ExtTreeMap.mem_iff_isSome_getElem?]
  simpa [statusOf, getTaskStatus] using hsome

/-- Results are reclaimed after an hour where their entries stay as NotifyResult wrote them. -/
theorem reclaims_of_sparesResults {ok : ResultLog → Event → Prop}
    (h : ∀ s e, ok s e → SparesResults s e) : Reclaims ok := by
  intro s hreach
  have hstamped : s.Stamped := by
    refine hreach.invariant ?_ fun s e t hs hok hstep => hs.step (h s e hok) hstep
    intro taskId hmem
    simp at hmem
  refine ⟨mem_tasksState_of_mem_results hreach, fun now t hok hs taskId hmem stamp hstamp => ?_⟩
  obtain ⟨service, hservice, rfl⟩ := Option.map_eq_some_iff.mp hs
  obtain rfl := Option.some.inj hservice
  obtain ⟨stamp', state, hstamp', -, -, -, hfresh, hcached⟩ := hstamped.cleanup now _ hmem
  obtain rfl := Option.some.inj (hstamp'.symm.trans hstamp)
  have hlisted : (taskId, stamp') ∈ s.notified.toList :=
    Std.ExtTreeMap.mem_toList_iff_getElem?_eq_some.mpr hstamp'
  rcases (h s _ hok).whole rfl _ hlisted hcached with hearly | hlate
  · exact hearly
  · dsimp only at hlate
    rw [elapsedSeconds, Int.tdiv_eq_ediv_of_nonneg (by omega)] at hfresh
    omega

/-- Tasks t and u are collected in the same minute; t is collected again. -/
def collectedTwice : List Event :=
  [⟨0, .pushTask "a" { taskId := "t" }⟩, ⟨0, .pushTask "a" { taskId := "u" }⟩, ⟨1, .popTask "a"⟩,
    ⟨1, .popTask "a"⟩, ⟨2, .updateTaskStatus ⟨"t", 2, ""⟩⟩, ⟨3, .notifyResult 0 { taskId := "t" }⟩,
    ⟨4, .notifyResult 0 { taskId := "u", errorMessage := "perf failed" }⟩,
    ⟨60000000000, .notifyResult 0 { taskId := "t" }⟩]

/-- An hour and a second after the result of u. -/
def sweptLog : ResultLog :=
  Transition.after step (Transition.after step {} collectedTwice)
    [⟨3601000000004, .cleanupTimeoutTasks⟩]

/-- Only the second result of t is still cached. -/
theorem reclaims_collectedTwice :
    sweptLog.service.results.keys = ["t"] ∧ ∀ taskId ∈ sweptLog.service.results,
      ∀ stamp ∈ sweptLog.notified[taskId]?, 3601000000004 - stamp ≤ 3600 * 1000000000 := by
  have hrun : Transition.Along step SparesResults {} collectedTwice ∧
      (Transition.run step {} collectedTwice).isSome ∧
      SparesResults (Transition.after step {} collectedTwice)
        ⟨3601000000004, .cleanupTimeoutTasks⟩ ∧ sweptLog.service.results.keys = ["t"] := by
    decide +kernel
  obtain ⟨halong, hsome, hspares, hkeys⟩ := hrun
  exact ⟨hkeys, (reclaims_of_sparesResults (fun _ _ h => h) _ (halong.reachable hsome)).2 _ _
    hspares rfl⟩

/-- A report of RUNNING arrives after the result. -/
def lateRunning : List Event :=
  [⟨0, .pushTask "a" { taskId := "t" }⟩, ⟨1, .popTask "a"⟩, ⟨2, .notifyResult 0 { taskId := "t" }⟩,
    ⟨3, .updateTaskStatus ⟨"t", 2, ""⟩⟩]

/-- The entry is RUNNING from then on, and its result stays. -/
theorem not_reclaims : ¬ Reclaims fun _ _ => True := by
  intro h
  have hrun : Transition.Along step (fun _ _ => True) {} lateRunning ∧
      (Transition.run step {} lateRunning).isSome ∧
      ∃ t ∈ (Transition.after step {} lateRunning).step ⟨86400000000000, .cleanupTimeoutTasks⟩,
        "t" ∈ t.service.results ∧ t.notified["t"]? = some 2 := by
    decide +kernel
  obtain ⟨halong, hsome, t, hs, hcached, hstamp⟩ := hrun
  have hkept := (h _ (halong.reachable hsome)).2 86400000000000 t trivial hs "t" hcached 2 hstamp
  omega

end ResultLog

end MiniDrop
