import MiniDrop.Verification.Cluster.Watching
import MiniDrop.Verification.Hotmethod.Results

/-! # What FetchData says and what waitTaskResult reads

FetchData tells states from errors by its code. The loop looks at the text alone, so an error that
reads as another kind of message is taken for it. -/

namespace MiniDrop

/-- What drop_server knows of a task. -/
inductive Payload where
  | unknown
  | state (status : ℤ) (reason : String)
  | failure (message : String)
  | result (file : Option File) (cosKey : String)
deriving DecidableEq

/-- A cached result goes before the entry of the task. -/
def HotmethodService.payload (s : HotmethodService) (taskId : String) : Payload :=
  match s.getResult taskId with
  | some result =>
    if result.errorMessage ≠ "" then .failure result.errorMessage
    else .result result.file result.cosKey
  | none =>
    match s.getTaskStatus taskId with
    | some state => .state (publicTaskStatus state.status) state.reason
    | none => .unknown

/-- What a pass has to do about each payload. -/
def Payload.handle (now : ℤ) (tid : String) (storage : StorageReply) :
    Payload → Statements PollResult
  | .unknown => pure .again
  | .state status reason => do
    syncDropTaskStatus now tid status reason
    pure (if status = taskStatusSuccess ∨ status = taskStatusFailed then .ended none none
      else .again)
  | .failure message => do
    ensureTaskReached now tid taskStatusRunning "collector started before failure"
    transitionTaskStatus now tid taskStatusFailed message (some now)
    pure (.ended none none)
  | .result file cosKey =>
    settleResult now tid { code := 0, message := "OK", file, cosKey } storage

/-- The loop does with the response what the payload asks for. -/
def Decodes (s : HotmethodService) (tid : String) : Prop :=
  ∀ (now : ℤ) (storage : StorageReply) (db : Database),
    (pollOnce tid (.fetched now (s.fetchData tid) storage)).run db =
      ((s.payload tid).handle now tid storage).run db

/-! ## Faithful responses -/

theorem parse_ok : parseDropStatusMessage "OK" = none := by decide +kernel

theorem parse_notFound : parseDropStatusMessage "Result not found" = none := by decide +kernel

section Responses

variable {s : HotmethodService} {tid : String}

/-- Without a result the response is decoded as it was meant. -/
theorem decodes_of_no_result (hnamed : tid ≠ "") (h : s.getResult tid = none) : Decodes s tid := by
  intro now storage db
  rw [HotmethodService.fetchData_of_no_result hnamed h]
  unfold HotmethodService.payload HotmethodService.fetchStatus
  rw [h]
  cases s.getTaskStatus tid with
  | none => simp [pollOnce, Payload.handle, parse_notFound]
  | some state =>
      simp only [pollOnce, parse_statusMessage, Payload.handle]
      split <;> simp

theorem decodes_of_success (hnamed : tid ≠ "") {result : TaskResult}
    (h : s.getResult tid = some result) (hsuccess : result.errorMessage = "") :
    Decodes s tid := by
  intro now storage db
  rw [HotmethodService.fetchData_of_result hnamed h]
  simp [HotmethodService.payload, h, hsuccess, pollOnce, parse_ok, Payload.handle]

/-- An error message is decoded where it reads neither as a status nor as the fixed text. -/
theorem decodes_of_error (hnamed : tid ≠ "") {result : TaskResult}
    (h : s.getResult tid = some result) (herror : result.errorMessage ≠ "")
    (hunknown : result.errorMessage ≠ "Result not found")
    (hparse : parseDropStatusMessage result.errorMessage = none) : Decodes s tid := by
  intro now storage db
  rw [HotmethodService.fetchData_of_result hnamed h]
  simp [HotmethodService.payload, h, herror, hunknown, pollOnce, hparse, Payload.handle]

end Responses

/-! ## Misread errors -/

section Rows

variable {tid : String}

/-- A transition stores its state and its reason in the row. -/
theorem row_transition (now : ℤ) (toState : ℤ) (reason : String) (endTime : Option ℤ)
    {db : Database} {task : HotmethodTask} (h : db.task? tid = some task) :
    ∃ row, ((transitionTaskStatus now tid toState reason endTime).run db).2.task? tid = some row ∧
      row.status = normalizeTaskStatus toState ∧ row.statusInfo = reason := by
  simp only [transitionTaskStatus, firstTask, Program.run_bind, Program.run_query, h,
    Program.run_pure, Program.run_update, Option.getD_some, applyTransition]
  have hupdated : ∀ beginTime : HotmethodTask → Option ℤ,
      (db.updateTask tid fun row => { row with
        status := normalizeTaskStatus toState
        statusInfo := reason
        beginTime := beginTime row
        endTime := endTime.or row.endTime }).task? tid = some { task with
          status := normalizeTaskStatus toState
          statusInfo := reason
          beginTime := beginTime task
          endTime := endTime.or task.endTime } := by
    intro beginTime
    rw [Database.task?_updateTask]
    · simp [h]
    · exact fun _ => rfl
  split
  · exact ⟨_, (Database.task?_addHistory _ _ _).trans (hupdated _), rfl, rfl⟩
  · exact ⟨_, hupdated _, rfl, rfl⟩

theorem row_sync (now : ℤ) (status : ℤ) (reason : String) {db : Database}
    {task : HotmethodTask} (h : db.task? tid = some task) :
    ∃ row, ((syncDropTaskStatus now tid status reason).run db).2.task? tid = some row ∧
      row.statusInfo = reason := by
  have hrow : ∀ toState endTime, ∃ row,
      ((transitionTaskStatus now tid toState reason endTime).run db).2.task? tid = some row ∧
        row.statusInfo = reason := by
    intro toState endTime
    obtain ⟨row, hrow, _, hinfo⟩ := row_transition now toState reason endTime h
    exact ⟨row, hrow, hinfo⟩
  unfold syncDropTaskStatus
  dsimp only
  split
  · exact hrow _ _
  · split <;> exact hrow _ _

theorem row_ensure (now : ℤ) (state : ℤ) (reason : String) {db : Database}
    {task : HotmethodTask} (h : db.task? tid = some task) :
    ∃ row, ((ensureTaskReached now tid state reason).run db).2.task? tid = some row := by
  simp only [ensureTaskReached, firstTask, Program.run_bind, Program.run_query, h,
    Program.run_pure]
  split
  · obtain ⟨row, hrow, _⟩ := row_transition now (normalizeTaskStatus state) reason none h
    exact ⟨row, hrow⟩
  · exact ⟨task, h⟩

/-- A failure ends the loop, and the row is FAILED with its message. -/
theorem row_failure (now : ℤ) (storage : StorageReply) (message : String) {db : Database}
    {task : HotmethodTask} (h : db.task? tid = some task) :
    (((Payload.failure message).handle now tid storage).run db).1 = .ended none none ∧
      ∃ row, (((Payload.failure message).handle now tid storage).run db).2.task? tid = some row ∧
        row.status = taskStatusFailed ∧ row.statusInfo = message := by
  obtain ⟨task', htask'⟩ :=
    row_ensure now taskStatusRunning "collector started before failure" h
  obtain ⟨row, hrow, hstatus, hinfo⟩ :=
    row_transition now taskStatusFailed message (some now) htask'
  simp only [Payload.handle, Program.run_bind, Program.run_pure, true_and]
  exact ⟨row, hrow, hstatus, hinfo⟩

/-- The reason is what the text has behind its status, so the text is longer. -/
theorem length_of_parse {message : String} {status : ℤ} {reason : String}
    (h : parseDropStatusMessage message = some (status, reason)) :
    reason.length < message.length := by
  unfold parseDropStatusMessage at h
  split at h
  · dsimp only at h
    split at h
    · cases h
    · rename_i c rest hrest
      obtain ⟨raw, _, hparsed⟩ := Option.map_eq_some_iff.mp h
      obtain rfl := (Prod.mk.inj hparsed).2
      have hsuffix : c :: rest <:+ message.toList :=
        hrest ▸ (List.dropWhile_suffix _).trans (List.drop_suffix _ _)
      have hlength := hsuffix.length_le
      simp only [List.length_cons, String.length_toList] at hlength
      simp only [String.length_ofList]
      omega
  · cases h

end Rows

/-! ## When a response is decoded -/

/-- The response to FetchData is decoded as it was meant unless the error of a result is the fixed
text for an unknown task or reads as a STATUS message. -/
theorem decodes_iff {s : HotmethodService} {tid : String} (hnamed : tid ≠ "") :
    Decodes s tid ↔ ∀ result, s.getResult tid = some result →
      result.errorMessage ≠ "Result not found" ∧
        parseDropStatusMessage result.errorMessage = none := by
  constructor
  · intro h result hresult
    by_cases hsuccess : result.errorMessage = ""
    · rw [hsuccess]
      exact ⟨by decide, by decide +kernel⟩
    have hpayload : s.payload tid = .failure result.errorMessage := by
      simp [HotmethodService.payload, hresult, hsuccess]
    have hfetch : s.fetchData tid = { code := -1, message := result.errorMessage } := by
      simp [HotmethodService.fetchData_of_result hnamed hresult, hsuccess]
    -- a row of the task shows what the pass writes
    let db : Database := { tasks := (∅ : StdMap HotmethodTask).insert tid { tid } }
    have hrow : db.task? tid = some { tid } := by simp [db, Database.task?]
    have hsame := h 0 .stored db
    rw [hpayload, hfetch] at hsame
    obtain ⟨hended, row, hstored, -, hinfo⟩ :=
      row_failure 0 .stored result.errorMessage hrow
    constructor
    · intro hunknown
      have hagain : ((pollOnce tid (.fetched 0
          { code := -1, message := result.errorMessage } .stored)).run db).1 = .again := by
        simp [pollOnce, hunknown, parse_notFound]
      rw [hsame, hended] at hagain
      cases hagain
    · cases hparse : parseDropStatusMessage result.errorMessage with
      | none => rfl
      | some parsed =>
          obtain ⟨status, reason⟩ := parsed
          obtain ⟨row', hstored', hinfo'⟩ := row_sync 0 status reason hrow
          have hsynced : ((pollOnce tid (.fetched 0
              { code := -1, message := result.errorMessage } .stored)).run db).2 =
                ((syncDropTaskStatus 0 tid status reason).run db).2 := by
            simp only [pollOnce, hparse, Program.run_bind]
            split <;> simp
          rw [← hsynced, hsame, hstored] at hstored'
          obtain rfl := Option.some.inj hstored'
          have hlength := length_of_parse hparse
          rw [← hinfo, hinfo'] at hlength
          omega
  · intro h
    cases hresult : s.getResult tid with
    | none => exact decodes_of_no_result hnamed hresult
    | some result =>
        by_cases hsuccess : result.errorMessage = ""
        · exact decodes_of_success hnamed hresult hsuccess
        · obtain ⟨hunknown, hparse⟩ := h result hresult
          exact decodes_of_error hnamed hresult hsuccess hunknown hparse

/-- The result of `t` is an error with this message. -/
def failedWith (message : String) : HotmethodService :=
  { results := (∅ : StdMap TaskResult).insert "t" { taskId := "t", errorMessage := message } }

theorem decodes_profilerError : Decodes (failedWith "profiler failed with code 1") "t" :=
  (decodes_iff (by decide)).mpr fun result hresult => by
    obtain rfl : { taskId := "t", errorMessage := "profiler failed with code 1" } = result := by
      simpa [failedWith, HotmethodService.getResult] using hresult
    decide +kernel

/-- An error that says that a result was not found keeps the loop polling. -/
theorem not_decodes : ¬ ∀ s, Decodes s "t" := by
  intro h
  have hsame := congrArg Prod.fst (h (failedWith "Result not found") 0 .stored {})
  exact absurd hsame (by decide +kernel)

end MiniDrop
