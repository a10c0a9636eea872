import Mathlib.Data.List.Chain
import MiniDrop.Model.TaskState
import MiniDrop.Verification.Api.Tables

/-! # The recorded history of a one-shot task

The rows follow the documented state machine exactly when the states that drop_server reports
do: a reported state is written as it is, and only the path of a delivered result fills in the
states that polling missed. -/

namespace MiniDrop

/-! ## Documented histories -/

/-- An edge of the documented state machine. -/
def DocumentedStep (fromState toState : ℤ) : Prop :=
  (fromState, toState) ∈ [((-1 : ℤ), (0 : ℤ)), (0, 2), (2, 3), (3, 4), (0, 5), (2, 5), (3, 5)]

instance (fromState toState : ℤ) : Decidable (DocumentedStep fromState toState) :=
  inferInstanceAs (Decidable (_ ∈ _))

/-- The rows are a path of documented steps with nothing after a terminal state. -/
structure DocumentedPath (rows : List TaskStateHistory) : Prop where
  begins : ∀ row ∈ rows.head?, row.fromState = -1
  contiguous : rows.IsChain fun a b => a.toState = b.fromState
  documented : ∀ row ∈ rows, DocumentedStep row.fromState row.toState
  ends : ∀ row ∈ rows.dropLast, row.toState ≠ taskStatusSuccess ∧ row.toState ≠ taskStatusFailed

/-- The next reported state is the same one or the next on a documented step. -/
def Proceeds (a b : ℤ) : Prop := a = b ∨ DocumentedStep a b

instance (a b : ℤ) : Decidable (Proceeds a b) := inferInstanceAs (Decidable (_ ∨ _))

/-- The states that STATUS messages report, up to the pass that ends the loop. -/
def reportedStates : List Poll → List ℤ
  | [] => []
  | .cancelled .. :: _ => []
  | .expired .. :: _ => []
  | .unreachable :: polls => reportedStates polls
  | .fetched _ resp _ :: polls =>
    match parseDropStatusMessage resp.message with
    | some (status, _) =>
      status :: if status = taskStatusSuccess ∨ status = taskStatusFailed ∨ resp.code = 0 then []
        else reportedStates polls
    | none =>
      if resp.code = 0 ∨ resp.message ≠ "" ∧ resp.message ≠ "Result not found" then []
      else reportedStates polls

/-- The changes along a sequence of states. -/
def moves : ℤ → List ℤ → List (ℤ × ℤ)
  | _, [] => []
  | a, b :: states => (if a = b then [] else [(a, b)]) ++ moves b states

/-! ## What one transition records -/

/-- The status of `tid` and its recorded changes. -/
structure Shows (db : Database) (tid : String) (status : ℤ) (changes : List (ℤ × ℤ)) : Prop where
  stored : (db.task? tid).map HotmethodTask.status = some status
  recorded : (db.taskRows tid).map (fun row => (row.fromState, row.toState)) = changes

/-- The status is one that the API server stores. -/
def Normal (status : ℤ) : Prop := normalizeTaskStatus status = status

instance (status : ℤ) : Decidable (Normal status) := inferInstanceAs (Decidable (_ = _))

theorem normal_normalize (status : ℤ) : Normal (normalizeTaskStatus status) := by
  simp only [Normal, normalizeTaskStatus, taskStatusDispatched, taskStatusTimeout,
    taskStatusNew, taskStatusFailed]
  by_cases h : status = 1
  · simp [h]
  · by_cases h' : status = 6 <;> simp [h, h']

@[simp] theorem normalize_failed : normalizeTaskStatus taskStatusFailed = taskStatusFailed := rfl

@[simp] theorem normalize_success : normalizeTaskStatus taskStatusSuccess = taskStatusSuccess := rfl

section Transitions

variable {db : Database} {tid : String} {status : ℤ} {changes : List (ℤ × ℤ)} (now : ℤ)
  (reason : String)

theorem Shows.update (h : Shows db tid status changes) {status' : ℤ}
    (change : HotmethodTask → HotmethodTask) (hkeep : ∀ row, (change row).deleted = row.deleted)
    (hstatus : ∀ row, row.status = status → (change row).status = status') :
    Shows (db.updateTask tid change) tid status' changes where
  stored := by
    obtain ⟨row, hrow, hrowStatus⟩ := Option.map_eq_some_iff.mp h.stored
    simp [db.task?_updateTask tid change hkeep, hrow, hstatus row hrowStatus]
  recorded := by simpa using h.recorded

theorem Shows.add (h : Shows db tid status changes) (fromState toState : ℤ) :
    Shows (db.addHistory ⟨tid, fromState, toState, reason, changeTypeTask⟩) tid status
      (changes ++ [(fromState, toState)]) where
  stored := h.stored
  recorded := by simp [Database.taskRows_addHistory, h.recorded]

/-- A transition records the change from the stored state, if there is one. -/
theorem shows_transition (h : Shows db tid status changes) (hnormal : Normal status)
    (toState : ℤ) (endTime : Option ℤ) :
    Shows ((transitionTaskStatus now tid toState reason endTime).run db).2 tid
      (normalizeTaskStatus toState)
      (changes ++ moves status [normalizeTaskStatus toState]) := by
  obtain ⟨row, hrow, rfl⟩ := Option.map_eq_some_iff.mp h.stored
  simp only [transitionTaskStatus, firstTask, Program.run_bind, Program.run_query, hrow,
    Program.run_pure, Program.run_update, Option.getD_some, applyTransition]
  rw [show normalizeTaskStatus row.status = row.status from hnormal]
  split
  · rename_i hne
    simp only [moves, hne, if_false, List.append_nil]
    refine Shows.add _ (h.update _ ?_ ?_) _ _
    · exact fun _ => rfl
    · exact fun _ _ => rfl
  · rename_i heq
    rw [moves, if_pos (Classical.not_not.mp heq), moves, List.append_nil, List.append_nil]
    refine h.update _ ?_ ?_
    · exact fun _ => rfl
    · exact fun _ _ => rfl

theorem shows_sync (h : Shows db tid status changes) (hnormal : Normal status) (reported : ℤ) :
    Shows ((syncDropTaskStatus now tid reported reason).run db).2 tid
      (normalizeTaskStatus reported)
      (changes ++ moves status [normalizeTaskStatus reported]) := by
  have hidem : normalizeTaskStatus (normalizeTaskStatus reported) =
      normalizeTaskStatus reported := normal_normalize reported
  have htransition := fun endTime =>
    shows_transition now reason h hnormal (normalizeTaskStatus reported) endTime
  rw [hidem] at htransition
  simp only [syncDropTaskStatus]
  split
  · exact htransition _
  · split <;> exact htransition _

/-- A state is filled in where the stored one lies below. -/
theorem shows_ensure (h : Shows db tid status changes) (hnormal : Normal status) (state : ℤ)
    (hstate : Normal state) :
    Shows ((ensureTaskReached now tid state reason).run db).2 tid
      (if status < state then state else status)
      (changes ++ if status < state then [(status, state)] else []) := by
  obtain ⟨row, hrow, rfl⟩ := Option.map_eq_some_iff.mp h.stored
  simp only [ensureTaskReached, firstTask, Program.run_bind, Program.run_query, hrow,
    Program.run_pure]
  rw [show normalizeTaskStatus row.status = row.status from hnormal,
    show normalizeTaskStatus state = state from hstate]
  by_cases hlt : row.status < state
  · have htransition := shows_transition now reason h hnormal state none
    rw [show normalizeTaskStatus state = state from hstate] at htransition
    simpa [hlt, Int.ne_of_lt hlt, moves] using htransition
  · simpa [hlt] using h

/-- The states on the way of a delivered result, or of a failed collection. -/
def settledStates (status : ℤ) (succeeds : Bool) : List ℤ :=
  if succeeds then
    if status < taskStatusRunning then [2, 3, 4]
    else if status < taskStatusUploading then [3, 4] else [4]
  else if status < taskStatusRunning then [2, 5] else [5]

/-- RUNNING is filled in before FAILED. -/
theorem shows_failed (h : Shows db tid status changes) (hnormal : Normal status)
    (filled : String) (endTime : Option ℤ) :
    Shows ((do
        ensureTaskReached now tid taskStatusRunning filled
        transitionTaskStatus now tid taskStatusFailed reason endTime : Statements Unit).run db).2
      tid taskStatusFailed (changes ++ moves status (settledStates status false)) := by
  have hensured := shows_ensure now filled h hnormal taskStatusRunning rfl
  have hfinal := shows_transition now reason hensured
    (by split <;> [rfl; exact hnormal]) taskStatusFailed endTime
  rw [Program.run_bind]
  rw [normalize_failed] at hfinal
  by_cases hlt : status < 2
  · simpa [settledStates, hlt, moves, Int.ne_of_lt hlt, taskStatusRunning, taskStatusFailed]
      using hfinal
  · simpa [settledStates, hlt, moves, taskStatusRunning, taskStatusFailed] using hfinal

/-- RUNNING and UPLOADING are filled in before DONE. -/
theorem shows_success (h : Shows db tid status changes) (hnormal : Normal status)
    (filled filled' : String) (endTime : Option ℤ) :
    Shows ((do
        ensureTaskReached now tid taskStatusRunning filled
        ensureTaskReached now tid taskStatusUploading filled'
        transitionTaskStatus now tid taskStatusSuccess reason endTime : Statements Unit).run db).2
      tid taskStatusSuccess (changes ++ moves status (settledStates status true)) := by
  have hrunning := shows_ensure now filled h hnormal taskStatusRunning rfl
  have huploading := shows_ensure now filled' hrunning (by split <;> [rfl; exact hnormal])
    taskStatusUploading rfl
  have hfinal := shows_transition now reason huploading
    (by split <;> [rfl; split <;> [rfl; exact hnormal]]) taskStatusSuccess endTime
  rw [Program.run_bind, Program.run_bind]
  rw [normalize_success] at hfinal
  by_cases hlt : status < 2
  · simpa [settledStates, hlt, moves, Int.ne_of_lt hlt, taskStatusRunning, taskStatusUploading,
      taskStatusSuccess] using hfinal
  · by_cases hlt' : status < 3
    · simpa [settledStates, hlt, hlt', moves, Int.ne_of_lt hlt', taskStatusRunning,
        taskStatusUploading, taskStatusSuccess] using hfinal
    · simpa [settledStates, hlt, hlt', moves, taskStatusRunning, taskStatusUploading,
        taskStatusSuccess] using hfinal

end Transitions

/-! ## One pass of the loop -/

/-- The status that a STATUS message reports. -/
def reportedStatus (resp : FetchDataResponse) : Option ℤ :=
  (parseDropStatusMessage resp.message).map Prod.fst

theorem normal_of_reported {resp : FetchDataResponse} {reported : ℤ}
    (h : reportedStatus resp = some reported) : Normal reported := by
  obtain ⟨parsed, hparsed, rfl⟩ := Option.map_eq_some_iff.mp h
  unfold parseDropStatusMessage at hparsed
  split at hparsed
  · dsimp only at hparsed
    split at hparsed
    · cases hparsed
    · obtain ⟨raw, _, rfl⟩ := Option.map_eq_some_iff.mp hparsed
      exact normal_normalize raw
  · cases hparsed

def TerminalStatus (status : ℤ) : Prop := status = taskStatusSuccess ∨ status = taskStatusFailed

/-- How a pass ends for a task in `status`, the status that it leaves and the states that it
writes. -/
inductive Passes (tid : String) (status : ℤ) : Poll → PollResult → ℤ → List ℤ → Prop where
  | cancelled (now : ℤ) (error : String) :
      Passes tid status (.cancelled now error) (.ended none none) taskStatusFailed
        [taskStatusFailed]
  | expired (now : ℤ) :
      Passes tid status (.expired now) (.ended none none) taskStatusFailed [taskStatusFailed]
  | unreachable : Passes tid status .unreachable .again status []
  | reported {now : ℤ} {resp : FetchDataResponse} {storage : StorageReply} {last : ℤ}
      (hreported : reportedStatus resp = some last) (hterminal : TerminalStatus last) :
      Passes tid status (.fetched now resp storage) (.ended none none) last [last]
  | stored {now : ℤ} {resp : FetchDataResponse} {storage : StorageReply} {cosKey : String}
      (type : ℤ) (hlive : ∀ reported ∈ reportedStatus resp, ¬ TerminalStatus reported)
      (hcode : resp.code = 0) (hstored : persistFetchedResultFile storage tid resp = .ok cosKey) :
      Passes tid status (.fetched now resp storage) (.ended (some cosKey) (some type))
        taskStatusSuccess
        ((reportedStatus resp).toList ++ settledStates ((reportedStatus resp).getD status) true)
  | unstored {now : ℤ} {resp : FetchDataResponse} {storage : StorageReply} {storeErr : String}
      (hlive : ∀ reported ∈ reportedStatus resp, ¬ TerminalStatus reported)
      (hcode : resp.code = 0)
      (hstored : persistFetchedResultFile storage tid resp = .error storeErr) :
      Passes tid status (.fetched now resp storage) (.ended none none) taskStatusFailed
        ((reportedStatus resp).toList ++ settledStates ((reportedStatus resp).getD status) false)
  | refused {now : ℤ} {resp : FetchDataResponse} {storage : StorageReply}
      (hnone : reportedStatus resp = none) (hcode : resp.code ≠ 0)
      (hmessage : resp.message ≠ "" ∧ resp.message ≠ "Result not found") :
      Passes tid status (.fetched now resp storage) (.ended none none) taskStatusFailed
        (settledStates status false)
  | waited {now : ℤ} {resp : FetchDataResponse} {storage : StorageReply}
      (hlive : ∀ reported ∈ reportedStatus resp, ¬ TerminalStatus reported)
      (hcode : resp.code ≠ 0)
      (hmessage : reportedStatus resp = none →
        ¬ (resp.message ≠ "" ∧ resp.message ≠ "Result not found")) :
      Passes tid status (.fetched now resp storage) .again ((reportedStatus resp).getD status)
        (reportedStatus resp).toList

section Pass

variable {db : Database} {tid : String} {status : ℤ} {changes : List (ℤ × ℤ)}

/-- The part of a pass after the status is reported, where the loop goes on. -/
theorem shows_settle (now : ℤ) (h : Shows db tid status changes) (hnormal : Normal status)
    (resp : FetchDataResponse) (storage : StorageReply) :
    (match persistFetchedResultFile storage tid resp with
      | .ok cosKey => ∃ type,
        ((settleResult now tid resp storage).run db).1 = .ended (some cosKey) (some type)
      | .error _ => ((settleResult now tid resp storage).run db).1 = .ended none none) ∧
      Shows ((settleResult now tid resp storage).run db).2 tid
        (if (persistFetchedResultFile storage tid resp).isOk then taskStatusSuccess
          else taskStatusFailed)
        (changes ++ moves status (settledStates status
          (persistFetchedResultFile storage tid resp).isOk)) := by
  unfold settleResult
  cases persistFetchedResultFile storage tid resp with
  | error storeErr =>
      have hfailed := shows_failed now storeErr h hnormal
        "collector ran before result was fetched" (some now)
      simp only [Program.run_bind] at hfailed
      exact ⟨by simp, by simpa [Except.isOk, Except.toBool] using hfailed⟩
  | ok cosKey =>
      have hdone := shows_success now (readyReason cosKey) h hnormal
        "collector ran before result was fetched" "collector uploaded result" (some now)
      simp only [Program.run_bind] at hdone ⊢
      obtain ⟨row, hrow, _⟩ := Option.map_eq_some_iff.mp hdone.stored
      simp only [firstTask, Program.run_bind, Program.run_query, hrow, Program.run_pure]
      exact ⟨⟨_, rfl⟩, by simpa [Except.isOk, Except.toBool] using hdone⟩

/-- A fetched result ends the pass. -/
theorem passes_settle (status now : ℤ) {resp : FetchDataResponse}
    (h : Shows db tid ((reportedStatus resp).getD status) changes)
    (hnormal : Normal ((reportedStatus resp).getD status))
    (hlive : ∀ reported ∈ reportedStatus resp, ¬ TerminalStatus reported)
    (hcode : resp.code = 0) (storage : StorageReply) :
    let outcome := (settleResult now tid resp storage).run db
    ∃ last states,
      Passes tid status (.fetched now resp storage) outcome.1 last
        ((reportedStatus resp).toList ++ states) ∧
      Shows outcome.2 tid last (changes ++ moves ((reportedStatus resp).getD status) states) ∧
      Normal last := by
  have hsettle := shows_settle now h hnormal resp storage
  cases hstored : persistFetchedResultFile storage tid resp with
  | ok cosKey =>
      simp only [hstored] at hsettle
      obtain ⟨⟨type, hresult⟩, hshows⟩ := hsettle
      refine ⟨_, _, ?_, hshows, rfl⟩
      rw [hresult]
      exact .stored type hlive hcode hstored
  | error storeErr =>
      simp only [hstored] at hsettle
      obtain ⟨hresult, hshows⟩ := hsettle
      refine ⟨_, _, ?_, hshows, rfl⟩
      rw [hresult]
      exact .unstored hlive hcode hstored

/-- A pass writes its states and records the changes along them. -/
theorem shows_poll (h : Shows db tid status changes) (hnormal : Normal status) (poll : Poll) :
    let outcome := (pollOnce tid poll).run db
    ∃ last states, Passes tid status poll outcome.1 last states ∧
      Shows outcome.2 tid last (changes ++ moves status states) ∧ Normal last := by
  cases poll with
  | cancelled now error =>
      simp only [pollOnce, Program.run_bind, Program.run_pure]
      exact ⟨_, _, .cancelled now error, shows_transition now ("cancelled: " ++ error) h hnormal
        taskStatusFailed (some now), rfl⟩
  | expired now =>
      simp only [pollOnce, Program.run_bind, Program.run_pure]
      exact ⟨_, _, .expired now, shows_transition now "timeout waiting for drop_server result" h
        hnormal taskStatusFailed (some now), rfl⟩
  | unreachable => exact ⟨status, [], .unreachable, by simpa [pollOnce, moves] using h, hnormal⟩
  | fetched now resp storage =>
      simp only [pollOnce]
      cases hparse : parseDropStatusMessage resp.message with
      | some parsed =>
          obtain ⟨reported, reason⟩ := parsed
          have hreported : reportedStatus resp = some reported := by simp [reportedStatus, hparse]
          have hnormal' := normal_of_reported hreported
          have hsync := shows_sync now reason h hnormal reported
          rw [show normalizeTaskStatus reported = reported from hnormal'] at hsync
          dsimp only
          by_cases hterm : reported = taskStatusSuccess ∨ reported = taskStatusFailed
          · simp only [Program.run_bind, hterm, if_true, Program.run_pure]
            exact ⟨reported, [reported], .reported hreported hterm, hsync, hnormal'⟩
          · have hlive : ∀ last ∈ reportedStatus resp, ¬ TerminalStatus last := by
              simpa [hreported, TerminalStatus] using hterm
            by_cases hcode : resp.code = 0
            · simp only [Program.run_bind, hterm, hcode, if_false, if_true]
              obtain ⟨last, states, hpass, hshows, hlast⟩ := passes_settle status now
                (by simpa [hreported] using hsync) (by simpa [hreported] using hnormal') hlive hcode
                storage
              refine ⟨last, _, hpass, ?_, hlast⟩
              simpa [hreported, moves, List.append_assoc] using hshows
            · simp only [Program.run_bind, hterm, hcode, if_false, Program.run_pure]
              refine ⟨_, _, .waited hlive hcode (by simp [hreported]), ?_, ?_⟩
              · simpa [hreported] using hsync
              · simpa [hreported] using hnormal'
      | none =>
          have hreported : reportedStatus resp = none := by simp [reportedStatus, hparse]
          have hlive : ∀ last ∈ reportedStatus resp, ¬ TerminalStatus last := by simp [hreported]
          dsimp only
          by_cases hcode : resp.code = 0
          · simp only [hcode, if_true]
            obtain ⟨last, states, hpass, hshows, hlast⟩ := passes_settle status now
              (by simpa [hreported] using h) (by simpa [hreported] using hnormal) hlive hcode
              storage
            refine ⟨last, _, hpass, ?_, hlast⟩
            simpa [hreported] using hshows
          · by_cases herror : resp.message ≠ "" ∧ resp.message ≠ "Result not found"
            · have hfailed := shows_failed now resp.message h hnormal
                "collector started before failure" (some now)
              have hpass : Passes tid status (.fetched now resp storage) _ _ _ :=
                .refused hreported hcode herror
              exact ⟨taskStatusFailed, settledStates status false,
                by simpa [hcode, herror] using hpass, by simpa [hcode, herror] using hfailed, rfl⟩
            · simp only [hcode, herror, if_false, Program.run_pure]
              refine ⟨_, _, .waited hlive hcode fun _ => herror, ?_, ?_⟩
              · simpa [hreported, moves] using h
              · simpa [hreported] using hnormal

end Pass

/-! ## The loop -/

/-- The states that the loop writes, from a task in `status`. -/
def writtenStates (tid : String) : ℤ → List Poll → List ℤ
  | _, [] => []
  | _, .cancelled .. :: _ => [taskStatusFailed]
  | _, .expired .. :: _ => [taskStatusFailed]
  | status, .unreachable :: polls => writtenStates tid status polls
  | status, .fetched _ resp storage :: polls =>
    match parseDropStatusMessage resp.message with
    | some (reported, _) =>
      reported :: if reported = taskStatusSuccess ∨ reported = taskStatusFailed then []
        else if resp.code = 0 then
          settledStates reported (persistFetchedResultFile storage tid resp).isOk
        else writtenStates tid reported polls
    | none =>
      if resp.code = 0 then settledStates status (persistFetchedResultFile storage tid resp).isOk
      else if resp.message ≠ "" ∧ resp.message ≠ "Result not found" then
        settledStates status false
      else writtenStates tid status polls

/-- The states of a run begin with those of its first pass. -/
theorem Passes.writtenStates_cons {tid : String} {status last : ℤ} {poll : Poll}
    {result : PollResult} {states : List ℤ} (h : Passes tid status poll result last states)
    (polls : List Poll) :
    writtenStates tid status (poll :: polls) =
      states ++ if result = .again then writtenStates tid last polls else [] := by
  cases h with
  | cancelled | expired | unreachable => simp [writtenStates]
  | reported hreported hterminal =>
      obtain ⟨⟨reported, reason⟩, hparse, rfl⟩ := Option.map_eq_some_iff.mp hreported
      have hterminal : reported = taskStatusSuccess ∨ reported = taskStatusFailed := hterminal
      simp [writtenStates, hparse, hterminal]
  | @stored now resp storage cosKey type hlive hcode hstored
  | @unstored now resp storage storeErr hlive hcode hstored =>
      cases hparse : parseDropStatusMessage resp.message with
      | none =>
          simp [writtenStates, reportedStatus, hparse, hcode, hstored, Except.isOk, Except.toBool]
      | some parsed =>
          have hlive : ¬ (parsed.1 = taskStatusSuccess ∨ parsed.1 = taskStatusFailed) :=
            hlive parsed.1 (by simp [reportedStatus, hparse])
          simp [writtenStates, reportedStatus, hparse, hlive, hcode, hstored, Except.isOk,
            Except.toBool]
  | refused hnone hcode hmessage =>
      have hparse := Option.map_eq_none_iff.mp hnone
      simp [writtenStates, hparse, hcode, hmessage]
  | @waited now resp storage hlive hcode hmessage =>
      cases hparse : parseDropStatusMessage resp.message with
      | none =>
          have hmessage := hmessage (by simp [reportedStatus, hparse])
          simp only [writtenStates, hparse, hcode, hmessage, if_false, reportedStatus]
          simp
      | some parsed =>
          have hlive : ¬ (parsed.1 = taskStatusSuccess ∨ parsed.1 = taskStatusFailed) :=
            hlive parsed.1 (by simp [reportedStatus, hparse])
          simp [writtenStates, reportedStatus, hparse, hlive, hcode]

/-- A pass that the loop goes on after leaves the last state that it wrote. -/
theorem Passes.moves_append {tid : String} {status last : ℤ} {poll : Poll} {states : List ℤ}
    (h : Passes tid status poll .again last states) (rest : List ℤ) :
    moves status (states ++ rest) = moves status states ++ moves last rest := by
  cases h with
  | unreachable => simp [moves]
  | waited hlive hcode hmessage => cases reportedStatus _ <;> simp [moves]

/-- The loop records the changes along the states that it writes. -/
theorem shows_wait {db : Database} {tid : String} {status : ℤ} {changes : List (ℤ × ℤ)}
    (polls : List Poll) (h : Shows db tid status changes) (hnormal : Normal status) :
    ∃ last, Shows ((waitTaskResult tid polls).run db).2 tid last
      (changes ++ moves status (writtenStates tid status polls)) := by
  induction polls generalizing db status changes with
  | nil => exact ⟨status, by simpa [waitTaskResult, writtenStates, moves] using h⟩
  | cons poll polls ih =>
      obtain ⟨next, states, hpass, hshows, hnext⟩ := shows_poll h hnormal poll
      rw [hpass.writtenStates_cons]
      simp only [waitTaskResult, Program.run_bind]
      generalize ((pollOnce tid poll).run db).1 = result at hpass
      cases result with
      | again =>
          obtain ⟨last, hlast⟩ := ih hshows hnext
          refine ⟨last, ?_⟩
          rw [if_pos rfl, hpass.moves_append, ← List.append_assoc]
          exact hlast
      | ended artifact analysis => exact ⟨next, by simpa using hshows⟩

/-! ## Creation -/

@[simp] theorem canAccessAgentIP_store (uid ip : String) (db : Database) :
    ((canAccessAgentIP uid ip).run db).2 = db := by
  unfold canAccessAgentIP
  split <;> simp

/-- The request passes the checks before the row is written, and drop_server takes the task. -/
def Accepted (db : Database) (uid : String) (req : CreateTaskReq) (dispatch : RpcReply) : Prop :=
  ((canAccessAgentIP uid req.targetIp).run db).1 = true ∧
    isValidTaskProfilerCombination req.type req.profilerType = true ∧ dispatch.rejection = none

section Creation

variable {db : Database} {tid : String} (now : ℤ) (uid userName : String) (req : CreateTaskReq)
  (dispatch : RpcReply)

/-- The row of a new task and the history of its dispatch. -/
theorem shows_dispatch (task : HotmethodTask) (created queued : String)
    (rejection : Option String) (hfresh : task.tid ∉ db.tasks) (hrows : db.taskRows task.tid = [])
    (hdeleted : task.deleted = false) (hstatus : task.status = taskStatusNew) :
    let outcome := (dispatchNewTask task created queued rejection).run db
    outcome.1 = true ∧ Shows outcome.2 task.tid
      (if rejection.isSome then taskStatusFailed else taskStatusNew)
      (if rejection.isSome then [(-1, 0), (0, 5)] else [(-1, 0)]) := by
  have hcreated : Shows { db with tasks := db.tasks.insert task.tid task } task.tid
      taskStatusNew [] := by
    refine ⟨?_, ?_⟩
    · simp [Database.task?, Option.filter, hstatus, hdeleted]
    · simpa [Database.taskRows] using hrows
  simp only [dispatchNewTask, Program.run_bind, Program.run_update, Database.createTask, hfresh,
    if_false, Option.isSome_some, Option.getD_some, Bool.not_true, Bool.false_eq_true,
    recordStateChange, updateTaskStatusInfo]
  cases rejection with
  | none =>
      refine ⟨rfl, Shows.update (Shows.add _ hcreated _ _) _ ?_ ?_⟩
      · exact fun _ => rfl
      · exact fun _ h => h
  | some reason =>
      refine ⟨rfl, Shows.add _ (Shows.update (Shows.add _ hcreated _ _) _ ?_ ?_) _ _⟩
      · exact fun _ => rfl
      · exact fun _ _ => rfl

/-- A fresh task is refused without a row, or rejected, or created and pending. -/
theorem shows_create (hfresh : tid ∉ db.tasks) (hrows : db.taskRows tid = []) :
    let outcome := (createTaskInternal now tid uid userName req dispatch).run db
    (Accepted db uid req dispatch ∧ outcome.1 = .created tid ∧
        Shows outcome.2 tid taskStatusNew [(-1, 0)]) ∨
      ¬ Accepted db uid req dispatch ∧
        (∃ httpStatus code message, outcome.1 = .refused httpStatus code message) ∧
        (outcome.2.taskRows tid = [] ∨ Shows outcome.2 tid taskStatusFailed [(-1, 0), (0, 5)]) := by
  unfold createTaskInternal Accepted
  simp only [Program.run_bind, canAccessAgentIP_store]
  cases haccess : ((canAccessAgentIP uid req.targetIp).run db).1 with
  | false => exact .inr ⟨by simp, ⟨_, _, _, rfl⟩, .inl (by simpa using hrows)⟩
  | true =>
      cases hvalid : isValidTaskProfilerCombination req.type req.profilerType with
      | false => exact .inr ⟨by simp, ⟨_, _, _, rfl⟩, .inl (by simpa using hrows)⟩
      | true =>
          simp only [Bool.not_true, Bool.false_eq_true, if_false, Program.run_bind]
          obtain ⟨htrue, hshows⟩ := shows_dispatch (newTask now tid uid userName req)
            "task created and pending dispatch" "queued in drop_server" dispatch.rejection
            hfresh hrows rfl rfl
          rw [htrue]
          cases hrejection : dispatch.rejection with
          | none =>
              rw [hrejection] at hshows
              exact .inl ⟨⟨trivial, trivial, rfl⟩, by simp [RpcReply.created, hrejection], hshows⟩
          | some reason =>
              rw [hrejection] at hshows
              refine .inr ⟨by simp, ?_, .inr hshows⟩
              cases dispatch <;> simp_all [RpcReply.created]

end Creation

/-! ## Paths -/

theorem head_moves {a : ℤ} {l : List ℤ} : ∀ m ∈ (moves a l).head?, m.1 = a := by
  induction l generalizing a with
  | nil => simp [moves]
  | cons b l ih =>
      by_cases h : a = b
      · subst h
        simpa [moves] using ih
      · simp [moves, h]

theorem isChain_moves (a : ℤ) (l : List ℤ) :
    (moves a l).IsChain fun m n => m.2 = n.1 := by
  induction l generalizing a with
  | nil => simp [moves]
  | cons b l ih =>
      by_cases h : a = b
      · simpa [moves, h] using ih b
      · simp only [moves, h, if_false, List.singleton_append]
        exact List.isChain_cons.mpr ⟨fun n hn => (head_moves n hn).symm, ih b⟩

theorem documented_moves_iff {a : ℤ} {l : List ℤ} :
    (∀ m ∈ moves a l, DocumentedStep m.1 m.2) ↔ (a :: l).IsChain Proceeds := by
  induction l generalizing a with
  | nil => simp [moves]
  | cons b l ih =>
      rw [List.isChain_cons_cons, ← ih]
      by_cases h : a = b <;> simp [moves, Proceeds, h]

/-- Documented steps leave no terminal state. -/
theorem not_terminal_of_documented {a b : ℤ} (h : DocumentedStep a b) :
    a ≠ taskStatusSuccess ∧ a ≠ taskStatusFailed := by
  simp only [DocumentedStep, List.mem_cons, Prod.mk.injEq, List.not_mem_nil, or_false] at h
  rcases h with
    ⟨rfl, _⟩ | ⟨rfl, _⟩ | ⟨rfl, _⟩ | ⟨rfl, _⟩ | ⟨rfl, _⟩ | ⟨rfl, _⟩ | ⟨rfl, _⟩ <;> decide

theorem ends_of_documented {rows : List TaskStateHistory}
    (hchain : rows.IsChain fun a b => a.toState = b.fromState)
    (hdocumented : ∀ row ∈ rows, DocumentedStep row.fromState row.toState) :
    ∀ row ∈ rows.dropLast, row.toState ≠ taskStatusSuccess ∧ row.toState ≠ taskStatusFailed := by
  induction rows with
  | nil => simp
  | cons row rows ih =>
      cases rows with
      | nil => simp
      | cons next rows =>
          rw [List.isChain_cons_cons] at hchain
          intro row' hmem
          rw [List.dropLast_cons_cons] at hmem
          rcases List.mem_cons.mp hmem with rfl | hmem
          · rw [hchain.1]
            exact not_terminal_of_documented (hdocumented next (by simp))
          · exact ih hchain.2 (fun r hr => hdocumented r (List.mem_cons_of_mem _ hr)) row' hmem

/-- Rows that start with the creation form a documented path if their changes do. -/
theorem documentedPath_iff_moves {rows : List TaskStateHistory} {l : List ℤ}
    (hrows : rows.map (fun row => (row.fromState, row.toState)) = (-1, 0) :: moves 0 l) :
    DocumentedPath rows ↔ (0 :: l).IsChain Proceeds := by
  have hchanges : ∀ {P : ℤ × ℤ → Prop}, (∀ row ∈ rows, P (row.fromState, row.toState)) ↔
      P (-1, 0) ∧ ∀ m ∈ moves 0 l, P m := by
    intro P
    rw [← List.forall_mem_cons, ← hrows, List.forall_mem_map]
  rw [← documented_moves_iff]
  constructor
  · intro h
    exact (hchanges (P := fun m => DocumentedStep m.1 m.2).mp h.documented).2
  · intro h
    have hdocumented := hchanges (P := fun m => DocumentedStep m.1 m.2).mpr ⟨by decide, h⟩
    have hcontiguous : rows.IsChain fun a b => a.toState = b.fromState := by
      have hchain : (rows.map fun row => (row.fromState, row.toState)).IsChain
          fun m n => m.2 = n.1 := by
        rw [hrows]
        exact List.isChain_cons.mpr ⟨fun n hn => (head_moves n hn).symm, isChain_moves 0 l⟩
      exact (List.isChain_map _).mp hchain
    refine ⟨fun row hrow => ?_, hcontiguous, hdocumented,
      ends_of_documented hcontiguous hdocumented⟩
    cases rows with
    | nil => simp at hrow
    | cons first rest =>
        obtain rfl : first = row := by simpa using hrow
        exact congrArg Prod.fst (List.cons.inj hrows).1

/-- A task that is not finished in the documented state machine. -/
def Live (status : ℤ) : Prop := status = 0 ∨ status = 2 ∨ status = 3

theorem live_or_terminal {a b : ℤ} (ha : Live a) (h : Proceeds a b) :
    Live b ∨ b = taskStatusSuccess ∨ b = taskStatusFailed := by
  rcases h with rfl | h
  · exact .inl ha
  · simp only [DocumentedStep, List.mem_cons, Prod.mk.injEq, List.not_mem_nil, or_false] at h
    simp only [Live, taskStatusSuccess, taskStatusFailed] at ha ⊢
    omega

theorem chain_settled {status : ℤ} (h : Live status) (succeeds : Bool) :
    (status :: settledStates status succeeds).IsChain Proceeds := by
  rcases h with rfl | rfl | rfl <;> cases succeeds <;> decide

/-- The states that the loop writes proceed like those that are reported to it. -/
theorem chain_written_iff {status : ℤ} (h : Live status) (tid : String) (polls : List Poll) :
    (status :: writtenStates tid status polls).IsChain Proceeds ↔
      (status :: reportedStates polls).IsChain Proceeds := by
  induction polls generalizing status with
  | nil => simp [writtenStates, reportedStates]
  | cons poll polls ih =>
      have hfail : Proceeds status taskStatusFailed := by
        rcases h with rfl | rfl | rfl <;> decide
      cases poll with
      | cancelled now error => simp [writtenStates, reportedStates, hfail]
      | expired now => simp [writtenStates, reportedStates, hfail]
      | unreachable => exact ih h
      | fetched now resp storage =>
          simp only [writtenStates, reportedStates]
          cases hparse : parseDropStatusMessage resp.message with
          | some parsed =>
              obtain ⟨reported, reason⟩ := parsed
              simp only [List.isChain_cons_cons]
              refine and_congr_right fun hproceeds => ?_
              by_cases hterm : reported = taskStatusSuccess ∨ reported = taskStatusFailed
              · simp [hterm, ← or_assoc]
              · have hlive := (live_or_terminal h hproceeds).resolve_right hterm
                by_cases hcode : resp.code = 0
                · simpa [hterm, hcode] using chain_settled hlive _
                · simpa [hterm, hcode, ← or_assoc] using ih hlive
          | none =>
              by_cases hcode : resp.code = 0
              · simpa [hcode] using chain_settled h _
              · by_cases herror : resp.message ≠ "" ∧ resp.message ≠ "Result not found"
                · simpa [hcode, herror] using chain_settled h false
                · simpa [hcode, herror] using ih h

/-! ## The recorded history -/

/-- The history of a fresh one-shot task is a documented path if and only if the task is not
accepted or the states reported for it proceed on documented steps. -/
theorem documentedPath_oneShotTask_iff {db : Database} {tid : String} (now : ℤ)
    (uid userName : String) (req : CreateTaskReq) (dispatch : RpcReply) (polls : List Poll)
    (hfresh : tid ∉ db.tasks) (hrows : db.taskRows tid = []) :
    DocumentedPath (((oneShotTask now tid uid userName req dispatch polls).run db).2.taskRows tid) ↔
      (Accepted db uid req dispatch → (0 :: reportedStates polls).IsChain Proceeds) := by
  rw [oneShotTask, Program.run_bind]
  rcases shows_create now uid userName req dispatch hfresh hrows with
    ⟨haccepted, hcreated, hshows⟩ | ⟨hrefused, ⟨httpStatus, code, message, hresult⟩, hshows⟩
  · obtain ⟨last, hlast⟩ := shows_wait polls hshows rfl
    rw [hcreated]
    simp only [haccepted, true_implies]
    rw [← chain_written_iff (.inl rfl) tid polls]
    exact documentedPath_iff_moves hlast.recorded
  · rw [hresult]
    simp only [hrefused, false_implies, iff_true, Program.run_pure]
    rcases hshows with hnone | hshows
    · rw [hnone]
      exact ⟨by simp, by simp, by simp, by simp⟩
    · exact (documentedPath_iff_moves (l := [5]) hshows.recorded).mpr (by decide)

/-- An agent that anybody may use. -/
def sharedAgent : Database := { agents := [{ ipAddr := "a" }] }

/-- The agent starts and finishes the collection between two polls. -/
def quickCollection : List Poll :=
  [.fetched 0 ⟨1, "STATUS:0:queued", none, ""⟩ .notConfigured,
    .fetched 3 ⟨1, "STATUS:3:uploading", none, ""⟩ .notConfigured,
    .fetched 6 ⟨0, "OK", none, "profiler/t/t.data"⟩ .notConfigured]

/-- A collection that every poll finds one state further on. -/
def watchedCollection : List Poll :=
  [.fetched 0 ⟨1, "STATUS:2:sampling", none, ""⟩ .notConfigured,
    .fetched 3 ⟨1, "STATUS:3:uploading", none, ""⟩ .notConfigured,
    .fetched 6 ⟨0, "OK", none, "profiler/t/t.data"⟩ .notConfigured]

theorem documentedPath_watchedCollection :
    DocumentedPath (((oneShotTask 0 "t" "u" "user" ⟨"n", 0, 0, "a", 1, 10, 0, "", false, ""⟩
      (.answered 0 "OK") watchedCollection).run sharedAgent).2.taskRows "t") :=
  (documentedPath_oneShotTask_iff 0 "u" "user" _ _ _ (by decide +kernel)
    (by decide +kernel)).mpr fun _ => by decide +kernel

/-- A missed RUNNING leaves a row from PENDING to UPLOADING. -/
theorem not_documentedPath_quickCollection :
    ¬ DocumentedPath (((oneShotTask 0 "t" "u" "user" ⟨"n", 0, 0, "a", 1, 10, 0, "", false, ""⟩
      (.answered 0 "OK") quickCollection).run sharedAgent).2.taskRows "t") := by
  intro h
  exact absurd (h.documented ⟨"t", 0, 3, "uploading", 0⟩ (by decide +kernel)) (by decide)

end MiniDrop
