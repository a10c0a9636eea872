import MiniDrop.Model.Watch
import MiniDrop.Verification.Api.History

/-! # Responses of FetchData and passes of the loop -/

namespace MiniDrop

/-! ## Responses -/

theorem normal_public (status : TaskStatus) : Normal (publicTaskStatus status) := by
  cases status <;> rfl

/-- A status without a colon is read back from a STATUS message. -/
theorem parse_message {digits : String} (hdigits : ':' ∉ digits.toList) (reason : String) :
    parseDropStatusMessage ("STATUS:" ++ digits ++ ":" ++ reason) =
      (atoi digits.toList).map fun status => (normalizeTaskStatus status, reason) := by
  have hchars : ("STATUS:" ++ digits ++ ":" ++ reason).toList =
      "STATUS:".toList ++ (digits.toList ++ ':' :: reason.toList) := by simp
  have hdrop : ("STATUS:".toList ++ (digits.toList ++ ':' :: reason.toList)).drop "STATUS:".length =
      digits.toList ++ ':' :: reason.toList := List.drop_left' rfl
  have hskip : digits.toList.dropWhile (· ≠ ':') = [] := by
    rw [List.dropWhile_eq_nil_iff]
    intro c hc
    exact decide_eq_true fun h => hdigits (h ▸ hc)
  have hrest : (digits.toList ++ ':' :: reason.toList).dropWhile (· ≠ ':') =
      ':' :: reason.toList := by
    rw [Text.dropWhile_append_of_neg _ (by decide), hskip, List.nil_append]
  simp only [parseDropStatusMessage, hchars, List.prefix_append, if_true, hdrop, hrest,
    Text.takeWhile_append_cons_of_notMem hdigits, String.ofList_toList]

theorem parse_statusMessage (state : TaskStateInfo) :
    parseDropStatusMessage (statusMessage state) =
      some (publicTaskStatus state.status, state.reason) := by
  obtain ⟨status, reason, timestamp⟩ := state
  have hdigits : ':' ∉ (toString (publicTaskStatus status)).toList := by
    cases status <;> decide +kernel
  have hread : atoi (toString (publicTaskStatus status)).toList =
      some (publicTaskStatus status) := by
    cases status <;> decide +kernel
  have hnormal : normalizeTaskStatus (publicTaskStatus status) = publicTaskStatus status :=
    normal_public status
  rw [statusMessage, parse_message hdigits, hread, Option.map_some, hnormal]

theorem reportedStatus_fetchStatus {s : HotmethodService} {tid : String} :
    reportedStatus (s.fetchStatus tid) = (s.statusOf tid).map publicTaskStatus := by
  unfold reportedStatus HotmethodService.fetchStatus HotmethodService.statusOf
  cases s.getTaskStatus tid with
  | none => decide +kernel
  | some state => simp [parse_statusMessage]

/-- FetchData finds no task id, a failed collection, or a result. -/
theorem HotmethodService.fetchResult_eq_some {s : HotmethodService} {tid : String}
    {resp : FetchDataResponse} (h : s.fetchResult tid = some resp) :
    (tid = "" ∧ resp = { code := -1, message := "task_id is required" }) ∨
      ∃ result, s.results[tid]? = some result ∧
        (result.errorMessage ≠ "" ∧ resp = { code := -1, message := result.errorMessage } ∨
          result.errorMessage = "" ∧ resp =
            { code := 0, message := "OK", file := result.file, cosKey := result.cosKey }) := by
  unfold fetchResult at h
  split at h
  · exact .inl ⟨‹_›, (Option.some.inj h).symm⟩
  · obtain ⟨result, hresult, rfl⟩ := Option.map_eq_some_iff.mp h
    refine .inr ⟨result, hresult, ?_⟩
    by_cases herror : result.errorMessage = ""
    · exact .inr ⟨herror, by simp [herror]⟩
    · exact .inl ⟨herror, by simp [herror]⟩

theorem HotmethodService.fetchResult_eq_none {s : HotmethodService} {tid : String}
    (h : s.fetchResult tid = none) : s.results[tid]? = none := by
  unfold fetchResult at h
  split at h
  · cases h
  · exact Option.map_eq_none_iff.mp h

theorem reportedStatus_ok (file : Option File) (cosKey : String) :
    reportedStatus { code := 0, message := "OK", file, cosKey } = none := by
  simp only [reportedStatus]
  decide +kernel

/-- A persisted artifact has a key. -/
theorem key_ne_empty {storage : StorageReply} {tid : String} {resp : FetchDataResponse}
    {key : String} (h : persistFetchedResultFile storage tid resp = .ok key) : key ≠ "" := by
  unfold persistFetchedResultFile at h
  split at h
  · obtain rfl := Except.ok.inj h
    assumption
  · split at h
    · cases h
    · split at h
      · cases h
      · split at h
        · cases h
        · cases h
        · obtain rfl := Except.ok.inj h
          simp

/-! ## Passes -/

/-- The loop over one more pass. -/
theorem run_waitTaskResult_concat (tid : String) (polls : List Poll) (poll : Poll)
    (db : Database) :
    (waitTaskResult tid (polls ++ [poll])).run db =
      if ((waitTaskResult tid polls).run db).1 = .again then
        (pollOnce tid poll).run ((waitTaskResult tid polls).run db).2
      else (waitTaskResult tid polls).run db := by
  induction polls generalizing db with
  | nil =>
      simp only [List.nil_append, waitTaskResult, Program.run_bind, Program.run_pure, if_true]
      cases h : ((pollOnce tid poll).run db).1 with
      | again => simp [← h]
      | ended artifact analysis => simp [← h]
  | cons first polls ih =>
      simp only [List.cons_append, waitTaskResult, Program.run_bind]
      cases h : ((pollOnce tid first).run db).1 with
      | again => exact ih _
      | ended artifact analysis => simp

namespace Watch

variable {tid : String} {deadline now : ℤ} {s : HotmethodService} {w w' : Watch}
  {action : WatchAction}

/-- FetchData gets on. -/
inductive Asks (tid : String) (s : HotmethodService) : FetchPhase → FetchPhase → Prop where
  | requested : Asks tid s .idle .requested
  | answered {resp : FetchDataResponse} (h : s.fetchResult tid = some resp) :
      Asks tid s .requested (.answered resp)
  | missed (h : s.fetchResult tid = none) : Asks tid s .requested .missed
  | reported : Asks tid s .missed (.answered (s.fetchStatus tid))

/-- A pass ends with what it heard. -/
inductive Hears (deadline now : ℤ) : FetchPhase → WatchAction → Poll → Prop where
  | lost {phase : FetchPhase} : Hears deadline now phase .lose .unreachable
  | expired (h : deadline < now) : Hears deadline now .idle .expire (.expired now)
  | received {resp : FetchDataResponse} {storage : StorageReply} :
      Hears deadline now (.answered resp) (.receive storage) (.fetched now resp storage)

/-- The loop that has not ended asks on or ends a pass. -/
theorem step_cases (h : w.step tid deadline s now action = some w') :
    w.result = .again ∧
      ((∃ phase, Asks tid s w.phase phase ∧ w' = { w with phase }) ∨
        ∃ poll, Hears deadline now w.phase action poll ∧ w' = w.pass tid poll) := by
  unfold step at h
  split at h
  · cases h
  · rename_i hresult
    refine ⟨Classical.not_not.mp hresult, ?_⟩
    split at h
    · rename_i hphase
      split at h
      · obtain rfl := Option.some.inj h
        exact .inl ⟨.requested, hphase ▸ .requested, rfl⟩
      · cases h
    · rename_i hphase
      split at h
      · rename_i resp hfetch
        obtain rfl := Option.some.inj h
        exact .inl ⟨_, hphase ▸ .answered hfetch, rfl⟩
      · rename_i hfetch
        obtain rfl := Option.some.inj h
        exact .inl ⟨_, hphase ▸ .missed hfetch, rfl⟩
    · rename_i hphase
      obtain rfl := Option.some.inj h
      exact .inl ⟨_, hphase ▸ .reported, rfl⟩
    · cases h
    · obtain rfl := Option.some.inj h
      exact .inr ⟨_, .lost, rfl⟩
    · rename_i resp hphase
      obtain rfl := Option.some.inj h
      exact .inr ⟨_, hphase ▸ .received, rfl⟩
    · rename_i hphase
      split at h
      · rename_i hlate
        obtain rfl := Option.some.inj h
        exact .inr ⟨_, hphase ▸ .expired hlate, rfl⟩
      · cases h
    · cases h

/-- The watch is in the state that waitTaskResult reaches with its passes. -/
theorem run_step {db : Database} (h : w.step tid deadline s now action = some w')
    (hrun : (waitTaskResult tid w.polls).run db = (w.result, w.db)) :
    (waitTaskResult tid w'.polls).run db = (w'.result, w'.db) := by
  obtain ⟨hagain, ⟨phase, _, rfl⟩ | ⟨poll, _, rfl⟩⟩ := step_cases h
  · exact hrun
  · simp only [pass, run_waitTaskResult_concat, hrun, hagain, if_true]

end Watch

end MiniDrop
