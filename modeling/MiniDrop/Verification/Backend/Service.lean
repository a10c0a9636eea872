import MiniDrop.Model.Backend
import MiniDrop.Verification.Hotmethod.Operations
import MiniDrop.Verification.Hotmethod.WindowTid

/-! # The ids that drop_server gives out

Continuous tasks have the ids of StartContinuous, and windows are only recorded for them. -/

namespace MiniDrop

/-! ## Prefixes -/

theorem isPrefix_parentTidAt (now : ℤ) :
    "cp_".toList <+: (HotmethodService.parentTidAt now).toList := by
  rw [HotmethodService.parentTidAt, String.toList_append]
  exact List.prefix_append _ _

theorem IsWindowOf.isPrefix {parentTid taskId : String} (h : IsWindowOf parentTid taskId) :
    parentTid.toList <+: taskId.toList := by
  obtain ⟨⟨p, seq⟩, hsplit, rfl⟩ := Option.map_eq_some_iff.mp h
  unfold splitWindowTid at hsplit
  split at hsplit
  · rename_i wpos hfind
    split at hsplit
    · simp only [Option.some.injEq, Prod.mk.injEq] at hsplit
      rw [← hsplit.1, String.toList_ofList]
      exact List.take_prefix _ _
    · cases hsplit
  · cases hsplit

namespace HotmethodService

/-- Parents have ids of StartContinuous, and their windows are named after them. -/
structure Named (s : HotmethodService) : Prop where
  parents : ∀ p ∈ s.continuousTasks, ∃ now, p = parentTidAt now
  windows : ∀ p, ∀ record ∈ s.getContinuousWindows p,
    p ∈ s.continuousTasks ∧ IsWindowOf p record.windowTid

variable {s t : HotmethodService}

theorem Named.empty : ({} : HotmethodService).Named where
  parents p hp := by simp at hp
  windows p record hrecord := by simp [getContinuousWindows] at hrecord

theorem Named.of_same (h : s.Named) (htasks : t.continuousTasks = s.continuousTasks)
    (hwindows : t.continuousWindows = s.continuousWindows) : t.Named where
  parents p hp := h.parents p (htasks ▸ hp)
  windows p record hrecord := by
    simp only [getContinuousWindows, hwindows] at hrecord
    rw [htasks]
    exact h.windows p record hrecord

theorem Named.pushTask (h : s.Named) (now : ℤ) (ip : String) (task : TaskDesc) :
    (s.pushTask now ip task).1.Named := by
  refine h.of_same ?_ ?_ <;> unfold HotmethodService.pushTask <;> split <;> rfl

theorem Named.start (h : s.Named) (now : ℤ) (request : StartContinuousRequest) :
    (s.startContinuousTask now request).1.Named where
  parents p hp := by
    rw [startContinuousTask_continuousTasks] at hp
    rcases Std.ExtTreeMap.mem_insert.mp hp with heq | hold
    · exact ⟨now, (Std.LawfulEqCmp.eq_of_compare heq).symm⟩
    · exact h.parents p hold
  windows p record hrecord := by
    simp only [getContinuousWindows, startContinuousTask_continuousWindows] at hrecord
    by_cases hp : parentTidAt now = p
    · simp [hp] at hrecord
    · have hold : record ∈ s.getContinuousWindows p := by
        simpa [getContinuousWindows, Std.ExtTreeMap.getElem?_insert, hp] using hrecord
      obtain ⟨hparent, hwindow⟩ := h.windows p record hold
      refine ⟨?_, hwindow⟩
      rw [startContinuousTask_continuousTasks]
      exact Std.ExtTreeMap.mem_insert.mpr (.inr hparent)

theorem Named.stop (h : s.Named) (taskId : String) : (s.stopContinuousTask taskId).1.Named where
  parents p hp := h.parents p ((s.mem_continuousTasks_stop taskId).mp hp)
  windows p record hrecord := by
    simp only [getContinuousWindows, stopContinuousTask_continuousWindows] at hrecord
    obtain ⟨hparent, hwindow⟩ := h.windows p record hrecord
    exact ⟨(s.mem_continuousTasks_stop taskId).mpr hparent, hwindow⟩

theorem Named.bookkeep (h : s.Named) (now sysNow : ℤ) (request : TaskResult) :
    (s.bookkeep now sysNow request).Named where
  parents p hp := h.parents p (s.bookkeep_continuousTasks now sysNow request ▸ hp)
  windows p record hrecord := by
    rw [s.bookkeep_continuousTasks]
    rw [getContinuousWindows, s.bookkeep_continuousWindows] at hrecord
    cases hsplit : splitWindowTid request.taskId with
    | none =>
        rw [hsplit] at hrecord
        exact h.windows p record hrecord
    | some pair =>
        obtain ⟨q, seq⟩ := pair
        rw [hsplit] at hrecord
        cases hconfig : s.continuousTasks[q]? with
        | none =>
            simp only [hconfig] at hrecord
            exact h.windows p record hrecord
        | some config =>
            simp only [hconfig] at hrecord
            by_cases hq : q = p
            · subst hq
              simp only [if_true, Option.getD_some] at hrecord
              have hparent : q ∈ s.continuousTasks :=
                Std.ExtTreeMap.mem_iff_isSome_getElem?.mpr (by simp [hconfig])
              rcases List.mem_append.mp hrecord with hold | hnew
              · exact ⟨hparent, (h.windows q record hold).2⟩
              · rw [List.mem_singleton.mp hnew]
                exact ⟨hparent, isWindowOf_of_split hsplit⟩
            · rw [if_neg hq] at hrecord
              exact h.windows p record hrecord

theorem Named.handle (h : s.Named) (now : ℤ) (call : ControlCall) :
    (s.handle now call).1.Named := by
  cases call with
  | createTask targetIp taskDesc =>
      simp only [HotmethodService.handle, createTaskRpc]
      split
      · exact h
      · split
        · exact h
        · exact h.pushTask now targetIp taskDesc
  | startContinuous request =>
      simp only [HotmethodService.handle, startContinuousRpc]
      split
      · exact h
      · split
        · exact h
        · exact h.start now request
  | stopContinuous taskId =>
      simp only [HotmethodService.handle, stopContinuousRpc]
      split
      · exact h
      · exact h.stop taskId

theorem Named.step (h : s.Named) {e : Event} (hs : s.step e = some t) : t.Named := by
  obtain ⟨now, call⟩ := e
  cases call with
  | pushTask targetIp task =>
      obtain rfl := Option.some.inj hs
      exact h.pushTask now targetIp task
  | popTask targetIp =>
      obtain rfl := Option.some.inj hs
      cases hqueue : s.queue targetIp with
      | nil => rwa [s.popTask_nil now hqueue]
      | cons task rest =>
          rw [s.popTask_cons now hqueue]
          exact h.of_same (by simp) (by simp)
  | updateTaskStatus request =>
      obtain rfl := Option.some.inj hs
      exact h.of_same rfl rfl
  | notifyResult sysNow request =>
      have hbooks := h.bookkeep now sysNow request
      rcases s.notifyResult_eq_some now sysNow request hs with
        ⟨_, rfl⟩ | ⟨ip, task, reason, _, _, rfl⟩
      · exact hbooks
      · exact hbooks.of_same (by simp) (by simp)
  | cleanupTimeoutTasks =>
      obtain rfl := Option.some.inj hs
      exact h.of_same (by simp) (by simp)
  | startContinuousTask request =>
      obtain rfl := Option.some.inj hs
      exact h.start now request
  | stopContinuousTask taskId =>
      obtain rfl := Option.some.inj hs
      exact h.stop taskId

/-- The ids that the calls of agents leave behind. -/
theorem Named.agentCall (h : s.Named) (event : Event) :
    (if event.call.FromAgents then (s.step event).getD s else s).Named := by
  split
  · cases hstep : s.step event with
    | none => exact h
    | some t => exact h.step hstep
  · exact h

/-- Parents and windows have ids of their own kind. -/
theorem Named.isPrefix_window (h : s.Named) {p : String} {record : ContinuousWindowRecord}
    (hrecord : record ∈ s.getContinuousWindows p) : "cp_".toList <+: record.windowTid.toList := by
  obtain ⟨hparent, hwindow⟩ := h.windows p record hrecord
  obtain ⟨now, rfl⟩ := h.parents p hparent
  exact (isPrefix_parentTidAt now).trans hwindow.isPrefix

end HotmethodService

end MiniDrop
