import MiniDrop.Verification.Hotmethod.Queues

/-! # Stopping a continuous task

StopContinuousTask clears a flag that NotifyResult reads. It keeps the next window from being
queued, and leaves a window that is queued already where it is. -/

namespace MiniDrop.HotmethodService

/-- Calls that neither push a window of `p` from outside nor start `p` anew. -/
def LeavesAlone (p : String) (_ : HotmethodService) (e : Event) : Prop :=
  match e.call with
  | .pushTask _ task => ¬ IsWindowOf p task.taskId
  | .startContinuousTask _ => parentTidAt e.now ≠ p
  | _ => True

/-- From `s` on no agent gets a window of `p`. -/
def NeverDispatches (s : HotmethodService) (p : String) : Prop :=
  ∀ t, Transition.Reachable step (LeavesAlone p) s t →
    ∀ now ip task, (t.popTask now ip).2 = some task → ¬ IsWindowOf p task.taskId

/-- `p` is not running, and none of its windows waits. -/
structure Quiet (s : HotmethodService) (p : String) : Prop where
  stopped : ∀ config ∈ s.continuousTasks[p]?, config.running = false
  none_waiting : ∀ t ∈ s.waitingIds, ¬ IsWindowOf p t

variable {s t : HotmethodService} {p : String}

theorem Quiet.of_tasks (h : s.Quiet p) (htasks : t.tasks = s.tasks)
    (hparents : t.continuousTasks[p]? = s.continuousTasks[p]?) : t.Quiet p where
  stopped := hparents ▸ h.stopped
  none_waiting id hid := h.none_waiting id ((s.mem_waitingIds_of_tasks htasks).mp hid)

theorem Quiet.enqueue (h : s.Quiet p) {now : ℤ} {ip : String} {task : TaskDesc}
    {reason : String} (hother : ¬ IsWindowOf p task.taskId) :
    (s.enqueue now ip task reason).Quiet p where
  stopped := h.stopped
  none_waiting id hid := by
    rcases (s.mem_waitingIds_enqueue now).mp hid with hid | rfl
    · exact h.none_waiting id hid
    · exact hother

/-- A parent that is not running gets no successor window. -/
theorem Quiet.successor (h : s.Quiet p) {request : TaskResult} {ip : String} {task : TaskDesc}
    (hnext : s.successor request = some (ip, task)) : ¬ IsWindowOf p task.taskId := by
  obtain ⟨q, seq, next, config, hsplit, hconfig, hrunning, _, _, rfl⟩ :=
    s.successor_eq_some request hnext
  intro hwin
  obtain rfl := hwin.unique (isWindowOf_windowTid (isWindowOf_of_split hsplit).parent_ne next)
  rw [h.stopped config hconfig] at hrunning
  cases hrunning

theorem Quiet.step {e : Event} (h : s.Quiet p) (hok : LeavesAlone p s e)
    (hs : s.step e = some t) : t.Quiet p := by
  obtain ⟨now, call⟩ := e
  cases call with
  | pushTask targetIp task =>
      obtain rfl := Option.some.inj hs
      unfold pushTask
      dsimp only
      split
      · exact h.enqueue hok
      · exact h
  | popTask targetIp =>
      obtain rfl := Option.some.inj hs
      cases hqueue : s.queue targetIp with
      | nil =>
          rw [s.popTask_nil now hqueue]
          exact h
      | cons task rest =>
          rw [s.popTask_cons now hqueue]
          exact ⟨h.stopped, fun id hid =>
            h.none_waiting id ((s.mem_waitingIds_dequeue now hqueue).1 hid)⟩
  | updateTaskStatus request =>
      obtain rfl := Option.some.inj hs
      exact h.of_tasks rfl rfl
  | notifyResult sysNow request =>
      have hbook : (s.bookkeep now sysNow request).Quiet p := h.of_tasks (by simp) (by simp)
      rcases s.notifyResult_eq_some now sysNow request hs with
        ⟨_, rfl⟩ | ⟨ip, task, reason, hnext, _, rfl⟩
      · exact hbook
      · exact hbook.enqueue (h.successor hnext)
  | cleanupTimeoutTasks =>
      obtain rfl := Option.some.inj hs
      exact ⟨by simpa using h.stopped, fun id hid =>
        h.none_waiting id ((s.mem_waitingIds_cleanup now _).mp hid).1⟩
  | startContinuousTask request =>
      obtain rfl := Option.some.inj hs
      have hregister : (s.registerContinuous
          (continuousConfig (parentTidAt now) request)).Quiet p := by
        refine h.of_tasks rfl ?_
        have hne : parentTidAt now ≠ p := hok
        simp [registerContinuous, continuousConfig, hne]
      cases hroom : s.hasRoom request.targetIp with
      | true =>
          rw [s.startContinuousTask_of_hasRoom now hroom]
          refine hregister.enqueue fun hwin => hok ?_
          exact (hwin.unique (isWindowOf_windowTid (parentTidAt_ne now) 0)).symm
      | false =>
          rw [s.startContinuousTask_of_full now hroom]
          exact hregister
  | stopContinuousTask taskId =>
      obtain rfl := Option.some.inj hs
      refine ⟨fun config hconfig => ?_, fun id hid => h.none_waiting id
        ((s.mem_waitingIds_of_tasks (s.stopContinuousTask_tasks taskId)).mp hid)⟩
      rw [stopContinuousTask_continuousTasks] at hconfig
      split at hconfig
      · obtain ⟨_, _, rfl⟩ := Option.map_eq_some_iff.mp hconfig
        rfl
      · exact h.stopped config hconfig

theorem quiet_stop (hnone : ∀ t ∈ s.waitingIds, ¬ IsWindowOf p t) :
    (s.stopContinuousTask p).1.Quiet p where
  stopped config hconfig := by
    rw [stopContinuousTask_continuousTasks, if_pos rfl] at hconfig
    obtain ⟨_, _, rfl⟩ := Option.map_eq_some_iff.mp hconfig
    rfl
  none_waiting id hid :=
    hnone id ((s.mem_waitingIds_of_tasks (s.stopContinuousTask_tasks p)).mp hid)

/-- The head of a queue after the tasks before it were popped. -/
theorem reachable_pops {ip : String} {task : TaskDesc} {before after : List TaskDesc}
    (hqueue : s.queue ip = before ++ task :: after) :
    ∃ t, Transition.Reachable step (LeavesAlone p) s t ∧ t.queue ip = task :: after := by
  induction before generalizing s with
  | nil => exact ⟨s, .start, hqueue⟩
  | cons head before ih =>
      have hpop :
          s.step ⟨0, .popTask ip⟩ = some (s.dequeue 0 ip head (before ++ task :: after)) := by
        simp [step, s.popTask_cons 0 hqueue]
      obtain ⟨t, ht, hhead⟩ := ih (s := s.dequeue 0 ip head (before ++ task :: after))
        (by simp [queue_dequeue])
      exact ⟨t, (Transition.Reachable.next _ .start trivial hpop).trans ht, hhead⟩

/-- A stopped parent is dispatched no more if and only if none of its windows was queued. -/
theorem neverDispatches_iff {s' : HotmethodService} (hstop : s.stopContinuousTask p = (s', true)) :
    s'.NeverDispatches p ↔ ∀ t ∈ s.waitingIds, ¬ IsWindowOf p t := by
  obtain rfl : (s.stopContinuousTask p).1 = s' := by rw [hstop]
  constructor
  · intro h t ht hwin
    obtain ⟨ip, task, hmem, rfl⟩ := s.mem_waitingIds.mp ht
    obtain ⟨before, after, hsplit⟩ := List.mem_iff_append.mp hmem
    have hqueue : (s.stopContinuousTask p).1.queue ip = before ++ task :: after := by
      simpa [queue] using hsplit
    obtain ⟨t, hreach, hhead⟩ := reachable_pops (p := p) hqueue
    exact h t hreach 0 ip task (by rw [t.popTask_cons 0 hhead]) hwin
  · intro hnone t hreach now ip task hpop
    have hquiet : t.Quiet p := hreach.invariant (I := fun t => t.Quiet p) (quiet_stop hnone)
      fun _ _ _ h hok hs => h.step hok hs
    cases hqueue : t.queue ip with
    | nil => simp [t.popTask_nil now hqueue] at hpop
    | cons head rest =>
        obtain rfl : head = task := by simpa [t.popTask_cons now hqueue] using hpop
        exact hquiet.none_waiting _ (t.mem_waitingIds.mpr ⟨ip, head, by simp [hqueue], rfl⟩)

/-- A parent whose first window waits for the agent. -/
def startedRun : List Event := [⟨7, .startContinuousTask ⟨"a", 1, 99, 10, 0, "", ""⟩⟩]

/-- A parent whose first window is with the agent. -/
def pulledRun : List Event := startedRun ++ [⟨8, .popTask "a"⟩]

theorem neverDispatches_pulled :
    ((Transition.after step {} pulledRun).stopContinuousTask "cp_7").1.NeverDispatches "cp_7" :=
  (neverDispatches_iff (s := Transition.after step {} pulledRun) (by rfl)).mpr (by decide +kernel)

/-- No dispatch after stop, in every reachable state. -/
def StopsDispatch : Prop :=
  ∀ s, Transition.Reachable Traced.step (fun s e => FreshIds s e ∧ ReportsOnce s e) {} s →
    ∀ p s', s.service.stopContinuousTask p = (s', true) → s'.NeverDispatches p

/-- The window that waits when its parent is stopped is still handed to the agent. -/
theorem not_stopsDispatch : ¬ StopsDispatch := by
  intro h
  let s := Transition.after Traced.step {} startedRun
  have hs : Transition.Reachable Traced.step (fun s e => FreshIds s e ∧ ReportsOnce s e) {} s :=
    Transition.Along.reachable (by decide +kernel) (by decide +kernel)
  have hnever := h s hs "cp_7" (s.service.stopContinuousTask "cp_7").1
    (Prod.ext rfl (by decide +kernel))
  let config := continuousConfig "cp_7" ⟨"a", 1, 99, 10, 0, "", ""⟩
  exact hnever _ .start 8 "a" (windowTask config "cp_7" "cp_7_w0") (by decide +kernel)
    (by decide +kernel)

end MiniDrop.HotmethodService
