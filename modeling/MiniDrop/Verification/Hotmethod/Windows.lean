import MiniDrop.Verification.Hotmethod.Queues

/-! # Windows of a continuous task

NotifyResult records a window and queues the next one. The records stay in sequence as long
as no window is reported twice: nothing in the service recognises a second delivery. -/

namespace MiniDrop.Traced

/-- Agents report on tasks that they popped, and may deliver a report again. -/
def ReportsPopped (s : Traced) (e : Event) : Prop :=
  match e.call with
  | .updateTaskStatus request => request.taskId ∈ s.poppedIds
  | .notifyResult _ request => request.taskId ∈ s.poppedIds
  | _ => True

instance (s : Traced) (e : Event) : Decidable (ReportsPopped s e) := by
  unfold ReportsPopped
  refine e.call.casesOn ?_ ?_ ?_ ?_ ?_ ?_ ?_ <;> intros <;> dsimp only <;> infer_instance

/-- The windows of `p` are recorded once each and in sequence, and none was queued twice. -/
structure ChainIntact (s : Traced) (p : String) : Prop where
  records_nodup :
    ((s.service.getContinuousWindows p).map ContinuousWindowRecord.windowTid).Nodup
  records_seq : (s.service.getContinuousWindows p).map ContinuousWindowRecord.seq =
    (List.range (s.service.getContinuousWindows p).length).map Int.ofNat
  pushed_once : ∀ k, s.queuedIds.count (windowTid p k) ≤ 1

def ChainsIntact (ok : Traced → Event → Prop) : Prop :=
  ∀ s, Transition.Reachable step ok {} s →
    ∀ p ∈ s.service.continuousTasks, s.ChainIntact p

/-! ## The invariant -/

/-- The windows of `p` before the `n`-th are recorded, and they are the reported ones. -/
structure Recorded (s : Traced) (p : String) (n : ℕ) : Prop where
  named : p ≠ ""
  bound : n ≤ 2147483648
  records : (s.service.getContinuousWindows p).map (fun w => (w.windowTid, w.seq)) =
    (List.range n).map fun k : ℕ => (windowTid p k, Int.ofNat k)
  reported : ∀ k : ℤ, 0 ≤ k → k ≤ 2147483647 → (windowTid p k ∈ s.reported ↔ k < n)

/-- Every registered parent has its records in sequence. -/
structure WindowsInv (s : Traced) : Prop extends s.Inv where
  recorded : ∀ p ∈ s.service.continuousTasks, ∃ n, s.Recorded p n

theorem WindowsInv.start : WindowsInv ({} : Traced) where
  toInv := Inv.start
  recorded := by simp

variable {s t : Traced} {p : String} {n : ℕ}

/-- Records depend on the window list of the parent and on the reported tasks. -/
theorem Recorded.congr (h : s.Recorded p n)
    (hwindows : t.service.continuousWindows[p]? = s.service.continuousWindows[p]?)
    (hreported : ∀ k, windowTid p k ∈ t.reported ↔ windowTid p k ∈ s.reported) :
    t.Recorded p n where
  named := h.named
  bound := h.bound
  records := by
    simpa [HotmethodService.getContinuousWindows, hwindows] using h.records
  reported k hnonneg hmax := (hreported k).trans (h.reported k hnonneg hmax)

/-- A registered parent starts without records. -/
theorem Recorded.empty (hne : p ≠ "") (hwindows : s.service.getContinuousWindows p = [])
    (hreported : ∀ k, windowTid p k ∉ s.reported) : s.Recorded p 0 where
  named := hne
  bound := by omega
  records := by simp [hwindows]
  reported k hnonneg _ := by
    simp only [hreported, false_iff]
    omega

/-- The report of the `n`-th window extends the records. -/
theorem Recorded.snoc (h : s.Recorded p n) (hmax : (n : ℤ) ≤ 2147483647)
    (record : ContinuousWindowRecord) (htid : record.windowTid = windowTid p n)
    (hseq : record.seq = n)
    (hwindows : t.service.getContinuousWindows p = s.service.getContinuousWindows p ++ [record])
    (hreported : t.reported = s.reported ++ [windowTid p n]) : t.Recorded p (n + 1) where
  named := h.named
  bound := by omega
  records := by
    simp [hwindows, h.records, htid, hseq, List.range_succ]
  reported k hnonneg hkmax := by
    rw [hreported, List.mem_append, h.reported k hnonneg hkmax, List.mem_singleton]
    constructor
    · rintro (hlt | heq)
      · omega
      · have := windowTid_inj h.named ⟨hnonneg, hkmax⟩ ⟨by omega, hmax⟩ heq
        omega
    · intro hlt
      by_cases hk : k = n
      · exact .inr (hk ▸ rfl)
      · exact .inl (by omega)

/-- A window in flight is the first one that is not recorded. -/
theorem Recorded.next (hinv : s.Inv) (hp : p ∈ s.service.continuousTasks) (h : s.Recorded p n)
    {taskId : String} (hin : taskId ∈ s.inFlight) (hwin : IsWindowOf p taskId) :
    (n : ℤ) ≤ 2147483647 ∧ taskId = windowTid p n := by
  obtain ⟨k, hnonneg, hmax, rfl, hprev⟩ :=
    hinv.windows p hp _ (hinv.poppedIds_queued (hinv.inFlight_popped _ hin)) hwin
  have hfresh : ¬ k < n := fun hlt =>
    hinv.inFlight_open _ hin ((h.reported k hnonneg hmax).mpr hlt)
  have hle : k ≤ n := by
    by_cases hpos : 0 < k
    · have := (h.reported (k - 1) (by omega) (by omega)).mp (hprev hpos)
      omega
    · omega
  obtain rfl : k = n := by omega
  exact ⟨hmax, rfl⟩

theorem Recorded.chainIntact (hinv : s.Inv) (h : s.Recorded p n) : s.ChainIntact p where
  records_nodup := by
    have heq := congrArg (List.map Prod.fst) h.records
    simp only [List.map_map, Function.comp_def] at heq
    rw [heq]
    refine List.Nodup.map_on ?_ List.nodup_range
    intro j hj k hk hjk
    rw [List.mem_range] at hj hk
    have hbound := h.bound
    have := windowTid_inj h.named ⟨by omega, by omega⟩ ⟨by omega, by omega⟩ hjk
    omega
  records_seq := by
    have heq := congrArg (List.map Prod.snd) h.records
    have hlen := congrArg List.length h.records
    simp only [List.map_map, Function.comp_def, List.length_map, List.length_range] at heq hlen
    rw [heq, hlen]
  pushed_once k := List.nodup_iff_count_le_one.mp hinv.ids_nodup _

/-! ## Every call keeps the records in sequence -/

private theorem recorded_frame (h : s.WindowsInv)
    (hparents : ∀ p ∈ t.service.continuousTasks, p ∈ s.service.continuousTasks)
    (hwindows : t.service.continuousWindows = s.service.continuousWindows)
    (hreported : t.reported = s.reported) :
    ∀ p ∈ t.service.continuousTasks, ∃ n, t.Recorded p n := by
  intro p hp
  obtain ⟨n, hn⟩ := h.recorded p (hparents p hp)
  exact ⟨n, hn.congr (by rw [hwindows]) (by simp [hreported])⟩

/-- A delivered result extends the records of its own parent only. -/
private theorem recorded_notify (h : s.WindowsInv) {now sysNow : ℤ} {request : TaskResult}
    (honce : ReportsWindowsOnce s ⟨now, .notifyResult sysNow request⟩)
    (hparents : t.service.continuousTasks = s.service.continuousTasks)
    (hwindows : t.service.continuousWindows =
      (s.service.bookkeep now sysNow request).continuousWindows)
    (hreported : t.reported = s.reported ++ [request.taskId]) :
    ∀ p ∈ t.service.continuousTasks, ∃ n, t.Recorded p n := by
  intro p hp
  rw [hparents] at hp
  obtain ⟨n, hn⟩ := h.recorded p hp
  have hlookup := s.service.bookkeep_continuousWindows now sysNow request p
  rw [← hwindows] at hlookup
  by_cases hwin : IsWindowOf p request.taskId
  · obtain ⟨hmax, htid⟩ := Recorded.next h.toInv hp hn (honce.2 p hwin hp) hwin
    obtain ⟨config, hconfig⟩ := Option.isSome_iff_exists.mp
      (Std.ExtTreeMap.mem_iff_isSome_getElem?.mp hp)
    rw [htid, splitWindowTid_windowTid_of_le hn.named (by omega) hmax] at hlookup
    simp only [hconfig, if_true] at hlookup
    refine ⟨n + 1, hn.snoc hmax (HotmethodService.windowRecord config sysNow request n)
      htid rfl ?_ (htid ▸ hreported)⟩
    simp [HotmethodService.getContinuousWindows, hlookup]
  · refine ⟨n, hn.congr ?_ fun k => ?_⟩
    · rw [hlookup]
      cases hsplit : splitWindowTid request.taskId with
      | none => rfl
      | some pair =>
          have hne : pair.1 ≠ p := by
            rintro rfl
            exact hwin (isWindowOf_of_split hsplit)
          cases hconfig : s.service.continuousTasks[pair.1]? with
          | none => simp [hconfig]
          | some config => simp [hconfig, hne]
    · rw [hreported, List.mem_append, List.mem_singleton, or_iff_left]
      intro heq
      exact hwin (heq ▸ isWindowOf_windowTid hn.named k)

theorem WindowsInv.step {e : Event} (h : s.WindowsInv) (hfresh : FreshIds s e)
    (honce : ReportsWindowsOnce s e) (hs : s.step e = some t) : t.WindowsInv := by
  refine ⟨h.toInv.step hfresh honce hs, ?_⟩
  obtain ⟨now, call⟩ := e
  cases call with
  | pushTask targetIp task =>
      simp only [Traced.step, Option.some.injEq] at hs
      subst hs
      unfold HotmethodService.pushTask
      split <;> exact recorded_frame h (fun _ hp => hp) rfl rfl
  | popTask targetIp =>
      simp only [Traced.step] at hs
      cases hqueue : s.service.queue targetIp with
      | nil =>
          rw [s.service.popTask_nil now hqueue] at hs
          exact Option.some.inj hs ▸ h.recorded
      | cons task rest =>
          rw [s.service.popTask_cons now hqueue] at hs
          exact Option.some.inj hs ▸ recorded_frame h (fun _ hp => hp) rfl rfl
  | updateTaskStatus request =>
      simp only [Traced.step, Option.some.injEq] at hs
      subst hs
      exact recorded_frame h (fun _ hp => hp) rfl rfl
  | notifyResult sysNow request =>
      obtain ⟨service, hservice, rfl⟩ := Option.map_eq_some_iff.mp hs
      rcases s.service.notifyResult_eq_some now sysNow request hservice with
        ⟨_, rfl⟩ | ⟨ip, task, reason, _, _, rfl⟩
      · exact recorded_notify h honce (by simp) rfl rfl
      · exact recorded_notify h honce (by simp) rfl rfl
  | cleanupTimeoutTasks =>
      simp only [Traced.step, Option.some.injEq] at hs
      subst hs
      exact recorded_frame h (by simp) (by simp) rfl
  | startContinuousTask request =>
      simp only [Traced.step, Option.some.injEq] at hs
      subst hs
      intro p hp
      rw [HotmethodService.startContinuousTask_continuousTasks] at hp
      by_cases heq : HotmethodService.parentTidAt now = p
      · subst heq
        refine ⟨0, Recorded.empty (parentTidAt_ne now) ?_ fun k hreported => ?_⟩
        · simp [HotmethodService.getContinuousWindows]
        · exact hfresh.2 _ (h.poppedIds_queued (h.reported_popped _ hreported))
            (isWindowOf_windowTid (parentTidAt_ne now) k)
      · obtain ⟨n, hn⟩ := h.recorded p
          ((Std.ExtTreeMap.mem_insert.mp hp).resolve_left (by simpa using heq))
        exact ⟨n, hn.congr (by simp [heq]) (by simp)⟩
  | stopContinuousTask taskId =>
      simp only [Traced.step, Option.some.injEq] at hs
      subst hs
      exact recorded_frame h (fun p hp => (s.service.mem_continuousTasks_stop taskId).mp hp)
        (s.service.stopContinuousTask_continuousWindows taskId) rfl

/-- Chains stay intact as long as no window of a registered parent is reported twice. -/
theorem chainsIntact_of_windowsOnce {ok : Traced → Event → Prop}
    (honce : ∀ s e, ok s e → FreshIds s e ∧ ReportsWindowsOnce s e) : ChainsIntact ok := by
  intro s hs p hp
  have hinv : s.WindowsInv := (hs.mono honce).invariant WindowsInv.start fun _ _ _ h hok hstep =>
    h.step hok.1 hok.2 hstep
  obtain ⟨n, hn⟩ := hinv.recorded p hp
  exact hn.chainIntact hinv.toInv

/-- The agent reports the first window and takes the second one. -/
def sampledRun : List Event :=
  [⟨7, .startContinuousTask ⟨"a", 1, 99, 10, 0, "", ""⟩⟩,
    ⟨8, .popTask "a"⟩,
    ⟨9, .notifyResult 0 { taskId := "cp_7_w0" }⟩,
    ⟨10, .popTask "a"⟩]

theorem chainsIntact_sampledRun : (Transition.after step {} sampledRun).ChainIntact "cp_7" :=
  chainsIntact_of_windowsOnce (fun _ _ h => h) _
    (Transition.Along.reachable (by decide +kernel) (by decide +kernel)) "cp_7" (by decide +kernel)

/-- The agent resends the result of the first window. -/
def resentRun : List Event :=
  [⟨7, .startContinuousTask ⟨"a", 1, 99, 10, 0, "", ""⟩⟩,
    ⟨8, .popTask "a"⟩,
    ⟨9, .notifyResult 0 { taskId := "cp_7_w0" }⟩,
    ⟨10, .notifyResult 0 { taskId := "cp_7_w0" }⟩]

/-- A result that is delivered again records its window and queues the next one again. -/
theorem not_chainsIntact : ¬ ChainsIntact fun s e => FreshIds s e ∧ ReportsPopped s e := by
  intro h
  have hs := h (Transition.after step {} resentRun)
    (Transition.Along.reachable (by decide +kernel) (by decide +kernel)) "cp_7" (by decide +kernel)
  exact absurd hs.records_nodup (by decide +kernel)

/-! ## Sampling goes on -/

/-- Some window of `p` waits in a queue, or was popped and is not reported. -/
def Outstanding (s : Traced) (p : String) : Prop :=
  ∃ t, IsWindowOf p t ∧ (t ∈ s.service.waitingIds ∨ t ∈ s.inFlight)

/-- Every running parent has an outstanding window. -/
def KeepsSampling (ok : Traced → Event → Prop) : Prop :=
  ∀ s, Transition.Reachable step ok {} s →
    ∀ p, s.service.Running p → s.Outstanding p

/-- No window is dropped: the queue has room for a first or next window, and the cleanup
thread finds no window of a running parent overdue. -/
def DropsNoWindow (s : Traced) (e : Event) : Prop :=
  match e.call with
  | .startContinuousTask request => s.service.hasRoom request.targetIp
  | .notifyResult _ request =>
    ∀ p ∈ parentOf request.taskId, ∀ config ∈ s.service.continuousTasks[p]?,
      config.running → s.service.hasRoom config.targetIp
  | .cleanupTimeoutTasks =>
    ∀ t ∈ s.service.waitingIds, (∃ p ∈ parentOf t, s.service.Running p) →
      t ∉ s.service.overdueTasks e.now dispatchTimeoutSec
  | _ => True

instance (s : Traced) (e : Event) : Decidable (DropsNoWindow s e) := by
  unfold DropsNoWindow
  refine e.call.casesOn ?_ ?_ ?_ ?_ ?_ ?_ ?_ <;> intros <;> dsimp only <;> infer_instance

/-- Outstanding windows stay outstanding where queues and flights only grow. -/
theorem Outstanding.mono (h : s.Outstanding p)
    (hwaiting : ∀ id ∈ s.service.waitingIds, id ∈ t.service.waitingIds ∨ id ∈ t.inFlight)
    (hinFlight : ∀ id ∈ s.inFlight, id ∈ t.inFlight) : t.Outstanding p := by
  obtain ⟨id, hwin, hid | hid⟩ := h
  · exact ⟨id, hwin, hwaiting id hid⟩
  · exact ⟨id, hwin, .inr (hinFlight id hid)⟩

/-- The reported window is replaced by its successor. -/
theorem outstanding_notify {now sysNow : ℤ} {request : TaskResult}
    (hs : s.step ⟨now, .notifyResult sysNow request⟩ = some t)
    (hroom : DropsNoWindow s ⟨now, .notifyResult sysNow request⟩)
    (hrunning : s.service.Running p) (h : s.Outstanding p) : t.Outstanding p := by
  obtain ⟨service, hservice, rfl⟩ := Option.map_eq_some_iff.mp hs
  have hcases := s.service.notifyResult_eq_some now sysNow request hservice
  by_cases hwin : IsWindowOf p request.taskId
  · obtain ⟨⟨p', seq⟩, hsplit, rfl⟩ := Option.map_eq_some_iff.mp hwin
    obtain ⟨config, hconfig, hrun⟩ := hrunning
    obtain ⟨next, hnext⟩ := s.service.successor_of_running now sysNow request hservice hsplit
      hconfig hrun (hroom _ hwin config hconfig hrun)
    rcases hcases with ⟨hnone, _⟩ | ⟨ip, task, reason, hnext', _, rfl⟩
    · simp [hnext] at hnone
    · obtain ⟨rfl, rfl⟩ := Prod.mk.inj (Option.some.inj (hnext.symm.trans hnext'))
      refine ⟨windowTid p' next, isWindowOf_windowTid hwin.parent_ne next, .inl ?_⟩
      exact (HotmethodService.mem_waitingIds_enqueue _ now).mpr (.inr rfl)
  · have hwaiting : ∀ id ∈ s.service.waitingIds, id ∈ service.waitingIds := by
      intro id hid
      rcases hcases with ⟨_, rfl⟩ | ⟨ip, task, reason, _, _, rfl⟩
      · exact (s.service.mem_waitingIds_of_tasks (by simp)).mpr hid
      · exact (HotmethodService.mem_waitingIds_enqueue _ now).mpr
          (.inl ((s.service.mem_waitingIds_of_tasks (by simp)).mpr hid))
    obtain ⟨id, hid, hmem | hmem⟩ := h
    · exact ⟨id, hid, .inl (hwaiting id hmem)⟩
    · have hne : id ≠ request.taskId := by
        rintro rfl
        exact hwin hid
      exact ⟨id, hid, .inr ((List.mem_erase_of_ne hne).mpr hmem)⟩

/-- No call starts or resumes a parent, except for the start of a new one. -/
theorem running_step {e : Event} (hs : s.step e = some t) (hrunning : t.service.Running p) :
    s.service.Running p ∨
      ∃ request, e.call = .startContinuousTask request ∧
        HotmethodService.parentTidAt e.now = p := by
  obtain ⟨config, hconfig, hrun⟩ := hrunning
  have hsame : t.service.continuousTasks[p]? = s.service.continuousTasks[p]? →
      s.service.Running p := fun heq => ⟨config, heq ▸ hconfig, hrun⟩
  obtain ⟨now, call⟩ := e
  cases call with
  | pushTask targetIp task =>
      obtain rfl := Option.some.inj hs
      refine .inl (hsame ?_)
      unfold HotmethodService.pushTask
      dsimp only
      split <;> rfl
  | popTask targetIp =>
      simp only [Traced.step] at hs
      cases hqueue : s.service.queue targetIp with
      | nil =>
          rw [s.service.popTask_nil now hqueue] at hs
          exact .inl (hsame (by rw [← Option.some.inj hs]))
      | cons task rest =>
          rw [s.service.popTask_cons now hqueue] at hs
          exact .inl (hsame (by simp [← Option.some.inj hs]))
  | updateTaskStatus request =>
      obtain rfl := Option.some.inj hs
      exact .inl (hsame rfl)
  | notifyResult sysNow request =>
      obtain ⟨service, hservice, rfl⟩ := Option.map_eq_some_iff.mp hs
      refine .inl (hsame ?_)
      rcases s.service.notifyResult_eq_some now sysNow request hservice with
        ⟨_, rfl⟩ | ⟨ip, task, reason, _, _, rfl⟩ <;> simp
  | cleanupTimeoutTasks =>
      obtain rfl := Option.some.inj hs
      exact .inl (hsame (by simp))
  | startContinuousTask request =>
      obtain rfl := Option.some.inj hs
      by_cases heq : HotmethodService.parentTidAt now = p
      · exact .inr ⟨request, rfl, heq⟩
      · exact .inl (hsame (by simp [heq]))
  | stopContinuousTask taskId =>
      obtain rfl := Option.some.inj hs
      rw [HotmethodService.stopContinuousTask_continuousTasks] at hconfig
      split at hconfig
      · obtain ⟨old, _, rfl⟩ := Option.map_eq_some_iff.mp hconfig
        simp at hrun
      · exact .inl ⟨config, hconfig, hrun⟩

theorem outstanding_step {e : Event} (hok : DropsNoWindow s e) (hs : s.step e = some t)
    (h : ∀ p, s.service.Running p → s.Outstanding p) :
    ∀ p, t.service.Running p → t.Outstanding p := by
  intro p hrunning
  have hold := running_step hs hrunning
  obtain ⟨now, call⟩ := e
  cases call with
  | startContinuousTask request =>
      obtain rfl := Option.some.inj hs
      rw [s.service.startContinuousTask_of_hasRoom now hok]
      rcases hold with hold | ⟨_, _, rfl⟩
      · refine (h p hold).mono (fun id hid => .inl ?_) fun _ hid => hid
        exact (HotmethodService.mem_waitingIds_enqueue _ now).mpr (.inl hid)
      · refine ⟨windowTid (HotmethodService.parentTidAt now) 0,
          isWindowOf_windowTid (parentTidAt_ne now) 0, .inl ?_⟩
        exact (HotmethodService.mem_waitingIds_enqueue _ now).mpr (.inr rfl)
  | pushTask targetIp task =>
      have hout := h p (hold.resolve_right (by simp))
      obtain rfl := Option.some.inj hs
      refine hout.mono (fun id hid => .inl ?_) fun _ hid => hid
      unfold HotmethodService.pushTask
      dsimp only
      split
      · exact (HotmethodService.mem_waitingIds_enqueue _ now).mpr (.inl hid)
      · exact hid
  | popTask targetIp =>
      have hout := h p (hold.resolve_right (by simp))
      simp only [Traced.step] at hs
      cases hqueue : s.service.queue targetIp with
      | nil =>
          rw [s.service.popTask_nil now hqueue] at hs
          exact Option.some.inj hs ▸ hout
      | cons task rest =>
          rw [s.service.popTask_cons now hqueue] at hs
          obtain rfl := Option.some.inj hs
          refine hout.mono (fun id hid => ?_) fun _ hid => List.mem_append_left _ hid
          rcases (s.service.mem_waitingIds_dequeue now hqueue).2 hid with hid | rfl
          · exact .inl hid
          · exact .inr (by simp)
  | updateTaskStatus request =>
      obtain rfl := Option.some.inj hs
      exact (h p (hold.resolve_right (by simp))).mono (fun _ hid => .inl hid) fun _ hid => hid
  | notifyResult sysNow request =>
      have hold := hold.resolve_right (by simp)
      exact outstanding_notify hs hok hold (h p hold)
  | cleanupTimeoutTasks =>
      have hold := hold.resolve_right (by simp)
      obtain rfl := Option.some.inj hs
      obtain ⟨id, hwin, hid | hid⟩ := h p hold
      · refine ⟨id, hwin, .inl ((s.service.mem_waitingIds_cleanup now _).mpr ⟨hid, ?_⟩)⟩
        exact hok id hid ⟨p, hwin, hold⟩
      · exact ⟨id, hwin, .inr hid⟩
  | stopContinuousTask taskId =>
      obtain rfl := Option.some.inj hs
      refine (h p (hold.resolve_right (by simp))).mono (fun _ hid => .inl ?_) fun _ hid => hid
      exact (s.service.mem_waitingIds_of_tasks (by simp)).mpr hid

/-- Sampling goes on as long as no window is dropped. -/
theorem keepsSampling_of_dropsNoWindow {ok : Traced → Event → Prop}
    (hkeeps : ∀ s e, ok s e → DropsNoWindow s e) : KeepsSampling ok := fun _ hs =>
  (hs.mono hkeeps).invariant (by simp [HotmethodService.Running]) fun _ _ _ h hok hstep =>
    outstanding_step hok hstep h

theorem keepsSampling_sampledRun : (Transition.after step {} sampledRun).Outstanding "cp_7" :=
  keepsSampling_of_dropsNoWindow (fun _ _ h => h) _
    (Transition.Along.reachable (by decide +kernel) (by decide +kernel)) "cp_7"
    ⟨⟨"cp_7", "a", 1, 99, 10, 0, "", "", true⟩, by decide +kernel, rfl⟩

/-- The agent stays away while the first window waits. -/
def absentAgentRun : List Event :=
  [⟨7, .startContinuousTask ⟨"a", 1, 99, 10, 0, "", ""⟩⟩, ⟨40000000000, .cleanupTimeoutTasks⟩]

/-- The cleanup thread drops the only window of a parent that stays registered as running. -/
theorem not_keepsSampling : ¬ KeepsSampling fun s e => FreshIds s e ∧ ReportsOnce s e := by
  intro h
  obtain ⟨id, _, hid | hid⟩ := h (Transition.after step {} absentAgentRun)
    (Transition.Along.reachable (by decide +kernel) (by decide +kernel)) "cp_7" (by decide +kernel)
  · have hnone : (Transition.after step {} absentAgentRun).service.waitingIds = [] := by
      decide +kernel
    simp [hnone] at hid
  · have hnone : (Transition.after step {} absentAgentRun).inFlight = [] := by decide +kernel
    simp [hnone] at hid

end MiniDrop.Traced
