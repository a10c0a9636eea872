import Mathlib.Data.List.Nodup
import MiniDrop.Verification.Hotmethod.Operations
import MiniDrop.Verification.Hotmethod.WindowTid

/-! # Queue safety

The queues, the task states and the history of a run fit together after every call, and the
ids of the windows of a parent are handed out in order. -/

namespace MiniDrop.Traced

/-! ## The history -/

section History

variable {s : Traced} {ip taskId : String}


theorem mem_queuedAt : taskId ∈ s.queuedAt ip ↔ (ip, taskId) ∈ s.queued := by
  simp [queuedAt]

theorem mem_poppedAt : taskId ∈ s.poppedAt ip ↔ (ip, taskId) ∈ s.popped := by
  simp [poppedAt]

theorem mem_poppedIds : taskId ∈ s.poppedIds ↔ ∃ ip, taskId ∈ s.poppedAt ip := by
  simp [poppedIds, mem_poppedAt]

theorem mem_waitingIds : taskId ∈ s.service.waitingIds ↔ ∃ ip, taskId ∈ s.waitingAt ip := by
  simp [HotmethodService.mem_waitingIds, waitingAt]

theorem mem_queuedIds : taskId ∈ s.queuedIds ↔ ∃ ip, taskId ∈ s.queuedAt ip := by
  simp [queuedIds, mem_queuedAt]

end History

/-- The history of pushed tasks only grows. -/
theorem queued_step {s t : Traced} {e : Event} (h : s.step e = some t) :
    ∃ new, t.queued = s.queued ++ new := by
  obtain ⟨now, call⟩ := e
  cases call with
  | popTask targetIp =>
      simp only [step] at h
      split at h <;> exact ⟨[], by simp [← Option.some.inj h]⟩
  | notifyResult sysNow request =>
      obtain ⟨service, _, rfl⟩ := Option.map_eq_some_iff.mp h
      exact ⟨_, rfl⟩
  | pushTask | startContinuousTask =>
      exact ⟨_, congrArg queued (Option.some.inj h).symm⟩
  | _ => exact ⟨[], by simp [← Option.some.inj h]⟩

theorem queuedIds_step {s t : Traced} {e : Event} (h : s.step e = some t) {taskId : String}
    (hmem : taskId ∈ s.queuedIds) : taskId ∈ t.queuedIds := by
  obtain ⟨new, hnew⟩ := queued_step h
  rw [queuedIds, hnew, List.map_append]
  exact List.mem_append_left _ hmem

/-- A task goes to the end of the queue of `ip`. -/
def enqueue (s : Traced) (now : ℤ) (ip : String) (task : TaskDesc) (reason : String) : Traced :=
  { s with
    service := s.service.enqueue now ip task reason
    queued := s.queued ++ [(ip, task.taskId)] }

/-- The first task leaves the queue of `ip`. -/
def dequeue (s : Traced) (now : ℤ) (ip : String) (task : TaskDesc) (rest : List TaskDesc) :
    Traced :=
  { s with
    service := s.service.dequeue now ip task rest
    popped := s.popped ++ [(ip, task.taskId)]
    inFlight := s.inFlight ++ [task.taskId] }

section Moves

variable (s : Traced) (now : ℤ) (ip : String) (task : TaskDesc) (rest : List TaskDesc)
  (reason : String) (ip' : String)

theorem waitingAt_enqueue : (s.enqueue now ip task reason).waitingAt ip' =
    s.waitingAt ip' ++ if ip = ip' then [task.taskId] else [] := by
  by_cases hip : ip = ip' <;> simp [enqueue, waitingAt, HotmethodService.queue_enqueue, hip]

theorem queuedAt_enqueue : (s.enqueue now ip task reason).queuedAt ip' =
    s.queuedAt ip' ++ if ip = ip' then [task.taskId] else [] := by
  by_cases hip : ip = ip' <;> simp [enqueue, queuedAt, hip]

@[simp] theorem queuedIds_enqueue :
    (s.enqueue now ip task reason).queuedIds = s.queuedIds ++ [task.taskId] := by
  simp [enqueue, queuedIds]

theorem waitingAt_dequeue : (s.dequeue now ip task rest).waitingAt ip' =
    if ip = ip' then rest.map TaskDesc.taskId else s.waitingAt ip' := by
  by_cases hip : ip = ip' <;> simp [dequeue, waitingAt, HotmethodService.queue_dequeue, hip]

theorem poppedAt_dequeue : (s.dequeue now ip task rest).poppedAt ip' =
    s.poppedAt ip' ++ if ip = ip' then [task.taskId] else [] := by
  by_cases hip : ip = ip' <;> simp [dequeue, poppedAt, hip]

@[simp] theorem poppedIds_dequeue :
    (s.dequeue now ip task rest).poppedIds = s.poppedIds ++ [task.taskId] := by
  simp [dequeue, poppedIds]

end Moves

/-! ## The invariant -/

/-- `taskId` is a window id that its parent hands out: the windows before it are reported. -/
def InTurn (s : Traced) (parentTid taskId : String) : Prop :=
  ∃ k : ℤ, 0 ≤ k ∧ k ≤ 2147483647 ∧ taskId = windowTid parentTid k ∧
    (0 < k → windowTid parentTid (k - 1) ∈ s.reported)

structure Inv (s : Traced) : Prop where
  ids_nodup : s.queuedIds.Nodup
  /-- Each queue is popped in the order in which it was filled. -/
  order : ∀ ip, (s.poppedAt ip ++ s.waitingAt ip).Sublist (s.queuedAt ip)
  pending : ∀ ip, ∀ t ∈ s.waitingAt ip,
    (s.service.tasksState[t]?).map TaskStateInfo.status = some .pending
  stored : ∀ (ip : String) (q : List TaskDesc), s.service.tasks[ip]? = some q → q ≠ []
  bounded : ∀ ip, (s.service.queue ip).length ≤ maxTaskQueueSize
  known : ∀ (t : String) (info : TaskStateInfo), s.service.tasksState[t]? = some info →
    t ∈ s.queuedIds
  expired_known : ∀ t ∈ s.expired, t ∈ s.queuedIds
  expired_gone : ∀ t ∈ s.expired, ∀ ip, t ∉ s.waitingAt ip
  popped_nodup : s.poppedIds.Nodup
  inFlight_nodup : s.inFlight.Nodup
  inFlight_popped : ∀ t ∈ s.inFlight, t ∈ s.poppedIds
  inFlight_open : ∀ t ∈ s.inFlight, t ∉ s.reported
  reported_popped : ∀ t ∈ s.reported, t ∈ s.poppedIds
  windows : ∀ p ∈ s.service.continuousTasks, ∀ t ∈ s.queuedIds, IsWindowOf p t → s.InTurn p t

theorem Inv.start : Inv ({} : Traced) := by
  constructor <;>
    simp [queuedIds, poppedIds, poppedAt, queuedAt, waitingAt, HotmethodService.queue]

namespace Inv

variable {s : Traced} (h : s.Inv)

include h

/-- An id belongs to one queue only. -/
theorem address_unique {t ip ip' : String} (hip : t ∈ s.queuedAt ip) (hip' : t ∈ s.queuedAt ip') :
    ip = ip' := by
  have heq := List.inj_on_of_nodup_map h.ids_nodup (mem_queuedAt.mp hip) (mem_queuedAt.mp hip') rfl
  exact congrArg Prod.fst heq

theorem queuedAt_nodup (ip : String) : (s.queuedAt ip).Nodup :=
  h.ids_nodup.sublist (List.Sublist.map _ List.filter_sublist)

theorem waiting_queued {ip t : String} (ht : t ∈ s.waitingAt ip) : t ∈ s.queuedAt ip :=
  (h.order ip).subset (List.mem_append_right _ ht)

theorem popped_queued {ip t : String} (ht : t ∈ s.poppedAt ip) : t ∈ s.queuedAt ip :=
  (h.order ip).subset (List.mem_append_left _ ht)

/-- A popped task waits in no queue. -/
theorem waiting_not_popped {ip t : String} (ht : t ∈ s.waitingAt ip) : t ∉ s.poppedIds := by
  intro hpopped
  obtain ⟨ip', ht'⟩ := mem_poppedIds.mp hpopped
  obtain rfl := h.address_unique (h.waiting_queued ht) (h.popped_queued ht')
  have hnodup := (h.queuedAt_nodup ip).sublist (h.order ip)
  exact List.disjoint_of_nodup_append hnodup ht' ht

theorem poppedIds_queued {t : String} (ht : t ∈ s.poppedIds) : t ∈ s.queuedIds := by
  obtain ⟨ip, hip⟩ := mem_poppedIds.mp ht
  exact mem_queuedIds.mpr ⟨ip, h.popped_queued hip⟩

/-- No id waits twice, in one queue or in two. -/
theorem waitingIds_nodup : s.service.waitingIds.Nodup := by
  have hentry : ∀ entry ∈ s.service.tasks.toList,
      entry.2.map TaskDesc.taskId = s.waitingAt entry.1 := by
    rintro ⟨ip, q⟩ hq
    rw [Std.ExtTreeMap.mem_toList_iff_getElem?_eq_some] at hq
    simp [waitingAt, HotmethodService.queue, hq]
  refine List.nodup_flatMap.mpr ⟨?_, ?_⟩
  · intro entry hmem
    rw [hentry entry hmem]
    exact (h.queuedAt_nodup _).sublist ((List.sublist_append_right _ _).trans (h.order _))
  · refine s.service.tasks.distinct_keys_toList.imp_of_mem ?_
    intro a b ha hb hne t hta htb
    replace hta : t ∈ s.waitingAt a.1 := hentry a ha ▸ hta
    replace htb : t ∈ s.waitingAt b.1 := hentry b hb ▸ htb
    exact hne (Std.compare_eq_iff_eq.mpr
      (h.address_unique (h.waiting_queued hta) (h.waiting_queued htb)))

/-! ## One transition at a time -/

/-- A fresh task goes to the end of a queue that has room. -/
theorem enqueue {now : ℤ} {ip : String} {task : TaskDesc} {reason : String}
    (hroom : s.service.hasRoom ip = true) (hnew : task.taskId ∉ s.queuedIds)
    (hturn : ∀ p ∈ s.service.continuousTasks, IsWindowOf p task.taskId →
      s.InTurn p task.taskId) :
    (s.enqueue now ip task reason).Inv := by
  have hwait : ∀ ip', ∀ t ∈ (s.enqueue now ip task reason).waitingAt ip',
      t ∈ s.waitingAt ip' ∧ t ≠ task.taskId ∨ t = task.taskId := by
    intro ip' t ht
    rw [waitingAt_enqueue] at ht
    rcases List.mem_append.mp ht with ht | ht
    · refine .inl ⟨ht, ?_⟩
      rintro rfl
      exact hnew (mem_queuedIds.mpr ⟨ip', h.waiting_queued ht⟩)
    · right
      split at ht <;> simp_all
  constructor
  case ids_nodup =>
    rw [queuedIds_enqueue]
    refine List.nodup_append.mpr ⟨h.ids_nodup, List.nodup_singleton _, ?_⟩
    rintro a ha b hb rfl
    exact hnew (List.mem_singleton.mp hb ▸ ha)
  case order =>
    intro ip'
    rw [waitingAt_enqueue, queuedAt_enqueue, ← List.append_assoc]
    exact (h.order ip').append (List.Sublist.refl _)
  case pending =>
    intro ip' t ht
    rcases hwait ip' t ht with ⟨ht, hne⟩ | rfl
    · simpa [Traced.enqueue, hne.symm] using h.pending ip' t ht
    · simp [Traced.enqueue]
  case stored =>
    intro ip' q hq
    simp only [Traced.enqueue, HotmethodService.enqueue_tasks] at hq
    by_cases hip : ip = ip'
    · simp only [hip, Std.ExtTreeMap.getElem?_insert_self, Option.some.injEq] at hq
      simp [← hq]
    · exact h.stored ip' q (by simpa [hip] using hq)
  case bounded =>
    intro ip'
    simp only [Traced.enqueue, HotmethodService.queue_enqueue]
    split
    · have hlt : (s.service.queue ip).length < maxTaskQueueSize := by
        simpa [HotmethodService.hasRoom] using hroom
      simpa using Nat.succ_le_of_lt hlt
    · exact h.bounded ip'
  case known =>
    intro t info hinfo
    rw [queuedIds_enqueue]
    by_cases ht : task.taskId = t
    · simp [ht]
    · exact List.mem_append_left _ (h.known t info (by simpa [Traced.enqueue, ht] using hinfo))
  case expired_known =>
    intro t ht
    rw [queuedIds_enqueue]
    exact List.mem_append_left _ (h.expired_known t ht)
  case expired_gone =>
    intro t ht ip' hwaiting
    rcases hwait ip' t hwaiting with ⟨hwaiting, _⟩ | rfl
    · exact h.expired_gone t ht ip' hwaiting
    · exact hnew (h.expired_known _ ht)
  case popped_nodup => exact h.popped_nodup
  case inFlight_nodup => exact h.inFlight_nodup
  case inFlight_popped => exact h.inFlight_popped
  case inFlight_open => exact h.inFlight_open
  case reported_popped => exact h.reported_popped
  case windows =>
    intro p hp t ht hwin
    rw [queuedIds_enqueue] at ht
    rcases List.mem_append.mp ht with ht | ht
    · exact h.windows p hp t ht hwin
    · obtain rfl := List.mem_singleton.mp ht
      exact hturn p hp hwin

/-- The first task of a queue is popped. -/
theorem dequeue {now : ℤ} {ip : String} {task : TaskDesc} {rest : List TaskDesc}
    (hqueue : s.service.queue ip = task :: rest) : (s.dequeue now ip task rest).Inv := by
  have hwaiting : s.waitingAt ip = task.taskId :: rest.map TaskDesc.taskId := by
    simp [waitingAt, hqueue]
  have hhead : task.taskId ∈ s.waitingAt ip := by simp [hwaiting]
  have hopen : task.taskId ∉ s.poppedIds := h.waiting_not_popped hhead
  have hsub : ∀ ip', (s.dequeue now ip task rest).waitingAt ip' ⊆ s.waitingAt ip' := by
    intro ip'
    rw [waitingAt_dequeue]
    split
    · rename_i hip
      rw [← hip, hwaiting]
      exact List.subset_cons_self _ _
    · exact List.Subset.refl _
  have hleft : ∀ ip', task.taskId ∉ (s.dequeue now ip task rest).waitingAt ip' := by
    intro ip' ht
    obtain rfl := h.address_unique (h.waiting_queued hhead) (h.waiting_queued (hsub ip' ht))
    have hnodup := (h.queuedAt_nodup ip).sublist
      ((List.sublist_append_right _ _).trans (h.order ip))
    rw [hwaiting, List.nodup_cons] at hnodup
    rw [waitingAt_dequeue, if_pos rfl] at ht
    exact hnodup.1 ht
  constructor
  case ids_nodup => exact h.ids_nodup
  case order =>
    intro ip'
    rw [poppedAt_dequeue, waitingAt_dequeue]
    change List.Sublist _ (s.queuedAt ip')
    by_cases hip : ip = ip'
    · subst hip
      simpa [hwaiting] using h.order ip
    · simpa [hip] using h.order ip'
  case pending =>
    intro ip' t ht
    have hne : task.taskId ≠ t := by
      rintro rfl
      exact hleft ip' ht
    simpa [Traced.dequeue, hne] using h.pending ip' t (hsub ip' ht)
  case stored =>
    intro ip' q hq
    simp only [Traced.dequeue, HotmethodService.dequeue_tasks_getElem?] at hq
    split at hq
    · split at hq
      · simp at hq
      · rename_i hne
        obtain rfl := Option.some.inj hq
        simpa using hne
    · exact h.stored ip' q hq
  case bounded =>
    intro ip'
    have hlen := h.bounded ip'
    simp only [Traced.dequeue, HotmethodService.queue_dequeue]
    split
    · rename_i hip
      rw [← hip, hqueue, List.length_cons] at hlen
      omega
    · exact hlen
  case known =>
    intro t info hinfo
    by_cases ht : task.taskId = t
    · exact ht ▸ mem_queuedIds.mpr ⟨ip, h.waiting_queued hhead⟩
    · exact h.known t info (by simpa [Traced.dequeue, ht] using hinfo)
  case expired_known => exact h.expired_known
  case expired_gone =>
    intro t ht ip' hwait
    exact h.expired_gone t ht ip' (hsub ip' hwait)
  case popped_nodup =>
    rw [poppedIds_dequeue]
    refine List.nodup_append.mpr ⟨h.popped_nodup, List.nodup_singleton _, ?_⟩
    rintro a ha b hb rfl
    exact hopen (List.mem_singleton.mp hb ▸ ha)
  case inFlight_nodup =>
    refine List.nodup_append.mpr ⟨h.inFlight_nodup, List.nodup_singleton _, ?_⟩
    rintro a ha b hb rfl
    exact hopen (List.mem_singleton.mp hb ▸ h.inFlight_popped a ha)
  case inFlight_popped =>
    intro t ht
    rw [poppedIds_dequeue]
    rcases List.mem_append.mp ht with ht | ht
    · exact List.mem_append_left _ (h.inFlight_popped t ht)
    · exact List.mem_append_right _ ht
  case inFlight_open =>
    intro t ht hreported
    rcases List.mem_append.mp ht with ht | ht
    · exact h.inFlight_open t ht hreported
    · exact hopen (List.mem_singleton.mp ht ▸ h.reported_popped t hreported)
  case reported_popped =>
    intro t ht
    rw [poppedIds_dequeue]
    exact List.mem_append_left _ (h.reported_popped t ht)
  case windows => exact h.windows

/-- The state of a popped task changes. -/
theorem relabel {service : HotmethodService} {t : String} {info : TaskStateInfo}
    (htasks : service.tasks = s.service.tasks)
    (hstate : service.tasksState = s.service.tasksState.insert t info)
    (hparents : service.continuousTasks = s.service.continuousTasks) (ht : t ∈ s.poppedIds) :
    Inv { s with service } := by
  have hwaiting : ∀ ip, waitingAt { s with service } ip = s.waitingAt ip := by
    simp [waitingAt, HotmethodService.queue, htasks]
  constructor
  case order => exact fun ip => hwaiting ip ▸ h.order ip
  case pending =>
    intro ip t' ht'
    rw [hwaiting] at ht'
    have hne : t ≠ t' := by
      rintro rfl
      exact h.waiting_not_popped ht' ht
    simpa [hstate, hne] using h.pending ip t' ht'
  case stored => exact fun ip => htasks ▸ h.stored ip
  case bounded => simpa [HotmethodService.queue, htasks] using h.bounded
  case known =>
    intro t' info' hinfo
    by_cases heq : t = t'
    · exact heq ▸ h.poppedIds_queued ht
    · exact h.known t' info' (by simpa [hstate, heq] using hinfo)
  case expired_gone => exact fun t ht ip => hwaiting ip ▸ h.expired_gone t ht ip
  case windows => exact hparents ▸ h.windows
  all_goals first
    | exact h.ids_nodup
    | exact h.expired_known
    | exact h.popped_nodup
    | exact h.inFlight_nodup
    | exact h.inFlight_popped
    | exact h.inFlight_open
    | exact h.reported_popped

/-- A popped task is reported. -/
theorem report {t : String} (ht : t ∈ s.poppedIds) :
    Inv { s with inFlight := s.inFlight.erase t, reported := s.reported ++ [t] } :=
  { h with
    inFlight_nodup := h.inFlight_nodup.erase t
    inFlight_popped := fun t' ht' => h.inFlight_popped t' (List.mem_of_mem_erase ht')
    inFlight_open := by
      intro t' ht' hreported
      obtain ⟨hne, hin⟩ := h.inFlight_nodup.mem_erase_iff.mp ht'
      rcases List.mem_append.mp hreported with hreported | heq
      · exact h.inFlight_open t' hin hreported
      · exact hne (List.mem_singleton.mp heq)
    reported_popped := by
      intro t' ht'
      rcases List.mem_append.mp ht' with ht' | heq
      · exact h.reported_popped t' ht'
      · exact List.mem_singleton.mp heq ▸ ht
    windows := by
      intro p hp t' ht' hwin
      obtain ⟨k, hnonneg, hmax, heq, hprev⟩ := h.windows p hp t' ht' hwin
      exact ⟨k, hnonneg, hmax, heq, fun hk => List.mem_append_left _ (hprev hk)⟩ }

/-- A parent is registered before any window of it exists, or stays registered. -/
theorem register {service : HotmethodService} (htasks : service.tasks = s.service.tasks)
    (hstate : service.tasksState = s.service.tasksState)
    (hparents : ∀ p ∈ service.continuousTasks, p ∈ s.service.continuousTasks ∨
      ∀ t ∈ s.queuedIds, ¬ IsWindowOf p t) :
    Inv { s with service } :=
  { h with
    order := by
      simpa [queuedAt, poppedAt, waitingAt, HotmethodService.queue, htasks] using h.order
    pending := by simpa [waitingAt, HotmethodService.queue, htasks, hstate] using h.pending
    stored := by simpa [htasks] using h.stored
    bounded := by simpa [HotmethodService.queue, htasks] using h.bounded
    known := by simpa [queuedIds, hstate] using h.known
    expired_gone := by
      simpa [waitingAt, HotmethodService.queue, htasks] using h.expired_gone
    windows := by
      intro p hp t ht hwin
      rcases hparents p hp with hp | hnone
      · exact h.windows p hp t ht hwin
      · exact absurd hwin (hnone t ht) }

/-- A cleanup pass fails the overdue tasks and takes them out of their queues. -/
theorem cleanup (now timeoutSec : ℤ) :
    Inv { s with
      service := s.service.cleanupTimeoutTasks now timeoutSec
      expired := s.expired ++ s.service.overdueTasks now timeoutSec } := by
  have hwaiting : ∀ ip t, t ∈ waitingAt { s with
      service := s.service.cleanupTimeoutTasks now timeoutSec
      expired := s.expired ++ s.service.overdueTasks now timeoutSec } ip ↔
        t ∈ s.waitingAt ip ∧ t ∉ s.service.overdueTasks now timeoutSec := by
    intro ip t
    simp only [waitingAt, HotmethodService.queue_cleanupTimeoutTasks, List.mem_map,
      List.mem_filter, decide_eq_true_eq]
    constructor
    · rintro ⟨task, ⟨hmem, hkeep⟩, rfl⟩
      exact ⟨⟨task, hmem, rfl⟩, hkeep⟩
    · rintro ⟨⟨task, hmem, rfl⟩, hkeep⟩
      exact ⟨task, ⟨hmem, hkeep⟩, rfl⟩
  constructor
  case order =>
    intro ip
    have hsub : List.Sublist
        (((s.service.cleanupTimeoutTasks now timeoutSec).queue ip).map TaskDesc.taskId)
        (s.waitingAt ip) := by
      rw [HotmethodService.queue_cleanupTimeoutTasks]
      exact List.Sublist.map _ List.filter_sublist
    exact ((List.Sublist.refl _).append hsub).trans (h.order ip)
  case pending =>
    intro ip t ht
    obtain ⟨ht, hkeep⟩ := (hwaiting ip t).mp ht
    obtain ⟨info, hinfo, hpending⟩ := Option.map_eq_some_iff.mp (h.pending ip t ht)
    have hover : HotmethodService.overdue now timeoutSec info = false := by
      by_contra hne
      exact hkeep
        ((s.service.mem_overdueTasks now timeoutSec).mpr ⟨info, hinfo, by simpa using hne⟩)
    simp [HotmethodService.cleanupTimeoutTasks_tasksState, hinfo, HotmethodService.afterCleanup,
      HotmethodService.afterTimeout, hover, HotmethodService.outlived, hpending,
      TaskStatus.terminal]
  case stored =>
    exact fun ip => s.service.cleanupTimeoutTasks_stored now timeoutSec ip (h.stored ip)
  case bounded =>
    intro ip
    rw [HotmethodService.queue_cleanupTimeoutTasks]
    exact (List.length_filter_le _ _).trans (h.bounded ip)
  case known =>
    intro t info hinfo
    rw [HotmethodService.cleanupTimeoutTasks_tasksState, Option.bind_eq_some_iff] at hinfo
    obtain ⟨old, hold, _⟩ := hinfo
    exact h.known t old hold
  case expired_known =>
    intro t ht
    rcases List.mem_append.mp ht with ht | ht
    · exact h.expired_known t ht
    · obtain ⟨info, hinfo, _⟩ := (s.service.mem_overdueTasks now timeoutSec).mp ht
      exact h.known t info hinfo
  case expired_gone =>
    intro t ht ip hwait
    obtain ⟨hwait, hkeep⟩ := (hwaiting ip t).mp hwait
    rcases List.mem_append.mp ht with ht | ht
    · exact h.expired_gone t ht ip hwait
    · exact hkeep ht
  case windows =>
    intro p hp t ht hwin
    exact h.windows p (by simpa using hp) t ht hwin
  all_goals first
    | exact h.ids_nodup
    | exact h.popped_nodup
    | exact h.inFlight_nodup
    | exact h.inFlight_popped
    | exact h.inFlight_open
    | exact h.reported_popped

/-- The window after a window in flight was never queued. -/
theorem successor_fresh {request : TaskResult} {ip : String} {task : TaskDesc}
    (hin : request.taskId ∈ s.inFlight)
    (hnext : s.service.successor request = some (ip, task)) :
    task.taskId ∉ s.queuedIds ∧ ∀ p, IsWindowOf p task.taskId →
      InTurn { s with
        inFlight := s.inFlight.erase request.taskId
        reported := s.reported ++ [request.taskId] } p task.taskId := by
  obtain ⟨p, seq, next, config, hsplit, hconfig, _, hseq, rfl, rfl⟩ :=
    s.service.successor_eq_some request hnext
  have hp : p ∈ s.service.continuousTasks :=
    Std.ExtTreeMap.mem_iff_isSome_getElem?.mpr (by simp [hconfig])
  have hwin : IsWindowOf p request.taskId := isWindowOf_of_split hsplit
  obtain ⟨k, hnonneg, hmax, heq, _⟩ :=
    h.windows p hp _ (h.poppedIds_queued (h.inFlight_popped _ hin)) hwin
  have hsame := splitWindowTid_windowTid_of_le hwin.parent_ne hnonneg hmax
  rw [← heq, hsplit] at hsame
  obtain rfl : seq = k := by simpa using hsame
  obtain ⟨rfl, hle⟩ : next = seq + 1 ∧ seq + 1 ≤ 2147483647 := by
    unfold nextSeq at hseq
    split at hseq
    · exact ⟨(Option.some.inj hseq).symm, by omega⟩
    · cases hseq
  change windowTid p (seq + 1) ∉ s.queuedIds ∧ _
  constructor
  · intro hqueued
    obtain ⟨j, hj, hjmax, hjeq, hprev⟩ :=
      h.windows p hp _ hqueued (isWindowOf_windowTid hwin.parent_ne _)
    obtain rfl := windowTid_inj hwin.parent_ne ⟨by omega, hle⟩ ⟨hj, hjmax⟩ hjeq
    have hreported := hprev (by omega)
    rw [Int.add_sub_cancel, ← heq] at hreported
    exact h.inFlight_open _ hin hreported
  · intro p' hp'
    obtain rfl := hp'.unique (isWindowOf_windowTid hwin.parent_ne (seq + 1))
    refine ⟨seq + 1, by omega, hle, rfl, fun _ => ?_⟩
    rw [Int.add_sub_cancel, ← heq]
    exact List.mem_append_right _ (List.mem_singleton.mpr rfl)

end Inv

/-! ## Every call keeps the invariant -/

variable {s t : Traced} {e : Event}

theorem Inv.step (h : s.Inv) (hfresh : FreshIds s e) (honce : ReportsWindowsOnce s e)
    (hs : s.step e = some t) : t.Inv := by
  obtain ⟨now, call⟩ := e
  cases call with
  | pushTask targetIp task =>
      simp only [Traced.step, Option.some.injEq] at hs
      subst hs
      by_cases hroom : s.service.hasRoom targetIp = true
      · have hturn : ∀ p ∈ s.service.continuousTasks, IsWindowOf p task.taskId →
            s.InTurn p task.taskId := fun p hp hwin => absurd hp (hfresh.2 p hwin)
        simp only [HotmethodService.pushTask, hroom, if_true]
        exact h.enqueue hroom hfresh.1 hturn
      · simpa [HotmethodService.pushTask, hroom] using h
  | popTask targetIp =>
      simp only [Traced.step] at hs
      cases hqueue : s.service.queue targetIp with
      | nil =>
          rw [s.service.popTask_nil now hqueue] at hs
          exact Option.some.inj hs ▸ h
      | cons task rest =>
          rw [s.service.popTask_cons now hqueue] at hs
          exact Option.some.inj hs ▸ h.dequeue hqueue
  | updateTaskStatus request =>
      simp only [Traced.step, Option.some.injEq] at hs
      subst hs
      exact h.relabel rfl rfl rfl honce
  | notifyResult sysNow request =>
      obtain ⟨service, hservice, rfl⟩ := Option.map_eq_some_iff.mp hs
      have hbook := (h.relabel (s.service.bookkeep_tasks now sysNow request)
        (s.service.bookkeep_tasksState now sysNow request)
        (s.service.bookkeep_continuousTasks now sysNow request) honce.1).report honce.1
      rcases s.service.notifyResult_eq_some now sysNow request hservice with
        ⟨hnone, rfl⟩ | ⟨ip, task, reason, hnext, hroom, rfl⟩
      · simpa [hnone] using hbook
      · obtain ⟨p, seq, next, config, hsplit, hconfig, _⟩ :=
          s.service.successor_eq_some request hnext
        have hp : p ∈ s.service.continuousTasks :=
          Std.ExtTreeMap.mem_iff_isSome_getElem?.mpr (by simp [hconfig])
        have hin := honce.2 p (isWindowOf_of_split hsplit) hp
        obtain ⟨hnew, hturn⟩ := h.successor_fresh hin hnext
        simp only [hnext, Option.toList_some, List.map_cons, List.map_nil]
        exact hbook.enqueue (by simpa [HotmethodService.hasRoom] using hroom) hnew
          fun p _ hwin => hturn p hwin
  | cleanupTimeoutTasks =>
      simp only [Traced.step, Option.some.injEq] at hs
      subst hs
      exact h.cleanup now dispatchTimeoutSec
  | startContinuousTask request =>
      simp only [Traced.step, Option.some.injEq] at hs
      subst hs
      have hregister : Inv { s with
          service := s.service.registerContinuous
            (HotmethodService.continuousConfig (HotmethodService.parentTidAt now) request) } := by
        refine h.register rfl rfl fun p hp => ?_
        rcases Std.ExtTreeMap.mem_insert.mp hp with heq | hp
        · exact .inr (Std.compare_eq_iff_eq.mp heq ▸ hfresh.2)
        · exact .inl hp
      by_cases hroom : s.service.hasRoom request.targetIp = true
      · rw [s.service.startContinuousTask_of_hasRoom now hroom]
        simp only [if_neg (parentTidAt_ne now)]
        refine hregister.enqueue hroom ?_ ?_
        · intro hold
          exact hfresh.2 _ hold (isWindowOf_windowTid (parentTidAt_ne now) 0)
        · intro p _ hwin
          obtain rfl := hwin.unique (isWindowOf_windowTid (parentTidAt_ne now) 0)
          exact ⟨0, by omega, by omega, rfl, by omega⟩
      · rw [s.service.startContinuousTask_of_full now (by simpa using hroom)]
        simpa using hregister
  | stopContinuousTask taskId =>
      simp only [Traced.step, Option.some.injEq] at hs
      subst hs
      exact h.register (s.service.stopContinuousTask_tasks taskId)
        (s.service.stopContinuousTask_tasksState taskId)
        fun p hp => .inl ((s.service.mem_continuousTasks_stop taskId).mp hp)

theorem Inv.reportsWindowsOnce (h : s.Inv) (honce : ReportsOnce s e) : ReportsWindowsOnce s e := by
  obtain ⟨now, call⟩ := e
  cases call with
  | notifyResult sysNow request => exact ⟨h.inFlight_popped _ honce, fun _ _ _ => honce⟩
  | updateTaskStatus request => exact honce
  | _ => trivial

/-! ## Queue safety -/

/-- What the queues guarantee to agents and callers. -/
structure QueueSafe (s : Traced) : Prop where
  waiting_nodup : s.service.waitingIds.Nodup
  waiting_pending : ∀ t ∈ s.service.waitingIds, s.service.statusOf t = some .pending
  stored_bounds : ∀ (ip : String) (q : List TaskDesc), s.service.tasks[ip]? = some q →
    q ≠ [] ∧ q.length ≤ maxTaskQueueSize
  popped_once : s.poppedIds.Nodup
  /-- A task is popped under the address that it was pushed for, and the tasks popped and
  still waiting there stand in the order in which they were pushed. -/
  fifo : ∀ ip, (s.poppedAt ip ++ s.waitingAt ip).Sublist (s.queuedAt ip)
  pushed_once : s.queuedIds.Nodup
  /-- No queue hands out a task that the cleanup thread failed. -/
  expired_gone : ∀ now ip task, (s.service.popTask now ip).2 = some task → task.taskId ∉ s.expired

theorem Inv.queueSafe (h : s.Inv) : s.QueueSafe where
  waiting_nodup := h.waitingIds_nodup
  waiting_pending t ht := by
    obtain ⟨ip, hip⟩ := mem_waitingIds.mp ht
    exact h.pending ip t hip
  stored_bounds ip q hq := by
    refine ⟨h.stored ip q hq, ?_⟩
    simpa [HotmethodService.queue, hq] using h.bounded ip
  popped_once := h.popped_nodup
  fifo := h.order
  pushed_once := h.ids_nodup
  expired_gone now ip task hpop hexpired := by
    cases hqueue : s.service.queue ip with
    | nil => simp [s.service.popTask_nil now hqueue] at hpop
    | cons head rest =>
        obtain rfl : head = task := by simpa [s.service.popTask_cons now hqueue] using hpop
        exact h.expired_gone _ hexpired ip (by simp [waitingAt, hqueue])

/-- Queue safety holds throughout every run in which ids are distinct and every task is
reported once, after it was popped. -/
theorem queueSafe_of_reachable
    (h : Transition.Reachable Traced.step (fun s e => FreshIds s e ∧ ReportsOnce s e) {} s) :
    s.QueueSafe := by
  have hinv : s.Inv := h.invariant Inv.start fun s e t hs hok hstep =>
    hs.step hok.1 (hs.reportsWindowsOnce hok.2) hstep
  exact hinv.queueSafe

/-- A continuous task beside a one-shot task that is never pulled. -/
def mixedRun : List Event :=
  [⟨7, .startContinuousTask ⟨"a", 1, 99, 10, 0, "", ""⟩⟩,
    ⟨8, .pushTask "b" { taskId := "t" }⟩,
    ⟨9, .popTask "a"⟩,
    ⟨10, .updateTaskStatus ⟨"cp_7_w0", 2, ""⟩⟩,
    ⟨11, .notifyResult 0 { taskId := "cp_7_w0" }⟩,
    ⟨12, .popTask "a"⟩,
    ⟨40000000000, .cleanupTimeoutTasks⟩]

theorem queueSafe_mixedRun : (Transition.after Traced.step {} mixedRun).QueueSafe :=
  queueSafe_of_reachable (Transition.Along.reachable (by decide +kernel) (by decide +kernel))

end MiniDrop.Traced
