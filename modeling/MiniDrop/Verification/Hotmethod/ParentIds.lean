import MiniDrop.Verification.Hotmethod.WindowTid
import MiniDrop.Verification.Hotmethod.Operations

/-! # Ids of continuous tasks

StartContinuousTask draws the id of a task from the last six digits of the steady clock, and no task
is ever removed. -/

namespace MiniDrop

open HotmethodService

/-- The service, with the calls that it handled. -/
structure CallLog where
  service : HotmethodService := {}
  past : List Event := []

namespace CallLog

def step (s : CallLog) (e : Event) : Option CallLog :=
  (s.service.step e).map fun service => { service, past := s.past ++ [e] }

/-- Every call reads the clock later than the calls before it. -/
def Ticks (s : CallLog) (e : Event) : Prop := ∀ earlier ∈ s.past, earlier.now < e.now

instance (s : CallLog) (e : Event) : Decidable (s.Ticks e) :=
  inferInstanceAs (Decidable (∀ earlier ∈ s.past, _))

end CallLog

/-- A start answers with an id that no task has, replaces nothing, and queues a first window whose
id does not wait and has no result. -/
structure HotmethodService.StartsFresh (s : HotmethodService) (now : ℤ)
    (request : StartContinuousRequest) : Prop where
  id : (s.startContinuousTask now request).2 ∉ s.continuousTasks ∧
    (s.startContinuousTask now request).2 ∉ s.continuousWindows
  configs : ∀ (p : String) config, s.continuousTasks[p]? = some config →
    (s.startContinuousTask now request).1.continuousTasks[p]? = some config
  windows : ∀ (p : String) records, s.continuousWindows[p]? = some records →
    (s.startContinuousTask now request).1.continuousWindows[p]? = some records
  first : (s.startContinuousTask now request).2 ≠ "" →
    windowTid (s.startContinuousTask now request).2 0 ∉ s.waitingIds ∧
      windowTid (s.startContinuousTask now request).2 0 ∉ s.results

namespace CallLog

/-- In all runs on a clock that ticks whose steps satisfy `ok`, every start is fresh. -/
def NeverReuses (ok : CallLog → Event → Prop) : Prop :=
  ∀ s, Transition.Reachable step (fun s e => s.Ticks e ∧ ok s e) {} s →
    ∀ now request, s.Ticks ⟨now, .startContinuousTask request⟩ →
      ok s ⟨now, .startContinuousTask request⟩ → s.service.StartsFresh now request

/-- The call leaves something under an id that a start at `now` would draw. -/
def Occupies (now : ℤ) (e : Event) : Prop :=
  match e.call with
  | .startContinuousTask _ => e.now.tmod 1000000 = now.tmod 1000000
  | .pushTask _ task => task.taskId = windowTid (parentTidAt now) 0
  | .notifyResult _ request => request.taskId = windowTid (parentTidAt now) 0
  | _ => False

instance (now : ℤ) (e : Event) : Decidable (Occupies now e) := by
  unfold Occupies
  refine e.call.casesOn ?_ ?_ ?_ ?_ ?_ ?_ ?_ <;> intros <;> dsimp only <;> infer_instance

/-- A start draws what no earlier call occupies. -/
def DrawsApart (s : CallLog) (e : Event) : Prop :=
  match e.call with
  | .startContinuousTask _ => ∀ earlier ∈ s.past, ¬ Occupies e.now earlier
  | _ => True

instance (s : CallLog) (e : Event) : Decidable (s.DrawsApart e) := by
  unfold DrawsApart
  refine e.call.casesOn ?_ ?_ ?_ ?_ ?_ ?_ ?_ <;> intros <;> dsimp only <;> infer_instance

/-! ## What the calls leave behind -/

/-- An earlier start drew the id. -/
def Drew (s : CallLog) (p : String) : Prop :=
  ∃ e ∈ s.past, (∃ request, e.call = .startContinuousTask request) ∧ parentTidAt e.now = p

/-- The id was pushed or reported, or belongs to a window of a task. -/
def Known (s : CallLog) (t : String) : Prop :=
  (∃ e ∈ s.past, ∃ ip task, e.call = .pushTask ip task ∧ task.taskId = t) ∨
    (∃ e ∈ s.past, ∃ sysNow request, e.call = .notifyResult sysNow request ∧
      request.taskId = t) ∨ ∃ p, s.Drew p ∧ IsWindowOf p t

/-- What the service holds comes from earlier calls; tasks stay registered. -/
structure Accounted (s : CallLog) : Prop where
  tasks : ∀ p, p ∈ s.service.continuousTasks ↔ s.Drew p
  windows : ∀ p, p ∈ s.service.continuousWindows → s.Drew p
  waiting : ∀ t ∈ s.service.waitingIds, s.Known t
  results : ∀ t, t ∈ s.service.results → s.Known t

variable {s t : CallLog} {e : Event}

theorem Drew.mono {p : String} (h : s.Drew p) (service : HotmethodService) :
    Drew ⟨service, s.past ++ [e]⟩ p := by
  obtain ⟨earlier, hmem, hdrew⟩ := h
  exact ⟨earlier, List.mem_append_left _ hmem, hdrew⟩

theorem Known.mono {id : String} (h : s.Known id) (service : HotmethodService) :
    Known ⟨service, s.past ++ [e]⟩ id := by
  rcases h with ⟨earlier, hmem, h⟩ | ⟨earlier, hmem, h⟩ | ⟨p, hdrew, hwindow⟩
  · exact .inl ⟨earlier, List.mem_append_left _ hmem, h⟩
  · exact .inr (.inl ⟨earlier, List.mem_append_left _ hmem, h⟩)
  · exact .inr (.inr ⟨p, hdrew.mono service, hwindow⟩)

/-- Another call than a start draws nothing. -/
theorem drew_append_iff {p : String} {service : HotmethodService}
    (hcall : ∀ request, e.call ≠ .startContinuousTask request) :
    Drew ⟨service, s.past ++ [e]⟩ p ↔ s.Drew p := by
  refine ⟨?_, fun h => h.mono service⟩
  rintro ⟨earlier, hmem, ⟨request, hstart⟩, hp⟩
  rcases List.mem_append.mp hmem with hmem | hmem
  · exact ⟨earlier, hmem, ⟨request, hstart⟩, hp⟩
  · rw [List.mem_singleton.mp hmem] at hstart
    exact absurd hstart (hcall request)

/-- A call that registers no task. -/
theorem Accounted.keep (h : s.Accounted) {service : HotmethodService}
    (hcall : ∀ request, e.call ≠ .startContinuousTask request)
    (htasks : ∀ p, p ∈ service.continuousTasks ↔ p ∈ s.service.continuousTasks)
    (hwindows : ∀ p, p ∈ service.continuousWindows → p ∈ s.service.continuousWindows ∨
      p ∈ s.service.continuousTasks)
    (hwaiting : ∀ t ∈ service.waitingIds, t ∈ s.service.waitingIds ∨
      Known ⟨service, s.past ++ [e]⟩ t)
    (hresults : ∀ t, t ∈ service.results → t ∈ s.service.results ∨
      Known ⟨service, s.past ++ [e]⟩ t) : Accounted ⟨service, s.past ++ [e]⟩ where
  tasks p := (htasks p).trans ((h.tasks p).trans (drew_append_iff hcall).symm)
  windows p hp := by
    rcases hwindows p hp with hp | hp
    · exact (h.windows p hp).mono service
    · exact ((h.tasks p).mp hp).mono service
  waiting t ht := (hwaiting t ht).elim (fun ht => (h.waiting t ht).mono service) id
  results t ht := (hresults t ht).elim (fun ht => (h.results t ht).mono service) id

/-- NotifyResult adds no task; windows are recorded under registered tasks. -/
theorem Accounted.notify (h : s.Accounted) {now sysNow : ℤ} {request : TaskResult}
    {service : HotmethodService} (hs : s.service.notifyResult now sysNow request = some service) :
    Accounted ⟨service, s.past ++ [⟨now, .notifyResult sysNow request⟩]⟩ := by
  have hself : ∀ service, Known ⟨service, s.past ++ [⟨now, .notifyResult sysNow request⟩]⟩
      request.taskId := fun service =>
    .inr (.inl ⟨_, List.mem_append_right _ (List.mem_singleton_self _), sysNow, request, rfl, rfl⟩)
  have hwindows : ∀ p, p ∈ (s.service.bookkeep now sysNow request).continuousWindows →
      p ∈ s.service.continuousWindows ∨ p ∈ s.service.continuousTasks := by
    intro p hp
    rw [Std.ExtTreeMap.mem_iff_isSome_getElem?, bookkeep_continuousWindows] at hp
    rw [Std.ExtTreeMap.mem_iff_isSome_getElem?, Std.ExtTreeMap.mem_iff_isSome_getElem?]
    split at hp
    · exact .inl hp
    · next parentTid seq _ =>
      split at hp
      · exact .inl hp
      · next config hconfig =>
        by_cases heq : parentTid = p
        · rw [← heq, hconfig]
          exact .inr rfl
        · rw [if_neg heq] at hp
          exact .inl hp
  have hresults : ∀ t, t ∈ (s.service.bookkeep now sysNow request).results →
      t = request.taskId ∨ t ∈ s.service.results := by
    intro t ht
    rw [bookkeep_results, Std.ExtTreeMap.mem_insert] at ht
    exact ht.imp (fun heq => (Std.LawfulEqCmp.eq_of_compare heq).symm) id
  have hcached : ∀ service t, t ∈ (s.service.bookkeep now sysNow request).results →
      t ∈ s.service.results ∨
        Known ⟨service, s.past ++ [⟨now, .notifyResult sysNow request⟩]⟩ t := by
    intro service t ht
    rcases hresults t ht with rfl | ht
    · exact .inr (hself service)
    · exact .inl ht
  rcases s.service.notifyResult_eq_some now sysNow request hs with
    ⟨-, rfl⟩ | ⟨ip, task, reason, hnext, -, rfl⟩
  · refine h.keep (fun _ hcall => by cases hcall) (by simp) hwindows (fun t ht => .inl ?_)
      (hcached _)
    exact (s.service.mem_waitingIds_of_tasks (by simp)).mp ht
  · obtain ⟨p, seq, next, config, -, hconfig, -, -, -, rfl⟩ :=
      s.service.successor_eq_some request hnext
    have hp : p ∈ s.service.continuousTasks := by
      rw [Std.ExtTreeMap.mem_iff_isSome_getElem?, hconfig]
      rfl
    have hdrew : s.Drew p := (h.tasks p).mp hp
    have hne : p ≠ "" := by
      obtain ⟨e, -, -, rfl⟩ := hdrew
      exact parentTidAt_ne _
    refine h.keep (fun _ hcall => by cases hcall) (by simp) hwindows (fun t ht => ?_) (hcached _)
    rcases (mem_waitingIds_enqueue _ _).mp ht with ht | rfl
    · exact .inl ((s.service.mem_waitingIds_of_tasks (by simp)).mp ht)
    · exact .inr (.inr (.inr ⟨p, hdrew.mono _, isWindowOf_windowTid hne next⟩))

/-- A start registers the id that it draws. -/
theorem Accounted.start (h : s.Accounted) (now : ℤ) (request : StartContinuousRequest) :
    Accounted ⟨(s.service.startContinuousTask now request).1,
      s.past ++ [⟨now, .startContinuousTask request⟩]⟩ := by
  have hdrew : ∀ service, Drew ⟨service, s.past ++ [⟨now, .startContinuousTask request⟩]⟩
      (parentTidAt now) := fun service =>
    ⟨_, List.mem_append_right _ (List.mem_singleton_self _), ⟨request, rfl⟩, rfl⟩
  refine ⟨fun p => ?_, fun p hp => ?_, fun t ht => ?_, fun t ht => ?_⟩
  · rw [startContinuousTask_continuousTasks, Std.ExtTreeMap.mem_insert, h.tasks p]
    constructor
    · rintro (heq | hold)
      · exact Std.LawfulEqCmp.eq_of_compare heq ▸ hdrew _
      · exact hold.mono _
    · rintro ⟨earlier, hmem, hstart, hp⟩
      rcases List.mem_append.mp hmem with hmem | hmem
      · exact .inr ⟨earlier, hmem, hstart, hp⟩
      · rw [List.mem_singleton.mp hmem] at hp
        exact .inl (by simp [hp])
  · rw [startContinuousTask_continuousWindows, Std.ExtTreeMap.mem_insert] at hp
    rcases hp with heq | hp
    · exact Std.LawfulEqCmp.eq_of_compare heq ▸ hdrew _
    · exact (h.windows p hp).mono _
  · cases hroom : s.service.hasRoom request.targetIp with
    | true =>
        rw [s.service.startContinuousTask_of_hasRoom now hroom] at ht
        rcases (mem_waitingIds_enqueue _ _).mp ht with ht | rfl
        · exact (h.waiting t ((s.service.mem_waitingIds_of_tasks rfl).mp ht)).mono _
        · exact .inr (.inr ⟨_, hdrew _, isWindowOf_windowTid (parentTidAt_ne now) 0⟩)
    | false =>
        rw [s.service.startContinuousTask_of_full now hroom] at ht
        exact (h.waiting t ((s.service.mem_waitingIds_of_tasks rfl).mp ht)).mono _
  · refine (h.results t ?_).mono _
    revert ht
    unfold startContinuousTask
    dsimp only
    split <;> exact id

theorem Accounted.step (h : s.Accounted) (hs : s.step e = some t) : t.Accounted := by
  obtain ⟨now, call⟩ := e
  obtain ⟨service, hservice, rfl⟩ := Option.map_eq_some_iff.mp hs
  cases call with
  | pushTask targetIp task =>
      obtain rfl := Option.some.inj hservice
      have hself : ∀ service, Known ⟨service, s.past ++ [⟨now, .pushTask targetIp task⟩]⟩
          task.taskId := fun service =>
        .inl ⟨_, List.mem_append_right _ (List.mem_singleton_self _), targetIp, task, rfl, rfl⟩
      simp only [pushTask]
      split
      · refine h.keep (fun _ hcall => by cases hcall) (by simp) (fun _ hp => .inl hp)
          (fun t ht => ?_) (fun _ ht => .inl ht)
        rcases (mem_waitingIds_enqueue _ _).mp ht with ht | rfl
        · exact .inl ht
        · exact .inr (hself _)
      · exact h.keep (fun _ hcall => by cases hcall) (fun _ => Iff.rfl) (fun _ hp => .inl hp)
          (fun _ ht => .inl ht) (fun _ ht => .inl ht)
  | popTask targetIp =>
      obtain rfl := Option.some.inj hservice
      cases hqueue : s.service.queue targetIp with
      | nil =>
          rw [s.service.popTask_nil now hqueue]
          exact h.keep (fun _ hcall => by cases hcall) (fun _ => Iff.rfl) (fun _ hp => .inl hp)
            (fun _ ht => .inl ht) (fun _ ht => .inl ht)
      | cons task rest =>
          rw [s.service.popTask_cons now hqueue]
          exact h.keep (fun _ hcall => by cases hcall) (by simp) (fun _ hp => .inl hp)
            (fun t ht => .inl ((s.service.mem_waitingIds_dequeue now hqueue).1 ht))
            (fun _ ht => .inl ht)
  | updateTaskStatus request =>
      obtain rfl := Option.some.inj hservice
      exact h.keep (fun _ hcall => by cases hcall) (fun _ => Iff.rfl) (fun _ hp => .inl hp)
        (fun _ ht => .inl ht) (fun _ ht => .inl ht)
  | notifyResult sysNow request => exact h.notify hservice
  | cleanupTimeoutTasks =>
      obtain rfl := Option.some.inj hservice
      refine h.keep (fun _ hcall => by cases hcall) (by simp) (fun p hp => .inl (by simpa using hp))
        (fun t ht => .inl ((s.service.mem_waitingIds_cleanup now _).mp ht).1) (fun t ht => .inl ?_)
      rw [Std.ExtTreeMap.mem_iff_isSome_getElem?, cleanupTimeoutTasks_results] at ht
      split at ht
      · cases ht
      · exact Std.ExtTreeMap.mem_iff_isSome_getElem?.mpr ht
  | startContinuousTask request =>
      obtain rfl := Option.some.inj hservice
      exact h.start now request
  | stopContinuousTask id =>
      obtain rfl := Option.some.inj hservice
      exact h.keep (fun _ hcall => by cases hcall) (fun _ => s.service.mem_continuousTasks_stop id)
        (fun p hp => .inl (by simpa using hp))
        (fun t ht => .inl ((s.service.mem_waitingIds_of_tasks (by simp)).mp ht))
        (fun t ht => .inl (by simpa using ht))

theorem accounted_of_reachable {ok : CallLog → Event → Prop}
    (hreach : Transition.Reachable step ok {} s) : s.Accounted := by
  refine hreach.invariant ?_ fun s e t hs _ hstep => hs.step hstep
  refine ⟨fun p => ?_, fun p hp => ?_, fun t ht => ?_, fun t ht => ?_⟩
  · simp [Drew]
  · simp at hp
  · obtain ⟨ip, task, hmem, -⟩ := (mem_waitingIds _).mp ht
    simp [queue] at hmem
  · simp at ht

/-! ## The condition -/

/-- Two readings draw one id only where their last six digits agree. -/
theorem parentTidAt_inj {m n : ℤ} (h : parentTidAt m = parentTidAt n) :
    m.tmod 1000000 = n.tmod 1000000 := by
  have htext := congrArg String.toList h
  simp only [parentTidAt, String.toList_append] at htext
  have hread : ∀ k : ℤ, stoi (toString (k.tmod 1000000)).toList = some (k.tmod 1000000) := by
    intro k
    have hlt := Int.tmod_lt_of_pos k (show (0 : ℤ) < 1000000 by decide)
    by_cases hneg : k.tmod 1000000 < 0
    · refine stoi_toString_of_neg hneg ?_
      have hneg := Int.tmod_lt_of_pos (-k) (show (0 : ℤ) < 1000000 by decide)
      rw [Int.neg_tmod] at hneg
      omega
    · exact stoi_toString (by omega) (by omega)
  have hsame := hread m
  rw [List.append_cancel_left htext, hread n] at hsame
  exact (Option.some.inj hsame).symm

/-- Only starts that draw the same id register it. -/
theorem not_drew (hapart : ∀ earlier ∈ s.past, ¬ Occupies e.now earlier) :
    ¬ s.Drew (parentTidAt e.now) := by
  rintro ⟨earlier, hmem, ⟨request, hcall⟩, hp⟩
  refine hapart earlier hmem ?_
  rw [Occupies, hcall]
  exact parentTidAt_inj hp

/-- Only calls that occupy it know the first window. -/
theorem not_known (hapart : ∀ earlier ∈ s.past, ¬ Occupies e.now earlier) :
    ¬ s.Known (windowTid (parentTidAt e.now) 0) := by
  rintro (⟨earlier, hmem, ip, task, hcall, hid⟩ | ⟨earlier, hmem, sysNow, request, hcall, hid⟩ |
    ⟨p, hdrew, hwindow⟩)
  · refine hapart earlier hmem ?_
    rw [Occupies, hcall]
    exact hid
  · refine hapart earlier hmem ?_
    rw [Occupies, hcall]
    exact hid
  · rw [hwindow.unique (isWindowOf_windowTid (parentTidAt_ne _) 0)] at hdrew
    exact not_drew hapart hdrew

/-- Starts that draw apart are fresh. -/
theorem neverReuses_of_drawsApart {ok : CallLog → Event → Prop}
    (h : ∀ s e, ok s e → s.DrawsApart e) : NeverReuses ok := by
  intro s hreach now request _ hok
  have haccounted := accounted_of_reachable hreach
  have hapart : ∀ earlier ∈ s.past, ¬ Occupies now earlier := h s _ hok
  have hdrew : ¬ s.Drew (parentTidAt now) := not_drew (e := ⟨now, .startContinuousTask request⟩)
    hapart
  have htask : parentTidAt now ∉ s.service.continuousTasks :=
    fun hmem => hdrew ((haccounted.tasks _).mp hmem)
  have hwindows : parentTidAt now ∉ s.service.continuousWindows :=
    fun hmem => hdrew (haccounted.windows _ hmem)
  have hempty : ¬ s.Drew "" := by
    rintro ⟨earlier, -, -, hp⟩
    exact parentTidAt_ne _ hp
  have hfirst : ¬ s.Known (windowTid (parentTidAt now) 0) :=
    not_known (e := ⟨now, .startContinuousTask request⟩) hapart
  have hkept : ∀ {α : Type} (m : StdMap α) (value : α), parentTidAt now ∉ m → ∀ (p : String) x,
      m[p]? = some x → (m.insert (parentTidAt now) value)[p]? = some x := by
    intro α m value hnone p x hx
    rw [Std.ExtTreeMap.getElem?_insert, if_neg, hx]
    intro heq
    rw [Std.LawfulEqCmp.eq_of_compare heq, Std.ExtTreeMap.mem_iff_isSome_getElem?, hx] at hnone
    exact hnone rfl
  refine ⟨?_, ?_, ?_, ?_⟩
  · cases hroom : s.service.hasRoom request.targetIp with
    | true =>
        rw [s.service.startContinuousTask_of_hasRoom now hroom]
        exact ⟨htask, hwindows⟩
    | false =>
        rw [s.service.startContinuousTask_of_full now hroom]
        exact ⟨fun hmem => hempty ((haccounted.tasks _).mp hmem),
          fun hmem => hempty (haccounted.windows _ hmem)⟩
  · rw [startContinuousTask_continuousTasks]
    exact hkept _ _ htask
  · rw [startContinuousTask_continuousWindows]
    exact hkept _ _ hwindows
  · cases hroom : s.service.hasRoom request.targetIp with
    | true =>
        rw [s.service.startContinuousTask_of_hasRoom now hroom]
        exact fun _ => ⟨fun hmem => hfirst (haccounted.waiting _ hmem),
          fun hmem => hfirst (haccounted.results _ hmem)⟩
    | false =>
        rw [s.service.startContinuousTask_of_full now hroom]
        exact fun hne => absurd rfl hne

/-- Two users sample processes on one agent. -/
def startedTwice : List Event :=
  [⟨7, .startContinuousTask ⟨"a", 1, 99, 10, 0, "", ""⟩⟩, ⟨8, .popTask "a"⟩,
    ⟨9, .notifyResult 0 { taskId := "cp_7_w0" }⟩]

theorem neverReuses_startedTwice :
    (Transition.after step {} startedTwice).service.StartsFresh 1000008
      ⟨"a", 2, 99, 10, 0, "", ""⟩ := by
  have hrun : Transition.Along step (fun s e => s.Ticks e ∧ s.DrawsApart e) {} startedTwice ∧
      (Transition.run step {} startedTwice).isSome ∧
      (Transition.after step {} startedTwice).Ticks
        ⟨1000008, .startContinuousTask ⟨"a", 2, 99, 10, 0, "", ""⟩⟩ ∧
      (Transition.after step {} startedTwice).DrawsApart
        ⟨1000008, .startContinuousTask ⟨"a", 2, 99, 10, 0, "", ""⟩⟩ := by
    decide +kernel
  obtain ⟨halong, hsome, hticks, hdraws⟩ := hrun
  exact neverReuses_of_drawsApart (fun _ _ h => h) _ (halong.reachable hsome) _ _ hticks hdraws

/-- A millisecond after the first start the second takes over its id, its configuration and its
windows. -/
theorem not_neverReuses : ¬ NeverReuses fun _ _ => True := by
  intro h
  have hrun : Transition.Along step (fun s e => s.Ticks e ∧ True) {} startedTwice ∧
      (Transition.run step {} startedTwice).isSome ∧
      (Transition.after step {} startedTwice).Ticks
        ⟨1000007, .startContinuousTask ⟨"a", 2, 99, 10, 0, "", ""⟩⟩ ∧
      "cp_7" ∈ (Transition.after step {} startedTwice).service.continuousTasks ∧
      ((Transition.after step {} startedTwice).service.startContinuousTask 1000007
        ⟨"a", 2, 99, 10, 0, "", ""⟩).2 = "cp_7" := by
    decide +kernel
  obtain ⟨halong, hsome, hticks, hmem, hid⟩ := hrun
  have hfresh := (h _ (halong.reachable hsome) _ ⟨"a", 2, 99, 10, 0, "", ""⟩ hticks trivial).id.1
  exact hfresh (hid ▸ hmem)

end CallLog

end MiniDrop
