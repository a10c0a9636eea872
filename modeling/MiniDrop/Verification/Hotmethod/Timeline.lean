import Mathlib.Data.List.Chain
import MiniDrop.Verification.Hotmethod.Queues

/-! # The timeline of a continuous task

The start of a window is not measured. NotifyResult takes the length of a window off the time at
which the result arrives. -/

namespace MiniDrop

/-! ## Runs with the system clock -/

/-- A traced run with the results reported so far and the system time of each. -/
structure Timed where
  traced : Traced := {}
  reports : List (String × ℤ) := []

namespace Timed

def step (s : Timed) (e : Event) : Option Timed :=
  (s.traced.step e).map fun traced =>
    { traced
      reports := match e.call with
        | .notifyResult sysNow request => s.reports ++ [(request.taskId, sysNow)]
        | _ => s.reports }

/-- Seconds since the epoch. -/
def seconds (sysNow : ℤ) : ℤ := sysNow.tdiv 1000000000

/-- The system clock does not go back between results. -/
def ClockAdvances (s : Timed) (e : Event) : Prop :=
  match e.call with
  | .notifyResult sysNow _ => ∀ report ∈ s.reports, report.2 ≤ sysNow
  | _ => True

/-- Windows are executed one after the other and reported once each, by a clock that does not go
back. -/
structure Orderly (s : Timed) (e : Event) : Prop where
  fresh : FreshIds s.traced e
  once : ReportsWindowsOnce s.traced e
  clock : s.ClockAdvances e
  /-- No sequence number overflows. -/
  handled : (s.step e).isSome

/-! ## The property -/

/-- Windows end after they start, one after the other, and none starts before the end of the one
before it. -/
structure IsTimeline (records : List ContinuousWindowRecord) : Prop where
  lasts : ∀ record ∈ records, record.startTime ≤ record.endTime
  ends : (records.map ContinuousWindowRecord.endTime).Pairwise (· ≤ ·)
  apart : records.IsChain fun earlier later => earlier.endTime ≤ later.startTime

/-- The records of every continuous task form a timeline. -/
def HasTimelines (s : Timed) : Prop :=
  ∀ p ∈ s.traced.service.continuousTasks, IsTimeline (s.traced.service.getContinuousWindows p)

/-- The event leaves timelines. -/
def LeavesTimelines (s : Timed) (e : Event) : Prop := ∀ t, s.step e = some t → t.HasTimelines

/-! ## The condition -/

/-- A window of a continuous task is reported at least its nominal length after each window
reported before it, in whole seconds. -/
def FullLength (s : Timed) (e : Event) : Prop :=
  match e.call with
  | .notifyResult sysNow request =>
    ∀ p ∈ parentOf request.taskId, ∀ config ∈ s.traced.service.continuousTasks[p]?,
      ∀ report ∈ s.reports, IsWindowOf p report.1 →
        seconds report.2 + config.windowSec.toNat ≤ seconds sysNow
  | _ => True

instance (s : Timed) (e : Event) : Decidable (s.ClockAdvances e) := by
  unfold ClockAdvances
  refine e.call.casesOn ?_ ?_ ?_ ?_ ?_ ?_ ?_ <;> intros <;> dsimp only <;> infer_instance

instance (s : Timed) (e : Event) : Decidable (s.Orderly e) :=
  decidable_of_iff (FreshIds s.traced e ∧ ReportsWindowsOnce s.traced e ∧ s.ClockAdvances e ∧
      (s.step e).isSome)
    ⟨fun h => ⟨h.1, h.2.1, h.2.2.1, h.2.2.2⟩,
      fun h => ⟨h.fresh, h.once, h.clock, h.handled⟩⟩

instance (s : Timed) (e : Event) : Decidable (s.FullLength e) := by
  unfold FullLength
  refine e.call.casesOn ?_ ?_ ?_ ?_ ?_ ?_ ?_ <;> intros <;> dsimp only <;> infer_instance

/-! ## One more record -/

theorem seconds_mono {a b : ℤ} (h : a ≤ b) : seconds a ≤ seconds b :=
  Int.tdiv_le_tdiv (by decide) h

/-- A record that ends last extends a timeline if and only if it starts after all ends. -/
theorem isTimeline_append {records : List ContinuousWindowRecord} {record : ContinuousWindowRecord}
    (h : IsTimeline records) (hlasts : record.startTime ≤ record.endTime)
    (hends : ∀ r ∈ records, r.endTime ≤ record.endTime) :
    IsTimeline (records ++ [record]) ↔ ∀ r ∈ records, r.endTime ≤ record.startTime := by
  have hchain : (records ++ [record]).IsChain (fun r r' => r.endTime ≤ r'.startTime) ↔
      ∀ r ∈ records.getLast?, r.endTime ≤ record.startTime := by
    rw [List.isChain_append]
    simp [h.apart]
  constructor
  · intro happended r hr
    have hlast := hchain.mp happended.apart
    rcases List.eq_nil_or_concat' records with rfl | ⟨init, last, rfl⟩
    · exact absurd hr List.not_mem_nil
    · have hle := hlast last (by simp)
      rcases List.mem_append.mp hr with hinit | hr
      · have hpairwise := h.ends
        rw [List.map_append, List.pairwise_append] at hpairwise
        have hbefore : r.endTime ≤ last.endTime :=
          hpairwise.2.2 _ (List.mem_map_of_mem hinit) _ (by simp)
        exact Int.le_trans hbefore hle
      · rwa [List.mem_singleton.mp hr]
  · intro hstarts
    refine ⟨?_, ?_, hchain.mpr fun r hr => hstarts r (List.mem_of_getLast? hr)⟩
    · intro r hr
      rcases List.mem_append.mp hr with hr | hr
      · exact h.lasts r hr
      · rwa [List.mem_singleton.mp hr]
    · rw [List.map_append, List.pairwise_append]
      refine ⟨h.ends, List.pairwise_singleton _ _, ?_⟩
      intro a ha b hb
      obtain ⟨r, hr, rfl⟩ := List.mem_map.mp ha
      rw [List.map_singleton, List.mem_singleton] at hb
      exact hb ▸ hends r hr

/-! ## Records and reports -/

/-- The reported windows of `p`. -/
def windowReports (s : Timed) (p : String) : List (String × ℤ) :=
  s.reports.filter fun report => IsWindowOf p report.1

/-- Each continuous task has a record for each of its reported windows. -/
structure Mirrors (s : Timed) : Prop where
  inv : s.traced.Inv
  reported : s.reports.map Prod.fst = s.traced.reported
  records : ∀ p ∈ s.traced.service.continuousTasks,
    (s.traced.service.getContinuousWindows p).map ContinuousWindowRecord.endTime =
      (s.windowReports p).map fun report => seconds report.2

theorem Mirrors.start : Mirrors {} := ⟨.start, rfl, by simp⟩

variable {s t : Timed} {e : Event}

theorem step_eq_some (h : s.step e = some t) :
    s.traced.step e = some t.traced ∧ t.reports = match e.call with
      | .notifyResult sysNow request => s.reports ++ [(request.taskId, sysNow)]
      | _ => s.reports := by
  obtain ⟨traced, htraced, rfl⟩ := Option.map_eq_some_iff.mp h
  exact ⟨htraced, rfl⟩

theorem continuousTasks_notify {now sysNow : ℤ} {request : TaskResult}
    {service service' : HotmethodService}
    (h : service.notifyResult now sysNow request = some service') :
    service'.continuousTasks = service.continuousTasks := by
  rcases service.notifyResult_eq_some now sysNow request h with ⟨-, rfl⟩ | ⟨_, _, _, -, -, rfl⟩ <;>
    simp

/-- What a result does to the records of a continuous task. -/
theorem getContinuousWindows_notify {now sysNow : ℤ} {request : TaskResult}
    {service service' : HotmethodService} (h : service.notifyResult now sysNow request = some service')
    {p : String} {config : ContinuousTaskConfig} (hconfig : service.continuousTasks[p]? = some config) :
    (IsWindowOf p request.taskId → ∃ seq, service'.getContinuousWindows p =
      service.getContinuousWindows p ++ [HotmethodService.windowRecord config sysNow request seq]) ∧
    (¬ IsWindowOf p request.taskId →
      service'.getContinuousWindows p = service.getContinuousWindows p) := by
  have hwindows : service'.continuousWindows =
      (service.bookkeep now sysNow request).continuousWindows := by
    rcases service.notifyResult_eq_some now sysNow request h with ⟨-, rfl⟩ | ⟨_, _, _, -, -, rfl⟩
    · rfl
    · simp
  have hlookup := service.bookkeep_continuousWindows now sysNow request p
  rw [← hwindows] at hlookup
  constructor
  · intro hwindow
    obtain ⟨⟨q, seq⟩, hsplit, hq⟩ := Option.map_eq_some_iff.mp hwindow
    obtain rfl : q = p := hq
    refine ⟨seq, ?_⟩
    simp only [hsplit, hconfig, if_true] at hlookup
    simp [HotmethodService.getContinuousWindows, hlookup]
  · intro hother
    have hsame : service'.continuousWindows[p]? = service.continuousWindows[p]? := by
      rw [hlookup]
      cases hsplit : splitWindowTid request.taskId with
      | none => rfl
      | some pair =>
          have hne : pair.1 ≠ p := fun hq => hother (hq ▸ isWindowOf_of_split hsplit)
          cases hfound : service.continuousTasks[pair.1]? with
          | none => simp [hfound]
          | some found => simp [hfound, hne]
    simp [HotmethodService.getContinuousWindows, hsame]

/-- A call leaves the records of a continuous task alone, unless it starts the task or reports one
of its windows. -/
theorem records_step {s u : Traced} {e : Event} (hs : s.step e = some u) {p : String}
    (hp : p ∈ u.service.continuousTasks) :
    (∃ now request, e = ⟨now, .startContinuousTask request⟩ ∧
        HotmethodService.parentTidAt now = p ∧ u.service.getContinuousWindows p = []) ∨
      (∃ now sysNow request config seq, e = ⟨now, .notifyResult sysNow request⟩ ∧
        IsWindowOf p request.taskId ∧ s.service.continuousTasks[p]? = some config ∧
        u.service.getContinuousWindows p = s.service.getContinuousWindows p ++
          [HotmethodService.windowRecord config sysNow request seq]) ∨
      (p ∈ s.service.continuousTasks ∧
        u.service.getContinuousWindows p = s.service.getContinuousWindows p ∧
        ∀ now sysNow request, e = ⟨now, .notifyResult sysNow request⟩ →
          ¬ IsWindowOf p request.taskId) := by
  obtain ⟨now, call⟩ := e
  cases call with
  | pushTask targetIp task =>
      obtain rfl := Option.some.inj hs
      refine .inr (.inr ⟨?_, ?_, by simp⟩)
      · revert hp
        unfold HotmethodService.pushTask
        split <;> simp
      · unfold HotmethodService.pushTask
        split <;> simp [HotmethodService.getContinuousWindows]
  | popTask targetIp =>
      simp only [Traced.step] at hs
      cases hqueue : s.service.queue targetIp with
      | nil =>
          rw [s.service.popTask_nil now hqueue] at hs
          obtain rfl := Option.some.inj hs
          exact .inr (.inr ⟨hp, rfl, by simp⟩)
      | cons task rest =>
          rw [s.service.popTask_cons now hqueue] at hs
          obtain rfl := Option.some.inj hs
          exact .inr (.inr ⟨hp, rfl, by simp⟩)
  | updateTaskStatus request =>
      obtain rfl := Option.some.inj hs
      exact .inr (.inr ⟨hp, rfl, by simp⟩)
  | notifyResult sysNow request =>
      obtain ⟨service, hservice, rfl⟩ := Option.map_eq_some_iff.mp hs
      dsimp only at hp ⊢
      rw [continuousTasks_notify hservice] at hp
      obtain ⟨config, hconfig⟩ := Option.isSome_iff_exists.mp
        (Std.ExtTreeMap.mem_iff_isSome_getElem?.mp hp)
      obtain ⟨hwindow, hother⟩ := getContinuousWindows_notify hservice hconfig
      by_cases hof : IsWindowOf p request.taskId
      · obtain ⟨seq, hrecords⟩ := hwindow hof
        exact .inr (.inl ⟨now, sysNow, request, config, seq, rfl, hof, hconfig, hrecords⟩)
      · refine .inr (.inr ⟨hp, hother hof, ?_⟩)
        rintro _ _ _ ⟨⟩
        exact hof
  | cleanupTimeoutTasks =>
      obtain rfl := Option.some.inj hs
      refine .inr (.inr ⟨by simpa using hp, ?_, by simp⟩)
      simp [HotmethodService.getContinuousWindows]
  | startContinuousTask request =>
      obtain rfl := Option.some.inj hs
      by_cases heq : HotmethodService.parentTidAt now = p
      · refine .inl ⟨now, request, rfl, heq, ?_⟩
        simp [HotmethodService.getContinuousWindows, heq]
      · rw [HotmethodService.startContinuousTask_continuousTasks] at hp
        refine .inr (.inr ⟨(Std.ExtTreeMap.mem_insert.mp hp).resolve_left (by simpa using heq), ?_,
          by simp⟩)
        simp [HotmethodService.getContinuousWindows, heq]
  | stopContinuousTask taskId =>
      obtain rfl := Option.some.inj hs
      refine .inr (.inr ⟨(s.service.mem_continuousTasks_stop taskId).mp hp, ?_, by simp⟩)
      simp [HotmethodService.getContinuousWindows]

theorem reported_step {s u : Traced} {e : Event} (hs : s.step e = some u) :
    u.reported = match e.call with
      | .notifyResult _ request => s.reported ++ [request.taskId]
      | _ => s.reported := by
  obtain ⟨now, call⟩ := e
  cases call with
  | popTask targetIp =>
      simp only [Traced.step] at hs
      split at hs <;> exact Option.some.inj hs ▸ rfl
  | notifyResult sysNow request =>
      obtain ⟨service, -, rfl⟩ := Option.map_eq_some_iff.mp hs
      rfl
  | _ => exact Option.some.inj hs ▸ rfl

theorem Mirrors.step (h : s.Mirrors) (horderly : s.Orderly e) (hs : s.step e = some t) :
    t.Mirrors := by
  obtain ⟨htraced, hreports⟩ := step_eq_some hs
  refine ⟨h.inv.step horderly.fresh horderly.once htraced, ?_, fun p hp => ?_⟩
  · rw [hreports, reported_step htraced, ← h.reported]
    split <;> simp
  rcases records_step htraced hp with ⟨now, request, rfl, rfl, hrecords⟩ |
    ⟨now, sysNow, request, config, seq, rfl, hof, hconfig, hrecords⟩ | ⟨hold, hrecords, hother⟩
  · -- the windows of a new task are new
    have hnone : s.windowReports (HotmethodService.parentTidAt now) = [] := by
      refine List.filter_eq_nil_iff.mpr fun report hreport hof => ?_
      have hreported : report.1 ∈ s.traced.reported := h.reported ▸ List.mem_map_of_mem hreport
      exact horderly.fresh.2 _ (h.inv.poppedIds_queued (h.inv.reported_popped _ hreported))
        (of_decide_eq_true hof)
    rw [windowReports] at hnone ⊢
    rw [hrecords, hreports, hnone]
    rfl
  · have hold : p ∈ s.traced.service.continuousTasks :=
      Std.ExtTreeMap.mem_iff_isSome_getElem?.mpr (by simp [hconfig])
    simp only [windowReports, hrecords, hreports, List.map_append, List.filter_append, h.records p hold,
      List.filter_singleton, hof, decide_true, List.map_singleton]
    rfl
  · rw [hrecords, h.records p hold, windowReports, windowReports, hreports]
    obtain ⟨now, call⟩ := e
    cases call with
    | notifyResult sysNow request => simp [hother now sysNow request rfl]
    | _ => rfl

/-! ## The condition decides -/

theorem Mirrors.mem_records (h : s.Mirrors) {p : String}
    (hp : p ∈ s.traced.service.continuousTasks) {time : ℤ} :
    (∃ record ∈ s.traced.service.getContinuousWindows p, record.endTime = time) ↔
      ∃ report ∈ s.reports, IsWindowOf p report.1 ∧ seconds report.2 = time := by
  have hmem := congrArg (time ∈ ·) (h.records p hp)
  simpa [windowReports, and_assoc] using hmem

theorem windowRecord_lasts (config : ContinuousTaskConfig) (sysNow : ℤ) (request : TaskResult)
    (seq : ℤ) : (HotmethodService.windowRecord config sysNow request seq).startTime ≤
      (HotmethodService.windowRecord config sysNow request seq).endTime := by
  show seconds sysNow - config.windowSec.toNat ≤ seconds sysNow
  omega

/-- The record of a window extends the timeline if and only if the window took its length. -/
theorem isTimeline_record (h : s.Mirrors) {now sysNow : ℤ} {request : TaskResult}
    (hclock : s.ClockAdvances ⟨now, .notifyResult sysNow request⟩) {p : String}
    {config : ContinuousTaskConfig} (hconfig : s.traced.service.continuousTasks[p]? = some config)
    (htimeline : IsTimeline (s.traced.service.getContinuousWindows p)) (seq : ℤ) :
    IsTimeline (s.traced.service.getContinuousWindows p ++
        [HotmethodService.windowRecord config sysNow request seq]) ↔
      ∀ report ∈ s.reports, IsWindowOf p report.1 →
        seconds report.2 + config.windowSec.toNat ≤ seconds sysNow := by
  have hp : p ∈ s.traced.service.continuousTasks :=
    Std.ExtTreeMap.mem_iff_isSome_getElem?.mpr (by simp [hconfig])
  rw [isTimeline_append htimeline (windowRecord_lasts config sysNow request seq)]
  · constructor
    · intro hstarts report hreport hof
      obtain ⟨record, hrecord, htime⟩ := (h.mem_records hp).mpr ⟨report, hreport, hof, rfl⟩
      have hle : record.endTime ≤ seconds sysNow - config.windowSec.toNat := hstarts record hrecord
      omega
    · intro hfull record hrecord
      obtain ⟨report, hreport, hof, htime⟩ := (h.mem_records hp).mp ⟨record, hrecord, rfl⟩
      have hle := hfull report hreport hof
      show record.endTime ≤ seconds sysNow - config.windowSec.toNat
      omega
  · intro record hrecord
    obtain ⟨report, hreport, -, htime⟩ := (h.mem_records hp).mp ⟨record, hrecord, rfl⟩
    rw [← htime]
    exact seconds_mono (hclock report hreport)

theorem leavesTimelines_iff (h : s.Mirrors) (htimelines : s.HasTimelines) (horderly : s.Orderly e) :
    s.LeavesTimelines e ↔ s.FullLength e := by
  constructor
  · intro hleaves
    obtain ⟨t, ht⟩ := Option.isSome_iff_exists.mp horderly.handled
    obtain ⟨now, call⟩ := e
    cases call with
    | notifyResult sysNow request =>
        intro p hof config hconfig
        have hold : p ∈ s.traced.service.continuousTasks :=
          Std.ExtTreeMap.mem_iff_isSome_getElem?.mpr (by simp [Option.mem_def.mp hconfig])
        obtain ⟨service, hservice, htraced⟩ := Option.map_eq_some_iff.mp (step_eq_some ht).1
        obtain ⟨seq, hrecords⟩ := (getContinuousWindows_notify hservice hconfig).1 hof
        have htimeline := hleaves t ht p (by
          rw [← htraced]
          dsimp only
          rwa [continuousTasks_notify hservice])
        rw [← htraced] at htimeline
        dsimp only at htimeline
        rw [hrecords] at htimeline
        exact (isTimeline_record h horderly.clock hconfig (htimelines p hold) seq).mp htimeline
    | _ => trivial
  · intro hfull t ht p hp
    rcases records_step (step_eq_some ht).1 hp with ⟨_, _, -, -, hrecords⟩ |
      ⟨now, sysNow, request, config, seq, rfl, hof, hconfig, hrecords⟩ | ⟨hold, hrecords, -⟩
    · rw [hrecords]
      exact ⟨by simp, List.Pairwise.nil, List.IsChain.nil⟩
    · have hold : p ∈ s.traced.service.continuousTasks :=
        Std.ExtTreeMap.mem_iff_isSome_getElem?.mpr (by simp [hconfig])
      rw [hrecords, isTimeline_record h horderly.clock hconfig (htimelines p hold)]
      exact hfull p hof config hconfig
    · rw [hrecords]
      exact htimelines p hold

theorem hasTimelines_start : HasTimelines {} := by simp [HasTimelines]

/-- The records are timelines throughout a run if and only if each window takes its nominal
length. -/
theorem leavesTimelines_along_iff {events : List Event}
    (h : Transition.Along step Orderly {} events) :
    Transition.Along step LeavesTimelines {} events ↔ Transition.Along step FullLength {} events :=
  Transition.along_congr (I := fun s => s.Mirrors ∧ s.HasTimelines)
    (fun _ _ hs horderly => leavesTimelines_iff hs.1 hs.2 horderly)
    (fun _ _ t hs horderly hleaves ht => ⟨hs.1.step horderly ht, hleaves t ht⟩)
    ⟨.start, hasTimelines_start⟩ h

/-- The agent samples two windows of ten seconds. -/
def steadyRun : List Event :=
  [⟨7, .startContinuousTask ⟨"a", 1, 99, 10, 0, "", ""⟩⟩,
    ⟨8, .popTask "a"⟩,
    ⟨9, .notifyResult 100000000000 { taskId := "cp_7_w0" }⟩,
    ⟨10, .popTask "a"⟩,
    ⟨11, .notifyResult 110000000000 { taskId := "cp_7_w1" }⟩]

theorem leavesTimelines_steadyRun : Transition.Along step LeavesTimelines {} steadyRun :=
  (leavesTimelines_along_iff (by decide +kernel)).mpr (by decide +kernel)

/-- The second window fails after a second. -/
def failingRun : List Event :=
  [⟨7, .startContinuousTask ⟨"a", 1, 99, 10, 0, "", ""⟩⟩,
    ⟨8, .popTask "a"⟩,
    ⟨9, .notifyResult 100000000000 { taskId := "cp_7_w0" }⟩,
    ⟨10, .popTask "a"⟩,
    ⟨11, .notifyResult 101000000000 { taskId := "cp_7_w1", errorMessage := "failed" }⟩]

/-- A window that fails early is recorded as if it had begun before the end of the last one. -/
theorem not_leavesTimelines : ¬∀ events, Transition.Along step Orderly {} events →
    Transition.Along step LeavesTimelines {} events := by
  intro h
  have hreached := (h failingRun (by decide +kernel)).reachable (by decide +kernel)
  have htimelines := hreached.invariant hasTimelines_start fun _ _ t _ hleaves ht => hleaves t ht
  have htimeline := htimelines "cp_7" (by decide +kernel)
  exact absurd htimeline.apart (by decide +kernel)

end Timed

end MiniDrop
