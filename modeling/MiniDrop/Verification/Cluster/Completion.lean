import MiniDrop.Verification.Cluster.Watching
import MiniDrop.Verification.Hotmethod.Entries

/-! # DONE with its artifact and its analysis

A task gets DONE from a result or from a STATUS message. Only the path of the result persists an
artifact and starts the analysis, so the property rests on drop_server never reporting DONE to a
loop that did not get the result. -/

namespace MiniDrop

/-- A persisted artifact and one analysis. -/
def Complete (result : PollResult) : Prop :=
  ∃ key type, key ≠ "" ∧ result = .ended (some key) (some type)

/-- In all runs whose steps satisfy `ok`, a task that waitTaskResult leaves in DONE has its
artifact and its analysis. -/
def BacksDone (tid : String) (ok : Watched → WatchedEvent → Prop) : Prop :=
  ∀ (db : Database) (deadline : ℤ) (s : Watched),
    (db.task? tid).map HotmethodTask.status = some taskStatusNew →
    Transition.Reachable (Watched.step tid deadline) ok { watch := { db } } s →
    let outcome := (waitTaskResult tid s.watch.polls).run db
    (outcome.2.task? tid).map HotmethodTask.status = some taskStatusSuccess → Complete outcome.1

/-- No report makes the task DONE between the two reads of a FetchData for it, a status update
does so only where a result is cached, and the text of an error does not read as DONE. -/
def ReportsResults (tid : String) (s : Watched) (e : WatchedEvent) : Prop :=
  match e with
  | .service ⟨_, .notifyResult _ request⟩ => request.taskId = tid →
    (request.errorMessage = "" → s.watch.phase ≠ .missed) ∧
      (parseDropStatusMessage request.errorMessage).map Prod.fst ≠ some taskStatusSuccess
  | .service ⟨_, .updateTaskStatus request⟩ => request.taskId = tid → request.status = 4 →
    (s.service.results[tid]?).isSome ∧ s.watch.phase ≠ .missed
  | _ => True

instance (tid : String) (s : Watched) (e : WatchedEvent) : Decidable (ReportsResults tid s e) := by
  unfold ReportsResults
  split <;> infer_instance

/-! ## The invariant -/

/-- The service reports DONE for `tid` only through a result. -/
structure Sourced (tid : String) (s : HotmethodService) : Prop where
  cached : s.statusOf tid = some .done → (s.results[tid]?).isSome
  errors : ∀ result, s.results[tid]? = some result →
    (parseDropStatusMessage result.errorMessage).map Prod.fst ≠ some taskStatusSuccess

/-- The current pass does not hear of DONE. -/
def Unaware (tid : String) (s : HotmethodService) : FetchPhase → Prop
  | .idle | .requested => True
  | .missed => s.statusOf tid ≠ some .done
  | .answered resp => reportedStatus resp ≠ some taskStatusSuccess

structure Backed (tid : String) (s : Watched) : Prop where
  sourced : Sourced tid s.service
  phase : Unaware tid s.service s.watch.phase
  shown : ∃ status changes, Shows s.watch.db tid status changes ∧ Normal status ∧
    (status = taskStatusSuccess → Complete s.watch.result)

section Service

variable {tid : String} {s t : HotmethodService} {watch : Watch} {e : Event}

theorem done_of_internalStatus {status : ℤ}
    (h : HotmethodService.internalStatus status = .done) : status = 4 := by
  unfold HotmethodService.internalStatus at h
  split_ifs at h
  assumption

/-- A change that stores no result and does not set DONE. -/
theorem Sourced.of_same_result {phase : FetchPhase} (h : Sourced tid s)
    (hphase : Unaware tid s phase)
    (hstatus : t.statusOf tid = some .done → s.statusOf tid = some .done)
    (hresult : t.results[tid]? = s.results[tid]?) : Sourced tid t ∧ Unaware tid t phase := by
  refine ⟨⟨?_, ?_⟩, ?_⟩
  · intro hdone
    rw [hresult]
    exact h.cached (hstatus hdone)
  · rw [hresult]
    exact h.errors
  · cases phase with
    | idle | requested | answered => exact hphase
    | missed => exact fun hdone => hphase (hstatus hdone)

/-- A call keeps the source of DONE and does not reach a pass that missed the result. -/
theorem Sourced.step (h : Sourced tid s) (hphase : Unaware tid s watch.phase)
    (hok : ReportsResults tid ⟨s, watch⟩ (.service e)) (hs : s.step e = some t) :
    Sourced tid t ∧ Unaware tid t watch.phase := by
  have hstep := HotmethodService.entryStep tid hs
  obtain ⟨now, call⟩ := e
  cases hstep with
  | kept hstatus hresult => exact h.of_same_result hphase (fun hdone => hstatus ▸ hdone) hresult
  | queued hstatus hresult | dispatched hstatus hresult | expired hstatus hresult =>
      exact h.of_same_result hphase (by simp [hstatus]) hresult
  | @updated request hid hstatus hresult =>
      have hcached : t.statusOf tid = some .done →
          (s.results[tid]?).isSome ∧ watch.phase ≠ .missed := by
        intro hdone
        exact hok hid (done_of_internalStatus (Option.some.inj (hstatus.symm.trans hdone)))
      refine ⟨⟨fun hdone => hresult ▸ (hcached hdone).1, hresult ▸ h.errors⟩, ?_⟩
      cases hcurrent : watch.phase with
      | idle | requested => trivial
      | answered resp =>
          rw [hcurrent] at hphase
          exact hphase
      | missed => exact fun hdone => (hcached hdone).2 hcurrent
  | @notified sysNow request hid hstatus hresult =>
      obtain ⟨hmissed, herror⟩ := hok hid
      refine ⟨⟨fun _ => by simp [hresult], ?_⟩, ?_⟩
      · intro result hstored
        obtain rfl := Option.some.inj (hresult.symm.trans hstored)
        exact herror
      · cases hcurrent : watch.phase with
        | idle | requested => trivial
        | answered resp =>
            rw [hcurrent] at hphase
            exact hphase
        | missed =>
            intro hdone
            rcases hstatus with hstatus | hstatus
            · have hsuccess : HotmethodService.resultStatus request = .done :=
                Option.some.inj (hstatus.symm.trans hdone)
              refine hmissed ?_ hcurrent
              by_contra hne
              simp [HotmethodService.resultStatus, hne] at hsuccess
            · simp [hstatus] at hdone
  | removed hstatus hresult =>
      refine ⟨⟨by simp [hstatus], by simp [hresult]⟩, ?_⟩
      cases hcurrent : watch.phase with
      | idle | requested => trivial
      | answered resp =>
          rw [hcurrent] at hphase
          exact hphase
      | missed => simp [Unaware, hstatus]

end Service

section Loop

variable {tid : String} {s : HotmethodService}

/-- What FetchData answers is not DONE. -/
theorem Sourced.asks (h : Sourced tid s) {phase phase' : FetchPhase}
    (hphase : Unaware tid s phase) (hasks : Watch.Asks tid s phase phase') :
    Unaware tid s phase' := by
  cases hasks with
  | requested => trivial
  | answered hfetch =>
      rcases HotmethodService.fetchResult_eq_some hfetch with
        ⟨_, rfl⟩ | ⟨result, hresult, ⟨_, rfl⟩ | ⟨_, rfl⟩⟩
      · show reportedStatus _ ≠ _
        decide +kernel
      · exact h.errors result hresult
      · show reportedStatus _ ≠ _
        rw [reportedStatus_ok]
        simp
  | missed hfetch =>
      intro hdone
      have hcached := h.cached hdone
      simp [HotmethodService.fetchResult_eq_none hfetch] at hcached
  | reported =>
      intro hreported
      rw [reportedStatus_fetchStatus] at hreported
      obtain ⟨status, hstatus, hpublic⟩ := Option.map_eq_some_iff.mp hreported
      have hdone : status = .done := by
        cases status <;> first | rfl | simp [publicTaskStatus, TaskStatus.toInt,
          taskStatusSuccess] at hpublic
      exact hphase (hdone ▸ hstatus)

/-- A pass that does not hear of DONE sets it only with an artifact and an analysis. -/
theorem complete_of_passes {status last : ℤ} {poll : Poll} {result : PollResult}
    {states : List ℤ} (h : Passes tid status poll result last states)
    (hunaware : ∀ now resp storage, poll = .fetched now resp storage →
      reportedStatus resp ≠ some taskStatusSuccess)
    (hstatus : status ≠ taskStatusSuccess) (hdone : last = taskStatusSuccess) :
    Complete result := by
  cases h with
  | cancelled | expired | unstored | refused => exact absurd hdone (by decide)
  | unreachable => exact absurd hdone hstatus
  | reported hreported hterminal => exact absurd (hdone ▸ hreported) (hunaware _ _ _ rfl)
  | @stored now resp storage key type hlive hcode hstored =>
      exact ⟨key, type, key_ne_empty hstored, rfl⟩
  | @waited now resp storage hlive hcode hmessage =>
      have hunaware := hunaware now resp storage rfl
      cases hreported : reportedStatus resp with
      | none => exact absurd (by simpa [hreported] using hdone) hstatus
      | some reported =>
          exact absurd (hreported.trans (by simpa [hreported] using hdone)) hunaware

end Loop

/-! ## Runs -/

theorem Backed.step {tid : String} {deadline : ℤ} {s t : Watched} {e : WatchedEvent}
    (h : Backed tid s) (hok : ReportsResults tid s e) (hs : s.step tid deadline e = some t) :
    Backed tid t := by
  cases e with
  | service event =>
      obtain ⟨service, hservice, rfl⟩ := Option.map_eq_some_iff.mp hs
      obtain ⟨hsourced, hphase⟩ := h.sourced.step h.phase hok hservice
      exact ⟨hsourced, hphase, h.shown⟩
  | watch now action =>
      obtain ⟨watch, hwatch, rfl⟩ := Option.map_eq_some_iff.mp hs
      obtain ⟨hagain, ⟨phase, hasks, rfl⟩ | ⟨poll, hhears, rfl⟩⟩ := Watch.step_cases hwatch
      · exact ⟨h.sourced, h.sourced.asks h.phase hasks, h.shown⟩
      · obtain ⟨status, changes, hshows, hnormal, hcomplete⟩ := h.shown
        obtain ⟨last, states, hpass, hlast, hnormal'⟩ := shows_poll hshows hnormal poll
        refine ⟨h.sourced, trivial, last, _, hlast, hnormal', ?_⟩
        refine complete_of_passes hpass ?_ ?_
        · rintro now' resp storage rfl
          have hphase := h.phase
          generalize s.watch.phase = phase at hphase hhears
          cases hhears with
          | received => exact hphase
        · intro hdone
          obtain ⟨key, type, _, hended⟩ := hcomplete hdone
          simp [hagain] at hended

/-- Every run in which results and status messages keep apart backs DONE. -/
theorem backsDone_of_reportsResults (tid : String) : BacksDone tid (ReportsResults tid) := by
  intro db deadline s hstart hreach
  have hinv : Backed tid s ∧
      (waitTaskResult tid s.watch.polls).run db = (s.watch.result, s.watch.db) := by
    refine hreach.invariant (I := fun s => Backed tid s ∧
      (waitTaskResult tid s.watch.polls).run db = (s.watch.result, s.watch.db)) ⟨?_, rfl⟩ ?_
    · refine ⟨⟨?_, ?_⟩, trivial, taskStatusNew, _, ⟨hstart, rfl⟩, rfl,
        fun h => absurd h (by decide)⟩
      · simp [HotmethodService.statusOf, HotmethodService.getTaskStatus]
      · simp
    · rintro s e t ⟨hbacked, hrun⟩ hok hs
      refine ⟨hbacked.step hok hs, ?_⟩
      cases e with
      | service event =>
          obtain ⟨service, _, rfl⟩ := Option.map_eq_some_iff.mp hs
          exact hrun
      | watch now action =>
          obtain ⟨watch, hwatch, rfl⟩ := Option.map_eq_some_iff.mp hs
          exact Watch.run_step hwatch hrun
  obtain ⟨hbacked, hrun⟩ := hinv
  obtain ⟨status, changes, hshows, _, hcomplete⟩ := hbacked.shown
  intro outcome hdone
  have houtcome : outcome = (s.watch.result, s.watch.db) := hrun
  rw [houtcome] at hdone ⊢
  exact hcomplete (Option.some.inj (hshows.stored.symm.trans hdone))

/-- The database with the row of a new task. -/
def newTaskRow : Database := { tasks := (∅ : StdMap HotmethodTask).insert "t" { tid := "t" } }

/-- The service gets the task and hands it to its agent. -/
def handOut : List WatchedEvent :=
  [.service ⟨0, .pushTask "a" { taskId := "t" }⟩, .service ⟨1, .popTask "a"⟩]

def collected : WatchedEvent :=
  .service ⟨2, .notifyResult 2 { taskId := "t", cosKey := "profiler/t/t.data" }⟩

/-- The first pass hears of PENDING, the second one gets the result. -/
def orderlyFetch : List WatchedEvent :=
  handOut ++ [.watch 1 .request, .watch 1 .getResult, .watch 2 .getTaskStatus,
    .watch 3 (.receive .stored), collected, .watch 4 .request, .watch 4 .getResult,
    .watch 5 (.receive .stored)]

/-- The result arrives after GetResult and before GetTaskStatus. -/
def racedFetch : List WatchedEvent :=
  handOut ++ [.watch 1 .request, .watch 1 .getResult, collected, .watch 2 .getTaskStatus,
    .watch 3 (.receive .stored)]

/-- The loop of task `t` after a run. -/
def watchedAfter (events : List WatchedEvent) : Watched :=
  Transition.after (Watched.step "t" 100) { watch := { db := newTaskRow } } events

theorem backsDone_orderlyFetch :
    Complete ((waitTaskResult "t" (watchedAfter orderlyFetch).watch.polls).run newTaskRow).1 :=
  backsDone_of_reportsResults "t" newTaskRow 100 (watchedAfter orderlyFetch) (by decide +kernel)
    (Transition.Along.reachable (by decide +kernel) (by decide +kernel)) (by decide +kernel)

/-- The STATUS message makes the task DONE without an artifact and an analysis. -/
theorem not_backsDone : ¬ BacksDone "t" fun _ _ => True := by
  intro h
  obtain ⟨key, type, -, hended⟩ := h newTaskRow 100 (watchedAfter racedFetch) (by decide +kernel)
    (Transition.Along.reachable (by decide +kernel) (by decide +kernel)) (by decide +kernel)
  have hbare : ((waitTaskResult "t" (watchedAfter racedFetch).watch.polls).run newTaskRow).1 =
      .ended none none := by
    decide +kernel
  exact absurd (hbare.symm.trans hended) (by simp)

end MiniDrop
