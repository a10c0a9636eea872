import MiniDrop.Verification.Cluster.Completion
import MiniDrop.Verification.Cluster.Fate

/-! # Successful collections and the status of their task

The loop fails a task when drop_server reports so, when a result has nothing to store, or when its
deadline passes. None of these happens to a successful collection as long as the cleanup thread
spares tasks that an agent pursues, and the loop asks again between the arrival of the result and
its deadline. -/

namespace MiniDrop

/-- The task that a message is about. -/
def Message.taskId : Message → String
  | .dispatch _ task => task.taskId
  | .report (.status update) => update.taskId
  | .report (.result r) => r.taskId

/-- drop_server just queued a one-shot task that nobody else knows, and its loop begins. Ids of
one-shot tasks are beginnings of UUIDs, so none of them is written as a window. -/
structure JustQueued (tid : String) (c : Cluster) : Prop where
  named : tid ≠ ""
  notWindow : parentOf tid = none
  queued : ∃ (s : HotmethodService) (now : ℤ) (ip : String) (task : TaskDesc),
    task.taskId = tid ∧ tid ∉ s.waitingIds ∧ s.getResult tid = none ∧
      s.pushTask now ip task = (c.service, true)
  agents : ∀ ip, copiesIn tid (c.agent ip).tasks = 0 ∧
    ∀ r, (c.agent ip).worker = .finished r → r.taskId ≠ tid
  network : ∀ message ∈ c.network, message.taskId ≠ tid
  watch : ∃ db, c.watch = { db } ∧ (db.task? tid).map HotmethodTask.status = some taskStatusNew
  arrived : c.arrived = false

/-- In all runs whose steps satisfy `ok`, a task whose successful result reaches drop_server
before the deadline does not end as FAILED. -/
def RecordsSuccess (tid : String) (ok : Cluster → ClusterEvent → Prop) : Prop :=
  ∀ (c₀ c : Cluster) (deadline : ℤ), JustQueued tid c₀ →
    Transition.Reachable (Cluster.step tid deadline) ok c₀ c → c.arrived = true →
    (c.watch.db.task? tid).map HotmethodTask.status ≠ some taskStatusFailed

/-- A cleanup pass does not fail the task while an agent pursues it, the loop asks again before it
gives up on a result that arrived, and the object store takes an embedded file. -/
def LetsFinish (tid : String) (c : Cluster) (e : ClusterEvent) : Prop :=
  match e.action with
  | .call ⟨steadyNow, .cleanupTimeoutTasks⟩ =>
    tid ∈ c.service.overdueTasks steadyNow dispatchTimeoutSec → ¬ c.Pursued tid
  | .watch .expire => c.arrived = false
  | .watch (.receive storage) =>
    match c.watch.phase with
    | .answered resp => resp.code = 0 → resp.cosKey = "" → storage = .stored
    | _ => True
  | _ => True

instance (tid : String) (c : Cluster) (e : ClusterEvent) : Decidable (LetsFinish tid c e) := by
  unfold LetsFinish
  repeat' split
  all_goals infer_instance

/-! ## What the loop hears -/

/-- The response fails a task only without hope, and a result has an artifact. -/
structure Fair (fate : Fate) (resp : FetchDataResponse) : Prop where
  reported : reportedStatus resp = some taskStatusFailed → fate = .hopeless
  refused : resp.code ≠ 0 → reportedStatus resp = none →
    resp.message = "" ∨ resp.message = "Result not found" ∨ fate = .hopeless
  artifact : resp.code = 0 → resp.cosKey ≠ "" ∨ ∃ file ∈ resp.file, file.content ≠ []

theorem Fair.mono {fate fate' : Fate} {resp : FetchDataResponse} (h : Fair fate resp)
    (hmono : fate = .hopeless → fate' = .hopeless) : Fair fate' resp where
  reported hreported := hmono (h.reported hreported)
  refused hcode hnone := (h.refused hcode hnone).imp_right (Or.imp_right hmono)
  artifact := h.artifact

/-- An artifact is stored if the object store takes it. -/
theorem stored_of_artifact {tid storeErr : String} {storage : StorageReply}
    {resp : FetchDataResponse}
    (hartifact : resp.cosKey ≠ "" ∨ ∃ file ∈ resp.file, file.content ≠ [])
    (hstorage : resp.cosKey = "" → storage = .stored) :
    persistFetchedResultFile storage tid resp ≠ .error storeErr := by
  unfold persistFetchedResultFile
  by_cases hkey : resp.cosKey = ""
  · obtain ⟨file, hfile, hcontent⟩ := hartifact.resolve_left (not_not.mpr hkey)
    simp [hkey, Option.mem_def.mp hfile, hcontent, hstorage hkey]
  · simp [hkey]

variable {tid : String} {fate : Fate} {c : Cluster}

theorem Fated.fair_fetchResult (h : Fated tid fate c) (hnamed : tid ≠ "")
    {resp : FetchDataResponse} (hfetch : c.service.fetchResult tid = some resp) :
    Fair fate resp := by
  rcases HotmethodService.fetchResult_eq_some hfetch with
    ⟨hempty, _⟩ | ⟨result, hresult, ⟨herror, rfl⟩ | ⟨hsuccess, rfl⟩⟩
  · exact absurd hempty hnamed
  · have hhopeless := (h.cached result hresult).of_error herror
    exact ⟨fun _ => hhopeless, fun _ _ => .inr (.inr hhopeless), by simp⟩
  · refine ⟨?_, by simp, fun _ => ((h.cached result hresult).of_success hsuccess).2⟩
    rw [reportedStatus_ok]
    simp

theorem Fated.fair_fetchStatus (h : Fated tid fate c) : Fair fate (c.service.fetchStatus tid) := by
  refine ⟨?_, ?_, ?_⟩
  · rw [reportedStatus_fetchStatus]
    intro hreported
    obtain ⟨status, hstatus, hpublic⟩ := Option.map_eq_some_iff.mp hreported
    refine h.failed status hstatus ?_
    cases status <;> simp [publicTaskStatus, TaskStatus.toInt, taskStatusFailed] at hpublic ⊢
  · intro _ hnone
    rw [reportedStatus_fetchStatus, Option.map_eq_none_iff] at hnone
    have hentry : c.service.getTaskStatus tid = none := Option.map_eq_none_iff.mp hnone
    simp [HotmethodService.fetchStatus, hentry]
  · unfold HotmethodService.fetchStatus
    split <;> simp

/-- A fair pass fails the task only without hope or after the deadline. -/
theorem failed_of_passes {status last : ℤ} {poll : Poll} {result : PollResult} {states : List ℤ}
    (h : Passes tid status poll result last states)
    (hfair : ∀ now resp storage, poll = .fetched now resp storage → Fair fate resp ∧
      (resp.code = 0 → resp.cosKey = "" → storage = .stored))
    (hfailed : last = taskStatusFailed) :
    fate = .hopeless ∨ status = taskStatusFailed ∨ (∃ now error, poll = .cancelled now error) ∨
      ∃ now, poll = .expired now := by
  cases h with
  | cancelled now error => exact .inr (.inr (.inl ⟨now, error, rfl⟩))
  | expired now => exact .inr (.inr (.inr ⟨now, rfl⟩))
  | unreachable => exact .inr (.inl hfailed)
  | reported hreported hterminal =>
      exact .inl ((hfair _ _ _ rfl).1.reported (hfailed ▸ hreported))
  | stored type hlive hcode hstored => exact absurd hfailed (by decide)
  | unstored hlive hcode hstored =>
      obtain ⟨hfair, hstorage⟩ := hfair _ _ _ rfl
      exact absurd hstored (stored_of_artifact (hfair.artifact hcode) (hstorage hcode))
  | refused hnone hcode hmessage =>
      rcases (hfair _ _ _ rfl).1.refused hcode hnone with hempty | hunknown | hhopeless
      · exact absurd hempty hmessage.1
      · exact absurd hunknown hmessage.2
      · exact .inl hhopeless
  | @waited now resp storage hlive hcode hmessage =>
      cases hreported : reportedStatus resp with
      | none => exact .inr (.inl (by simpa [hreported] using hfailed))
      | some reported =>
          obtain rfl : reported = taskStatusFailed := by simpa [hreported] using hfailed
          exact absurd (.inr rfl) (hlive _ hreported)

/-! ## Runs -/

/-- The loop agrees with the fate of the task. -/
structure Tracked (tid : String) (deadline : ℤ) (fate : Fate) (c : Cluster) : Prop where
  fated : Fated tid fate c
  fair : ∀ resp, c.watch.phase = .answered resp → Fair fate resp
  shown : ∃ status changes, Shows c.watch.db tid status changes ∧ Normal status ∧
    (status = taskStatusFailed → fate = .hopeless ∨ c.arrived = false ∧ deadline < c.now)

theorem JustQueued.tracked (h : JustQueued tid c) (deadline : ℤ) :
    ∃ fate, Tracked tid deadline fate c := by
  obtain ⟨s, now, ip, task, hid, hnew, hresult, hpush⟩ := h.queued
  have hempty : ∀ ip', copiesIn tid (s.queue ip') = 0 := by
    intro ip'
    refine List.countP_eq_zero.mpr fun task' hmem hid' => hnew ?_
    exact s.mem_waitingIds.mpr ⟨ip', task', hmem, of_decide_eq_true hid'⟩
  obtain hservice : c.service = s.enqueue now ip task "任务创建，等待派发" := by
    unfold HotmethodService.pushTask at hpush
    split at hpush
    · exact (congrArg Prod.fst hpush).symm
    · cases congrArg Prod.snd hpush
  have hstatus : c.service.statusOf tid = some .pending := by
    rw [hservice, HotmethodService.statusOf_enqueue, if_pos hid]
  obtain ⟨db, hwatch, hrow⟩ := h.watch
  refine ⟨.underway (.queue ip), ⟨?_, ?_, ?_, ?_, ?_, ?_, ?_, by simp, by simp, ?_⟩, ?_, ?_⟩
  · intro l
    cases l with
    | queue ip' =>
        by_cases hip : ip = ip'
        · simp [Cluster.copies, hservice, HotmethodService.queue_enqueue, Fate.location?, hip, hid,
            hempty]
        · simp [Cluster.copies, hservice, HotmethodService.queue_enqueue, Fate.location?, hip,
            hempty]
    | wire =>
        refine List.countP_eq_zero.mpr fun task' hmem hid' => ?_
        obtain ⟨message, hmessage, hbrings⟩ := List.mem_filterMap.mp hmem
        cases message with
        | report report => cases hbrings
        | dispatch ip' task'' =>
            obtain rfl := Option.some.inj hbrings
            exact h.network _ hmessage (of_decide_eq_true hid')
    | agent ip' => exact (h.agents ip').1
  · exact fun ip' r hr hid' => absurd hid' ((h.agents ip').2 r hr)
  · exact fun r hr hid' => absurd hid' (h.network _ hr)
  · intro r hr
    have hnone : c.service.results[tid]? = none := by
      rw [hservice]
      exact hresult
    simp [hnone] at hr
  · exact fun update hupdate hid' => absurd hid' (h.network _ hupdate)
  · exact fun _ => ⟨ip, rfl⟩
  · intro status hs hfailed
    obtain rfl := Option.some.inj (hstatus.symm.trans hs)
    simp at hfailed
  · simp [h.arrived]
  · simp [hwatch]
  · refine ⟨taskStatusNew, _, ⟨by rw [hwatch]; exact hrow, rfl⟩, rfl, fun hfailed => ?_⟩
    exact absurd hfailed (by decide)

/-- A step outside the loop. -/
theorem Tracked.elsewhere {deadline : ℤ} {fate' : Fate} {c' : Cluster}
    (h : Tracked tid deadline fate c) (hfated : Fated tid fate' c')
    (hmono : fate = .hopeless → fate' = .hopeless) (hwatch : c'.watch = c.watch)
    (hnow : c.now ≤ c'.now)
    (harrived : c'.arrived = true → c.arrived = true ∨ c'.now ≤ deadline) :
    Tracked tid deadline fate' c' where
  fated := hfated
  fair resp hphase := (h.fair resp (hwatch ▸ hphase)).mono hmono
  shown := by
    obtain ⟨status, changes, hshows, hnormal, hexcused⟩ := h.shown
    refine ⟨status, changes, hwatch ▸ hshows, hnormal, fun hfailed => ?_⟩
    rcases hexcused hfailed with hhopeless | ⟨hearly, hlate⟩
    · exact .inl (hmono hhopeless)
    · refine .inr ⟨?_, by omega⟩
      rw [← Bool.not_eq_true]
      intro hlater
      rcases harrived hlater with hbefore | hintime
      · simp [hearly] at hbefore
      · omega

theorem Cluster.deliver_frame {deadline now sysNow : ℤ} {message : Message} {c' : Cluster}
    (h : c.deliver tid deadline now sysNow message = some c') :
    c'.watch = c.watch ∧ c'.now = c.now ∧
      (c'.arrived = true → c.arrived = true ∨ c.now ≤ deadline) := by
  cases message with
  | dispatch ip task =>
      obtain rfl := Option.some.inj h
      exact ⟨rfl, rfl, .inl⟩
  | report report =>
      obtain ⟨received, hreceived, rfl⟩ := Option.map_eq_some_iff.mp h
      cases report with
      | status update =>
          obtain rfl := Option.some.inj hreceived
          exact ⟨rfl, rfl, fun h => .inl (by simpa [Report.Succeeds] using h)⟩
      | result r =>
          obtain ⟨service, -, rfl⟩ := Option.map_eq_some_iff.mp hreceived
          refine ⟨rfl, rfl, ?_⟩
          simp only [Bool.or_eq_true, decide_eq_true_eq]
          exact Or.imp_right And.right

/-- A step of the loop. -/
theorem Tracked.watch {deadline now : ℤ} (h : Tracked tid deadline fate c) (hnamed : tid ≠ "")
    {action : WatchAction} {watch : Watch} (hnow : c.now ≤ now)
    (hok : LetsFinish tid c ⟨now, .watch action⟩)
    (hs : c.watch.step tid deadline c.service now action = some watch) :
    Tracked tid deadline fate { c with watch, now } := by
  have hfated := h.fated.elsewhere watch now
  obtain ⟨status, changes, hshows, hnormal, hexcused⟩ := h.shown
  have hexcused' : status = taskStatusFailed →
      fate = .hopeless ∨ c.arrived = false ∧ deadline < now := fun hfailed =>
    (hexcused hfailed).imp_right fun hlate => ⟨hlate.1, by omega⟩
  obtain ⟨-, ⟨phase, hasks, rfl⟩ | ⟨poll, hhears, rfl⟩⟩ := Watch.step_cases hs
  · refine ⟨hfated, ?_, status, changes, hshows, hnormal, hexcused'⟩
    intro resp hphase
    obtain rfl : phase = .answered resp := hphase
    generalize c.watch.phase = old at hasks
    cases hasks with
    | answered hfetch => exact h.fated.fair_fetchResult hnamed hfetch
    | reported => exact h.fated.fair_fetchStatus
  · obtain ⟨last, states, hpass, hlast, hnormal'⟩ := shows_poll hshows hnormal poll
    refine ⟨hfated, by simp [Watch.pass], last, _, hlast, hnormal', fun hfailed => ?_⟩
    have hfair : ∀ now' resp storage, poll = .fetched now' resp storage → Fair fate resp ∧
        (resp.code = 0 → resp.cosKey = "" → storage = .stored) := by
      rintro now' resp storage rfl
      have hanswered := h.fair
      simp only [LetsFinish] at hok
      generalize c.watch.phase = old at hhears hok hanswered
      cases hhears with
      | received => exact ⟨hanswered resp rfl, hok⟩
    rcases failed_of_passes hpass hfair hfailed with
      hhopeless | hbefore | ⟨now', error, rfl⟩ | ⟨now', rfl⟩
    · exact .inl hhopeless
    · exact hexcused' hbefore
    · generalize c.watch.phase = old at hhears
      cases hhears
    · right
      generalize c.watch.phase = old at hhears
      cases hhears with
      | expired hlate => exact ⟨hok, hlate⟩

theorem Tracked.step {deadline : ℤ} {c' : Cluster} {e : ClusterEvent}
    (h : Tracked tid deadline fate c) (hnamed : tid ≠ "") (hnot : parentOf tid = none)
    (hok : LetsFinish tid c e) (hs : c.step tid deadline e = some c') :
    ∃ fate', Tracked tid deadline fate' c' := by
  obtain ⟨now, action⟩ := e
  unfold Cluster.step at hs
  split at hs
  · cases hs
  · rename_i hclock
    have hnow : c.now ≤ now := Int.not_lt.mp hclock
    have hfated : Fated tid fate { c with now } := h.fated.elsewhere c.watch now
    cases action with
    | call event =>
        simp only at hs
        split at hs
        · rename_i hforeign
          obtain ⟨service, hservice, rfl⟩ := Option.map_eq_some_iff.mp hs
          have hspare : event.call = .cleanupTimeoutTasks →
              tid ∈ c.service.overdueTasks event.now dispatchTimeoutSec → ¬ c.Pursued tid := by
            obtain ⟨steadyNow, call⟩ := event
            rintro rfl
            exact hok
          obtain ⟨fate', hfated', hmono⟩ := hfated.call hnot hforeign hspare hservice
          exact ⟨fate', h.elsewhere hfated' hmono rfl hnow .inl⟩
        · cases hs
    | heartbeat steadyNow ip =>
        obtain rfl := Option.some.inj hs
        obtain ⟨fate', hfated', hmono⟩ := hfated.heartbeat steadyNow ip
        exact ⟨fate', h.elsewhere hfated' hmono rfl hnow .inl⟩
    | agent ip action =>
        obtain ⟨⟨a, reports⟩, hagent, rfl⟩ := Option.map_eq_some_iff.mp hs
        obtain ⟨fate', hfated', hmono⟩ := hfated.agent hagent
        exact ⟨fate', h.elsewhere hfated' hmono rfl hnow .inl⟩
    | deliver steadyNow sysNow message =>
        simp only at hs
        split at hs
        · rename_i hmem
          obtain ⟨fate', hfated', hmono⟩ := hfated.deliver hnot hmem hs
          obtain ⟨hwatch, hclock', harrived⟩ := Cluster.deliver_frame hs
          refine ⟨fate', h.elsewhere hfated' hmono hwatch (by rw [hclock']; exact hnow) ?_⟩
          rw [hclock']
          exact harrived
        · cases hs
    | watch action =>
        obtain ⟨watch, hwatch, rfl⟩ := Option.map_eq_some_iff.mp hs
        exact ⟨fate, h.watch hnamed hnow hok hwatch⟩

/-- Every run that lets a successful collection finish records it. -/
theorem recordsSuccess_of_letsFinish (tid : String) : RecordsSuccess tid (LetsFinish tid) := by
  intro c₀ c deadline hstart hreach harrived hfailed
  obtain ⟨fate, htracked⟩ : ∃ fate, Tracked tid deadline fate c := by
    refine hreach.invariant (I := fun c => ∃ fate, Tracked tid deadline fate c)
      (hstart.tracked deadline) ?_
    rintro s e t ⟨fate, htracked⟩ hok hs
    exact htracked.step hstart.named hstart.notWindow hok hs
  obtain ⟨status, changes, hshows, -, hexcused⟩ := htracked.shown
  have hsent := htracked.fated.arrived harrived
  rcases hexcused (Option.some.inj (hshows.stored.symm.trans hfailed)) with hhopeless | ⟨hnone, -⟩
  · simp [hsent] at hhopeless
  · simp [harrived] at hnone

/-- The task queues behind another one for the same agent. -/
def behindLong : Cluster where
  service := ((({} : HotmethodService).pushTask 0 "a" { taskId := "long" }).1.pushTask 0 "a"
    { taskId := "t" }).1
  watch := { db := newTaskRow }

theorem behindLong_justQueued : JustQueued "t" behindLong where
  named := by decide
  notWindow := by decide +kernel
  queued := ⟨(({} : HotmethodService).pushTask 0 "a" { taskId := "long" }).1, 0, "a",
    { taskId := "t" }, rfl, by decide +kernel, by decide +kernel, rfl⟩
  agents ip := by simp [behindLong, Cluster.agent, Agent.tasks, Worker.task?, copiesIn]
  network := by simp [behindLong]
  watch := ⟨newTaskRow, rfl, by decide +kernel⟩
  arrived := rfl

/-- The agent pulls both tasks and works on the first one. -/
def pulled : List ClusterEvent :=
  [⟨0, .heartbeat 0 "a"⟩, ⟨0, .deliver 0 0 (.dispatch "a" { taskId := "long" })⟩,
    ⟨1, .agent "a" .take⟩, ⟨1, .agent "a" (.reportRunning 1)⟩,
    ⟨1, .deliver 1000000000 1000 (.report (.status
      { taskId := "long", status := 2, reason := "Agent 开始执行采集任务" }))⟩,
    ⟨5, .heartbeat 5000000000 "a"⟩, ⟨5, .deliver 5000000000 5000 (.dispatch "a" { taskId := "t" })⟩]

/-- One pass of the loop, without a result. -/
def polled (now : ℤ) : List ClusterEvent :=
  [⟨now, .watch .request⟩, ⟨now, .watch .getResult⟩, ⟨now, .watch .getTaskStatus⟩,
    ⟨now, .watch (.receive .stored)⟩]

/-- The agent finishes the first task and then the second one, whose result arrives. -/
def worked : List ClusterEvent :=
  [⟨60, .agent "a" (.record 0)⟩, ⟨60, .agent "a" (.reportUploading 0)⟩,
    ⟨60, .agent "a" (.upload false .uploaded)⟩, ⟨60, .agent "a" (.reportResult 0)⟩,
    ⟨60, .agent "a" .take⟩, ⟨60, .agent "a" (.reportRunning 0)⟩, ⟨75, .agent "a" (.record 0)⟩,
    ⟨75, .agent "a" (.reportUploading 0)⟩, ⟨75, .agent "a" (.upload false .uploaded)⟩,
    ⟨75, .agent "a" (.reportResult 1)⟩,
    ⟨76, .deliver 76000000000 76000 (.report (.result
      { taskId := "t", cosKey := "profiler/t/t.data" }))⟩]

/-- The cleanup thread runs while the task waits in the queue of its agent. -/
def hurriedRun : List ClusterEvent :=
  pulled ++ ⟨40, .call ⟨40000000000, .cleanupTimeoutTasks⟩⟩ :: polled 41 ++ worked

/-- The cleanup thread runs soon enough to spare the task. -/
def sparedRun : List ClusterEvent :=
  pulled ++ ⟨30, .call ⟨30000000000, .cleanupTimeoutTasks⟩⟩ :: polled 31 ++ worked ++
    [⟨80, .watch .request⟩, ⟨80, .watch .getResult⟩, ⟨80, .watch (.receive .stored)⟩]

def clusterAfter (events : List ClusterEvent) : Cluster :=
  Transition.after (Cluster.step "t" 90) behindLong events

theorem recordsSuccess_sparedRun :
    (clusterAfter sparedRun).arrived = true ∧
      ((clusterAfter sparedRun).watch.db.task? "t").map HotmethodTask.status ≠
        some taskStatusFailed :=
  ⟨by decide +kernel, recordsSuccess_of_letsFinish "t" behindLong (clusterAfter sparedRun) 90
    behindLong_justQueued (Transition.Along.reachable (by decide +kernel) (by decide +kernel))
    (by decide +kernel)⟩

/-- A task that its agent keeps in the local queue for more than 30 s is failed. -/
theorem not_recordsSuccess : ¬ RecordsSuccess "t" fun _ _ => True := fun h =>
  h behindLong (clusterAfter hurriedRun) 90 behindLong_justQueued
    (Transition.Along.reachable (by decide +kernel) (by decide +kernel)) (by decide +kernel)
    (by decide +kernel)

end MiniDrop
