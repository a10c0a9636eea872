import Mathlib.Tactic.Common
import MiniDrop.Model.ScriptRunner

/-! # Execute returns, and tells a stopped program from one that ended

Between its two threads and the program, which may end at any time or never. -/

namespace MiniDrop.ScriptRunner

variable {timeoutSec : ℤ} {s t : State}

/-! ## The invariant -/

/-- The monitor has not sent a signal yet. -/
def Monitor.Watches : Monitor → Prop
  | .grace | .finished => False
  | _ => True

/-- The program that Execute has waited for. -/
def Parent.status? : Parent → Option ExitStatus
  | .stopping status | .joining status => some status
  | _ => none

/-- How long the monitor has watched. -/
structure Timed (timeoutSec : ℤ) (s : State) : Prop where
  /-- There is a monitor if there is a limit. -/
  limited : s.monitor ≠ .absent ↔ 0 < timeoutSec
  elapsed_le : 0 < timeoutSec → (s.elapsed : ℤ) ≤ timeoutSec
  sleeping_lt : s.monitor = .sleeping → (s.elapsed : ℤ) < timeoutSec
  /-- The loop is left at the limit, or when Execute stops the monitor. -/
  expired : s.monitor = .expired → s.running = true → (s.elapsed : ℤ) = timeoutSec

/-- Which signals it has sent. -/
structure Signalled (timeoutSec : ℤ) (s : State) : Prop where
  watches : s.monitor.Watches → s.timeout = false ∧ s.killed = false
  grace : s.monitor = .grace → s.timeout = true ∧ s.killed = false
  flagged : s.terminated = s.timeout
  patient : s.timeout = true → (s.elapsed : ℤ) = timeoutSec
  force : s.killed = true → s.timeout = true

/-- What has become of the program. -/
structure Waited (s : State) : Prop where
  /-- The monitor does not leave a program behind. -/
  finished : s.monitor = .finished → s.child ≠ .running
  running : s.running = false → s.child ≠ .running
  waiting : s.parent = .waiting → s.running = true ∧ ∀ status, s.child ≠ .reaped status
  waited : ∀ status ∈ s.parent.status?, s.child = .reaped status ∧ s.monitor ≠ .absent
  returned : ∀ r, s.parent = .returned r → (s.monitor = .finished ∨ s.monitor = .absent) ∧
    ∃ status, s.child = .reaped status ∧ r = if s.timeout then -2 else status.result

structure Invariant (timeoutSec : ℤ) (s : State) : Prop where
  timed : Timed timeoutSec s
  signalled : Signalled timeoutSec s
  waited : Waited s

theorem invariant_start : Invariant timeoutSec (start timeoutSec) := by
  unfold start
  by_cases h : 0 < timeoutSec
  · refine ⟨?_, ?_, ?_⟩ <;> constructor <;> simp [h, Monitor.Watches, Parent.status?]
    omega
  · refine ⟨?_, ?_, ?_⟩ <;> constructor <;> simp [h, Monitor.Watches, Parent.status?]

/-! ### The program -/

theorem Waited.childExit (hs : Waited s) (hchild : s.child = .running) (status : ExitStatus) :
    Waited { s with child := .zombie status } where
  finished _ := Child.noConfusion
  running _ := Child.noConfusion
  waiting hwaiting := ⟨(hs.waiting hwaiting).1, fun _ => Child.noConfusion⟩
  waited status hstatus := absurd (hchild.symm.trans (hs.waited status hstatus).1) Child.noConfusion
  returned r hr := by
    obtain ⟨-, status, hreaped, -⟩ := hs.returned r hr
    exact absurd (hchild.symm.trans hreaped) Child.noConfusion

theorem childExit_cases {status : ExitStatus} (h : s.step timeoutSec (.childExit status) = some t) :
    s.child = .running ∧ t = { s with child := .zombie status } := by
  rw [State.step] at h
  split at h
  · next hrunning => exact ⟨hrunning, (Option.some.inj h).symm⟩
  · cases h

theorem Invariant.childExit (hs : Invariant timeoutSec s) {status : ExitStatus}
    (h : s.step timeoutSec (.childExit status) = some t) : Invariant timeoutSec t := by
  obtain ⟨hchild, rfl⟩ := childExit_cases h
  obtain ⟨⟨hlimited, hle, hlt, hexpired⟩, ⟨hwatches, hgrace, hflagged, hpatient, hforce⟩, hwaited⟩ :=
    hs
  exact ⟨⟨hlimited, hle, hlt, hexpired⟩, ⟨hwatches, hgrace, hflagged, hpatient, hforce⟩,
    hwaited.childExit hchild status⟩

/-! ### The monitor -/

/-- What each step of the monitor does. -/
theorem stepMonitor_cases (h : s.step timeoutSec .monitor = some t) :
    (s.monitor = .test ∧ s.running = true ∧ (s.elapsed : ℤ) < timeoutSec ∧
      t = { s with monitor := .sleeping }) ∨
    (s.monitor = .test ∧ (s.running = true → timeoutSec ≤ s.elapsed) ∧
      t = { s with monitor := .expired }) ∨
    (s.monitor = .sleeping ∧ t = { s with monitor := .probing, elapsed := s.elapsed + 1 }) ∨
    (s.monitor = .probing ∧ s.child.found = true ∧ t = { s with monitor := .test }) ∨
    (s.monitor = .probing ∧ s.child.found = false ∧ t = { s with monitor := .finished }) ∨
    (s.monitor = .expired ∧ s.running = true ∧
      t = { s with monitor := .grace, timeout := true, terminated := true }) ∨
    (s.monitor = .expired ∧ s.running = false ∧ t = { s with monitor := .finished }) ∨
    (s.monitor = .grace ∧ s.child.found = true ∧
      t = { s with monitor := .finished, child := s.child.kill, killed := true }) ∨
    (s.monitor = .grace ∧ s.child.found = false ∧ t = { s with monitor := .finished }) := by
  rw [State.step, State.stepMonitor] at h
  split at h
  · split at h <;> grind
  · grind
  · split at h <;> grind
  · split at h <;> grind
  · split at h <;> grind
  · cases h
  · cases h

theorem Timed.monitor (hs : Timed timeoutSec s) (h : s.step timeoutSec .monitor = some t) :
    Timed timeoutSec t := by
  obtain ⟨hlimited, hle, hlt, hexpired⟩ := hs
  obtain ⟨hm, hrun, htime, rfl⟩ | ⟨hm, htime, rfl⟩ | ⟨hm, rfl⟩ | ⟨hm, hfound, rfl⟩ |
    ⟨hm, hfound, rfl⟩ | ⟨hm, hrun, rfl⟩ | ⟨hm, hrun, rfl⟩ | ⟨hm, hfound, rfl⟩ |
    ⟨hm, hfound, rfl⟩ := stepMonitor_cases h <;>
  constructor <;> grind

theorem Signalled.monitor (ht : Timed timeoutSec s) (hs : Signalled timeoutSec s)
    (h : s.step timeoutSec .monitor = some t) : Signalled timeoutSec t := by
  have hexpired := ht.expired
  obtain ⟨hwatches, hgrace, hflagged, hpatient, hforce⟩ := hs
  obtain ⟨hm, hrun, htime, rfl⟩ | ⟨hm, htime, rfl⟩ | ⟨hm, rfl⟩ | ⟨hm, hfound, rfl⟩ |
    ⟨hm, hfound, rfl⟩ | ⟨hm, hrun, rfl⟩ | ⟨hm, hrun, rfl⟩ | ⟨hm, hfound, rfl⟩ |
    ⟨hm, hfound, rfl⟩ := stepMonitor_cases h <;>
  constructor <;> grind [Monitor.Watches]

theorem ne_running_of_not_found {child : Child} (h : child.found = false) : child ≠ .running := by
  rintro rfl
  cases h

theorem kill_eq_reaped_iff {child : Child} {status : ExitStatus} :
    child.kill = .reaped status ↔ child = .reaped status := by
  cases child <;> simp [Child.kill]

theorem kill_ne_running (child : Child) : child.kill ≠ .running := by
  cases child <;> simp [Child.kill]

/-- The monitor moves before Execute returns, and ends behind the program. -/
theorem Waited.move (hs : Waited s) (hm : s.monitor ≠ .absent ∧ s.monitor ≠ .finished)
    (hparent : t.parent = s.parent) (hrun : t.running = s.running)
    (hreaped : ∀ status, t.child = .reaped status ↔ s.child = .reaped status)
    (halive : t.child = .running → s.child = .running) (habsent : t.monitor ≠ .absent)
    (hfinished : t.monitor = .finished → t.child ≠ .running) : Waited t where
  finished := hfinished
  running hstop := mt halive (hs.running (hrun ▸ hstop))
  waiting hwaiting := by
    obtain ⟨hrunning, hnot⟩ := hs.waiting (hparent ▸ hwaiting)
    exact ⟨hrun.trans hrunning, fun status => mt (hreaped status).mp (hnot status)⟩
  waited status hstatus := by
    rw [hparent] at hstatus
    exact ⟨(hreaped status).mpr (hs.waited status hstatus).1, habsent⟩
  returned r hr := by
    obtain hfinal | hfinal := (hs.returned r (hparent ▸ hr)).1
    · exact absurd hfinal hm.2
    · exact absurd hfinal hm.1

theorem Waited.monitor (hs : Waited s) (h : s.step timeoutSec .monitor = some t) : Waited t := by
  obtain ⟨hm, hrun, htime, rfl⟩ | ⟨hm, htime, rfl⟩ | ⟨hm, rfl⟩ | ⟨hm, hfound, rfl⟩ |
    ⟨hm, hfound, rfl⟩ | ⟨hm, hrun, rfl⟩ | ⟨hm, hrun, rfl⟩ | ⟨hm, hfound, rfl⟩ |
    ⟨hm, hfound, rfl⟩ := stepMonitor_cases h
  · exact hs.move (by simp [hm]) rfl rfl (fun _ => Iff.rfl) id (by simp) (by simp)
  · exact hs.move (by simp [hm]) rfl rfl (fun _ => Iff.rfl) id (by simp) (by simp)
  · exact hs.move (by simp [hm]) rfl rfl (fun _ => Iff.rfl) id (by simp) (by simp)
  · exact hs.move (by simp [hm]) rfl rfl (fun _ => Iff.rfl) id (by simp) (by simp)
  · exact hs.move (by simp [hm]) rfl rfl (fun _ => Iff.rfl) id (by simp)
      fun _ => ne_running_of_not_found hfound
  · exact hs.move (by simp [hm]) rfl rfl (fun _ => Iff.rfl) id (by simp) (by simp)
  · exact hs.move (by simp [hm]) rfl rfl (fun _ => Iff.rfl) id (by simp) fun _ => hs.running hrun
  · exact hs.move (by simp [hm]) rfl rfl (fun _ => kill_eq_reaped_iff)
      (fun hrunning => absurd hrunning (kill_ne_running _)) (by simp) fun _ => kill_ne_running _
  · exact hs.move (by simp [hm]) rfl rfl (fun _ => Iff.rfl) id (by simp)
      fun _ => ne_running_of_not_found hfound

theorem Invariant.monitor (hs : Invariant timeoutSec s)
    (h : s.step timeoutSec .monitor = some t) : Invariant timeoutSec t :=
  ⟨hs.timed.monitor h, hs.signalled.monitor hs.timed h, hs.waited.monitor h⟩

/-! ### Execute -/

/-- What each step of Execute does. -/
theorem stepParent_cases (h : s.step timeoutSec .parent = some t) :
    (∃ status, s.parent = .waiting ∧ s.child = .zombie status ∧ s.monitor = .absent ∧
      t = { s with child := .reaped status, parent := .returned status.result }) ∨
    (∃ status, s.parent = .waiting ∧ s.child = .zombie status ∧ s.monitor ≠ .absent ∧
      t = { s with child := .reaped status, parent := .stopping status }) ∨
    (∃ status, s.parent = .stopping status ∧
      t = { s with running := false, parent := .joining status }) ∨
    (∃ status, s.parent = .joining status ∧ s.monitor = .finished ∧
      t = { s with parent := .returned (if s.timeout then -2 else status.result) }) := by
  rw [State.step, State.stepParent] at h
  split at h
  · split at h
    · split at h <;> grind
    · cases h
  · grind
  · split at h <;> grind
  · cases h

/-- Execute leaves the fields of the monitor alone, besides that it stops it. -/
theorem stepParent_monitor (h : s.step timeoutSec .parent = some t) :
    t.monitor = s.monitor ∧ t.elapsed = s.elapsed ∧ t.timeout = s.timeout ∧
      t.terminated = s.terminated ∧ t.killed = s.killed ∧ (t.running = true → s.running = true) := by
  obtain ⟨status, hp, hchild, hm, rfl⟩ | ⟨status, hp, hchild, hm, rfl⟩ | ⟨status, hp, rfl⟩ |
    ⟨status, hp, hm, rfl⟩ := stepParent_cases h <;> simp

theorem Timed.parent (hs : Timed timeoutSec s) (h : s.step timeoutSec .parent = some t) :
    Timed timeoutSec t := by
  obtain ⟨hm, htime, -, -, -, hrun⟩ := stepParent_monitor h
  refine ⟨?_, ?_, ?_, ?_⟩
  · rw [hm]
    exact hs.limited
  · rw [htime]
    exact hs.elapsed_le
  · rw [hm, htime]
    exact hs.sleeping_lt
  · rw [hm, htime]
    exact fun hexpired hrunning => hs.expired hexpired (hrun hrunning)

theorem Signalled.parent (hs : Signalled timeoutSec s) (h : s.step timeoutSec .parent = some t) :
    Signalled timeoutSec t := by
  obtain ⟨hm, htime, hflag, hsent, hkilled, -⟩ := stepParent_monitor h
  refine ⟨?_, ?_, ?_, ?_, ?_⟩
  · rw [hm, hflag, hkilled]
    exact hs.watches
  · rw [hm, hflag, hkilled]
    exact hs.grace
  · rw [hsent, hflag]
    exact hs.flagged
  · rw [hflag, htime]
    exact hs.patient
  · rw [hkilled, hflag]
    exact hs.force

theorem Waited.parent (ht : Signalled timeoutSec s) (hs : Waited s)
    (h : s.step timeoutSec .parent = some t) : Waited t := by
  obtain ⟨status, hp, hchild, hm, rfl⟩ | ⟨status, hp, hchild, hm, rfl⟩ | ⟨status, hp, rfl⟩ |
    ⟨status, hp, hm, rfl⟩ := stepParent_cases h
  · -- without a monitor there is no flag
    have hquiet : s.timeout = false := (ht.watches (by rw [hm]; trivial)).1
    refine ⟨by simp, by simp, by simp, by simp [Parent.status?], fun r hr => ?_⟩
    exact ⟨.inr hm, status, rfl, by simpa [hquiet] using hr.symm⟩
  · refine ⟨by simp, by simp, by simp, fun other hother => ?_, by simp⟩
    obtain rfl : status = other := Option.some.inj hother
    exact ⟨rfl, hm⟩
  · obtain ⟨hreaped, hmonitor⟩ := hs.waited status (by rw [hp]; rfl)
    refine ⟨hs.finished, fun _ => by simp [hreaped], by simp, fun other hother => ?_, by simp⟩
    obtain rfl : status = other := Option.some.inj hother
    exact ⟨hreaped, hmonitor⟩
  · obtain ⟨hreaped, -⟩ := hs.waited status (by rw [hp]; rfl)
    refine ⟨hs.finished, hs.running, by simp, by simp [Parent.status?], fun r hr => ?_⟩
    exact ⟨.inl hm, status, hreaped, (Parent.returned.inj hr).symm⟩

theorem Invariant.parent (hs : Invariant timeoutSec s)
    (h : s.step timeoutSec .parent = some t) : Invariant timeoutSec t :=
  ⟨hs.timed.parent h, hs.signalled.parent h, hs.waited.parent hs.signalled h⟩

theorem Invariant.step (hs : Invariant timeoutSec s) {event : Event}
    (h : s.step timeoutSec event = some t) : Invariant timeoutSec t := by
  cases event with
  | childExit status => exact hs.childExit h
  | monitor => exact hs.monitor h
  | parent => exact hs.parent h

theorem Invariant.of_reachable {ok : State → Event → Prop}
    (hreach : Transition.Reachable (State.step timeoutSec) ok (start timeoutSec) s) :
    Invariant timeoutSec s :=
  hreach.invariant invariant_start fun _ _ _ hs _ h => hs.step h

/-! ## Results -/

/-- What the result of Execute says, and when signals are sent. -/
structure Outcome (timeoutSec : ℤ) (s : State) : Prop where
  stopped : ∀ r, s.parent = .returned r → (r = -2 ↔ s.terminated = true)
  ended : ∀ r, s.parent = .returned r → s.terminated = false →
    ∃ status, s.child = .reaped status ∧ r = status.result
  /-- SIGTERM comes after as many seconds as the limit says. -/
  patient : s.terminated = true → (s.elapsed : ℤ) = timeoutSec
  force : s.killed = true → s.terminated = true

theorem ExitStatus.result_ne (status : ExitStatus) : status.result ≠ -2 := by
  cases status with
  | exited code =>
      rw [ExitStatus.result]
      omega
  | signaled => decide

/-- However the two threads and the program interleave, the result of a program that was not stopped
is its own, and that of one that was stopped is -2. -/
theorem outcome_of_reachable (timeoutSec : ℤ) (s : State)
    (hreach : Transition.Reachable (State.step timeoutSec) (fun _ _ => True) (start timeoutSec) s) :
    Outcome timeoutSec s := by
  have hs := Invariant.of_reachable hreach
  refine ⟨fun r hr => ?_, fun r hr hfree => ?_, fun hsent => ?_, fun hkilled => ?_⟩
  · obtain ⟨-, status, -, rfl⟩ := hs.waited.returned r hr
    rw [hs.signalled.flagged]
    have hne := status.result_ne
    split <;> simp_all
  · obtain ⟨-, status, hchild, rfl⟩ := hs.waited.returned r hr
    rw [hs.signalled.flagged] at hfree
    exact ⟨status, hchild, if_neg (by rw [hfree]; exact Bool.false_ne_true)⟩
  · exact hs.signalled.patient (hs.signalled.flagged ▸ hsent)
  · exact hs.signalled.flagged ▸ hs.signalled.force hkilled

/-- A program that ignores SIGTERM. -/
def stubborn : List Event :=
  .monitor :: .monitor :: .monitor :: .monitor :: .monitor :: .monitor :: .parent :: .parent ::
    [.parent]

theorem outcome_stubborn :
    Outcome 1 (Transition.after (State.step 1) (start 1) stubborn) :=
  outcome_of_reachable 1 _ (Transition.Along.reachable (by decide) (by decide))

/-! ## Termination -/

/-- Nothing but the program can move. -/
def Stuck (timeoutSec : ℤ) (s : State) : Prop :=
  s.step timeoutSec .monitor = none ∧ s.step timeoutSec .parent = none

def Event.isOwn : Event → Bool
  | childExit _ => false
  | monitor | parent => true

/-- How many steps Execute and its monitor have left. -/
def State.budget (timeoutSec : ℤ) (s : State) : ℕ :=
  (match s.parent with
    | .waiting => 3
    | .stopping _ => 2
    | .joining _ => 1
    | .returned _ => 0) +
  (match s.monitor with
    | .absent | .finished => 0
    | .grace => 1
    | .expired => 2
    | .test => 3 * (timeoutSec - s.elapsed).toNat + 3
    | .sleeping => 3 * (timeoutSec - s.elapsed).toNat + 2
    | .probing => 3 * (timeoutSec - s.elapsed).toNat + 4)

theorem budget_step (hs : Invariant timeoutSec s) {event : Event}
    (h : s.step timeoutSec event = some t) :
    t.budget timeoutSec + event.isOwn.toNat ≤ s.budget timeoutSec := by
  cases event with
  | childExit status =>
      rw [State.step] at h
      split at h
      · rw [← Option.some.inj h]
        exact Nat.le_refl _
      · cases h
  | monitor =>
      have hlt := hs.timed.sleeping_lt
      obtain ⟨hm, hrun, htime, rfl⟩ | ⟨hm, htime, rfl⟩ | ⟨hm, rfl⟩ | ⟨hm, hfound, rfl⟩ |
        ⟨hm, hfound, rfl⟩ | ⟨hm, hrun, rfl⟩ | ⟨hm, hrun, rfl⟩ | ⟨hm, hfound, rfl⟩ |
        ⟨hm, hfound, rfl⟩ := stepMonitor_cases h <;>
      simp only [State.budget, hm, Event.isOwn, Bool.toNat_true] <;> grind
  | parent =>
      obtain ⟨status, hp, hchild, hm, rfl⟩ | ⟨status, hp, hchild, hm, rfl⟩ | ⟨status, hp, rfl⟩ |
        ⟨status, hp, hm, rfl⟩ := stepParent_cases h <;>
      simp only [State.budget, hp, Event.isOwn, Bool.toNat_true] <;> omega

/-- While Execute has not returned, one of its threads can move. -/
theorem returned_of_stuck (hs : Invariant timeoutSec s) (hlimit : 0 < timeoutSec)
    (hstuck : Stuck timeoutSec s) : ∃ r, s.parent = .returned r := by
  obtain ⟨hmonitor, hparent⟩ := hstuck
  have hfinished : s.monitor = .finished := by
    have habsent := hs.timed.limited.mpr hlimit
    cases hm : s.monitor with
    | absent => exact absurd hm habsent
    | finished => rfl
    | test => simp [State.step, State.stepMonitor, hm] at hmonitor
    | sleeping => simp [State.step, State.stepMonitor, hm] at hmonitor
    | probing => simp [State.step, State.stepMonitor, hm] at hmonitor
    | expired => simp [State.step, State.stepMonitor, hm] at hmonitor
    | grace => simp [State.step, State.stepMonitor, hm] at hmonitor
  cases hp : s.parent with
  | returned r => exact ⟨r, rfl⟩
  | stopping status => simp [State.step, State.stepParent, hp] at hparent
  | joining status => simp [State.step, State.stepParent, hp, hfinished] at hparent
  | waiting =>
      -- the monitor has not left a program running, which can be waited for
      have hwaiting := hs.waited.waiting hp
      cases hchild : s.child with
      | running => exact absurd hchild (hs.waited.finished hfinished)
      | zombie status => simp [State.step, State.stepParent, hp, hchild] at hparent
      | reaped status => exact absurd hchild (hwaiting.2 status)

/-- Execute returns whatever the program does if and only if there is a limit. -/
theorem returns_iff (timeoutSec : ℤ) :
    (∀ events s, Transition.run (State.step timeoutSec) (start timeoutSec) events = some s →
      events.countP Event.isOwn ≤ 3 * timeoutSec.toNat + 6 ∧
        (Stuck timeoutSec s → ∃ r, s.parent = .returned r)) ↔ 0 < timeoutSec := by
  constructor
  · intro h
    by_contra hlimit
    have hstart : start timeoutSec = { monitor := .absent } := by rw [start, if_neg hlimit]
    obtain ⟨r, hr⟩ := (h [] _ rfl).2 (by rw [hstart]; exact ⟨rfl, rfl⟩)
    rw [hstart] at hr
    cases hr
  · intro hlimit events s hrun
    have hreach : Transition.Reachable (State.step timeoutSec) (fun _ _ => True)
        (start timeoutSec) s :=
      Transition.reachable_iff_run.mpr ⟨events, Transition.along_true _ _ _, hrun⟩
    have hs : Invariant timeoutSec s := Invariant.of_reachable hreach
    refine ⟨?_, returned_of_stuck hs hlimit⟩
    have hbudget := Transition.countP_le_of_budget (I := Invariant timeoutSec) (p := Event.isOwn)
      (fun s event t hs h => ⟨Invariant.step hs h, budget_step hs h⟩) invariant_start hrun
    have hstart : (start timeoutSec).budget timeoutSec = 3 * timeoutSec.toNat + 6 := by
      rw [start, if_pos hlimit, State.budget]
      dsimp only
      omega
    omega

end MiniDrop.ScriptRunner
