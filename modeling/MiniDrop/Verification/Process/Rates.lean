import Mathlib.Tactic.FieldSimp
import Mathlib.Tactic.Linarith
import Mathlib.Tactic.Ring
import MiniDrop.Model.PidStats

/-! # What the agent says of its use of the processor

Snapshots that are over a minute old are forgotten at the next call, whatever process it is about.
An answer is still a matter of the last reading of its own process, and no tick is told of twice. -/

namespace MiniDrop

/-! ## Readings -/

/-- The snapshot that a call takes, if it can read the process. -/
def ProcCall.snapshot? (c : ProcCall) : Option ProcSnapshot :=
  match readStat c.statFile c.stat, readIO c.ioFile c.io with
  | some (true, stat), some (_, io) => some { stat := stat, io := io, time := c.now }
  | _, _ => none

/-- The readings of a process, the last one first. -/
def readings (pid : ℤ) (history : List ProcCall) : List ProcSnapshot :=
  (history.filter fun c => c.pid = pid).filterMap ProcCall.snapshot?

/-- The snapshot is not over a minute old. -/
def ProcSnapshot.isFresh (now : ℤ) (snap : ProcSnapshot) : Bool :=
  !decide (elapsedSeconds now snap.time > 60)

/-- The last reading, if it is not over a minute old. -/
def recent (pid now : ℤ) (history : List ProcCall) : Option ProcSnapshot :=
  (readings pid history).head?.filter (ProcSnapshot.isFresh now)

def ProcSnapshot.ticks (snap : ProcSnapshot) : ℤ := snap.stat.utime + snap.stat.stime

/-- The snapshots behind these calls, the last call first. -/
def snapshotsAfter (sys : Sysconf) : List ProcCall → Snapshots
  | [] => {}
  | c :: history => (getPidStats sys (snapshotsAfter sys history) c).2

def answerAfter (sys : Sysconf) (history : List ProcCall) (c : ProcCall) : Option PidStats :=
  (getPidStats sys (snapshotsAfter sys history) c).1

/-- A table with nothing but this snapshot. -/
def only (pid : ℤ) (snap : Option ProcSnapshot) : Snapshots :=
  snap.elim {} fun snap => ({} : Snapshots).insert pid snap

/-- The clock does not go back. -/
def Ordered (history : List ProcCall) : Prop :=
  history.Pairwise fun later earlier => earlier.now ≤ later.now

/-- The ticks of adjacent readings that no answer tells of. -/
def untold : List ProcSnapshot → ℤ
  | snap :: prev :: rest =>
    (if prev.time < snap.time ∧ prev.isFresh snap.time then 0 else snap.ticks - prev.ticks) +
      untold (prev :: rest)
  | _ => 0

/-- The seconds of the processor that an answer tells of, if it tells of a time since `prev`. -/
def told (now : ℤ) (prev : Option ProcSnapshot) (answer : Option PidStats) : ℚ :=
  (answer.map PidStats.cpuPercent).getD 0 / 100 *
    (prev.map fun prev => intervalSec now prev.time).getD 0

/-- The seconds of the processor that the answers about a process tell of. -/
def toldBy (sys : Sysconf) (pid : ℤ) : List ProcCall → ℚ
  | [] => 0
  | c :: history => toldBy sys pid history +
      if c.pid = pid then told c.now (readings pid history).head? (answerAfter sys history c) else 0

/-! ## One call -/

section Call

variable {sys : Sysconf} {s t : Snapshots} {c : ProcCall} {pid now : ℤ}

theorem getElem?_cleanup (now : ℤ) (s : Snapshots) (pid : ℤ) :
    (cleanupStaleSnapshots now s)[pid]? = (s[pid]?).filter (ProcSnapshot.isFresh now) := by
  rw [cleanupStaleSnapshots, Std.ExtTreeMap.getElem?_filter']
  rfl

/-- An answer depends on nothing but the fresh snapshot of its process. -/
theorem answer_congr (h : (s[c.pid]?).filter (ProcSnapshot.isFresh c.now) =
    (t[c.pid]?).filter (ProcSnapshot.isFresh c.now)) :
    (getPidStats sys s c).1 = (getPidStats sys t c).1 := by
  rw [getPidStats, getPidStats]
  split
  · simp only [getElem?_cleanup, h]
  · rfl

theorem snapshots_of_answer_eq_none (h : (getPidStats sys s c).1 = none) :
    (getPidStats sys s c).2 = s ∧ c.snapshot? = none := by
  rw [getPidStats] at h ⊢
  rw [ProcCall.snapshot?]
  split at h
  · cases h
  · next hthrow =>
    refine ⟨rfl, ?_⟩
    split
    · next hstat hio => exact absurd hio (hthrow _ _ _ _ hstat)
    · rfl

theorem snapshots_of_answer (h : ((getPidStats sys s c).1).isSome = true) (pid : ℤ) :
    (getPidStats sys s c).2[pid]? =
      if c.pid = pid ∧ c.snapshot?.isSome then c.snapshot?
      else (s[pid]?).filter (ProcSnapshot.isFresh c.now) := by
  rw [getPidStats] at h ⊢
  split at h
  · next hasStat stat hasIo io hstat hio =>
    cases hasStat with
    | false =>
        have hsnapshot : c.snapshot? = none := by rw [ProcCall.snapshot?, hstat, hio]
        simp [hsnapshot, getElem?_cleanup]
    | true =>
        have hsnapshot : c.snapshot? = some { stat := stat, io := io, time := c.now } := by
          rw [ProcCall.snapshot?, hstat, hio]
        rw [hsnapshot]
        by_cases hpid : c.pid = pid
        · simp [hpid]
        · simp [hpid, getElem?_cleanup]
  · cases h

theorem intervalSec_pos {now time : ℤ} : 0 < intervalSec now time ↔ time < now := by
  rw [intervalSec, div_pos_iff_of_pos_right (by norm_num), Int.cast_pos, sub_pos]

theorem cpuPercent_addRates {stats : PidStats} {prev : ProcSnapshot} {stat : ProcStat}
    (io : Option ProcIO) : (stats.addRates sys prev now stat io).cpuPercent =
      if prev.time < now then calculateCPU sys prev.stat stat (intervalSec now prev.time)
      else stats.cpuPercent := by
  rw [PidStats.addRates]
  dsimp only
  rw [if_congr intervalSec_pos rfl rfl]
  split
  · cases io with
    | none => rfl
    | some io =>
        dsimp only
        split_ifs <;> rfl
  · rfl

/-- The share of the processor in an answer. -/
theorem cpuPercent_answer {snap : ProcSnapshot} (h : c.snapshot? = some snap) :
    ((getPidStats sys s c).1.map PidStats.cpuPercent).getD 0 =
      (((s[c.pid]?).filter (ProcSnapshot.isFresh c.now)).map fun prev =>
        if prev.time < c.now then
          calculateCPU sys prev.stat snap.stat (intervalSec c.now prev.time) else 0).getD 0 := by
  rw [ProcCall.snapshot?] at h
  split at h
  · next stat hasIo io hstat hio =>
    obtain rfl := Option.some.inj h
    rw [getPidStats, hstat, hio]
    simp only [getElem?_cleanup, if_true, Option.map_some, Option.getD_some]
    cases (s[c.pid]?).filter (ProcSnapshot.isFresh c.now) with
    | none => rfl
    | some prev => exact cpuPercent_addRates _
  · cases h

theorem cpuPercent_unread (h : c.snapshot? = none) :
    ((getPidStats sys s c).1.map PidStats.cpuPercent).getD 0 = 0 := by
  rw [ProcCall.snapshot?] at h
  rw [getPidStats]
  split
  · next hasStat stat hasIo io hstat hio =>
    cases hasStat with
    | false =>
        simp only [Option.map_some, Option.getD_some, Bool.false_eq_true, if_false]
        split <;> rfl
    | true =>
        rw [hstat, hio] at h
        cases h
  · rfl

end Call

/-! ## Runs -/

section Runs

variable {sys : Sysconf} {c : ProcCall} {history : List ProcCall} {pid now later : ℤ}
  {snap : ProcSnapshot} {found : Option ProcSnapshot}

theorem isFresh_of_le (hle : now ≤ later) (h : snap.isFresh later = true) :
    snap.isFresh now = true := by
  have helapsed : elapsedSeconds now snap.time ≤ elapsedSeconds later snap.time :=
    Int.tdiv_le_tdiv (by norm_num) (by omega)
  rw [ProcSnapshot.isFresh, Bool.not_eq_true', decide_eq_false_iff_not] at h ⊢
  omega

/-- What was not forgotten before is forgotten later. -/
theorem filter_isFresh (hle : now ≤ later) :
    (found.filter (ProcSnapshot.isFresh now)).filter (ProcSnapshot.isFresh later) =
      found.filter (ProcSnapshot.isFresh later) := by
  cases found with
  | none => rfl
  | some snap =>
      rw [Option.filter_some]
      split
      · rfl
      · next hold =>
        rw [Option.filter_some, if_neg fun h => hold (isFresh_of_le hle h)]
        rfl

theorem time_of_snapshot (h : c.snapshot? = some snap) : snap.time = c.now := by
  rw [ProcCall.snapshot?] at h
  split at h
  · obtain rfl := Option.some.inj h
    rfl
  · cases h

theorem isFresh_of_snapshot (h : c.snapshot? = some snap) : snap.isFresh c.now = true := by
  rw [ProcSnapshot.isFresh, time_of_snapshot h, elapsedSeconds, sub_self]
  rfl

theorem readings_cons_of_ne (h : c.pid ≠ pid) :
    readings pid (c :: history) = readings pid history := by
  rw [readings, List.filter_cons_of_neg (by simpa using h), readings]

theorem readings_cons_of_none (h : c.snapshot? = none) :
    readings pid (c :: history) = readings pid history := by
  rw [readings, readings, List.filter_cons]
  split
  · rw [List.filterMap_cons_none h]
  · rfl

theorem readings_cons_of_some (hpid : c.pid = pid) (h : c.snapshot? = some snap) :
    readings pid (c :: history) = snap :: readings pid history := by
  rw [readings, readings, List.filter_cons_of_pos (by simpa using hpid),
    List.filterMap_cons_some h]

theorem recent_cons_of_some (hpid : c.pid = pid) (h : c.snapshot? = some snap) (now : ℤ) :
    recent pid now (c :: history) = c.snapshot?.filter (ProcSnapshot.isFresh now) := by
  rw [recent, readings_cons_of_some hpid h, h, List.head?_cons]

/-- Another process, or a file that could not be read. -/
theorem recent_cons_of_not (h : ¬(c.pid = pid ∧ c.snapshot?.isSome = true)) (now : ℤ) :
    recent pid now (c :: history) = recent pid now history := by
  rw [recent, recent]
  by_cases hpid : c.pid = pid
  · have hnone : c.snapshot? = none := by
      rw [← Option.not_isSome_iff_eq_none]
      exact fun hsome => h ⟨hpid, hsome⟩
    rw [readings_cons_of_none hnone]
  · rw [readings_cons_of_ne hpid]

/-- A table that forgets nothing would answer the same. -/
theorem filter_snapshotsAfter (horder : Ordered history) (hnow : ∀ c ∈ history, c.now ≤ now)
    (pid : ℤ) : ((snapshotsAfter sys history)[pid]?).filter (ProcSnapshot.isFresh now) =
      recent pid now history := by
  induction history with
  | nil =>
      rw [snapshotsAfter, Std.ExtTreeMap.getElem?_empty]
      rfl
  | cons c history ih =>
      obtain ⟨hlater, horder⟩ := List.pairwise_cons.mp horder
      obtain ⟨hc, hnow⟩ := List.forall_mem_cons.mp hnow
      rw [snapshotsAfter]
      cases hanswer : (getPidStats sys (snapshotsAfter sys history) c).1 with
      | none =>
          obtain ⟨hsame, hnone⟩ := snapshots_of_answer_eq_none hanswer
          rw [hsame, ih horder hnow, recent, recent, readings_cons_of_none hnone]
      | some stats =>
          rw [snapshots_of_answer (Option.isSome_of_eq_some hanswer)]
          split
          · next htaken =>
            obtain ⟨snap, hsnap⟩ := Option.isSome_iff_exists.mp htaken.2
            rw [recent_cons_of_some htaken.1 hsnap]
          · next hnot => rw [filter_isFresh hc, ih horder hnow, recent_cons_of_not hnot]

theorem recent_of_only (found : Option ProcSnapshot) :
    ((only pid found)[pid]?).filter (ProcSnapshot.isFresh now) =
      found.filter (ProcSnapshot.isFresh now) := by
  cases found with
  | none => rfl
  | some snap => simp [only]

/-- An answer depends on the last reading of its process, whatever was asked in between and
forgotten, and the table has no snapshot that is over a minute old. -/
theorem answerAfter_eq (sys : Sysconf) (history : List ProcCall) (c : ProcCall)
    (h : Ordered (c :: history)) :
    answerAfter sys history c =
        (getPidStats sys (only c.pid (recent c.pid c.now history)) c).1 ∧
      ((answerAfter sys history c).isSome = true → ∀ pid,
        (snapshotsAfter sys (c :: history))[pid]? = recent pid c.now (c :: history)) := by
  obtain ⟨hlater, horder⟩ := List.pairwise_cons.mp h
  have hfound : ∀ pid,
      ((snapshotsAfter sys history)[pid]?).filter (ProcSnapshot.isFresh c.now) =
        recent pid c.now history := filter_snapshotsAfter horder hlater
  refine ⟨answer_congr ?_, fun hanswer pid => ?_⟩
  · rw [hfound, recent_of_only, recent, filter_isFresh le_rfl]
  · rw [snapshotsAfter, snapshots_of_answer hanswer]
    split
    · next htaken =>
      obtain ⟨snap, hsnap⟩ := Option.isSome_iff_exists.mp htaken.2
      rw [recent_cons_of_some htaken.1 hsnap, hsnap, Option.filter_some,
        if_pos (isFresh_of_snapshot hsnap)]
    · next hnot => rw [hfound, recent_cons_of_not hnot]

/-- An agent asks about itself. -/
def agentCall (now : ℤ) (utime : String) : ProcCall where
  pid := 7
  now := now
  statFile := some ("7 (drop_agent) S 1 7 7 0 -1 4194560 100 0 0 0 " ++ utime ++
    " 50 0 0 20 0 1 0 1000 10000000 200\n").toList
  ioFile := some "read_bytes: 4096\nwrite_bytes: 0\n".toList
  stat := { pid := 0, comm := [], state := ' ', utime := 0, stime := 0, rss := 0 }
  io := { readBytes := 0, writeBytes := 0 }

/-- Ten ticks in five seconds. -/
theorem answerAfter_eq_agent :
    answerAfter ⟨100, 4096⟩ [agentCall 0 "150"] (agentCall 5000000000 "160") =
        some { pid := 7, cpuPercent := 2, rssKb := 800 } ∧
      Ordered [agentCall 5000000000 "160", agentCall 0 "150"] := by
  have horder : Ordered [agentCall 5000000000 "160", agentCall 0 "150"] := by
    rw [Ordered]
    decide
  exact ⟨(answerAfter_eq ⟨100, 4096⟩ _ _ horder).1.trans (by decide +kernel), horder⟩

end Runs

/-! ## Ticks -/

section Ticks

variable {sys : Sysconf} {c : ProcCall} {history : List ProcCall} {pid : ℤ}
  {snap prev : ProcSnapshot}

/-- A share of a time is a number of ticks. -/
theorem calculateCPU_mul (hz : sys.clkTck ≠ 0) (h : prev.time < snap.time) :
    calculateCPU sys prev.stat snap.stat (intervalSec snap.time prev.time) / 100 *
      intervalSec snap.time prev.time * sys.clkTck = (snap.ticks - prev.ticks : ℤ) := by
  have hinterval := intervalSec_pos.mpr h
  have hclk : (sys.clkTck : ℚ) ≠ 0 := Int.cast_ne_zero.mpr hz
  rw [calculateCPU, if_neg hinterval.not_ge, ProcSnapshot.ticks, ProcSnapshot.ticks]
  field_simp
  push_cast
  ring

theorem told_of_none (h : c.snapshot? = none) (prev : Option ProcSnapshot) :
    told c.now prev (answerAfter sys history c) = 0 := by
  rw [told, answerAfter, cpuPercent_unread h, zero_div, zero_mul]

/-- A reading tells of the ticks since the one before, unless that is forgotten. -/
theorem told_of_some (hz : sys.clkTck ≠ 0) (h : Ordered (c :: history))
    (hsnap : c.snapshot? = some snap) {rest : List ProcSnapshot}
    (hprev : readings c.pid history = prev :: rest) :
    told c.now (readings c.pid history).head? (answerAfter sys history c) * sys.clkTck =
      (if prev.time < snap.time ∧ prev.isFresh snap.time then snap.ticks - prev.ticks else 0 : ℤ) := by
  obtain ⟨hlater, horder⟩ := List.pairwise_cons.mp h
  rw [told, answerAfter, cpuPercent_answer hsnap, filter_snapshotsAfter horder hlater, recent, hprev,
    List.head?_cons, ← time_of_snapshot hsnap, Option.filter_some]
  split
  · next hfresh =>
    by_cases htime : prev.time < snap.time
    · rw [if_pos ⟨htime, hfresh⟩]
      simp only [Option.map_some, Option.getD_some, if_pos htime]
      exact calculateCPU_mul hz htime
    · simp [htime]
  · next hold =>
    rw [if_neg fun h => hold h.2]
    simp

end Ticks

end MiniDrop
