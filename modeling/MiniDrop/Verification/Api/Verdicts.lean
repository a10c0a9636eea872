import Mathlib.Data.List.Chain
import Mathlib.Data.List.InsertIdx
import MiniDrop.Model.Analysis
import MiniDrop.Verification.Api.Tables

/-! # The verdict of an analysis

The processes of one task hold a lock while they work and report. The handler of a failed process
reads the status and writes it later, without the lock. -/

namespace MiniDrop

/-! ## Statement -/

/-- The history of the analysis status of `tid`, oldest row first. -/
def Database.analysisRows (db : Database) (tid : String) : List TaskStateHistory :=
  db.history.filter fun row => row.tid = tid && row.changeType = changeTypeAnalysis

def Database.analysisStatus? (db : Database) (tid : String) : Option ℤ :=
  (db.task? tid).map HotmethodTask.analysisStatus

/-- The rows follow on each other and end in `status`. -/
structure EndsIn (rows : List TaskStateHistory) (status : ℤ) : Prop where
  contiguous : rows.IsChain fun a b => a.toState = b.fromState
  last : ∀ row ∈ rows.getLast?, row.toState = status

/-- In all runs of analyses of a task whose steps satisfy `ok`, when everything has ended, the
status is the outcome of the process that held the lock last, and the history leads up to it,
unless the ORM makes the rows name the new status twice. -/
def VerdictsStand (config : AnalysisConfig)
    (ok : String → AnalysisPool → Pool.Event AnalysisRequest → Prop) : Prop :=
  ∀ tid db task, db.task? tid = some task → EndsIn (db.analysisRows tid) task.analysisStatus →
    ∀ pool : AnalysisPool,
      Transition.Reachable (analysisStep config tid) (ok tid) { store := { db } } pool →
      pool.Quiet → ∃ row, pool.store.db.task? tid = some row ∧
        (∀ outcome ∈ pool.store.finished, row.analysisStatus = outcome) ∧
        (config.assigns = false → EndsIn (pool.store.db.analysisRows tid) row.analysisStatus)

/-! ## The condition -/

/-- A status is written while it is still the one that was read. What nothing makes up for takes
place, and so does the check of a process where the task has been analysed. -/
structure DecidesSoundly (tid : String) (mark : AnalysisMark) (s : AnalysisStore) (fails : Bool) :
    Prop where
  succeeds : fails = true → mark.required = false ∧ mark.acquires = false ∧
    (mark.checks = true → s.db.analysisStatus? tid ≠ some analysisStatusSuccess)
  current : fails = false → ∀ status ∈ mark.table.decided,
    s.db.analysisStatus? tid = some status ∧ mark.late = false ∧
      (mark.doomed = true → status ≠ analysisStatusSuccess)

/-- No status is written while a handler has written its own and not yet recorded it. -/
def WaitsForRecord (marks : List (Option AnalysisMark)) (i : ℕ) (mark : AnalysisMark)
    (fails : Bool) : Prop :=
  fails = false → mark.table.decided.isSome → ∀ last ∈ marks.eraseIdx i, ∀ other ∈ last,
    other.table.overwrites = false

/-- A process that succeeds gets its report through. -/
def AnalysisRequest.Reports : AnalysisRequest → Prop
  | triggerAnalysis _ fate | runAnalysis fate =>
    fate.begins = true → fate.succeeds = true → 0 < fate.reports
  | lateReport .. => True

instance (request : AnalysisRequest) : Decidable request.Reports := by
  unfold AnalysisRequest.Reports
  split <;> infer_instance

instance (tid : String) (mark : AnalysisMark) (s : AnalysisStore) (fails : Bool) :
    Decidable (DecidesSoundly tid mark s fails) :=
  decidable_of_iff
    ((fails = true → mark.required = false ∧ mark.acquires = false ∧
        (mark.checks = true → s.db.analysisStatus? tid ≠ some analysisStatusSuccess)) ∧
      (fails = false → ∀ status ∈ mark.table.decided,
        s.db.analysisStatus? tid = some status ∧ mark.late = false ∧
          (mark.doomed = true → status ≠ analysisStatusSuccess)))
    ⟨fun h => ⟨h.1, h.2⟩, fun h => ⟨h.succeeds, h.current⟩⟩

instance (marks : List (Option AnalysisMark)) (i : ℕ) (mark : AnalysisMark) (fails : Bool) :
    Decidable (WaitsForRecord marks i mark fails) :=
  inferInstanceAs (Decidable (fails = false → _ → _))

/-- The steps of a run without stale writes. -/
abbrev SoundStep (tid : String) : AnalysisPool → Pool.Event AnalysisRequest → Prop :=
  Pool.Lawful AnalysisRequest.Reports fun marks i mark s fails =>
    DecidesSoundly tid mark s fails ∧ WaitsForRecord marks i mark fails

/-! ## Phases -/

/-- What a thread has begun and not ended. -/
inductive AnalysisPhase where
  | idle
  /-- It has written that an analysis is under way, and its process has not begun. -/
  | queued
  /-- Its process has the lock, and the answer to its check is still to come. -/
  | checking
  | working
  /-- It has reported success. -/
  | reported
  /-- It has the lock and leaves the task alone. -/
  | skipping
  /-- Its process has failed, and its handler has not looked at the status. -/
  | failing
  /-- Its handler has written the status, and not the row that leads from `status` to it. -/
  | recording (status : ℤ)
deriving DecidableEq

def AnalysisPhase.isRecording : AnalysisPhase → Bool
  | recording _ => true
  | _ => false

/-- What the threads are about: the owner of the task, the analysis status and its history, and the
lock. -/
structure Verdict where
  uid : Option String
  status : Option ℤ
  rows : List TaskStateHistory
  locked : Bool
  finished : Option ℤ

def AnalysisStore.verdict (tid : String) (s : AnalysisStore) : Verdict where
  uid := (s.db.task? tid).map HotmethodTask.uid
  status := s.db.analysisStatus? tid
  rows := s.db.analysisRows tid
  locked := s.locked
  finished := s.finished

/-- Which statuses a phase may write. -/
inductive WritesStatus : AnalysisPhase → ℤ → ℤ → AnalysisPhase → Prop where
  | queue {status : ℤ} : WritesStatus .idle status analysisStatusRunning .queued
  | queueInVain {status : ℤ} (h : status ≠ analysisStatusSuccess) :
      WritesStatus .idle status analysisStatusRunning .failing
  | begin {status : ℤ} : WritesStatus .working status analysisStatusRunning .working
  | fail {status : ℤ} : WritesStatus .working status analysisStatusFailed .working
  | succeed {status : ℤ} : WritesStatus .working status analysisStatusSuccess .reported
  | repeat {status : ℤ} : WritesStatus .reported status analysisStatusSuccess .reported

/-- One statement of a thread. -/
inductive VerdictStep (assigns : Bool) :
    AnalysisPhase → AnalysisMark → Verdict → Verdict → AnalysisPhase → Prop where
  | other {φ : AnalysisPhase} {mark : AnalysisMark} {v : Verdict} (hφ : φ.isRecording = false) :
      VerdictStep assigns φ mark v v φ
  | write {φ φ' : AnalysisPhase} {mark : AnalysisMark} {v : Verdict} {status : ℤ}
      {row : TaskStateHistory} (hwrites : WritesStatus φ status row.toState φ')
      (hstatus : v.status = some status) (hrow : assigns = false → row.fromState = status)
      (hmark : mark.table.decided.isSome) :
      VerdictStep assigns φ mark v { v with status := some row.toState, rows := v.rows ++ [row] } φ'
  | acquire {φ : AnalysisPhase} {mark : AnalysisMark} {v : Verdict}
      (hφ : φ = .idle ∨ φ = .queued) (hfree : v.locked = false) :
      VerdictStep assigns φ mark v { v with locked := true } .checking
  | check {mark : AnalysisMark} {v : Verdict} (h : v.status ≠ some analysisStatusSuccess) :
      VerdictStep assigns .checking mark v v .working
  | skip {mark : AnalysisMark} {v : Verdict} (h : v.status = some analysisStatusSuccess) :
      VerdictStep assigns .checking mark v v .skipping
  | leave {mark : AnalysisMark} {v : Verdict} :
      VerdictStep assigns .skipping mark v { v with locked := false } .idle
  | finish {mark : AnalysisMark} {v : Verdict} :
      VerdictStep assigns .reported mark v
        { v with locked := false, finished := some analysisStatusSuccess } .idle
  | giveUp {mark : AnalysisMark} {v : Verdict} :
      VerdictStep assigns .working mark v
        { v with locked := false, finished := some analysisStatusFailed } .failing
  | settle {mark : AnalysisMark} {v : Verdict}
      (h : v.status = some analysisStatusSuccess ∨ v.status = some analysisStatusFailed) :
      VerdictStep assigns .failing mark v v .idle
  | overwrite {φ : AnalysisPhase} {mark : AnalysisMark} {v : Verdict} {status : ℤ}
      (hφ : φ = .idle ∨ φ = .failing) (hstatus : v.status = some status)
      (hopen : status ≠ analysisStatusSuccess ∧ status ≠ analysisStatusFailed)
      (hmark : mark.table.decided.isSome ∧ mark.table.overwrites = true) :
      VerdictStep assigns φ mark v { v with status := some analysisStatusFailed }
        (.recording status)
  | record {mark : AnalysisMark} {v : Verdict} {status : ℤ} {row : TaskStateHistory}
      (hrow : row.fromState = status ∧ row.toState = analysisStatusFailed) :
      VerdictStep assigns (.recording status) mark v { v with rows := v.rows ++ [row] } .idle

/-! ## All threads -/

abbrev AnalysisSlots := List (Pool.Slot AnalysisMark AnalysisPhase)

/-- The status, the outcome and the lock, for as many threads in each phase. -/
structure Balanced (count : AnalysisPhase → ℕ) (v : Verdict) : Prop where
  outcomes : ∀ outcome, v.finished = some outcome →
    outcome = analysisStatusSuccess ∨ outcome = analysisStatusFailed
  settled : (∀ outcome, v.finished = some outcome → v.status = some outcome) ∨
    0 < count .queued + count .checking + count .working + count .reported ∨
    v.finished = some analysisStatusFailed ∧ 0 < count .failing
  succeeded : v.status = some analysisStatusSuccess → v.finished = some analysisStatusFailed →
    0 < count .reported
  working : v.status = some analysisStatusSuccess → count .working = 0
  reported : v.status = some analysisStatusSuccess ∨ count .reported = 0 ∨ 0 < count .queued
  lock : count .checking + count .working + count .reported + count .skipping = v.locked.toNat

/-- One thread goes from a phase to another. -/
structure PhaseMove (φ φ' : AnalysisPhase) (count count' : AnalysisPhase → ℕ) : Prop where
  leaves : 0 < count φ
  counts : ∀ ψ, count' ψ + (if φ = ψ then 1 else 0) = count ψ + if φ' = ψ then 1 else 0

section Balanced

variable {assigns : Bool} {count count' : AnalysisPhase → ℕ} {v w : Verdict}
  {φ φ' : AnalysisPhase} {mark : AnalysisMark}

/-- What one statement does to the counts is made up for in the status, the outcome and the
lock. -/
theorem Balanced.step (h : Balanced count v) (hmoves : PhaseMove φ φ' count count')
    (hstep : VerdictStep assigns φ mark v w φ') : Balanced count' w := by
  obtain ⟨houtcomes, hsettled, hsucceeded, hworking, hreported, hlock⟩ := h
  obtain ⟨hpos, hcounts⟩ := hmoves
  have hq := hcounts .queued
  have hc := hcounts .checking
  have hw := hcounts .working
  have hr := hcounts .reported
  have hs := hcounts .skipping
  have hf := hcounts .failing
  clear hcounts
  have hone : v.locked.toNat ≤ 1 := Bool.toNat_le v.locked
  cases hstep with
  | @write _ _ _ _ _ row hwrites hstatus =>
      generalize row.toState = after at hwrites ⊢
      cases hwrites <;> simp at hq hc hw hr hs hf <;> constructor <;>
        grind [analysisStatusSuccess, analysisStatusFailed, analysisStatusRunning]
  | acquire hφ =>
      rcases hφ with rfl | rfl <;> simp at hq hc hw hr hs hf <;> constructor <;>
        grind [analysisStatusSuccess, analysisStatusFailed]
  | overwrite hφ hstatus hopen =>
      rcases hφ with rfl | rfl <;> simp at hq hc hw hr hs hf <;> constructor <;>
        grind [analysisStatusSuccess, analysisStatusFailed]
  | _ =>
      simp at hq hc hw hr hs hf
      constructor <;> grind [analysisStatusSuccess, analysisStatusFailed]

end Balanced

/-- The history leads up to the status, or up to the one that a handler is to record. -/
structure Recorded (assigns : Bool) (slots : AnalysisSlots) (v : Verdict) : Prop where
  once : Pool.tally AnalysisPhase.isRecording slots ≤ 1
  recording : ∀ slot ∈ slots, ∀ status, slot.1 = .recording status →
    v.status = some analysisStatusFailed ∧ (assigns = false → EndsIn v.rows status) ∧
      ∃ mark, slot.2 = some mark ∧ mark.table.overwrites = true
  recorded : Pool.tally AnalysisPhase.isRecording slots = 0 → assigns = false →
    ∀ status, v.status = some status → EndsIn v.rows status

theorem EndsIn.append {rows : List TaskStateHistory} {row : TaskStateHistory}
    (h : EndsIn rows row.fromState) : EndsIn (rows ++ [row]) row.toState := by
  refine ⟨List.isChain_append.mpr ⟨h.contiguous, by simp, ?_⟩, by simp⟩
  intro last hlast next hnext
  obtain rfl : row = next := by simpa using hnext
  exact h.last last hlast

section Recorded

variable {assigns : Bool} {slots : AnalysisSlots} {v w : Verdict} {i : ℕ}
  {φ φ' : AnalysisPhase} {last last' : Option AnalysisMark} {mark : AnalysisMark}

theorem tally_isRecording_pos {slot : Pool.Slot AnalysisMark AnalysisPhase} (hmem : slot ∈ slots)
    {status : ℤ} (hphase : slot.1 = .recording status) :
    0 < Pool.tally AnalysisPhase.isRecording slots :=
  Pool.tally_pos.mpr ⟨slot, hmem, by rw [hphase]; rfl⟩

/-- No handler owes a row while another thread writes. -/
theorem Recorded.none (h : Recorded assigns slots v) (hslot : slots[i]? = some (φ, last))
    (hφ : φ.isRecording = false)
    (hwaits : ∀ last ∈ (slots.map Prod.snd).eraseIdx i, ∀ other ∈ last,
      other.table.overwrites = false) : Pool.tally AnalysisPhase.isRecording slots = 0 := by
  by_contra hne
  obtain ⟨slot, hmem, hphase⟩ := Pool.tally_pos.mp (Nat.pos_of_ne_zero hne)
  rcases List.mem_cases hslot hmem with rfl | hother
  · rw [hφ] at hphase
    cases hphase
  · cases hstatus : slot.1 with
    | recording status =>
        obtain ⟨-, -, mark, hlast, hmark⟩ := h.recording slot hmem status hstatus
        have hmoved : slot.2 ∈ (slots.map Prod.snd).eraseIdx i := by
          rw [List.eraseIdx_map]
          exact List.mem_map_of_mem hother
        have hnot := hwaits slot.2 hmoved mark hlast
        rw [hmark] at hnot
        cases hnot
    | _ =>
        rw [hstatus] at hphase
        cases hphase

/-- A thread moves that owes no row, before or after. -/
theorem Recorded.frame (h : Recorded assigns slots v) (hslot : slots[i]? = some (φ, last))
    (hφ : φ.isRecording = false) (hφ' : φ'.isRecording = false) (hstatus : w.status = v.status)
    (hrows : w.rows = v.rows) : Recorded assigns (slots.set i (φ', last')) w := by
  have hcount : Pool.tally AnalysisPhase.isRecording (slots.set i (φ', last')) + _ = _ :=
    Pool.tally_set hslot
  rw [hφ, hφ', Nat.add_right_cancel_iff] at hcount
  obtain ⟨honce, hrecording, hrecorded⟩ := h
  refine ⟨hcount ▸ honce, ?_, by rw [hcount, hstatus, hrows]; exact hrecorded⟩
  intro slot hmem status hphase
  rw [hstatus, hrows]
  rcases List.mem_set_cases hmem with rfl | hmem
  · dsimp only at hphase
    rw [hphase] at hφ'
    cases hφ'
  · exact hrecording slot (List.mem_of_mem_eraseIdx hmem) status hphase

/-- A thread writes the status and the row for it in one statement. -/
theorem Recorded.write (hnone : Pool.tally AnalysisPhase.isRecording slots = 0)
    (hslot : slots[i]? = some (φ, last)) (hφ : φ.isRecording = false)
    (hφ' : φ'.isRecording = false) {row : TaskStateHistory}
    (hend : assigns = false → EndsIn v.rows row.fromState) :
    Recorded assigns (slots.set i (φ', last'))
      { v with status := some row.toState, rows := v.rows ++ [row] } := by
  have hcount : Pool.tally AnalysisPhase.isRecording (slots.set i (φ', last')) + _ = _ :=
    Pool.tally_set hslot
  rw [hφ, hφ', Nat.add_right_cancel_iff, hnone] at hcount
  refine ⟨hcount ▸ Nat.zero_le 1, ?_, ?_⟩
  · intro slot hmem status hphase
    have hpos := tally_isRecording_pos hmem hphase
    omega
  · intro _ hassigns status hstatus
    obtain rfl := Option.some.inj hstatus
    exact (hend hassigns).append

/-- A handler writes the status alone. -/
theorem Recorded.overwrite (hnone : Pool.tally AnalysisPhase.isRecording slots = 0)
    (hslot : slots[i]? = some (φ, last)) (hφ : φ.isRecording = false) {status : ℤ}
    (hmark : mark.table.overwrites = true) (hend : assigns = false → EndsIn v.rows status) :
    Recorded assigns (slots.set i (.recording status, some mark))
      { v with status := some analysisStatusFailed } := by
  have hcount : Pool.tally AnalysisPhase.isRecording
      (slots.set i (.recording status, some mark)) + _ = _ := Pool.tally_set hslot
  rw [hφ, hnone] at hcount
  simp only [AnalysisPhase.isRecording, Bool.toNat_false, Bool.toNat_true] at hcount
  refine ⟨by omega, ?_, fun hzero => by omega⟩
  intro slot hmem before hphase
  rcases List.mem_set_cases hmem with rfl | hmem
  · obtain rfl : status = before := by simpa using hphase
    exact ⟨rfl, hend, mark, rfl, hmark⟩
  · have hpos := tally_isRecording_pos (List.mem_of_mem_eraseIdx hmem) hphase
    omega

/-- It records what it has written. -/
theorem Recorded.record {status : ℤ} (h : Recorded assigns slots v)
    (hslot : slots[i]? = some (.recording status, last)) {row : TaskStateHistory}
    (hrow : row.fromState = status ∧ row.toState = analysisStatusFailed) :
    Recorded assigns (slots.set i (.idle, last')) { v with rows := v.rows ++ [row] } := by
  have hcount : Pool.tally AnalysisPhase.isRecording (slots.set i (.idle, last')) + _ = _ :=
    Pool.tally_set hslot
  simp only [AnalysisPhase.isRecording, Bool.toNat_false, Bool.toNat_true] at hcount
  have honce := h.once
  obtain ⟨hstatus, hend, -⟩ := h.recording _ (List.mem_of_getElem? hslot) status rfl
  refine ⟨by omega, ?_, ?_⟩
  · intro slot hmem before hphase
    have hpos := tally_isRecording_pos hmem hphase
    omega
  · intro _ hassigns after hafter
    obtain rfl : analysisStatusFailed = after := Option.some.inj (hstatus.symm.trans hafter)
    rw [← hrow.2]
    exact EndsIn.append (hrow.1 ▸ hend hassigns)

end Recorded

/-- The owner, the status, its history, the outcome and the lock fit the threads. -/
structure VerdictFits (assigns : Bool) (uid : String) (slots : AnalysisSlots) (v : Verdict) :
    Prop where
  user : v.uid = some uid
  known : v.status.isSome
  balanced : Balanced (fun φ => Pool.tally (fun ψ => decide (ψ = φ)) slots) v
  recorded : Recorded assigns slots v

section VerdictFits

variable {assigns : Bool} {uid : String} {slots : AnalysisSlots} {v w : Verdict} {i : ℕ}
  {φ φ' : AnalysisPhase} {last last' : Option AnalysisMark} {mark : AnalysisMark}

theorem moves_set (hslot : slots[i]? = some (φ, last)) :
    PhaseMove φ φ' (fun ψ => Pool.tally (fun χ => decide (χ = ψ)) slots)
      fun ψ => Pool.tally (fun χ => decide (χ = ψ)) (slots.set i (φ', last')) := by
  constructor
  · exact Pool.tally_pos.mpr ⟨_, List.mem_of_getElem? hslot, by simp⟩
  · intro ψ
    have hset : Pool.tally (fun χ => decide (χ = ψ)) (slots.set i (φ', last')) + _ = _ :=
      Pool.tally_set hslot
    have htoNat : ∀ χ : AnalysisPhase, (decide (χ = ψ)).toNat = if χ = ψ then 1 else 0 :=
      fun χ => Bool.cond_decide _ 1 0
    rwa [htoNat, htoNat] at hset

/-- One statement of one thread. -/
theorem VerdictFits.step (h : VerdictFits assigns uid slots v)
    (hslot : slots[i]? = some (φ, last))
    (hwaits : w ≠ v → mark.table.decided.isSome → ∀ last ∈ (slots.map Prod.snd).eraseIdx i,
      ∀ other ∈ last, other.table.overwrites = false)
    (hstep : VerdictStep assigns φ mark v w φ')
    (hlast : last' = some mark ∨ last' = none ∧ φ' = .idle) :
    VerdictFits assigns uid (slots.set i (φ', last')) w := by
  obtain ⟨huser, hknown, hbalanced, hrecorded⟩ := h
  have hmoves : PhaseMove φ φ' _ fun ψ =>
      Pool.tally (fun χ => decide (χ = ψ)) (slots.set i (φ', last')) := moves_set hslot
  have hbalanced' := hbalanced.step hmoves hstep
  cases hstep with
  | other hφ => exact ⟨huser, hknown, hbalanced', hrecorded.frame hslot hφ hφ rfl rfl⟩
  | @write _ _ _ _ status row hwrites hstatus hrow hmark =>
      have hphases : φ.isRecording = false ∧ φ'.isRecording = false := by
        generalize row.toState = after at hwrites
        cases hwrites <;> exact ⟨rfl, rfl⟩
      have hchanged : { v with status := some row.toState, rows := v.rows ++ [row] } ≠ v := by
        intro heq
        simpa using congrArg (fun v => v.rows.length) heq
      have hnone := hrecorded.none hslot hphases.1 (hwaits hchanged hmark)
      refine ⟨huser, rfl, hbalanced', .write hnone hslot hphases.1 hphases.2 fun hassigns => ?_⟩
      rw [hrow hassigns]
      exact hrecorded.recorded hnone hassigns status hstatus
  | acquire hφ =>
      have hphase : φ.isRecording = false := by
        rcases hφ with rfl | rfl <;> rfl
      exact ⟨huser, hknown, hbalanced', hrecorded.frame hslot hphase rfl rfl rfl⟩
  | @overwrite _ _ _ status hφ hstatus hopen hmark =>
      have hphase : φ.isRecording = false := by
        rcases hφ with rfl | rfl <;> rfl
      have hchanged : { v with status := some analysisStatusFailed } ≠ v := by
        intro heq
        have hsame : some analysisStatusFailed = v.status := congrArg Verdict.status heq
        exact hopen.2 (Option.some.inj (hstatus.symm.trans hsame.symm))
      have hnone := hrecorded.none hslot hphase (hwaits hchanged hmark.1)
      rcases hlast with rfl | ⟨-, hidle⟩
      · exact ⟨huser, rfl, hbalanced', .overwrite hnone hslot hphase hmark.2
          fun hassigns => hrecorded.recorded hnone hassigns status hstatus⟩
      · cases hidle
  | record hrow => exact ⟨huser, hknown, hbalanced', hrecorded.record hslot hrow⟩
  | _ => exact ⟨huser, hknown, hbalanced', hrecorded.frame hslot rfl rfl rfl rfl⟩

/-- A thread that has done nothing yet joins. -/
theorem VerdictFits.start (h : VerdictFits assigns uid slots v) :
    VerdictFits assigns uid (slots ++ [(.idle, none)]) v := by
  obtain ⟨huser, hknown, hbalanced, honce, hrecording, hrecorded⟩ := h
  have hcount : ∀ ψ : AnalysisPhase, ψ ≠ .idle →
      Pool.tally (fun χ => decide (χ = ψ)) (slots ++ [(.idle, none)]) =
        Pool.tally (fun χ => decide (χ = ψ)) slots := by
    intro ψ hψ
    simp [Ne.symm hψ]
  have hnone : Pool.tally AnalysisPhase.isRecording (slots ++ [(.idle, none)]) =
      Pool.tally AnalysisPhase.isRecording slots := by
    simp [AnalysisPhase.isRecording]
  refine ⟨huser, hknown, ?_, hnone ▸ honce, ?_, hnone ▸ hrecorded⟩
  · obtain ⟨houtcomes, hsettled, hsucceeded, hworking, hreported, hlock⟩ := hbalanced
    constructor <;> simpa only [ne_eq, reduceCtorEq, not_false_eq_true, hcount]
  · intro slot hmem status hphase
    rcases List.mem_append.mp hmem with hmem | hmem
    · exact hrecording slot hmem status hphase
    · rw [List.mem_singleton.mp hmem] at hphase
      cases hphase

end VerdictFits

/-! ## Statements of the server -/

/-- A thread knows the owner of the task, and that nobody reports success while its process
works. -/
def verdictLaw (assigns : Bool) (uid tid : String) :
    Program.Law AnalysisMark AnalysisStore AnalysisPhase where
  knows φ s := (s.verdict tid).uid = some uid ∧
    (φ = .working → (s.verdict tid).status ≠ some analysisStatusSuccess)
  may mark s fails := DecidesSoundly tid mark s fails ∧ mark.Enabled s fails
  allows φ mark s t φ' := VerdictStep assigns φ mark (s.verdict tid) (t.verdict tid) φ'

/-- What a verdict has of the database. -/
def Database.verdictPart (tid : String) (db : Database) :
    Option String × Option ℤ × List TaskStateHistory :=
  ((db.task? tid).map HotmethodTask.uid, db.analysisStatus? tid, db.analysisRows tid)

theorem verdict_with {tid : String} {s : AnalysisStore} {db : Database}
    (h : db.verdictPart tid = s.db.verdictPart tid) :
    ({ s with db } : AnalysisStore).verdict tid = s.verdict tid := by
  simp only [Database.verdictPart, Prod.mk.injEq] at h
  simp only [AnalysisStore.verdict, h.1, h.2.1, h.2.2]

section Server

variable {assigns : Bool} {uid tid : String} {φ φ' : AnalysisPhase} {mark : AnalysisMark}
  {α β : Type}

theorem onServer_bind (p : Statements α) (k : α → Statements β) :
    onServer mark (p >>= k) = onServer mark p >>= fun a => onServer mark (k a) :=
  Program.lift_bind _ _ _ p k

/-- Statements that leave the status and its history alone. -/
theorem abides_preserves (hφ : φ.isRecording = false) {p : Statements α}
    (h : p.Preserves (Database.verdictPart tid)) :
    (onServer mark p).Abides (verdictLaw assigns uid tid) (fun ψ _ => ψ = φ) φ := by
  induction p with
  | done result => rfl
  | stmt table act next failed ihnext ihfailed =>
      intro s _
      refine ⟨fun _ => ⟨φ, ?_, ihnext s.db (h.2.1 s.db)⟩, fun _ => ⟨φ, .other hφ, ihfailed h.2.2⟩⟩
      show VerdictStep assigns φ _ _ (AnalysisStore.verdict tid { s with db := act s.db }) φ
      rw [verdict_with (h.1 s.db)]
      exact .other hφ

/-- A query for the task. The status that it finds may take the thread to another phase, and so
may its failure. -/
theorem abides_firstTask {holds : Bool} {ψ : ℤ → AnalysisPhase} {χ : AnalysisPhase}
    (hread : ∀ m v status, v.status = some status → VerdictStep assigns φ m v v (ψ status))
    (hfail : mark.required = false → ∀ m v,
      (mark.checks = true → v.status ≠ some analysisStatusSuccess) →
        VerdictStep assigns φ m v v χ) :
    (onServer mark (firstTask tid holds)).Abides (verdictLaw assigns uid tid)
      (fun φ' found => (∃ task, found = .ok task ∧ task.uid = uid ∧
          φ' = ψ task.analysisStatus ∧
          (φ = .working → task.analysisStatus ≠ analysisStatusSuccess)) ∨
        (∃ error, found = .error error) ∧ mark.required = false ∧ φ' = χ) φ := by
  rintro s ⟨huser, hworking⟩
  constructor
  · intro _
    obtain ⟨task, htask, hname⟩ := Option.map_eq_some_iff.mp huser
    have hstatus : (s.verdict tid).status = some task.analysisStatus := by
      simp [AnalysisStore.verdict, Database.analysisStatus?, htask]
    refine ⟨ψ task.analysisStatus, hread _ _ _ hstatus, ?_⟩
    dsimp only [id_eq]
    rw [htask]
    refine .inl ⟨task, rfl, hname, rfl, fun hφ hsuccess => hworking hφ ?_⟩
    rw [hstatus, hsuccess]
  · rintro ⟨hsound, -⟩
    obtain ⟨hrequired, -, hchecks⟩ := hsound.succeeds rfl
    exact ⟨χ, hfail hrequired _ _ hchecks, .inr ⟨⟨_, rfl⟩, hrequired, rfl⟩⟩

/-- The verdict after an analysis status has been written. -/
theorem verdict_updateTask {s : AnalysisStore} {status : ℤ} {statusInfo : String}
    (hknown : (s.verdict tid).uid.isSome) :
    ({ s with db := s.db.updateTask tid fun row =>
        { row with analysisStatus := status, statusInfo } } : AnalysisStore).verdict tid =
      { s.verdict tid with status := some status } := by
  obtain ⟨row, hrow⟩ := Option.isSome_iff_exists.mp (Option.isSome_map ▸ hknown)
  have hfound := s.db.task?_updateTask tid
    (fun row => { row with analysisStatus := status, statusInfo }) (fun _ => rfl) tid
  rw [if_pos rfl, hrow, Option.map_some] at hfound
  simp [AnalysisStore.verdict, Database.analysisStatus?, Database.analysisRows, hfound, hrow]

theorem verdict_addHistory {s : AnalysisStore} {db : Database} {fromState toState : ℤ}
    {reason : String} :
    ({ s with db := db.addHistory ⟨tid, fromState, toState, reason, changeTypeAnalysis⟩ } :
      AnalysisStore).verdict tid =
      { ({ s with db } : AnalysisStore).verdict tid with
        rows := (({ s with db } : AnalysisStore).verdict tid).rows ++
          [⟨tid, fromState, toState, reason, changeTypeAnalysis⟩] } := by
  simp [AnalysisStore.verdict, Database.analysisStatus?, Database.analysisRows, Database.addHistory,
    Database.task?]

/-- The transaction that writes a status and its row. -/
theorem abides_writeStatus (hφ : φ.isRecording = false) {task : HotmethodTask} {toState : ℤ}
    {reason statusInfo : String}
    (hwrites : mark.late = false →
      (mark.doomed = true → task.analysisStatus ≠ analysisStatusSuccess) →
        WritesStatus φ task.analysisStatus toState φ') :
    (onServer mark (Program.update { tid, decided := some task.analysisStatus } fun db =>
        some ((db.updateTask tid fun row =>
          { row with analysisStatus := toState, statusInfo }).addHistory
            { tid, fromState := if assigns then toState else task.analysisStatus, toState, reason,
              changeType := changeTypeAnalysis }))).Abides (verdictLaw assigns uid tid)
      (fun ψ _ => ψ = φ' ∨ mark.required = false ∧ ψ = φ) φ := by
  rintro s ⟨huser, -⟩
  constructor
  · rintro ⟨hsound, -⟩
    obtain ⟨hstatus, hlate, hdoomed⟩ := hsound.current rfl task.analysisStatus rfl
    have hknown : (s.verdict tid).uid.isSome := by rw [huser]; rfl
    refine ⟨φ', ?_, .inl rfl⟩
    show VerdictStep assigns φ _ _ (AnalysisStore.verdict tid { s with
      db := (s.db.updateTask tid _).addHistory _ }) φ'
    rw [verdict_addHistory, verdict_updateTask hknown]
    exact @VerdictStep.write assigns φ φ' _ (s.verdict tid) task.analysisStatus
      ⟨tid, if assigns then toState else task.analysisStatus, toState, reason, changeTypeAnalysis⟩
      (hwrites hlate hdoomed) hstatus (fun hassigns => if_neg (by simp [hassigns])) rfl
  · rintro ⟨hsound, -⟩
    exact ⟨φ, .other hφ, .inr ⟨(hsound.succeeds rfl).1, rfl⟩⟩

/-- The text alone is updated. -/
theorem preserves_updateAnalysisStatusInfo {t reason : String} :
    (updateAnalysisStatusInfo t reason).Preserves (Database.verdictPart tid) := by
  unfold updateAnalysisStatusInfo
  split
  · exact .pure _
  apply (preserves_firstTask t false).bind
  rintro (_ | task)
  · exact .pure _
  refine Program.Preserves.bind (Program.preserves_update ?_) fun _ => .pure _
  intro db db' hs
  obtain rfl := Option.some.inj hs
  have hfound := db.task?_updateTask t
    (fun row => { row with statusInfo := mergeStatusInfo task.statusInfo reason })
    (fun _ => rfl) tid
  simp only [Database.verdictPart, Database.analysisStatus?, Database.analysisRows,
    Database.updateTask_history, hfound]
  split <;> simp [Function.comp_def]

/-- The status becomes `toState`, and the thread goes to the phase for that. It stays where it was
where the status is that already, or where a statement fails. -/
theorem abides_transitionAnalysisStatus {χ : AnalysisPhase} (hφ : φ.isRecording = false)
    (hχ : χ.isRecording = false) {toState : ℤ} {reason : String}
    (hwrites : ∀ status, mark.late = false →
      (mark.doomed = true → status ≠ analysisStatusSuccess) → WritesStatus φ status toState χ) :
    (onServer mark (transitionAnalysisStatus assigns tid toState reason)).Abides
      (verdictLaw assigns uid tid)
      (fun ψ _ => ψ = χ ∨ ψ = φ ∧
        (mark.required = true → φ = .working → toState ≠ analysisStatusSuccess)) φ := by
  unfold transitionAnalysisStatus
  rw [onServer_bind]
  refine Program.Abides.bind (abides_firstTask (ψ := fun _ => φ) (χ := φ)
    (fun _ _ _ _ => .other hφ) fun _ _ _ _ => .other hφ) ?_
  rintro ψ found (⟨task, rfl, -, rfl, hworking⟩ | ⟨⟨error, rfl⟩, hrequired, rfl⟩)
  · dsimp only
    by_cases hsame : task.analysisStatus = toState
    · rw [if_pos hsame]
      have hstays : mark.required = true → ψ = .working → toState ≠ analysisStatusSuccess :=
        fun _ hφ => hsame ▸ hworking hφ
      split
      · exact (abides_preserves hφ preserves_updateAnalysisStatusInfo).mono
          fun _ _ h => .inr ⟨h, hstays⟩
      · exact .inr ⟨rfl, hstays⟩
    · rw [if_neg hsame, onServer_bind]
      refine Program.Abides.bind (abides_writeStatus hφ (hwrites task.analysisStatus)) ?_
      rintro φ' _ (rfl | ⟨hrequired, rfl⟩)
      · exact .inl rfl
      · exact .inr ⟨rfl, fun htrue => by simp [hrequired] at htrue⟩
  · exact .inr ⟨rfl, fun htrue => by simp [hrequired] at htrue⟩

/-- The owner of the task may access it. -/
theorem abides_checkTaskAccess (hφ : φ.isRecording = false) {holds : Bool} :
    (onServer mark (checkTaskAccess uid tid holds)).Abides (verdictLaw assigns uid tid)
      (fun ψ found => ψ = φ ∧ (found = none → mark.required = false)) φ := by
  unfold checkTaskAccess
  rw [onServer_bind]
  refine Program.Abides.bind (abides_firstTask (ψ := fun _ => φ) (χ := φ)
    (fun _ _ _ _ => .other hφ) fun _ _ _ _ => .other hφ) ?_
  rintro ψ found (⟨task, rfl, huid, rfl, -⟩ | ⟨⟨error, rfl⟩, hrequired, rfl⟩)
  · dsimp only
    rw [mayAccess, if_pos huid]
    exact ⟨rfl, fun h => by cases h⟩
  · exact ⟨rfl, fun _ => hrequired⟩

theorem abides_updateAnalysisStatus {χ : AnalysisPhase} (hφ : φ.isRecording = false)
    (hχ : χ.isRecording = false) {toState : ℤ} {statusInfo : String}
    (hwrites : ∀ status, mark.late = false →
      (mark.doomed = true → status ≠ analysisStatusSuccess) → WritesStatus φ status toState χ) :
    (onServer mark (updateAnalysisStatus assigns uid tid toState statusInfo)).Abides
      (verdictLaw assigns uid tid)
      (fun ψ _ => ψ = χ ∨ ψ = φ ∧
        (mark.required = true → φ = .working → toState ≠ analysisStatusSuccess)) φ := by
  unfold updateAnalysisStatus
  rw [onServer_bind]
  refine Program.Abides.bind (abides_checkTaskAccess hφ) ?_
  rintro ψ (_ | task) ⟨rfl, hfound⟩
  · exact .inr ⟨rfl, fun htrue => by simp [hfound rfl] at htrue⟩
  dsimp only
  rw [onServer_bind]
  refine Program.Abides.bind (abides_firstTask (ψ := fun _ => ψ) (χ := ψ)
    (fun _ _ _ _ => .other hφ) fun _ _ _ _ => .other hφ) ?_
  rintro φ' found (⟨task, rfl, -, rfl, -⟩ | ⟨⟨error, rfl⟩, hrequired, rfl⟩)
  · dsimp only
    rw [onServer_bind]
    exact (abides_transitionAnalysisStatus hφ hχ hwrites).bind fun _ _ h => h
  · exact .inr ⟨rfl, fun htrue => by simp [hrequired] at htrue⟩

/-- The handler of a failed process ends with a status that is settled. -/
theorem abides_runAnalysis (hmark : mark.required = true) (hφ : φ = .idle ∨ φ = .failing)
    {failure : String × String} :
    (onServer mark (runAnalysis tid (some failure))).Abides (verdictLaw assigns uid tid)
      (fun ψ _ => ψ = .idle) φ := by
  have hphase : φ.isRecording = false := by
    rcases hφ with rfl | rfl <;> rfl
  unfold runAnalysis
  dsimp only
  rw [onServer_bind]
  refine Program.Abides.bind (abides_firstTask
    (ψ := fun status => if status = analysisStatusSuccess ∨ status = analysisStatusFailed then
      .idle else φ) (χ := φ) ?_ ?_) ?_
  · intro m v status hstatus
    by_cases hsettled : status = analysisStatusSuccess ∨ status = analysisStatusFailed
    · rw [if_pos hsettled]
      rcases hφ with rfl | rfl
      · exact .other rfl
      · refine .settle (hsettled.imp ?_ ?_) <;> exact fun h => hstatus.trans (congrArg some h)
    · rw [if_neg hsettled]
      exact .other hphase
  · intro hrequired
    rw [hmark] at hrequired
    cases hrequired
  rintro ψ found (⟨task, rfl, -, rfl, -⟩ | ⟨-, hrequired, -⟩)
  · dsimp only
    by_cases hopen : task.analysisStatus ≠ analysisStatusSuccess ∧
        task.analysisStatus ≠ analysisStatusFailed
    · rw [if_pos hopen, if_neg (not_or.mpr hopen), onServer_bind]
      refine Program.Abides.bind (Q := fun ψ _ => ψ = .recording task.analysisStatus) ?_ ?_
      · rintro s ⟨huser, -⟩
        refine ⟨?_, fun ⟨hsound, _⟩ => ?_⟩
        · rintro ⟨hsound, -⟩
          have hstatus := (hsound.current rfl task.analysisStatus rfl).1
          have hknown : (s.verdict tid).uid.isSome := by rw [huser]; rfl
          refine ⟨.recording task.analysisStatus, ?_, rfl⟩
          show VerdictStep assigns φ _ _ (AnalysisStore.verdict tid { s with
            db := s.db.updateTask tid _ }) _
          rw [verdict_updateTask hknown]
          exact .overwrite hφ hstatus hopen ⟨rfl, rfl⟩
        · have hrequired := (hsound.succeeds rfl).1
          simp [hmark] at hrequired
      · rintro _ _ rfl
        rw [recordStateChange, onServer_bind]
        refine Program.Abides.bind (Q := fun ψ _ => ψ = .idle) ?_ ?_
        swap
        · rintro _ _ rfl
          exact (rfl : AnalysisPhase.idle = .idle)
        rintro s ⟨huser, -⟩
        refine ⟨fun _ => ⟨.idle, ?_, rfl⟩, fun ⟨hsound, _⟩ => ?_⟩
        · show VerdictStep assigns _ _ _ (AnalysisStore.verdict tid { s with
            db := s.db.addHistory ⟨tid, _, _, _, changeTypeAnalysis⟩ }) _
          rw [verdict_addHistory]
          exact .record ⟨rfl, rfl⟩
        · have hrequired := (hsound.succeeds rfl).1
          simp [hmark] at hrequired
    · have hsettled : task.analysisStatus = analysisStatusSuccess ∨
          task.analysisStatus = analysisStatusFailed := by
        rw [not_and_or] at hopen
        exact hopen.imp not_not.mp not_not.mp
      rw [if_neg hopen, if_pos hsettled]
      exact rfl
  · rw [hmark] at hrequired
    cases hrequired

end Server

/-! ## Processes -/

section Process

variable {config : AnalysisConfig} {uid tid : String} {φ : AnalysisPhase} {mark : AnalysisMark}

/-- Reports with which a phase stays as it is. -/
theorem abides_reportStatus (hφ : φ.isRecording = false) {status : ℤ} {statusInfo : String}
    (hwrites : ∀ before, mark.late = false → WritesStatus φ before status φ) (arrivals : ℕ) :
    (reportStatus config mark uid tid status statusInfo arrivals).Abides
      (verdictLaw config.assigns uid tid) (fun ψ _ => ψ = φ) φ := by
  induction arrivals with
  | zero => exact rfl
  | succ arrivals ih =>
      refine Program.Abides.bind (abides_updateAnalysisStatus hφ hφ
        fun before hlate _ => hwrites before hlate) ?_
      rintro ψ _ (rfl | ⟨rfl, -⟩) <;> exact ih

/-- After its reports of success, at least one, a process has reported. -/
theorem abides_reportSuccess (hmark : mark.required = true) {statusInfo : String} {arrivals : ℕ}
    (harrivals : 0 < arrivals) :
    (reportStatus config mark uid tid analysisStatusSuccess statusInfo arrivals).Abides
      (verdictLaw config.assigns uid tid) (fun ψ _ => ψ = .reported) .working := by
  obtain ⟨arrivals, rfl⟩ := Nat.exists_eq_succ_of_ne_zero harrivals.ne'
  refine Program.Abides.bind (abides_updateAnalysisStatus rfl rfl fun _ _ _ => .succeed) ?_
  rintro ψ _ (rfl | ⟨rfl, hnot⟩)
  · exact abides_reportStatus rfl (fun _ _ => .repeat) arrivals
  · exact absurd rfl (hnot hmark rfl)

/-- A process that gets no answer, or one that shows an open analysis, works on. -/
theorem abides_getTaskDetail {ψ : ℤ → AnalysisPhase} {χ : AnalysisPhase}
    (hψ : ∀ status, (ψ status).isRecording = false)
    (hread : ∀ m v status, v.status = some status →
      VerdictStep config.assigns φ m v v (ψ status))
    (hfail : mark.required = false → ∀ m v,
      (mark.checks = true → v.status ≠ some analysisStatusSuccess) →
        VerdictStep config.assigns φ m v v χ) :
    (onServer mark (getTaskDetail config.store config.presign uid tid)).Abides
      (verdictLaw config.assigns uid tid)
      (fun φ' answer => (∃ detail, answer = .ok detail ∧ φ' = ψ detail.task.analysisStatus ∧
          (φ = .working → detail.task.analysisStatus ≠ analysisStatusSuccess)) ∨
        (∃ refusal, answer = .error refusal) ∧ φ' = χ) φ := by
  unfold getTaskDetail
  rw [onServer_bind]
  refine Program.Abides.bind (abides_firstTask hread hfail) ?_
  rintro φ' found (⟨task, rfl, huid, rfl, hworking⟩ | ⟨⟨error, rfl⟩, -, rfl⟩)
  · dsimp only
    rw [mayAccess, if_pos huid]
    simp only [Program.pure_bind, Bool.not_true, Bool.false_eq_true, if_false]
    rw [onServer_bind]
    refine Program.Abides.bind (abides_preserves (hψ _) (Program.preserves_query _ _)) ?_
    rintro _ history rfl
    exact .inl ⟨_, rfl, rfl, hworking⟩
  · cases error with
    | recordNotFound => exact .inr ⟨⟨_, rfl⟩, rfl⟩
    | failure => exact .inr ⟨⟨_, rfl⟩, rfl⟩

/-- While a process works its requests find no success. -/
theorem abides_requestTask_working (attempts : ℕ) :
    (requestTask config uid tid attempts).Abides (verdictLaw config.assigns uid tid)
      (fun φ' found => φ' = .working ∧
        ∀ task, found = some task → task.analysisStatus ≠ analysisStatusSuccess) .working := by
  induction attempts with
  | zero => exact ⟨rfl, fun _ h => by cases h⟩
  | succ attempts ih =>
      refine Program.Abides.bind (abides_getTaskDetail (ψ := fun _ => .working) (χ := .working)
        (fun _ => rfl) (fun _ _ _ _ => .other rfl) fun _ _ _ _ => .other rfl) ?_
      rintro φ' answer (⟨detail, rfl, rfl, hworking⟩ | ⟨⟨refusal, rfl⟩, rfl⟩)
      · exact ⟨rfl, fun task htask => by cases htask; exact hworking rfl⟩
      · dsimp only
        split
        · exact ⟨rfl, fun _ h => by cases h⟩
        · exact ih

/-- A process leaves an analysed task alone, and works on one that it does not find analysed. -/
theorem abides_requestTask (attempts : ℕ) :
    (requestTask config uid tid (attempts + 1)).Abides (verdictLaw config.assigns uid tid)
      (fun φ' found => (∃ task, found = some task ∧
          task.analysisStatus = analysisStatusSuccess ∧ φ' = .skipping) ∨
        φ' = .working ∧ ∀ task, found = some task →
          task.analysisStatus ≠ analysisStatusSuccess) .checking := by
  refine Program.Abides.bind (abides_getTaskDetail
    (ψ := fun status => if status = analysisStatusSuccess then .skipping else .working)
    (χ := .working) (fun status => by split <;> rfl) ?_ fun _ _ v hchecks => ?_) ?_
  · intro m v status hstatus
    by_cases hsuccess : status = analysisStatusSuccess
    · rw [if_pos hsuccess]
      exact .skip (hsuccess ▸ hstatus)
    · rw [if_neg hsuccess]
      exact .check fun h => hsuccess (Option.some.inj (hstatus.symm.trans h))
  · exact .check (hchecks rfl)
  rintro φ' answer (⟨detail, rfl, rfl, -⟩ | ⟨⟨refusal, rfl⟩, rfl⟩)
  · by_cases hsuccess : detail.task.analysisStatus = analysisStatusSuccess
    · exact .inl ⟨detail.task, rfl, hsuccess, if_pos hsuccess⟩
    · exact .inr ⟨if_neg hsuccess, fun task htask => by cases htask; exact hsuccess⟩
  · dsimp only
    split
    · exact .inr ⟨rfl, fun _ h => by cases h⟩
    · exact (abides_requestTask_working attempts).mono fun _ _ h => .inr h

/-- The lock is taken. -/
theorem abides_acquireLock (hφ : φ = .idle ∨ φ = .queued) :
    acquireLock.Abides (verdictLaw config.assigns uid tid)
      (fun φ' held => φ' = .checking ∧ held = true) φ := by
  intro s _
  constructor
  · rintro ⟨-, henabled⟩
    rcases henabled.1 rfl with hfails | hfree
    · cases hfails
    · refine ⟨.checking, ?_, ?_⟩
      · show VerdictStep _ _ _ _ (AnalysisStore.verdict tid (Option.getD (if s.locked then none else
          some { s with locked := true }) s)) _
        rw [if_neg (by simp [hfree])]
        exact .acquire hφ hfree
      · exact ⟨rfl, by simp [hfree]⟩
  · rintro ⟨hsound, -⟩
    have hno := (hsound.succeeds rfl).2.1
    cases hno

/-- The lock is released. -/
theorem abides_releaseLock {ψ : AnalysisPhase} {outcome : Option ℤ}
    (hstep : ∀ m v, VerdictStep config.assigns φ m v
      { v with locked := false, finished := outcome.or v.finished } ψ) :
    (releaseLock true outcome).Abides (verdictLaw config.assigns uid tid)
      (fun φ' _ => φ' = ψ) φ := by
  intro s _
  refine ⟨fun _ => ⟨ψ, hstep _ _, rfl⟩, ?_⟩
  rintro ⟨-, henabled⟩
  have hno := henabled.2 rfl
  cases hno

/-- A process that ends with an error has failed, or has nothing to answer for. -/
theorem abides_analyzerMain (hφ : φ = .idle ∨ φ = .queued) {fate : ProcessFate}
    (hreports : fate.succeeds = true → 0 < fate.reports) :
    (analyzerMain config uid true tid fate).Abides (verdictLaw config.assigns uid tid)
      (fun φ' failed => φ' = .idle ∨ φ' = .failing ∧ failed = true) φ := by
  refine Program.Abides.bind (abides_acquireLock hφ) ?_
  rintro _ _ ⟨rfl, rfl⟩
  refine Program.Abides.bind (abides_requestTask 2) ?_
  rintro _ found (⟨task, rfl, hsuccess, rfl⟩ | ⟨rfl, hopen⟩)
  · rw [if_pos ⟨task, rfl, .inl hsuccess⟩]
    refine Program.Abides.bind (abides_releaseLock (ψ := .idle) fun _ _ => .leave) ?_
    rintro _ _ rfl
    exact .inl rfl
  · have hworks : ¬ ∃ task ∈ found, task.analysisStatus = analysisStatusSuccess ∨
        shouldSkipRunningAnalysis task fate.stale true = true := by
      rintro ⟨task, htask, hsuccess | hskip⟩
      · exact hopen task htask hsuccess
      · simp [shouldSkipRunningAnalysis] at hskip
    rw [if_neg hworks]
    refine Program.Abides.bind (abides_reportStatus rfl (fun _ _ => .begin) _) ?_
    rintro _ _ rfl
    cases hsucceeds : fate.succeeds with
    | true =>
        rw [if_pos rfl]
        refine Program.Abides.bind (abides_reportSuccess rfl (hreports hsucceeds)) ?_
        rintro _ _ rfl
        refine Program.Abides.bind (abides_releaseLock (ψ := .idle) fun _ _ => .finish) ?_
        rintro _ _ rfl
        exact .inl rfl
    | false =>
        rw [if_neg (by simp)]
        refine Program.Abides.bind (abides_reportStatus rfl (fun _ _ => .fail) _) ?_
        rintro _ _ rfl
        refine Program.Abides.bind (abides_releaseLock (ψ := .failing) fun _ _ => .giveUp) ?_
        rintro _ _ rfl
        exact .inr ⟨rfl, rfl⟩

/-- The process knows the owner of the task, and that the server started it. -/
theorem abides_analysisProcessEnv (hφ : φ.isRecording = false) :
    (analysisProcessEnv tid).Abides (verdictLaw config.assigns uid tid)
      (fun φ' env => φ' = φ ∧ env = (uid, true)) φ := by
  unfold analysisProcessEnv
  refine Program.Abides.bind (abides_firstTask (ψ := fun _ => φ) (χ := φ)
    (fun _ _ _ _ => .other hφ) fun _ _ _ _ => .other hφ) ?_
  rintro ψ found (⟨task, rfl, huid, rfl, -⟩ | ⟨-, hrequired, -⟩)
  · exact ⟨rfl, by rw [huid]⟩
  · cases hrequired

/-- A run answers for the process that it has started. -/
theorem abides_runAnalysisProcess {fate : ProcessFate}
    (hφ : φ = .idle ∨ φ = if fate.begins then .queued else .failing)
    (hreports : fate.begins = true → fate.succeeds = true → 0 < fate.reports) :
    (runAnalysisProcess config tid fate).Abides (verdictLaw config.assigns uid tid)
      (fun φ' _ => φ' = .idle) φ := by
  have hphase : φ.isRecording = false := by
    rcases hφ with rfl | rfl
    · rfl
    · split <;> rfl
  refine Program.Abides.bind (abides_analysisProcessEnv hphase) ?_
  rintro _ _ ⟨rfl, rfl⟩
  dsimp only
  have hhandler : ∀ φ' failed, φ' = .idle ∨ φ' = .failing ∧ failed = true →
      (if failed then onServer { required := true } (runAnalysis tid (some fate.error)) else
        pure ()).Abides (verdictLaw config.assigns uid tid) (fun φ' _ => φ' = .idle) φ' := by
    intro φ' failed hφ'
    cases failed with
    | true => exact abides_runAnalysis rfl (hφ'.imp_right And.left)
    | false =>
        rcases hφ' with rfl | ⟨-, hfailed⟩
        · exact (rfl : AnalysisPhase.idle = .idle)
        · cases hfailed
  cases hbegins : fate.begins with
  | true =>
      rw [if_pos rfl]
      rw [hbegins, if_pos rfl] at hφ
      exact (abides_analyzerMain hφ (hreports hbegins)).bind hhandler
  | false =>
      rw [if_neg (by simp), Program.pure_bind]
      rw [hbegins, if_neg (by simp)] at hφ
      exact hhandler _ true (hφ.imp_right fun h => ⟨h, rfl⟩)

/-- A request for an analysis has written that one is under way, or nothing. -/
theorem abides_triggerAnalysis {user : String} {fate : ProcessFate} :
    (onServer { doomed := !fate.begins }
      (triggerAnalysis config.assigns config.analysisConfigured user tid)).Abides
        (verdictLaw config.assigns uid tid) (fun φ' answer => φ' = .idle ∨
          φ' = (if fate.begins then .queued else .failing) ∧ answer.code = 0) .idle := by
  generalize htarget : (if fate.begins then AnalysisPhase.queued else .failing) = target
  unfold triggerAnalysis
  rw [onServer_bind]
  refine Program.Abides.bind (abides_preserves rfl (preserves_checkTaskAccess user tid false)) ?_
  rintro _ (_ | task) rfl
  · exact .inl rfl
  dsimp only
  split
  · exact .inl rfl
  split
  · exact .inl rfl
  split
  · exact .inl rfl
  rw [onServer_bind]
  refine Program.Abides.bind (abides_transitionAnalysisStatus (χ := target) rfl ?_ ?_) ?_
  · rw [← htarget]
    split <;> rfl
  · intro status _ hdoomed
    rw [← htarget]
    cases hbegins : fate.begins with
    | true => exact .queue
    | false => exact .queueInVain (hdoomed (by simp [hbegins]))
  · rintro _ _ (rfl | ⟨rfl, -⟩)
    · exact .inr ⟨rfl, rfl⟩
    · exact .inl rfl

/-- A report whose process is gone changes no status. -/
theorem abides_lateReport {user statusInfo : String} {status : ℤ} (hmark : mark.late = true) :
    (onServer mark (updateAnalysisStatus config.assigns user tid status statusInfo)).Abides
      (verdictLaw config.assigns uid tid) (fun φ' _ => φ' = .idle) .idle := by
  unfold updateAnalysisStatus
  rw [onServer_bind]
  refine Program.Abides.bind (abides_preserves rfl (preserves_checkTaskAccess user tid false)) ?_
  rintro _ (_ | task) rfl
  · exact (rfl : AnalysisPhase.idle = .idle)
  dsimp only
  rw [onServer_bind]
  refine Program.Abides.bind (abides_preserves rfl (preserves_firstTask tid false)) ?_
  rintro _ (_ | task) rfl
  · exact (rfl : AnalysisPhase.idle = .idle)
  dsimp only
  rw [onServer_bind]
  refine Program.Abides.bind (abides_transitionAnalysisStatus (χ := .idle) rfl rfl ?_) ?_
  · intro _ hlate
    rw [hmark] at hlate
    cases hlate
  · rintro _ _ (rfl | ⟨rfl, -⟩) <;> exact (rfl : AnalysisPhase.idle = .idle)

/-- Every request answers for what it starts. -/
theorem abides_analysisRequest {request : AnalysisRequest} (hreports : request.Reports) :
    (request.program config tid).Abides (verdictLaw config.assigns uid tid)
      (fun φ' _ => φ' = .idle) .idle := by
  cases request with
  | triggerAnalysis user fate =>
      refine Program.Abides.bind abides_triggerAnalysis ?_
      rintro φ' answer hφ'
      split
      · exact abides_runAnalysisProcess (hφ'.imp_right And.left) hreports
      · next hcode =>
          rcases hφ' with rfl | ⟨-, hzero⟩
          · exact (rfl : AnalysisPhase.idle = .idle)
          · exact absurd hzero hcode
  | runAnalysis fate => exact abides_runAnalysisProcess (.inl rfl) hreports
  | lateReport user status statusInfo => exact (abides_lateReport rfl).bind fun _ _ h => h

end Process

/-! ## Runs -/

/-- The order of the threads. -/
def verdictOrder (assigns : Bool) (uid tid : String) :
    Pool.Order AnalysisMark AnalysisStore AnalysisPhase where
  toLaw := verdictLaw assigns uid tid
  initial := .idle
  final φ := φ = .idle
  permits marks i mark s fails := (DecidesSoundly tid mark s fails ∧
    WaitsForRecord marks i mark fails) ∧ mark.Enabled s fails
  permits_may _ _ _ _ _ h := ⟨h.1.1, h.2⟩
  fits slots s := VerdictFits assigns uid slots (s.verdict tid)
  fits_start _ _ h := h.start
  fits_knows slots s i φ last h hslot := by
    refine ⟨h.user, ?_⟩
    rintro rfl hsuccess
    have hnone := h.balanced.working hsuccess
    have hpos : 0 < Pool.tally (fun ψ => decide (ψ = AnalysisPhase.working)) slots :=
      Pool.tally_pos.mpr ⟨_, List.mem_of_getElem? hslot, by simp⟩
    omega
  fits_advance slots s i φ last mark fails t φ' last' h hslot hpermits hfails hstep hlast := by
    refine h.step hslot (fun hchanged hdecided => ?_) hstep hlast
    refine hpermits.1.2 ?_ hdecided
    by_contra hfailed
    exact hchanged (by rw [hfails (by simpa using hfailed)])

/-- In runs without stale writes the verdict stands. -/
theorem verdictsStand_of_sound {config : AnalysisConfig}
    {ok : String → AnalysisPool → Pool.Event AnalysisRequest → Prop}
    (h : ∀ tid pool event, ok tid pool event → SoundStep tid pool event) :
    VerdictsStand config ok := by
  intro tid db task htask hend pool hreach hquiet
  have hinit : VerdictFits config.assigns task.uid [] (AnalysisStore.verdict tid { db }) := by
    have hstatus : db.analysisStatus? tid = some task.analysisStatus := by
      rw [Database.analysisStatus?, htask, Option.map_some]
    refine ⟨by simp [AnalysisStore.verdict, htask], by simp [AnalysisStore.verdict, hstatus],
      ?_, ?_⟩
    · constructor <;> simp [AnalysisStore.verdict, Pool.tally]
    · refine ⟨by simp [Pool.tally], by simp, fun _ _ status h => ?_⟩
      obtain rfl := Option.some.inj (hstatus.symm.trans h)
      exact hend
  have hlawful : Transition.Reachable (Pool.step (AnalysisRequest.program config tid))
      (Pool.Lawful AnalysisRequest.Reports (verdictOrder config.assigns task.uid tid).permits)
      { store := { db } } pool := by
    refine (Pool.reachable_of_stepWhen hreach).mono ?_
    rintro pool event ⟨hok, henabled⟩
    have hsound := h tid pool event hok
    cases event with
    | start request => exact hsound
    | advance i fails => exact fun thread hthread mark hmark =>
        ⟨hsound thread hthread mark hmark, henabled thread hthread mark hmark⟩
  have habides : Pool.Abides (verdictOrder config.assigns task.uid tid) pool :=
    Pool.Abides.of_reachable hinit (fun request hreports => abides_analysisRequest hreports)
      hlawful
  -- all threads are at their end
  obtain ⟨slots, hfits, hidle⟩ := habides.final_of_quiet hquiet
  have hnone : ∀ p : AnalysisPhase → Bool, p .idle = false → Pool.tally p slots = 0 := by
    intro p hp
    refine List.countP_eq_zero.mpr fun slot hmem => ?_
    rw [hidle slot hmem, hp]
    exact Bool.false_ne_true
  obtain ⟨huser, -, hbalanced, hrecorded⟩ := hfits
  obtain ⟨row, hrow, -⟩ := Option.map_eq_some_iff.mp huser
  have hstatus : pool.store.db.analysisStatus? tid = some row.analysisStatus := by
    rw [Database.analysisStatus?, hrow, Option.map_some]
  refine ⟨row, hrow, fun outcome houtcome => ?_, fun hassigns => ?_⟩
  · rcases hbalanced.settled with hsettled | hbusy | ⟨-, hfailing⟩
    · exact Option.some.inj (hstatus.symm.trans (hsettled outcome houtcome))
    · simp [hnone] at hbusy
    · simp [hnone] at hfailing
  · exact hrecorded.recorded (hnone _ rfl) hassigns _ hstatus

/-- A task of user u that is to be analysed. -/
def collectedTask : HotmethodTask := { tid := "t", uid := "u", status := taskStatusSuccess }

def collectedDatabase : Database :=
  { tasks := (∅ : StdMap HotmethodTask).insert "t" collectedTask }

def analysedPool (events : List (Pool.Event AnalysisRequest)) : AnalysisPool :=
  Transition.after (analysisStep {} "t") { store := { db := collectedDatabase } } events

/-- A process that dies while it works. -/
def crash : ProcessFate := { succeeds := false, reports := 0, error := ("signal: killed", "") }

/-- While an analysis is queued, that of a window crashes. -/
def crashBeforeAnalysis : List (Pool.Event AnalysisRequest) :=
  .start (.triggerAnalysis "u" {}) :: List.replicate 3 (.advance 0 false) ++
    .start (.runAnalysis crash) :: List.replicate 13 (.advance 1 false) ++
    List.replicate 13 (.advance 0 false)

theorem verdictsStand_crashBeforeAnalysis :
    (analysedPool crashBeforeAnalysis).store.finished = some analysisStatusSuccess ∧
      (analysedPool crashBeforeAnalysis).store.db.history.length = 4 ∧
      ∃ row, (analysedPool crashBeforeAnalysis).store.db.task? "t" = some row ∧
        row.analysisStatus = analysisStatusSuccess := by
  have hrun : collectedDatabase.task? "t" = some collectedTask ∧
      Transition.Along (analysisStep {} "t") (SoundStep "t")
        { store := { db := collectedDatabase } } crashBeforeAnalysis ∧
      (Transition.run (analysisStep {} "t") { store := { db := collectedDatabase } }
        crashBeforeAnalysis).isSome ∧
      (analysedPool crashBeforeAnalysis).Quiet ∧
      (analysedPool crashBeforeAnalysis).store.finished = some analysisStatusSuccess ∧
      (analysedPool crashBeforeAnalysis).store.db.history.length = 4 := by
    decide +kernel
  obtain ⟨htask, halong, hsome, hquiet, hfinished, hlength⟩ := hrun
  have hend : EndsIn (collectedDatabase.analysisRows "t") collectedTask.analysisStatus :=
    ⟨.nil, by simp [Database.analysisRows, collectedDatabase]⟩
  obtain ⟨row, hrow, hstatus, -⟩ := verdictsStand_of_sound (fun _ _ _ h => h) "t" _ _ htask hend _
    (halong.reachable hsome) hquiet
  exact ⟨hfinished, hlength, row, hrow, hstatus _ hfinished⟩

/-- The handler of a crashed process reads the status before the next process succeeds, and
writes it afterwards. -/
def staleHandler : List (Pool.Event AnalysisRequest) :=
  .start (.runAnalysis crash) :: List.replicate 10 (.advance 0 false) ++
    .start (.runAnalysis {}) :: List.replicate 14 (.advance 1 false) ++
    List.replicate 2 (.advance 0 false)

theorem not_verdictsStand : ¬ VerdictsStand {} fun _ _ _ => True := by
  intro h
  have hrun : collectedDatabase.task? "t" = some collectedTask ∧
      Transition.Along (analysisStep {} "t") (fun _ _ => True)
        { store := { db := collectedDatabase } } staleHandler ∧
      (Transition.run (analysisStep {} "t") { store := { db := collectedDatabase } }
        staleHandler).isSome ∧
      (analysedPool staleHandler).Quiet ∧
      (analysedPool staleHandler).store.finished = some analysisStatusSuccess ∧
      (analysedPool staleHandler).store.db.analysisStatus? "t" = some analysisStatusFailed := by
    decide +kernel
  obtain ⟨htask, halong, hsome, hquiet, hfinished, hfailed⟩ := hrun
  have hend : EndsIn (collectedDatabase.analysisRows "t") collectedTask.analysisStatus :=
    ⟨.nil, by simp [Database.analysisRows, collectedDatabase]⟩
  obtain ⟨row, hrow, hstatus, -⟩ :
      ∃ row, (analysedPool staleHandler).store.db.task? "t" = some row ∧ _ :=
    h "t" _ _ htask hend _ (halong.reachable hsome) hquiet
  rw [Database.analysisStatus?, hrow, Option.map_some, hstatus _ hfinished] at hfailed
  cases hfailed

end MiniDrop
