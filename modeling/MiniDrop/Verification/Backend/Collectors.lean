import MiniDrop.Model.Collectors
import MiniDrop.Verification.Backend.Origins

/-! # Collecting what is analysed

The type of a task names its analyzer, and the event tells two collectors what to collect. Both
are kept in the row of the task, and nothing keeps them in step. -/

namespace MiniDrop

/-! ## The property -/

/-- The collector of the task gives its analyzer what it expects; `event` is what was asked for. -/
structure CollectsFor (event : String) (type : ℤ) (taskDesc : TaskDesc) : Prop where
  heap : analyzerOf type = some .pprofHeap →
    createProfiler taskDesc.profilerType taskDesc.sampleArgv.event = some (.pprof "heap")
  cpu : analyzerOf type = some .pprofCpu →
    createProfiler taskDesc.profilerType taskDesc.sampleArgv.event = some (.pprof "cpu")
  probe : analyzerOf type = some .biosnoop → ∃ asked,
    createProfiler taskDesc.profilerType taskDesc.sampleArgv.event = some (.bpftrace asked) ∧
      probeOf asked = probeOf event

namespace TaskOrigin

/-- A schedule asks for no event. -/
def event : TaskOrigin → String
  | request req => req.event
  | schedule _ => ""

def type : TaskOrigin → ℤ
  | request req => req.type
  | schedule req => req.type

def profilerType : TaskOrigin → ℤ
  | request req => req.profilerType
  | schedule req => req.profilerType

/-- The tasks of this origin that are sent. -/
def Dispatches (parser : CronParser) (origin : TaskOrigin) (task : HotmethodTask)
    (taskDesc : TaskDesc) : Prop :=
  (match origin with
    | request req => Creates req task taskDesc
    | schedule req => Fires parser req task taskDesc) ∨ Retries parser origin task taskDesc

/-- All of them collect what is analysed. -/
def CollectsAnalysed (parser : CronParser) (origin : TaskOrigin) : Prop :=
  ∀ task taskDesc, origin.Dispatches parser task taskDesc →
    CollectsFor origin.event task.type taskDesc

/-- The event says "heap" for the analysis of a heap, and something else for that of a CPU
profile. -/
structure NamesKind (origin : TaskOrigin) : Prop where
  heap : origin.type = 11 → origin.event = "heap"
  cpu : origin.type = 10 → origin.event ≠ "heap"

end TaskOrigin

/-! ## Encodings -/

theorem analyzerOf_eq_pprofHeap {type : ℤ} : analyzerOf type = some .pprofHeap ↔ type = 11 := by
  unfold analyzerOf
  split <;> simp_all

theorem analyzerOf_eq_pprofCpu {type : ℤ} : analyzerOf type = some .pprofCpu ↔ type = 10 := by
  unfold analyzerOf
  split <;> simp_all

theorem analyzerOf_eq_biosnoop {type : ℤ} : analyzerOf type = some .biosnoop ↔ type = 6 := by
  unfold analyzerOf
  split <;> simp_all

/-- The worker has a collector for the types that CreateProfiler knows. -/
theorem isSome_createProfiler (profilerType : UInt32) (event : String) :
    (createProfiler profilerType event).isSome = createsProfiler profilerType := by
  unfold createProfiler createsProfiler
  grind

theorem createProfiler_pprof (event : String) :
    createProfiler (.ofInt 2) event = some (.pprof (if event = "heap" then "heap" else "cpu")) :=
  rfl

theorem createProfiler_bpftrace (event : String) :
    createProfiler (.ofInt 3) event = some (.bpftrace event) := rfl

/-- The collectors that a type with more than one kind of data is valid with. -/
theorem profilerType_of_valid {type profilerType : ℤ}
    (h : isValidTaskProfilerCombination type profilerType = true) :
    (type = 10 ∨ type = 11 → profilerType = 2) ∧ (type = 6 → profilerType = 3) := by
  simp [isValidTaskProfilerCombination] at h
  omega

/-- A task that carries the event it was asked for collects what is analysed if and only if the
event names the kind. -/
theorem collectsFor_iff {origin : TaskOrigin} {taskDesc : TaskDesc}
    (hvalid : isValidTaskProfilerCombination origin.type origin.profilerType = true)
    (hprofiler : taskDesc.profilerType = .ofInt origin.profilerType)
    (hevent : taskDesc.sampleArgv.event = origin.event) :
    CollectsFor origin.event origin.type taskDesc ↔ origin.NamesKind := by
  obtain ⟨hpprof, hbpftrace⟩ := profilerType_of_valid hvalid
  constructor
  · intro h
    constructor
    · intro htype
      have hheap := h.heap (analyzerOf_eq_pprofHeap.mpr htype)
      rw [hprofiler, hevent, hpprof (.inr htype), createProfiler_pprof] at hheap
      by_contra hne
      rw [if_neg hne] at hheap
      exact absurd hheap (by decide)
    · intro htype hheap
      have hcpu := h.cpu (analyzerOf_eq_pprofCpu.mpr htype)
      rw [hprofiler, hevent, hpprof (.inl htype), createProfiler_pprof, if_pos hheap] at hcpu
      exact absurd hcpu (by decide)
  · intro h
    constructor
    · intro hanalyzer
      have htype := analyzerOf_eq_pprofHeap.mp hanalyzer
      rw [hprofiler, hevent, hpprof (.inr htype), createProfiler_pprof, if_pos (h.heap htype)]
    · intro hanalyzer
      have htype := analyzerOf_eq_pprofCpu.mp hanalyzer
      rw [hprofiler, hevent, hpprof (.inl htype), createProfiler_pprof, if_neg (h.cpu htype)]
    · intro hanalyzer
      have htype := analyzerOf_eq_biosnoop.mp hanalyzer
      refine ⟨origin.event, ?_, rfl⟩
      rw [hprofiler, hevent, hbpftrace htype, createProfiler_bpftrace]

/-! ## What a row keeps -/

/-- The row has the types and the event of its origin. -/
structure Labelled (origin : TaskOrigin) (task : HotmethodTask) : Prop where
  type : task.type = origin.type
  profilerType : task.profilerType = origin.profilerType
  event : textParam task.requestParams "event" = origin.event

theorem Labelled.kept {origin : TaskOrigin} {task task' : HotmethodTask} (h : Labelled origin task)
    (hkept : task.Kept task') : Labelled origin task' :=
  ⟨hkept.type.trans h.type, hkept.profilerType.trans h.profilerType, hkept.requestParams ▸ h.event⟩

theorem Descends.labelled {parser : CronParser} {origin : TaskOrigin} {task : HotmethodTask}
    (h : Descends parser origin task) : Labelled origin task := by
  refine h.induct (fun _ _ hrow hkept => hrow.kept hkept) ?_ ?_ ?_ ?_
  · rintro now tid uid userName req rfl
    exact ⟨rfl, rfl, rfl⟩
  · rintro tid uid userName req rfl
    exact ⟨rfl, rfl, rfl⟩
  · exact fun now newTid schedule hrow => ⟨hrow.type, hrow.profilerType, hrow.event⟩
  · exact fun now tid uid userName row hrow => ⟨hrow.type, hrow.profilerType, hrow.event⟩

/-- A task of the origin has its types, and carries its event. -/
theorem TaskOrigin.Dispatches.labels {parser : CronParser} {origin : TaskOrigin}
    {task : HotmethodTask} {taskDesc : TaskDesc} (h : origin.Dispatches parser task taskDesc) :
    task.type = origin.type ∧ taskDesc.profilerType = .ofInt origin.profilerType ∧
      taskDesc.sampleArgv.event = origin.event := by
  rcases h with hfirst | hretries
  · cases origin with
    | request req =>
        obtain ⟨_, _, _, _, rfl, hkept⟩ := Creates.sent hfirst
        exact ⟨hkept.type, rfl, rfl⟩
    | schedule req =>
        obtain ⟨_, _, schedule, hplanned, rfl, hkept⟩ := Fires.sent hfirst
        have hrow := (Descends.planned hplanned).labelled
        exact ⟨hkept.type.trans hrow.type, congrArg UInt32.ofInt hrow.profilerType, rfl⟩
  · obtain ⟨_, _, _, _, row, hdescends, rfl, hkept⟩ := hretries.sent
    have hrow := hdescends.labelled
    exact ⟨hkept.type.trans hrow.type, congrArg UInt32.ofInt hrow.profilerType, hrow.event⟩

theorem TaskOrigin.CollectsAnalysed.of_namesKind {parser : CronParser} {origin : TaskOrigin}
    (hvalid : isValidTaskProfilerCombination origin.type origin.profilerType = true)
    (h : origin.NamesKind) : origin.CollectsAnalysed parser := by
  intro task taskDesc hdispatches
  obtain ⟨htype, hprofiler, hevent⟩ := hdispatches.labels
  rw [htype]
  exact (collectsFor_iff hvalid hprofiler hevent).mpr h

/-! ## Descriptions -/

/-- The request that a plan for a single run becomes. -/
def NaturalLanguageTaskPlan.taskReq (plan : NaturalLanguageTaskPlan) : CreateTaskReq :=
  { name := plan.name
    type := plan.type
    profilerType := plan.profilerType
    targetIp := plan.targetIp
    pid := plan.pid.toInt
    duration := plan.duration
    hz := plan.hz
    callgraph := plan.callgraph
    subprocess := plan.subprocess
    event := plan.event }

/-- What a plan for a single run sends collects what is analysed, and so do its retries. -/
def DescribesAnalysed (parser : CronParser) : Prop :=
  ∀ (now steadyNow : ℤ) (tid uid userName : String) (req : NaturalLanguageTaskReq)
    (order : List ℕ) (fate : Option RpcFate) (cleanup : RpcFate) (b : Backend),
    let plan := buildNaturalLanguagePlan req ((Backend.defaultAgent uid req order).run b).1
    plan.mode = .oneshot →
      (∀ task taskDesc, Sends (Backend.createNaturalLanguageTask now steadyNow tid uid userName req
        order fate cleanup) b task taskDesc → Creates plan.taskReq task taskDesc) ∧
        (TaskOrigin.request plan.taskReq).CollectsAnalysed parser

theorem run_defaultAgent (uid : String) (req : NaturalLanguageTaskReq) (order : List ℕ)
    (b : Backend) : ((Backend.defaultAgent uid req order).run b).2 = b := by
  unfold Backend.defaultAgent
  split
  · rw [run_onDb, run_reads (preserves_firstAccessibleOnlineAgentIP uid order)]
  · rfl

namespace NaturalLanguageTaskPlan

/-- The collector fits the type, and the event names the kind. -/
structure Labelled (plan : NaturalLanguageTaskPlan) : Prop where
  valid : isValidTaskProfilerCombination plan.type plan.profilerType = true
  heap : plan.type = 11 → plan.event = "heap"
  cpu : plan.type = 10 → plan.event ≠ "heap"

/-- Each rule for the words of a description sets all three. -/
theorem labelled_chooseKind (d : Description) {plan : NaturalLanguageTaskPlan}
    (htype : plan.type = 0) (hprofiler : plan.profilerType = 0) :
    (plan.chooseKind d).Labelled := by
  unfold chooseKind
  repeat' split
  case isFalse.isFalse.isFalse.isFalse.isFalse.isFalse =>
    exact ⟨by rw [htype, hprofiler]; rfl, by simp [htype], by simp [htype]⟩
  all_goals exact ⟨rfl, by simp, by simp⟩

/-- A plan that is not continuous stays as it is. -/
theorem Labelled.settled {plan : NaturalLanguageTaskPlan} (h : plan.Labelled)
    (hmode : plan.settleContinuous.missing.mode = .oneshot) :
    plan.settleContinuous.missing.Labelled := by
  unfold settleContinuous at hmode ⊢
  split at hmode
  · rename_i hcontinuous
    simp [missing, hcontinuous] at hmode
  · rename_i hone
    rw [if_neg hone]
    exact ⟨h.valid, h.heap, h.cpu⟩

end NaturalLanguageTaskPlan

theorem labelled_plan (req : NaturalLanguageTaskReq) (firstAgent : String)
    (hmode : (buildNaturalLanguagePlan req firstAgent).mode = .oneshot) :
    (buildNaturalLanguagePlan req firstAgent).Labelled := by
  refine (NaturalLanguageTaskPlan.labelled_chooseKind req.text ?_ ?_).settled hmode
  all_goals
    unfold NaturalLanguageTaskPlan.chooseMode
    split <;> rfl

theorem describesAnalysed (parser : CronParser) : DescribesAnalysed parser := by
  intro now steadyNow tid uid userName req order fate cleanup b plan hmode
  have hlabelled := labelled_plan req _ hmode
  refine ⟨fun task taskDesc hsends => ?_, .of_namesKind hlabelled.valid
    ⟨hlabelled.heap, hlabelled.cpu⟩⟩
  have hrun : ((Backend.createNaturalLanguageTask now steadyNow tid uid userName req order fate
      cleanup).run b).2 = b ∨ ((Backend.createNaturalLanguageTask now steadyNow tid uid userName req
        order fate cleanup).run b).2 = ((Backend.createTaskInternal now steadyNow tid uid userName
          plan.taskReq fate).run b).2 := by
    simp only [Backend.createNaturalLanguageTask, Program.run_bind, run_defaultAgent]
    split
    · exact .inl rfl
    · split
      · rename_i hcontinuous
        exact absurd (hcontinuous.symm.trans hmode) (by decide)
      · exact .inr rfl
  rcases hrun with hsame | hrun
  · exact absurd hsame hsends.1.changes
  · refine ⟨now, steadyNow, tid, uid, userName, fate, b, ?_⟩
    unfold Sends Inserts at *
    rwa [← hrun]

end MiniDrop
