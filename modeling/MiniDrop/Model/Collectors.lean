import MiniDrop.Model.Agent

/-! # Collectors and analyzers

The agent chooses a collector by the profiler type and the event of a task, and the analysis goes
by its type alone. -/

namespace MiniDrop

/-! ## The agent -/

/-- The profilers, with what decides on the data they collect. -/
inductive Profiler where
  | perf
  | asyncProfiler
  | pprof (profileKind : String)
  | bpftrace (event : String)
  | memray
  | javaHeap
  | resource
deriving DecidableEq

/-- CreateProfiler. -/
def createProfiler (profilerType : UInt32) (event : String) : Option Profiler :=
  if profilerType = profilerPerf then some .perf
  else if profilerType = profilerAsyncProfiler then some .asyncProfiler
  else if profilerType = profilerPprof then some (.pprof (if event = "heap" then "heap" else "cpu"))
  else if profilerType = profilerBpftrace then some (.bpftrace event)
  else if profilerType = profilerMemray then some .memray
  else if profilerType = profilerJavaHeap then some .javaHeap
  else if profilerType = profilerResource then some .resource
  else none

/-- The two scripts of BpftraceProfiler. -/
inductive Probe where
  | io
  | sched
deriving DecidableEq

/-- The script that Record of BpftraceProfiler generates. -/
def probeOf (event : String) : Probe :=
  if event = "sched" ∨ event = "schedule" then .sched else .io

/-! ## The analysis -/

inductive Analyzer where
  | cpuFlamegraph
  | javaHeap
  | tracing
  | memleak
  | resourceAnalysis
  | biosnoop
  | bwSync
  | namespaceTasks
  | assembly
  | pprofCpu
  | pprofHeap
deriving DecidableEq

/-- The dispatch on `task_type`; another type is unsupported. -/
def analyzerOf (taskType : ℤ) : Option Analyzer :=
  match taskType with
  | 0 | 1 => some .cpuFlamegraph
  | 12 => some .javaHeap
  | 2 => some .tracing
  | 4 => some .memleak
  | 5 => some .resourceAnalysis
  | 6 => some .biosnoop
  | 7 => some .bwSync
  | 8 => some .namespaceTasks
  | 9 => some .assembly
  | 10 => some .pprofCpu
  | 11 => some .pprofHeap
  | _ => none

end MiniDrop
