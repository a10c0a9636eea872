import MiniDrop.Model.Database

/-! # Plans from a description in natural language

What the regular expressions and the keyword searches find in the description is an argument. -/

namespace MiniDrop

/-- What a description says. Numbers that are not in it count as 0. -/
structure Description where
  ip : String := ""
  /-- The number that follows a word for the process id. -/
  pid : ℕ := 0
  seconds : ℕ := 0
  hz : ℕ := 0
  /-- The description contains the keyword. -/
  mentions : String → Bool := fun _ => false

namespace Description

def containsAny (d : Description) (needles : List String) : Bool := needles.any d.mentions

/-- parseNaturalPID: the number as `int32`. -/
def parseNaturalPID (d : Description) : Int32 := .ofInt d.pid

end Description

structure NaturalLanguageTaskReq where
  text : Description
  targetIp : String := ""
  pid : Int32 := 0

inductive TaskMode where
  | oneshot
  | continuous
deriving DecidableEq

/-- A plan, without the texts that explain it and the confidence. -/
structure NaturalLanguageTaskPlan where
  name : String := "自然语言采集"
  mode : TaskMode := .oneshot
  type : ℤ := 0
  profilerType : ℤ := 0
  targetIp : String
  pid : Int32
  duration : ℕ := 30
  hz : ℕ := 99
  windowSec : ℕ := 300
  callgraph : String := "dwarf"
  subprocess : Bool := true
  event : String := "cpu-cycles"
  missingFields : List String := []
deriving DecidableEq

namespace NaturalLanguageTaskPlan

/-- The keywords for the kind of a task. -/
def chooseKind (d : Description) (plan : NaturalLanguageTaskPlan) : NaturalLanguageTaskPlan :=
  if d.containsAny ["java", "jvm", "async", "线程"] then
    { plan with type := 1, profilerType := 1, event := "cpu"
                name := "自然语言 Java async-profiler" }
  else if d.containsAny ["pprof", "goroutine", "go ", "golang"] then
    { plan with type := 10, profilerType := 2, event := "cpu", name := "自然语言 pprof CPU" }
  else if d.containsAny ["heap", "堆", "内存快照"] && d.containsAny ["go", "pprof"] then
    { plan with type := 11, profilerType := 2, event := "heap", name := "自然语言 pprof Heap" }
  else if d.containsAny ["io", "i/o", "磁盘", "块设备", "延迟", "抖动", "sched", "调度"] then
    { plan with type := 6, profilerType := 3, name := "自然语言 eBPF 采集"
                event := if d.containsAny ["sched", "调度"] then "sched" else "io" }
  else if d.containsAny ["memray", "python 内存", "python内存", "分配", "泄漏", "leak"] then
    { plan with type := 4, profilerType := 4, event := "memray"
                name := "自然语言 Python memray" }
  else if d.containsAny ["rss", "资源", "cpu 使用率", "内存使用率", "读写速率"] then
    { plan with type := 5, profilerType := 6, event := "resource"
                name := "自然语言资源采样" }
  else { plan with name := "自然语言 CPU perf" }

def clampInt (value least most : ℕ) : ℕ := min (max value least) most

/-- The numbers in the description. -/
def readNumbers (d : Description) (plan : NaturalLanguageTaskPlan) : NaturalLanguageTaskPlan :=
  { plan with
    pid := if 0 < d.parseNaturalPID then d.parseNaturalPID else plan.pid
    duration := if 0 < d.seconds then clampInt d.seconds 1 3600 else plan.duration
    hz := if 0 < d.hz then clampInt d.hz 1 1000 else plan.hz }

def chooseMode (d : Description) (plan : NaturalLanguageTaskPlan) : NaturalLanguageTaskPlan :=
  if d.containsAny
      ["常驻", "持续", "连续", "continuous", "过去", "最近", "一小时", "1小时", "半小时"] then
    { plan with mode := .continuous, duration := 0, hz := min plan.hz 10, windowSec := 300 }
  else plan

/-- A continuous task keeps the collector that the description asks for. -/
def settleContinuous (plan : NaturalLanguageTaskPlan) : NaturalLanguageTaskPlan :=
  if plan.mode = .continuous then
    { plan with
      type := 0
      event := if plan.profilerType = 0 then "cpu-cycles" else plan.event
      name := "自然语言 Continuous Profiling" }
  else plan

def missing (plan : NaturalLanguageTaskPlan) : NaturalLanguageTaskPlan :=
  { plan with
    missingFields := (if plan.targetIp = "" then ["target_ip"] else []) ++
      (if plan.pid ≤ 0 then ["pid"] else []) }

def clarifyingQuestion (plan : NaturalLanguageTaskPlan) : String :=
  if plan.missingFields.contains "pid" && plan.missingFields.contains "target_ip" then
    "请补充目标 Agent/IP 和 PID，例如：在 127.0.0.1 上采集 pid 1234 的 CPU 火焰图。"
  else if plan.missingFields.contains "pid" then
    "请补充目标 PID，例如：pid 1234 CPU 飙高，采 30 秒火焰图。"
  else "请补充目标 Agent 或 IP。"

end NaturalLanguageTaskPlan

/-- buildNaturalLanguagePlan; `firstAgent` is the agent for a description without an address. -/
def buildNaturalLanguagePlan (req : NaturalLanguageTaskReq) (firstAgent : String) :
    NaturalLanguageTaskPlan :=
  let named := if req.text.ip ≠ "" then req.text.ip else req.targetIp
  let plan : NaturalLanguageTaskPlan :=
    { targetIp := if named = "" then firstAgent else named, pid := req.pid }
  (((plan.readNumbers req.text).chooseMode req.text).chooseKind req.text).settleContinuous.missing

end MiniDrop
