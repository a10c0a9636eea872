import MiniDrop.Model.FlameStats

/-! # Attribution reports

Local tools turn the statistics of a flame graph into numbered evidence. What the model writes about
it is kept if it has all sections and cites something; otherwise a report by rule follows. -/

namespace MiniDrop

/-! ## Values -/

/-- A value that becomes JSON. -/
inductive PyValue (F : Type) where
  | str (s : String)
  | int (n : ℤ)
  | num (x : F)
  | list (items : List (PyValue F))
  | dict (fields : List (String × PyValue F))

/-- A value of the task's metadata. -/
inductive MetaValue where
  | str (s : String)
  | int (n : ℤ)

def MetaValue.value {F : Type} : MetaValue → PyValue F
  | str s => .str s
  | int n => .int n

/-- How numbers are printed, which is without brackets. -/
structure NumberText (F : Type) where
  print : F → String
  plain : ∀ x, '[' ∉ (print x).toList

section Extraction

variable {F : Type}

/-- Adds the id of a dictionary unless it is there. -/
def addEvidenceId (ids : List String) : Option (PyValue F) → List String
  | some (.str evidenceId) => if evidenceId ∉ ids then ids ++ [evidenceId] else ids
  | _ => ids

mutual

def visit (ids : List String) : PyValue F → List String
  | .dict fields => visitFields (addEvidenceId ids (Dict.lookup "evidence_id" fields)) fields
  | .list items => visitItems ids items
  | .str _ | .int _ | .num _ => ids

def visitItems (ids : List String) : List (PyValue F) → List String
  | [] => ids
  | item :: items => visitItems (visit ids item) items

def visitFields (ids : List String) : List (String × PyValue F) → List String
  | [] => ids
  | (_, item) :: fields => visitFields (visit ids item) fields

end

def extractEvidenceIds (payload : PyValue F) : List String := visit [] payload

end Extraction

/-! ## Evidence -/

structure RuleSuggestion where
  func : Option String := none
  self : Option ℤ := none
  total : Option ℤ := none
  advice : Option String := none
  suggestion : Option String := none

structure MetadataEvidence where
  tid : String
  pid : MetaValue
  duration : MetaValue
  hz : MetaValue
  targetIp : MetaValue
  typeName : MetaValue
  generatedAt : String

structure TopnEvidence (F : Type) where
  evidenceId : String
  rank : ℕ
  func : String
  self : ℤ
  total : ℤ
  selfPct : F

structure PathEvidence (F : Type) where
  evidenceId : String
  sampleCount : ℤ
  pct : F
  depth : ℕ
  frames : List String
  stackTail : List String

structure ConcentrationEvidence (F : Type) where
  totalSamples : ℤ
  totalFunctions : ℕ
  concentration : Concentration F

structure RuleEvidence where
  evidenceId : String
  func : String
  self : ℤ
  total : ℤ
  advice : String

structure AttributionEvidence (F : Type) where
  tid : String
  metadata : MetadataEvidence
  topnHotspots : List (TopnEvidence F)
  hotPaths : List (PathEvidence F)
  concentration : ConcentrationEvidence F
  ruleHits : List RuleEvidence

section Evidence

variable {F : Type}

def MetadataEvidence.value (e : MetadataEvidence) : PyValue F :=
  .dict [("evidence_id", .str "E1"), ("tid", .str e.tid), ("pid", e.pid.value),
    ("duration", e.duration.value), ("hz", e.hz.value), ("target_ip", e.targetIp.value),
    ("type_name", e.typeName.value), ("generated_at", .str e.generatedAt)]

def TopnEvidence.value (e : TopnEvidence F) : PyValue F :=
  .dict [("evidence_id", .str e.evidenceId), ("rank", .int e.rank), ("func", .str e.func),
    ("self", .int e.self), ("total", .int e.total), ("self_pct", .num e.selfPct)]

def PathEvidence.value (e : PathEvidence F) : PyValue F :=
  .dict [("evidence_id", .str e.evidenceId), ("sample_count", .int e.sampleCount),
    ("pct", .num e.pct), ("depth", .int e.depth), ("frames", .list (e.frames.map .str)),
    ("stack_tail", .list (e.stackTail.map .str))]

def ConcentrationEvidence.value (e : ConcentrationEvidence F) : PyValue F :=
  .dict [("evidence_id", .str "E4"), ("total_samples", .int e.totalSamples),
    ("total_functions", .int e.totalFunctions), ("top_1_pct", .num e.concentration.top1Pct),
    ("top_3_pct", .num e.concentration.top3Pct), ("top_5_pct", .num e.concentration.top5Pct),
    ("gini_coefficient", .num e.concentration.giniCoefficient)]

def RuleEvidence.value (e : RuleEvidence) : PyValue F :=
  .dict [("evidence_id", .str e.evidenceId), ("func", .str e.func), ("self", .int e.self),
    ("total", .int e.total), ("advice", .str e.advice)]

/-- `evidence["evidence"]`; no other part of the dictionary has an id. -/
def AttributionEvidence.value (e : AttributionEvidence F) : PyValue F :=
  .dict [("metadata", e.metadata.value),
    ("topn_hotspots", .list (e.topnHotspots.map TopnEvidence.value)),
    ("hot_paths", .list (e.hotPaths.map PathEvidence.value)),
    ("concentration", e.concentration.value),
    ("rule_hits", .list (e.ruleHits.map RuleEvidence.value))]

end Evidence

/-! ## Tools -/

structure ToolCall (F : Type) where
  toolCallId : String
  tool : String
  executor : String := "local_deterministic_tool"
  calledAt : String
  arguments : PyValue F
  status : String := "ok"
  resultCount : ℕ
  evidenceIds : List String
  result : PyValue F

section Tools

variable {F : Type} (ops : Floats F)

/-- Records a call; `clock` tells the time of each. -/
def callTool (clock : ℕ → String) (calls : List (ToolCall F)) (name : String)
    (arguments payload : PyValue F) : List (ToolCall F) :=
  calls ++ [{
    toolCallId := "tc_" ++ toString (calls.length + 1)
    tool := name
    calledAt := clock (calls.length + 1)
    arguments := arguments
    resultCount := match payload with
      | .list items => items.length
      | _ => 1
    evidenceIds := extractEvidenceIds payload
    result := payload }]

def readCollectionMetadata (clock : ℕ → String) (tid : String)
    (taskMeta : Dict String MetaValue) : MetadataEvidence where
  tid := tid
  pid := (taskMeta.get? "pid").getD (.str "N/A")
  duration := (taskMeta.get? "duration").getD (.str "N/A")
  hz := (taskMeta.get? "hz").getD (.str "N/A")
  targetIp := (taskMeta.get? "target_ip").getD (.str "N/A")
  typeName := (taskMeta.get? "type_name").getD (.str "CPU")
  generatedAt := clock 0

def readTopnHotspots (topn : List HotFunction) (totalSamples : ℤ) : List (TopnEvidence F) :=
  ((topn.take 15).zipIdx 1).map fun (item, i) =>
    let pct := if totalSamples = 0 then ops.ofInt 0
      else ops.mul (ops.div item.self totalSamples) 100
    { evidenceId := "E2." ++ toString i
      rank := i
      func := item.func
      self := item.self
      total := item.total
      selfPct := ops.round pct 2 }

def readHotPaths (hotPaths : List (HotPath F)) : List (PathEvidence F) :=
  ((hotPaths.take 5).zipIdx 1).map fun (hp, i) =>
    { evidenceId := "E3." ++ toString i
      sampleCount := hp.sampleCount
      pct := hp.pct
      depth := hp.depth
      frames := hp.frames
      stackTail := hp.frames.drop (hp.frames.length - 5) }

def readRuleHits (ruleSuggestions : List RuleSuggestion) : List RuleEvidence :=
  ((ruleSuggestions.take 10).zipIdx 1).map fun (s, i) =>
    { evidenceId := "E5." ++ toString i
      func := s.func.getD ""
      self := s.self.getD 0
      total := s.total.getD 0
      advice := match s.advice with
        | none | some "" => s.suggestion.getD ""
        | some advice => advice }

/-- The evidence, and the calls of the tools. -/
def buildAttributionEvidence (clock : ℕ → String) (tid : String) (topn : List HotFunction)
    (stats : FlameStats F) (taskMeta : Dict String MetaValue)
    (ruleSuggestions : List RuleSuggestion) : AttributionEvidence F × List (ToolCall F) :=
  let metadata := readCollectionMetadata clock tid taskMeta
  let calls := callTool clock [] "read_collection_metadata" (.dict [("tid", .str tid)])
    metadata.value
  let topnPayload := readTopnHotspots ops topn stats.totalSamples
  let calls := callTool clock calls "read_topn_hotspots" (.dict [("limit", .int 15)])
    (.list (topnPayload.map TopnEvidence.value))
  let hotPaths := readHotPaths stats.hotPaths
  let calls := callTool clock calls "read_hot_paths" (.dict [("limit", .int 5)])
    (.list (hotPaths.map PathEvidence.value))
  let concentration :=
    { totalSamples := stats.totalSamples, totalFunctions := stats.totalFunctions
      concentration := stats.concentration : ConcentrationEvidence F }
  let calls := callTool clock calls "read_concentration"
    (.dict [("stats", .list [.str "top_pct", .str "gini"])]) concentration.value
  let rules := readRuleHits ruleSuggestions
  let calls := callTool clock calls "read_rule_hits" (.dict [("limit", .int 10)])
    (.list (rules.map RuleEvidence.value))
  ({ tid := tid, metadata := metadata, topnHotspots := topnPayload, hotPaths := hotPaths
     concentration := concentration, ruleHits := rules }, calls)

end Tools

/-! ## Reports -/

/-- `\d`. -/
def isReDigit (c : Char) : Bool := (Python.digit? c).isSome

/-- The evidence that is cited where the text begins with a match of the pattern
`\[E\d+(?:\.\d+)?\]`. -/
def citationHere : List Char → Option String
  | '[' :: 'E' :: s =>
    let number := s.takeWhile isReDigit
    if number = [] then none
    else match s.dropWhile isReDigit with
      | ']' :: _ => some (String.ofList ('E' :: number))
      | '.' :: s =>
        let part := s.takeWhile isReDigit
        match s.dropWhile isReDigit with
        | ']' :: _ => if part = [] then none else some (String.ofList ('E' :: number ++ '.' :: part))
        | _ => none
      | _ => none
  | _ => none

/-- The evidence that a text cites, from front to back. -/
def citations : List Char → List String
  | [] => []
  | c :: s => (citationHere (c :: s)).toList ++ citations s

def requiredSections : List String := ["## 证据", "## 结论", "## 可验证假设", "## 追加采集"]

def cite (ref : String) : List Char := '[' :: ref.toList ++ [']']

section Report

variable {F : Type} (text : NumberText F)

def evidenceLines (e : AttributionEvidence F) (topRef pathRef ruleRef : String) :
    List (List Char) :=
  ["- [E4] 总采样 ".toList ++ ((toString e.concentration.totalSamples).toList ++
    ("，Top1/Top3/Top5 占比分别为 ".toList ++
      ((text.print e.concentration.concentration.top1Pct).toList ++ ("%、".toList ++
        ((text.print e.concentration.concentration.top3Pct).toList ++ ("%、".toList ++
          ((text.print e.concentration.concentration.top5Pct).toList ++ ("%，Gini=".toList ++
            ((text.print e.concentration.concentration.giniCoefficient).toList ++
              "。".toList)))))))))] ++
  (match e.topnHotspots with
    | [] => []
    | top :: _ =>
      ["- ".toList ++ (cite topRef ++ (" Top1 热点函数 ".toList ++ (top.func.toList ++
        (" self=".toList ++ ((toString top.self).toList ++ ("，占比 ".toList ++
          ((text.print top.selfPct).toList ++ "%。".toList)))))))]) ++
  (match e.hotPaths with
    | [] => []
    | path :: _ =>
      ["- ".toList ++ (cite pathRef ++ (" 最热调用路径占比 ".toList ++
        ((text.print path.pct).toList ++ ("%，尾部调用链 ".toList ++
          (" -> ".toList.intercalate (path.stackTail.map String.toList) ++ "。".toList)))))]) ++
  (match e.ruleHits with
    | [] => []
    | rule :: _ =>
      ["- ".toList ++ (cite ruleRef ++ (" 规则命中 ".toList ++ (rule.func.toList ++
        (": ".toList ++ rule.advice.toList))))])

/-- `_build_rule_based_attribution`. -/
def buildRuleBasedAttribution (e : AttributionEvidence F) : List Char :=
  let topRef := (e.topnHotspots.head?.map TopnEvidence.evidenceId).getD "E2.1"
  let pathRef := (e.hotPaths.head?.map PathEvidence.evidenceId).getD "E3.1"
  let ruleRef := (e.ruleHits.head?.map RuleEvidence.evidenceId).getD "E5.1"
  let conclusionTarget := ((e.topnHotspots.head?.map TopnEvidence.func).getD "TopN 热点").toList
  "## 证据\n".toList ++ (['\n'].intercalate (evidenceLines text e topRef pathRef ruleRef) ++
    ("\n## 结论\n- 当前瓶颈优先怀疑集中在 ".toList ++ (conclusionTarget ++
      (" 及其所在热路径，该判断来自 ".toList ++ (cite topRef ++
        (" 和 [E4]；源码级根因仍需要代码/运行时证据确认。\n## 可验证假设\n- 若 ".toList ++
          (conclusionTarget ++
            (" 的自耗时来自锁、分配或循环计算，追加 off-CPU/内存分配/源码行级采样后应能在同一调用链复现热点 ".toList ++
              (cite topRef ++
                ("。\n## 追加采集\n- 追加更长时长 CPU 采样和源码行号采样，必要时叠加 off-CPU 或内存分配采集，用于验证 ".toList ++
                  (cite pathRef ++ " 与 [E4] 的集中度是否稳定。\n".toList)))))))))))

/-- The sections are all there, and something is cited. -/
def isEvidenceBound (content : List Char) : Bool :=
  requiredSections.all (fun part => part.toList <:+: content) && !(citations content).isEmpty

/-- `_ensure_evidence_bound_report`. -/
def ensureEvidenceBoundReport (content : String) (e : AttributionEvidence F) : List Char :=
  let content := Python.strip content.toList
  if isEvidenceBound content then content
  else
    let fallback := buildRuleBasedAttribution text e
    if content = [] then fallback
    else content ++ ("\n\n## 证据化兜底\n".toList ++ fallback)

end Report

end MiniDrop
