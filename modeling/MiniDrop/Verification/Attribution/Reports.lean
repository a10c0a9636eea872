import MiniDrop.Verification.Attribution.Citations
import MiniDrop.Verification.Attribution.Evidence

/-! # What the reports cite

What the model writes is not checked against the evidence, and the report by rule cites the first
function and the first path even where there is none. -/

namespace MiniDrop

/-! ## The report by rule -/

section Fallback

variable {F : Type} (text : NumberText F)

theorem citations_print (x : F) : citations (text.print x).toList = [] :=
  citations_of_notMem (text.plain x)

theorem citations_join (frames : List String) :
    citations (" -> ".toList.intercalate (frames.map String.toList)) =
      frames.flatMap fun frame => citations frame.toList := by
  rw [citations_intercalate (by decide) (by decide), List.flatMap_map]

/-- The texts that the report by rule quotes. -/
def quotes (e : AttributionEvidence F) : List String :=
  (e.topnHotspots.head?.map TopnEvidence.func).toList ++
    (e.hotPaths.head?.map PathEvidence.stackTail).getD [] ++
      (e.ruleHits.head?.map fun rule => [rule.func, rule.advice]).getD []

/-- One of these texts cites this. -/
def Quoted (texts : List String) (ref : String) : Prop :=
  ∃ quote ∈ texts, ref ∈ citations quote.toList

theorem quoted_append (texts texts' : List String) (ref : String) :
    Quoted (texts ++ texts') ref ↔ Quoted texts ref ∨ Quoted texts' ref := by
  simp [Quoted, or_and_right, exists_or]

theorem citations_evidenceLines (e : AttributionEvidence F) :
    (evidenceLines text e "E2.1" "E3.1" "E5.1").flatMap citations =
      ["E4"] ++
      (match e.topnHotspots with
        | [] => []
        | top :: _ => "E2.1" :: citations top.func.toList) ++
      (match e.hotPaths with
        | [] => []
        | path :: _ => "E3.1" :: path.stackTail.flatMap fun frame => citations frame.toList) ++
      (match e.ruleHits with
        | [] => []
        | rule :: _ => "E5.1" :: (citations rule.func.toList ++ citations rule.advice.toList)) := by
  unfold evidenceLines
  rw [List.flatMap_append, List.flatMap_append, List.flatMap_append]
  congr 1
  · congr 1
    · congr 1
      · simp (disch := decide) only [List.flatMap_singleton, citations_append_phrase_append,
          citations_phrase_append, citations_append_phrase, citations_print, citations_toString]
        rfl
      · cases e.topnHotspots with
        | nil => rfl
        | cons top topn =>
            simp (disch := decide) only [List.flatMap_singleton, citations_append_phrase_append,
              citations_phrase_append, citations_append_phrase, citations_print, citations_toString,
              citations_of_notMem, List.nil_append, List.append_nil]
            rfl
    · cases e.hotPaths with
      | nil => rfl
      | cons path paths =>
          simp (disch := decide) only [List.flatMap_singleton, citations_append_phrase_append,
            citations_phrase_append, citations_append_phrase, citations_print, citations_join,
            citations_of_notMem, List.nil_append, List.append_nil]
          rfl
  · cases e.ruleHits with
    | nil => rfl
    | cons rule rules =>
        simp (disch := decide) only [List.flatMap_singleton, citations_append_phrase_append,
          citations_phrase_append, citations_of_notMem, List.nil_append]
        rfl

theorem mem_evidenceLines (e : AttributionEvidence F) (ref : String) :
    ref ∈ (evidenceLines text e "E2.1" "E3.1" "E5.1").flatMap citations ↔
      ref = "E4" ∨ (e.topnHotspots ≠ [] ∧ ref = "E2.1") ∨ (e.hotPaths ≠ [] ∧ ref = "E3.1") ∨
        (e.ruleHits ≠ [] ∧ ref = "E5.1") ∨ Quoted (quotes e) ref := by
  rw [citations_evidenceLines, quotes, quoted_append, quoted_append]
  obtain ⟨tid, metadata, topn, paths, concentration, rules⟩ := e
  have htop : ref ∈ (match topn with
        | [] => []
        | top :: _ => "E2.1" :: citations top.func.toList) ↔
      (topn ≠ [] ∧ ref = "E2.1") ∨ Quoted (topn.head?.map TopnEvidence.func).toList ref := by
    cases topn <;> simp [Quoted]
  have hpath : ref ∈ (match paths with
        | [] => []
        | path :: _ => "E3.1" :: path.stackTail.flatMap fun frame : String =>
            citations frame.toList) ↔
      (paths ≠ [] ∧ ref = "E3.1") ∨
        Quoted ((paths.head?.map PathEvidence.stackTail).getD []) ref := by
    cases paths <;> simp [Quoted]
  have hrule : ref ∈ (match rules with
        | [] => []
        | rule :: _ => "E5.1" :: (citations rule.func.toList ++ citations rule.advice.toList)) ↔
      (rules ≠ [] ∧ ref = "E5.1") ∨
        Quoted ((rules.head?.map fun rule => [rule.func, rule.advice]).getD []) ref := by
    cases rules <;> simp [Quoted]
  simp only [List.mem_append, List.mem_singleton, htop, hpath, hrule]
  grind

theorem mem_citations_target (e : AttributionEvidence F) (ref : String) :
    ref ∈ citations ((e.topnHotspots.head?.map TopnEvidence.func).getD "TopN 热点").toList →
      Quoted (quotes e) ref := by
  rw [quotes, quoted_append, quoted_append]
  cases e.topnHotspots with
  | nil =>
      rw [List.head?_nil, Option.map_none, Option.getD_none, citations_of_notMem (by decide)]
      exact fun h => absurd h List.not_mem_nil
  | cons top topn => exact fun h => Or.inl (Or.inl ⟨top.func, List.mem_singleton_self _, h⟩)

section References

variable {e : AttributionEvidence F}
  (htop : (e.topnHotspots.head?.map TopnEvidence.evidenceId).getD "E2.1" = "E2.1")
  (hpath : (e.hotPaths.head?.map PathEvidence.evidenceId).getD "E3.1" = "E3.1")
  (hrule : (e.ruleHits.head?.map RuleEvidence.evidenceId).getD "E5.1" = "E5.1")
include htop hpath hrule

theorem citations_fallback {target : List Char}
    (htarget : ((e.topnHotspots.head?.map TopnEvidence.func).getD "TopN 热点").toList = target) :
    citations (buildRuleBasedAttribution text e) =
      (evidenceLines text e "E2.1" "E3.1" "E5.1").flatMap citations ++
        (citations target ++ ("E2.1" :: "E4" :: (citations target ++ ["E2.1", "E3.1", "E4"]))) := by
  have hlines : citations (['\n'].intercalate (evidenceLines text e "E2.1" "E3.1" "E5.1")) =
      (evidenceLines text e "E2.1" "E3.1" "E5.1").flatMap citations :=
    citations_intercalate (by decide) (by decide) _
  unfold buildRuleBasedAttribution
  simp (disch := decide +kernel) only [htop, hpath, hrule, htarget, hlines,
    citations_append_phrase_append, citations_phrase_append, citations_of_notMem, List.nil_append]
  rfl

/-- The report by rule cites the first of each kind, and what its quotes cite. -/
theorem mem_citations_fallback (ref : String) :
    ref ∈ citations (buildRuleBasedAttribution text e) ↔
      ref = "E2.1" ∨ ref = "E3.1" ∨ ref = "E4" ∨ (e.ruleHits ≠ [] ∧ ref = "E5.1") ∨
        Quoted (quotes e) ref := by
  have htarget := mem_citations_target e ref
  rw [citations_fallback text htop hpath hrule rfl]
  simp only [List.mem_append, List.mem_cons, List.not_mem_nil, mem_evidenceLines, or_false]
  grind

end References

theorem isInfix_append_of_right {part b : List Char} (h : part <:+: b) (a : List Char) :
    part <:+: a ++ b := h.trans (List.suffix_append a b).isInfix

theorem isInfix_phrase_append {part p : List Char} (h : part <:+: p) (b : List Char) :
    part <:+: p ++ b := h.trans (List.prefix_append p b).isInfix

theorem sections_fallback (e : AttributionEvidence F) :
    ∀ part ∈ requiredSections, part.toList <:+: buildRuleBasedAttribution text e := by
  intro part hpart
  have hsections : part = "## 证据" ∨ part = "## 结论" ∨ part = "## 可验证假设" ∨ part = "## 追加采集" := by
    simpa [requiredSections] using hpart
  unfold buildRuleBasedAttribution
  rcases hsections with rfl | rfl | rfl | rfl
  · exact isInfix_phrase_append (by decide +kernel) _
  · iterate 2 apply isInfix_append_of_right
    exact isInfix_phrase_append (by decide +kernel) _
  · iterate 6 apply isInfix_append_of_right
    exact isInfix_phrase_append (by decide +kernel) _
  · iterate 10 apply isInfix_append_of_right
    exact isInfix_phrase_append (by decide +kernel) _

theorem ensure_of_bound {content : String} (e : AttributionEvidence F)
    (hbound : isEvidenceBound (Python.strip content.toList) = true) :
    ensureEvidenceBoundReport text content e = Python.strip content.toList := by
  simp only [ensureEvidenceBoundReport, hbound, if_true]

theorem ensure_of_not_bound {content : String} (e : AttributionEvidence F)
    (hbound : isEvidenceBound (Python.strip content.toList) = false) :
    ensureEvidenceBoundReport text content e =
      if Python.strip content.toList = [] then buildRuleBasedAttribution text e
      else Python.strip content.toList ++
        ("\n\n## 证据化兜底\n".toList ++ buildRuleBasedAttribution text e) := by
  simp only [ensureEvidenceBoundReport, hbound, Bool.false_eq_true, if_false]

/-- The sections are all there, by the model or by rule. -/
theorem sections_ensure (content : String) (e : AttributionEvidence F) :
    ∀ part ∈ requiredSections, part.toList <:+: ensureEvidenceBoundReport text content e := by
  intro part hpart
  cases hbound : isEvidenceBound (Python.strip content.toList) with
  | true =>
      rw [ensure_of_bound text e hbound]
      have hall := (Bool.and_eq_true_iff.mp hbound).1
      exact of_decide_eq_true (List.all_eq_true.mp hall part hpart)
  | false =>
      have hfallback := sections_fallback text e part hpart
      rw [ensure_of_not_bound text e hbound]
      split
      · exact hfallback
      · exact isInfix_append_of_right (isInfix_append_of_right hfallback _) _

theorem citations_ensure_of_not_bound {content : String} (e : AttributionEvidence F)
    (hbound : isEvidenceBound (Python.strip content.toList) = false) :
    citations (ensureEvidenceBoundReport text content e) =
      citations (Python.strip content.toList) ++ citations (buildRuleBasedAttribution text e) := by
  rw [ensure_of_not_bound text e hbound]
  split
  · next hempty => rw [hempty]; rfl
  · have hphrase : IsPhrase "\n\n## 证据化兜底\n".toList := by decide
    rw [citations_append_phrase_append hphrase, citations_phrase_append hphrase]
    rfl

end Fallback

/-! ## The evidence of an input -/

section Built

variable {F : Type} (ops : Floats F) (text : NumberText F) (clock : ℕ → String) (tid : String)
  (topn : List HotFunction) (counts : Dict String ℤ) (taskMeta : Dict String MetaValue)
  (ruleSuggestions : List RuleSuggestion)

/-- The evidence and the calls for these samples. -/
def attributionOf : AttributionEvidence F × List (ToolCall F) :=
  buildAttributionEvidence ops clock tid topn (computeFlameStats ops counts topn 5) taskMeta
    ruleSuggestions

/-- The hot paths are left out of empty statistics. -/
def pathsKept : ℕ := if counts.sum = 0 ∨ topn = [] then 0 else min 5 counts.entries.length

/-- The ids that there are. -/
def knownIds : List String :=
  "E1" :: (numbered "E2." (min 15 topn.length) ++ (numbered "E3." (pathsKept topn counts) ++
    "E4" :: numbered "E5." (min 10 ruleSuggestions.length)))

theorem nodup_knownIds : (knownIds topn counts ruleSuggestions).Nodup := by
  have hnot : ∀ {evidenceId kind : String} {n : ℕ}, ¬kind.toList <+: evidenceId.toList →
      evidenceId ∉ numbered kind n := fun h hmem => h (prefix_of_mem_numbered hmem)
  have hcons : ∀ {evidenceId kind : String} {ids : List String} {n : ℕ},
      ¬kind.toList <+: evidenceId.toList → (numbered kind n).Disjoint ids →
        (numbered kind n).Disjoint (evidenceId :: ids) :=
    fun h hdisjoint => List.disjoint_cons_right.mpr ⟨hnot h, hdisjoint⟩
  have hrules : ("E4" :: numbered "E5." (min 10 ruleSuggestions.length)).Nodup :=
    List.nodup_cons.mpr ⟨hnot (by decide), nodup_numbered _ _⟩
  have hpaths := List.nodup_append'.mpr ⟨nodup_numbered "E3." (pathsKept topn counts), hrules,
    hcons (by decide) (@disjoint_numbered "E3." "E5." rfl (by decide) _ _)⟩
  have htopn := List.nodup_append'.mpr ⟨nodup_numbered "E2." (min 15 topn.length), hpaths,
    List.disjoint_append_right.mpr ⟨@disjoint_numbered "E2." "E3." rfl (by decide) _ _,
      hcons (by decide) (@disjoint_numbered "E2." "E5." rfl (by decide) _ _)⟩⟩
  refine List.nodup_cons.mpr ⟨?_, htopn⟩
  rw [List.mem_append, List.mem_append, List.mem_cons, not_or, not_or, not_or]
  exact ⟨hnot (by decide), hnot (by decide), by decide, hnot (by decide)⟩

theorem map_topnHotspots (totalSamples : ℤ) :
    (readTopnHotspots ops topn totalSamples).map TopnEvidence.evidenceId =
      numbered "E2." (min 15 topn.length) := by
  rw [readTopnHotspots, map_zipIdx_eq_numbered fun _ _ => rfl, List.length_take]

theorem map_hotPaths :
    (readHotPaths (computeFlameStats ops counts topn 5).hotPaths).map PathEvidence.evidenceId =
      numbered "E3." (pathsKept topn counts) := by
  rw [readHotPaths, map_zipIdx_eq_numbered fun _ _ => rfl, List.length_take, pathsKept,
    computeFlameStats]
  split
  · rfl
  · simp only [extractHotPaths, List.length_map, List.length_take, List.length_mergeSort]
    congr 1
    omega

theorem map_ruleHits : (readRuleHits ruleSuggestions).map RuleEvidence.evidenceId =
    numbered "E5." (min 10 ruleSuggestions.length) := by
  rw [readRuleHits, map_zipIdx_eq_numbered fun _ _ => rfl, List.length_take]

theorem evidenceIds_attributionOf :
    evidenceIds (attributionOf ops clock tid topn counts taskMeta ruleSuggestions).1.value =
      knownIds topn counts ruleSuggestions := by
  rw [attributionOf, buildAttributionEvidence, AttributionEvidence.value, evidenceIds, knownIds]
  simp only [ownId, Dict.lookup, fieldIds, evidenceIds_metadata,
    evidenceIds_list evidenceIds_topn, evidenceIds_list evidenceIds_path,
    evidenceIds_concentration, evidenceIds_list evidenceIds_rule, map_topnHotspots, map_hotPaths,
    map_ruleHits]
  simp

/-- The calls hold the ids of their results. -/
theorem flatMap_calls :
    (attributionOf ops clock tid topn counts taskMeta ruleSuggestions).2.flatMap
      ToolCall.evidenceIds = knownIds topn counts ruleSuggestions := by
  have hmetadata : extractEvidenceIds ((readCollectionMetadata clock tid taskMeta).value (F := F)) =
      ["E1"] := by
    rw [extractEvidenceIds_eq (by rw [evidenceIds_metadata]; decide), evidenceIds_metadata]
  have hconcentration : ∀ e : ConcentrationEvidence F, extractEvidenceIds e.value = ["E4"] := by
    intro e
    rw [extractEvidenceIds_eq (by rw [evidenceIds_concentration]; decide),
      evidenceIds_concentration]
  simp only [attributionOf, buildAttributionEvidence, callTool, List.nil_append,
    List.flatMap_append, List.flatMap_singleton, hmetadata, hconcentration,
    extractEvidenceIds_list evidenceIds_topn (map_topnHotspots ..) (nodup_numbered ..),
    extractEvidenceIds_list evidenceIds_path (map_hotPaths ..) (nodup_numbered ..),
    extractEvidenceIds_list evidenceIds_rule (map_ruleHits _) (nodup_numbered ..), knownIds]
  simp

/-! ## What the reports cite -/

/-- The samples of the heaviest stack are the first hot path. -/
def heaviestTail : List String :=
  let frames := ((counts.entries.mergeSort fun e f => f.2 ≤ e.2).head?.map fun e =>
    framesOf e.1.toList).getD []
  frames.drop (frames.length - 5)

def ruleQuotes (s : RuleSuggestion) : List String :=
  [s.func.getD "", match s.advice with
    | none | some "" => s.suggestion.getD ""
    | some advice => advice]

/-- The names and texts of the input that the report by rule quotes. -/
def quotesOf : List String :=
  (topn.head?.map HotFunction.func).toList ++ heaviestTail counts ++
    (ruleSuggestions.head?.map ruleQuotes).getD []

theorem quotes_attributionOf (hsum : counts.sum ≠ 0) (htopn : topn ≠ []) :
    quotes (attributionOf ops clock tid topn counts taskMeta ruleSuggestions).1 =
      quotesOf topn counts ruleSuggestions := by
  have hstats : (computeFlameStats ops counts topn 5).hotPaths = extractHotPaths ops counts 5 := by
    rw [computeFlameStats, if_neg (not_or.mpr ⟨hsum, htopn⟩)]
  have hfunc : ∀ n, (readTopnHotspots ops topn n).head?.map TopnEvidence.func =
      topn.head?.map HotFunction.func := by
    cases topn <;> exact fun _ => rfl
  have htail : ((readHotPaths (extractHotPaths ops counts 5)).head?.map
      PathEvidence.stackTail).getD [] = heaviestTail counts := by
    rw [extractHotPaths, heaviestTail]
    cases counts.entries.mergeSort fun e f => f.2 ≤ e.2 <;> rfl
  have hrule : (readRuleHits ruleSuggestions).head?.map (fun rule => [rule.func, rule.advice]) =
      ruleSuggestions.head?.map ruleQuotes := by
    cases ruleSuggestions <;> rfl
  rw [quotes, quotesOf, ← htail, ← hrule, ← hfunc, ← hstats]
  rfl

/-- All citations of a text are known. -/
def CitesOnly (ids : List String) (s : List Char) : Prop := ∀ ref ∈ citations s, ref ∈ ids

/-- The ids are distinct, the calls hold them all, and the report has its sections and cites
nothing else. -/
structure CitesEvidence (evidence : AttributionEvidence F) (calls : List (ToolCall F))
    (report : List Char) : Prop where
  distinct : (evidenceIds evidence.value).Nodup
  called : calls.flatMap ToolCall.evidenceIds = evidenceIds evidence.value
  sections : ∀ part ∈ requiredSections, part.toList <:+: report
  closed : CitesOnly (evidenceIds evidence.value) report

theorem citesOnly_append (ids : List String) (a b c : List Char)
    (h : citations a = citations b ++ citations c) :
    CitesOnly ids a ↔ CitesOnly ids b ∧ CitesOnly ids c := by
  simp only [CitesOnly, h, List.mem_append, or_imp, forall_and]

/-- There is a hot path if there are samples of a function. -/
theorem pathsKept_ne_zero : pathsKept topn counts ≠ 0 ↔ counts.sum ≠ 0 ∧ topn ≠ [] := by
  rw [pathsKept, ← not_or]
  split
  · next h => simp [h]
  · next h =>
    have hentries : counts.entries ≠ [] := by
      intro hempty
      exact h (Or.inl (by rw [Dict.sum, hempty]; rfl))
    have hlength := List.length_pos_iff.mpr hentries
    simp only [h, not_false_eq_true, iff_true]
    omega

theorem mem_knownIds (ref : String) :
    ref ∈ knownIds topn counts ruleSuggestions ↔
      ref = "E1" ∨ ref ∈ numbered "E2." (min 15 topn.length) ∨
        ref ∈ numbered "E3." (pathsKept topn counts) ∨ ref = "E4" ∨
          ref ∈ numbered "E5." (min 10 ruleSuggestions.length) := by
  simp only [knownIds, List.mem_cons, List.mem_append]

theorem mem_knownIds_path :
    "E3.1" ∈ knownIds topn counts ruleSuggestions ↔ counts.sum ≠ 0 ∧ topn ≠ [] := by
  have hnot : ∀ {kind : String} {n : ℕ}, ¬kind.toList <+: "E3.1".toList →
      "E3.1" ∉ numbered kind n := fun h hmem => h (prefix_of_mem_numbered hmem)
  have hpath : "E3.1" ∈ numbered "E3." (pathsKept topn counts) ↔ pathsKept topn counts ≠ 0 :=
    mem_numbered_one
  rw [mem_knownIds, ← pathsKept_ne_zero, ← hpath]
  have htopn : "E3.1" ∉ numbered "E2." (min 15 topn.length) := hnot (by decide)
  have hrules : "E3.1" ∉ numbered "E5." (min 10 ruleSuggestions.length) := hnot (by decide)
  simp [htopn, hrules]

/-- The report by rule is closed where there are a function and a path to cite. -/
theorem citesOnly_fallback :
    CitesOnly (knownIds topn counts ruleSuggestions) (buildRuleBasedAttribution text
      (attributionOf ops clock tid topn counts taskMeta ruleSuggestions).1) ↔
    counts.sum ≠ 0 ∧ topn ≠ [] ∧ ∀ quote ∈ quotesOf topn counts ruleSuggestions,
      CitesOnly (knownIds topn counts ruleSuggestions) quote.toList := by
  have hcites := mem_citations_fallback text
    (e := (attributionOf ops clock tid topn counts taskMeta ruleSuggestions).1)
    (by
      rw [← List.head?_map]
      exact (congrArg (fun ids => ids.head?.getD "E2.1") (map_topnHotspots ..)).trans
        (head?_numbered "E2." _))
    (by
      rw [← List.head?_map]
      exact (congrArg (fun ids => ids.head?.getD "E3.1") (map_hotPaths ..)).trans
        (head?_numbered "E3." _))
    (by
      rw [← List.head?_map]
      exact (congrArg (fun ids => ids.head?.getD "E5.1") (map_ruleHits _)).trans
        (head?_numbered "E5." _))
  have hquotes := quotes_attributionOf ops clock tid topn counts taskMeta ruleSuggestions
  have hpath := mem_knownIds_path topn counts ruleSuggestions
  constructor
  · intro h
    obtain ⟨hsum, htopn⟩ := hpath.mp (h _ ((hcites _).mpr (Or.inr (Or.inl rfl))))
    refine ⟨hsum, htopn, fun quote hquote ref href => h ref ((hcites ref).mpr ?_)⟩
    exact Or.inr (Or.inr (Or.inr (Or.inr ⟨quote, hquotes hsum htopn ▸ hquote, href⟩)))
  · rintro ⟨hsum, htopn, h⟩ ref href
    rcases (hcites ref).mp href with rfl | rfl | rfl | ⟨hrules, rfl⟩ | ⟨quote, hquote, href⟩
    · have hlength := List.length_pos_iff.mpr htopn
      exact (mem_knownIds ..).mpr (Or.inr (Or.inl (mem_numbered_one.mpr (by omega))))
    · exact hpath.mpr ⟨hsum, htopn⟩
    · exact (mem_knownIds ..).mpr (Or.inr (Or.inr (Or.inr (Or.inl rfl))))
    · have hlength : min 10 ruleSuggestions.length ≠ 0 := by
        intro hzero
        have hids := map_ruleHits ruleSuggestions
        rw [hzero] at hids
        exact hrules (List.map_eq_nil_iff.mp hids)
      exact (mem_knownIds ..).mpr (Or.inr (Or.inr (Or.inr (Or.inr (mem_numbered_one.mpr hlength)))))
    · exact h quote (hquotes hsum htopn ▸ hquote) ref href

/-- A report cites only existing evidence if and only if what the model wrote does and, where the
report by rule is used, there is a path and the quoted names and texts cite nothing else. -/
theorem citesEvidence_iff (content : String) :
    CitesEvidence (attributionOf ops clock tid topn counts taskMeta ruleSuggestions).1
      (attributionOf ops clock tid topn counts taskMeta ruleSuggestions).2
      (ensureEvidenceBoundReport text content
        (attributionOf ops clock tid topn counts taskMeta ruleSuggestions).1) ↔
    CitesOnly (knownIds topn counts ruleSuggestions) (Python.strip content.toList) ∧
      (isEvidenceBound (Python.strip content.toList) = false →
        counts.sum ≠ 0 ∧ topn ≠ [] ∧ ∀ quote ∈ quotesOf topn counts ruleSuggestions,
          CitesOnly (knownIds topn counts ruleSuggestions) quote.toList) := by
  have hids := evidenceIds_attributionOf ops clock tid topn counts taskMeta ruleSuggestions
  have hcalls := flatMap_calls ops clock tid topn counts taskMeta ruleSuggestions
  rw [← citesOnly_fallback ops text clock tid topn counts taskMeta ruleSuggestions]
  generalize attributionOf ops clock tid topn counts taskMeta ruleSuggestions = built at *
  have hclosed : CitesOnly (knownIds topn counts ruleSuggestions)
      (ensureEvidenceBoundReport text content built.1) ↔
      CitesOnly (knownIds topn counts ruleSuggestions) (Python.strip content.toList) ∧
        (isEvidenceBound (Python.strip content.toList) = false →
          CitesOnly (knownIds topn counts ruleSuggestions)
            (buildRuleBasedAttribution text built.1)) := by
    cases hbound : isEvidenceBound (Python.strip content.toList) with
    | true => simp [ensure_of_bound text built.1 hbound]
    | false =>
        simp [citesOnly_append _ _ _ _ (citations_ensure_of_not_bound text built.1 hbound)]
  rw [← hclosed]
  constructor
  · exact fun h => hids ▸ h.closed
  · intro h
    exact ⟨hids ▸ nodup_knownIds topn counts ruleSuggestions, hcalls.trans hids.symm,
      sections_ensure text content built.1, hids ▸ h⟩

end Built

/-- Nothing was sampled: what the model cites is kept, and the report by rule cites a function. -/
theorem not_citesEvidence :
    let ops : Floats Unit := ⟨fun _ => (), fun _ _ => (), fun _ _ => (), fun _ _ => (),
      fun _ _ => false, fun _ _ => ()⟩
    let text : NumberText Unit := ⟨fun _ => "0", fun _ => by decide⟩
    let built := attributionOf ops (fun _ => "2026-01-01T00:00:00Z") "t1" [] {} {} []
    ¬CitesEvidence built.1 built.2 (ensureEvidenceBoundReport text
        "## 证据\n- [E99] cpu\n## 结论\n## 可验证假设\n## 追加采集\n" built.1) ∧
      ¬CitesEvidence built.1 built.2 (ensureEvidenceBoundReport text "" built.1) := by
  intro ops text built
  have hids : evidenceIds built.1.value = ["E1", "E4"] := by decide +kernel
  constructor
  · intro h
    have hcited := h.closed "E99" (by decide +kernel)
    rw [hids] at hcited
    exact absurd hcited (by decide)
  · intro h
    have hcited := h.closed "E2.1" (by decide +kernel)
    rw [hids] at hcited
    exact absurd hcited (by decide)

end MiniDrop
