import Mathlib.Data.List.Nodup
import MiniDrop.Model.Descriptions
import MiniDrop.Verification.Backend.Collectors

/-! # What the words of a description ask for

The rules look for their keywords anywhere in the text, in longer words as well, and the rule for
pprof comes before the one for its heap profile. -/

namespace MiniDrop

/-! ## Statement -/

/-- The text has no keyword for a continuous task. -/
def OneShotText (text : String) : Prop :=
  ∀ keyword ∈ ["常驻", "持续", "连续", "continuous", "过去", "最近", "一小时", "1小时", "半小时"],
    mentionsIn text keyword = false

/-- The keyword occurs in the text, and where it begins or ends with a letter, there is no other
letter next to it. -/
def OccursAsWord (keyword text : List Char) : Prop :=
  ∃ i ∈ List.range (text.length + 1), keyword <+: text.drop i ∧
    ¬(keyword.head?.any Char.isAlpha ∧ (text.take i).getLast?.any Char.isAlpha) ∧
      ¬(keyword.getLast?.any Char.isAlpha ∧
        (text.drop (i + keyword.length)).head?.any Char.isAlpha)

instance (keyword text : List Char) : Decidable (OccursAsWord keyword text) :=
  inferInstanceAs (Decidable (∃ i ∈ List.range (text.length + 1), _))

/-- The keyword is a word of the text; one that is not in ASCII may be anywhere. -/
def isWordIn (text keyword : String) : Bool := OccursAsWord keyword.toList (lowered text)

/-- A rule for the type, which wants a keyword of each group. -/
structure IntentRule where
  type : ℤ
  groups : List (List String)

namespace IntentRule

def java : IntentRule := ⟨1, [["java", "jvm", "async", "线程"]]⟩

def pprof : IntentRule := ⟨10, [["pprof", "goroutine", "go ", "golang"]]⟩

def heap : IntentRule := ⟨11, [["heap", "堆", "内存快照"], ["go", "pprof"]]⟩

def all : List IntentRule :=
  [java, pprof, heap,
    ⟨6, [["io", "i/o", "磁盘", "块设备", "延迟", "抖动", "sched", "调度"]]⟩,
    ⟨4, [["memray", "python 内存", "python内存", "分配", "泄漏", "leak"]]⟩,
    ⟨5, [["rss", "资源", "cpu 使用率", "内存使用率", "读写速率"]]⟩]

/-- Each group has a keyword that is there. -/
def Matches (rule : IntentRule) (there : String → Bool) : Prop :=
  ∀ group ∈ rule.groups, group.any there = true

instance (rule : IntentRule) (there : String → Bool) : Decidable (rule.Matches there) :=
  inferInstanceAs (Decidable (∀ group ∈ rule.groups, _))

/-- The type of the first rule that matches, or the default. -/
def typeOf (there : String → Bool) : ℤ :=
  ((all.find? fun rule => rule.Matches there).map IntentRule.type).getD 0

end IntentRule

/-- What the words of a text decide for a plan. -/
structure WordsDecide (text : String) (plan : NaturalLanguageTaskPlan) : Prop where
  named : plan.type ≠ 0 → ∃ rule ∈ IntentRule.all, rule.type = plan.type ∧
    ∃ keyword ∈ rule.groups.flatten, isWordIn text keyword = true
  determined : plan.type = IntentRule.typeOf (isWordIn text)
  heap : isWordIn text "pprof" = true → isWordIn text "heap" = true →
    ¬IntentRule.java.Matches (isWordIn text) → plan.type = 11

/-- The plans for a text in one-shot mode follow its words. -/
def FollowsWords (text : String) : Prop :=
  ∀ (req : NaturalLanguageTaskReq) (firstAgent : String), req.text.mentions = mentionsIn text →
    (buildNaturalLanguagePlan req firstAgent).mode = .oneshot →
      WordsDecide text (buildNaturalLanguagePlan req firstAgent)

/-- The text selects the type in one-shot mode. -/
def SelectsType (text : String) (type : ℤ) : Prop :=
  ∀ (req : NaturalLanguageTaskReq) (firstAgent : String), req.text.mentions = mentionsIn text →
    (buildNaturalLanguagePlan req firstAgent).mode = .oneshot ∧
      (buildNaturalLanguagePlan req firstAgent).type = type

/-! ## The condition -/

/-- No rule before the first one that the words match has its keywords inside of longer words, and
the words do not ask for a heap profile of pprof. -/
structure NamesIntent (text : String) : Prop where
  words : ∀ rule ∈ IntentRule.all.takeWhile fun rule => ¬rule.Matches (isWordIn text),
    ¬rule.Matches (mentionsIn text)
  other : isWordIn text "pprof" = true → isWordIn text "heap" = true →
    IntentRule.java.Matches (isWordIn text)

/-! ## Words and parts of words -/

theorem infix_of_occursAsWord {keyword text : List Char} (h : OccursAsWord keyword text) :
    keyword <:+: text := by
  obtain ⟨i, -, hprefix, -, -⟩ := h
  exact hprefix.isInfix.trans (List.drop_suffix i text).isInfix

/-- What is a word of the text is in the text. -/
theorem mentionsIn_of_isWordIn {text keyword : String} (h : isWordIn text keyword = true) :
    mentionsIn text keyword = true :=
  decide_eq_true (infix_of_occursAsWord (of_decide_eq_true h))

theorem IntentRule.Matches.mono {rule : IntentRule} {there there' : String → Bool}
    (h : rule.Matches there) (himp : ∀ keyword, there keyword = true → there' keyword = true) :
    rule.Matches there' := by
  intro group hgroup
  obtain ⟨keyword, hmem, hthere⟩ := List.any_eq_true.mp (h group hgroup)
  exact List.any_eq_true.mpr ⟨keyword, hmem, himp keyword hthere⟩

theorem IntentRule.Matches.mentions {rule : IntentRule} {text : String}
    (h : rule.Matches (isWordIn text)) : rule.Matches (mentionsIn text) :=
  h.mono fun _ => mentionsIn_of_isWordIn

/-! ## The first rule -/

/-- Two searches of which one finds more agree if it finds nothing more before the other does. -/
theorem find?_eq_find?_iff {α : Type*} {p q : α → Bool} (himp : ∀ a, q a = true → p a = true)
    (l : List α) : l.find? p = l.find? q ↔ ∀ a ∈ l.takeWhile fun a => !q a, p a = false := by
  induction l with
  | nil => simp
  | cons a l ih =>
      rw [List.find?_cons, List.find?_cons, List.takeWhile_cons]
      cases hq : q a with
      | true => simp [himp a hq]
      | false =>
          cases hp : p a with
          | false => simpa [hp] using ih
          | true =>
              simp only [Bool.not_false, if_true, List.forall_mem_cons, hp, Bool.true_eq_false,
                false_and, iff_false]
              intro hfound
              exact absurd (List.find?_some hfound.symm) (by simp [hq])

namespace IntentRule

theorem eq_of_type_eq {rule rule' : IntentRule} (hrule : rule ∈ all) (hrule' : rule' ∈ all)
    (h : rule.type = rule'.type) : rule = rule' := by
  have hnodup : (all.map type).Nodup := by decide
  exact List.inj_on_of_nodup_map hnodup hrule hrule' h

theorem type_ne_zero {rule : IntentRule} (hrule : rule ∈ all) : rule.type ≠ 0 := by
  have hne : ∀ rule ∈ all, rule.type ≠ 0 := by decide
  exact hne rule hrule

/-- The choice depends on the keywords of the rules only. -/
theorem typeOf_congr {there there' : String → Bool}
    (h : ∀ rule ∈ all, ∀ keyword ∈ rule.groups.flatten, there keyword = there' keyword) :
    typeOf there = typeOf there' := by
  have hmatches : ∀ rule ∈ all, rule.Matches there ↔ rule.Matches there' := by
    intro rule hrule
    refine forall₂_congr fun group hgroup => ?_
    rw [List.any_eq_true, List.any_eq_true]
    refine exists_congr fun keyword => and_congr_right fun hkeyword => ?_
    rw [h rule hrule keyword (List.mem_flatten.mpr ⟨group, hgroup, hkeyword⟩)]
  unfold typeOf
  rw [← List.head?_filter, ← List.head?_filter,
    List.filter_congr fun rule hrule => decide_eq_decide.mpr (hmatches rule hrule)]

/-- The type tells the rule. -/
theorem typeOf_eq_iff {there there' : String → Bool} : typeOf there = typeOf there' ↔
    (all.find? fun rule => rule.Matches there) = all.find? fun rule => rule.Matches there' := by
  refine ⟨fun h => ?_, fun h => by rw [typeOf, typeOf, h]⟩
  unfold typeOf at h
  cases hfound : all.find? fun rule => rule.Matches there with
  | none =>
      cases hfound' : all.find? fun rule => rule.Matches there' with
      | none => rfl
      | some rule' =>
          rw [hfound, hfound'] at h
          exact absurd h.symm (type_ne_zero (List.mem_of_find?_eq_some hfound'))
  | some rule =>
      cases hfound' : all.find? fun rule => rule.Matches there' with
      | none =>
          rw [hfound, hfound'] at h
          exact absurd h (type_ne_zero (List.mem_of_find?_eq_some hfound))
      | some rule' =>
          rw [hfound, hfound'] at h
          exact congrArg some (eq_of_type_eq (List.mem_of_find?_eq_some hfound)
            (List.mem_of_find?_eq_some hfound') h)

/-- Keywords and words choose one type if and only if no rule matches by keywords before the words
do. -/
theorem typeOf_mentionsIn_eq_iff (text : String) :
    typeOf (mentionsIn text) = typeOf (isWordIn text) ↔
      ∀ rule ∈ all.takeWhile fun rule => ¬rule.Matches (isWordIn text),
        ¬rule.Matches (mentionsIn text) := by
  have himp : ∀ rule : IntentRule, decide (rule.Matches (isWordIn text)) = true →
      decide (rule.Matches (mentionsIn text)) = true := by
    intro rule h
    exact decide_eq_true (of_decide_eq_true h : rule.Matches _).mentions
  rw [typeOf_eq_iff, find?_eq_find?_iff himp]
  simp only [decide_eq_false_iff_not, decide_not]

/-- The type that a word stands for names a rule of it. -/
theorem named_of_typeOf_ne_zero {there : String → Bool} (h : typeOf there ≠ 0) :
    ∃ rule ∈ all, rule.type = typeOf there ∧ ∃ keyword ∈ rule.groups.flatten,
      there keyword = true := by
  unfold typeOf at h ⊢
  cases hfound : all.find? fun rule => rule.Matches there with
  | none => simp [hfound] at h
  | some rule =>
      have hrule := List.mem_of_find?_eq_some hfound
      have hmatches : rule.Matches there := by simpa using List.find?_some hfound
      have hgroups : ∀ rule ∈ all, rule.groups ≠ [] := by decide
      obtain ⟨group, hgroup⟩ := List.exists_mem_of_ne_nil _ (hgroups rule hrule)
      obtain ⟨keyword, hkeyword, hthere⟩ := List.any_eq_true.mp (hmatches group hgroup)
      exact ⟨rule, hrule, rfl, keyword, List.mem_flatten.mpr ⟨group, hgroup, hkeyword⟩, hthere⟩

/-- Without a word for Java, pprof comes first. -/
theorem typeOf_of_pprof {there : String → Bool} (hpprof : there "pprof" = true)
    (hjava : ¬java.Matches there) : typeOf there = 10 := by
  have hmatches : pprof.Matches there := by
    intro group hgroup
    obtain rfl := List.mem_singleton.mp hgroup
    exact List.any_eq_true.mpr ⟨"pprof", by simp, hpprof⟩
  unfold typeOf all
  rw [List.find?_cons_of_neg (by simpa using hjava),
    List.find?_cons_of_pos (by simpa using hmatches)]
  rfl

end IntentRule

/-! ## The chain -/

namespace NaturalLanguageTaskPlan

/-- The chain takes the first rule that matches. -/
theorem type_chooseKind (d : Description) {plan : NaturalLanguageTaskPlan} (htype : plan.type = 0) :
    (plan.chooseKind d).type = IntentRule.typeOf d.mentions := by
  have hmatches : ∀ rule : IntentRule, decide (rule.Matches d.mentions) =
      rule.groups.all d.containsAny := by
    intro rule
    rw [Bool.eq_iff_iff, decide_eq_true_eq, List.all_eq_true]
    rfl
  unfold chooseKind IntentRule.typeOf IntentRule.all
  simp only [hmatches, List.find?_cons, List.find?_nil, IntentRule.java, IntentRule.pprof,
    IntentRule.heap, List.all_cons, List.all_nil, Bool.and_true]
  generalize d.containsAny ["java", "jvm", "async", "线程"] = java
  generalize d.containsAny ["pprof", "goroutine", "go ", "golang"] = pprof
  generalize (d.containsAny ["heap", "堆", "内存快照"] && d.containsAny ["go", "pprof"]) = heap
  generalize d.containsAny
    ["io", "i/o", "磁盘", "块设备", "延迟", "抖动", "sched", "调度"] = io
  generalize d.containsAny
    ["memray", "python 内存", "python内存", "分配", "泄漏", "leak"] = memray
  generalize d.containsAny ["rss", "资源", "cpu 使用率", "内存使用率", "读写速率"] = rss
  cases java <;> cases pprof <;> cases heap <;> cases io <;> cases memray <;> cases rss <;>
    first | rfl | exact htype

end NaturalLanguageTaskPlan

theorem type_settleContinuous {plan : NaturalLanguageTaskPlan}
    (hmode : plan.settleContinuous.missing.mode = .oneshot) :
    plan.settleContinuous.missing.type = plan.type := by
  unfold NaturalLanguageTaskPlan.settleContinuous at hmode ⊢
  split at hmode
  · next hcontinuous => exact absurd (hcontinuous.symm.trans hmode) (by decide)
  · next hone => rw [if_neg hone]; rfl

/-- A plan in one-shot mode has the type that the chain chooses. -/
theorem type_plan (req : NaturalLanguageTaskReq) (firstAgent : String)
    (hmode : (buildNaturalLanguagePlan req firstAgent).mode = .oneshot) :
    (buildNaturalLanguagePlan req firstAgent).type = IntentRule.typeOf req.text.mentions := by
  refine (type_settleContinuous hmode).trans
    (NaturalLanguageTaskPlan.type_chooseKind req.text ?_)
  unfold NaturalLanguageTaskPlan.chooseMode
  split <;> rfl

theorem mode_chooseKind (d : Description) (plan : NaturalLanguageTaskPlan) :
    (plan.chooseKind d).mode = plan.mode := by
  unfold NaturalLanguageTaskPlan.chooseKind
  repeat' split
  all_goals rfl

theorem mode_settleContinuous (plan : NaturalLanguageTaskPlan) :
    plan.settleContinuous.missing.mode = plan.mode := by
  unfold NaturalLanguageTaskPlan.settleContinuous
  split <;> rfl

/-- The mode goes by the keywords for a continuous task. -/
theorem mode_plan {text : String} (req : NaturalLanguageTaskReq) (firstAgent : String)
    (htext : req.text.mentions = mentionsIn text) :
    (buildNaturalLanguagePlan req firstAgent).mode = .oneshot ↔ OneShotText text := by
  unfold buildNaturalLanguagePlan
  rw [mode_settleContinuous, mode_chooseKind]
  unfold NaturalLanguageTaskPlan.chooseMode Description.containsAny OneShotText
  rw [htext]
  split
  · next h =>
      obtain ⟨keyword, hkeyword, hmentions⟩ := List.any_eq_true.mp h
      simp only [reduceCtorEq, false_iff]
      intro hone
      exact Bool.false_ne_true ((hone keyword hkeyword).symm.trans hmentions)
  · next h =>
      simp only [NaturalLanguageTaskPlan.readNumbers, true_iff]
      rw [Bool.not_eq_true, List.any_eq_false] at h
      exact fun keyword hkeyword => Bool.eq_false_iff.mpr (h keyword hkeyword)

/-! ## Plans and words -/

theorem followsWords_iff (text : String) :
    FollowsWords text ↔ (OneShotText text → NamesIntent text) := by
  constructor
  · intro h hone
    have hreq : (NaturalLanguageTaskReq.mk { mentions := mentionsIn text } "" 0).text.mentions =
        mentionsIn text := rfl
    have hplan := h _ "" hreq ((mode_plan _ "" hreq).mpr hone)
    have htype := type_plan _ "" ((mode_plan _ "" hreq).mpr hone)
    refine ⟨(IntentRule.typeOf_mentionsIn_eq_iff text).mp
      (htype.symm.trans hplan.determined), fun hpprof hheap => ?_⟩
    by_contra hjava
    have heleven := hplan.heap hpprof hheap hjava
    rw [hplan.determined, IntentRule.typeOf_of_pprof hpprof hjava] at heleven
    exact absurd heleven (by decide)
  · intro h req firstAgent htext hmode
    have hnames := h ((mode_plan req firstAgent htext).mp hmode)
    have htype : (buildNaturalLanguagePlan req firstAgent).type =
        IntentRule.typeOf (isWordIn text) := by
      rw [type_plan req firstAgent hmode, htext]
      exact (IntentRule.typeOf_mentionsIn_eq_iff text).mpr hnames.words
    refine ⟨fun hne => ?_, htype, fun hpprof hheap hjava => ?_⟩
    · rw [htype] at hne ⊢
      exact IntentRule.named_of_typeOf_ne_zero hne
    · exact absurd (hnames.other hpprof hheap) hjava

theorem selectsType_of_typeOf {text : String} {type : ℤ} (hone : OneShotText text)
    (htype : IntentRule.typeOf (mentionsIn text) = type) : SelectsType text type := by
  intro req firstAgent htext
  have hmode := (mode_plan req firstAgent htext).mpr hone
  exact ⟨hmode, by rw [type_plan req firstAgent hmode, htext, htype]⟩

/-- The choice follows the words exactly where they name it; then it depends on them only. Each
rule is reachable, and a plan is always consistent. -/
theorem intents (text : String) :
    (FollowsWords text ↔ (OneShotText text → NamesIntent text)) ∧
      (∀ text' type, NamesIntent text → NamesIntent text' → OneShotText text' →
        (∀ rule ∈ IntentRule.all, ∀ keyword ∈ rule.groups.flatten,
          isWordIn text keyword = isWordIn text' keyword) →
            SelectsType text type → SelectsType text' type) ∧
        (∀ type ∈ [1, 10, 11, 6, 4, 5], ∃ text, SelectsType text type) ∧
          ∀ (req : NaturalLanguageTaskReq) (firstAgent : String),
            (buildNaturalLanguagePlan req firstAgent).mode = .oneshot →
              (buildNaturalLanguagePlan req firstAgent).Labelled := by
  refine ⟨followsWords_iff text, fun text' type hnames hnames' hone' hsame hselects => ?_, ?_,
    fun req firstAgent => labelled_plan req firstAgent⟩
  · refine selectsType_of_typeOf hone' ?_
    have hreq : (NaturalLanguageTaskReq.mk { mentions := mentionsIn text } "" 0).text.mentions =
        mentionsIn text := rfl
    obtain ⟨hmode, htype⟩ := hselects _ "" hreq
    have hwords := (IntentRule.typeOf_mentionsIn_eq_iff text).mpr hnames.words
    have hwords' := (IntentRule.typeOf_mentionsIn_eq_iff text').mpr hnames'.words
    rw [← htype, type_plan _ "" hmode, hwords', ← IntentRule.typeOf_congr hsame, ← hwords]
  · simp only [List.forall_mem_cons, List.not_mem_nil, false_implies, implies_true, and_true]
    have hselects : ∀ pair ∈ [("java", 1), ("pprof", 10), ("heap go", 11), ("disk io", 6),
        ("leak", 4), ("rss", (5 : ℤ))], OneShotText pair.1 ∧
          IntentRule.typeOf (mentionsIn pair.1) = pair.2 := by
      unfold OneShotText
      decide +kernel
    simp only [List.forall_mem_cons, List.not_mem_nil, false_implies, implies_true,
      and_true] at hselects
    obtain ⟨hjava, hpprof, hheap, hio, hleak, hrss⟩ := hselects
    exact ⟨⟨_, selectsType_of_typeOf hjava.1 hjava.2⟩, ⟨_, selectsType_of_typeOf hpprof.1 hpprof.2⟩,
      ⟨_, selectsType_of_typeOf hheap.1 hheap.2⟩, ⟨_, selectsType_of_typeOf hio.1 hio.2⟩,
      ⟨_, selectsType_of_typeOf hleak.1 hleak.2⟩, ⟨_, selectsType_of_typeOf hrss.1 hrss.2⟩⟩

/-- A radio is taken for input and output, and a heap profile of pprof for a CPU profile. -/
theorem not_followsWords : ¬FollowsWords "cpu of the radio" ∧ ¬FollowsWords "pprof heap" := by
  rw [followsWords_iff, followsWords_iff]
  refine ⟨fun h => ?_, fun h => ?_⟩
  · have hone : OneShotText "cpu of the radio" := by unfold OneShotText; decide +kernel
    exact absurd (h hone).words (by decide +kernel)
  · have hone : OneShotText "pprof heap" := by unfold OneShotText; decide +kernel
    exact absurd (h hone).other (by decide +kernel)

end MiniDrop
