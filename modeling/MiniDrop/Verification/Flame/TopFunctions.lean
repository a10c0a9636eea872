import MiniDrop.Verification.Flame.Conservation

/-! # What the counts of the hot functions mean

A function is counted for every frame that names it, so a recursive stack counts more than once. -/

namespace MiniDrop

/-! ## The meaning -/

section Meaning

variable (counts : Dict String ℤ)

/-- The functions in which stacks end, as they come first. -/
def leafFunctions : List String :=
  (counts.entries.map fun entry => lastFrame entry.1).reverse.dedup.reverse

/-- The samples of the stacks that end in the function. -/
def samplesEndingIn (func : String) : ℤ :=
  ((counts.entries.filter fun entry => lastFrame entry.1 = func).map Prod.snd).sum

/-- The samples of the stacks that hold the function. -/
def samplesHolding (func : String) : ℤ :=
  ((counts.entries.filter fun entry => func ∈ framesOf entry.1.toList).map Prod.snd).sum

/-- The first functions by the samples that end in them; of equal ones the first come first. -/
def topFunctions (topK : ℕ) : List String :=
  ((leafFunctions counts).mergeSort fun f g => samplesEndingIn counts g ≤ samplesEndingIn counts f)
    |>.take topK

/-- The hot functions and their counts mean what they say. -/
structure CountsFunctions (topK : ℕ) : Prop where
  length : (analyzeTopn counts topK).length = min topK (leafFunctions counts).length
  distinct : ((analyzeTopn counts topK).map HotFunction.func).Nodup
  leaf : ∀ f ∈ analyzeTopn counts topK, f.func ∈ leafFunctions counts
  sorted : (analyzeTopn counts topK).Pairwise fun f g => g.self ≤ f.self
  omitted : ∀ func ∈ leafFunctions counts,
    func ∉ (analyzeTopn counts topK).map HotFunction.func →
      ∀ f ∈ analyzeTopn counts topK, samplesEndingIn counts func ≤ f.self
  self : ∀ f ∈ analyzeTopn counts topK, f.self = samplesEndingIn counts f.func
  total : ∀ f ∈ analyzeTopn counts topK, f.total = samplesHolding counts f.func
  bounds : ∀ f ∈ analyzeTopn counts topK, f.self ≤ f.total ∧ f.total ≤ counts.sum
  sum : (leafFunctions counts).length ≤ topK →
    ((analyzeTopn counts topK).map HotFunction.self).sum = counts.sum

end Meaning

/-! ## What the analysis computes -/

section Computed

variable (counts : Dict String ℤ)

/-- The samples of every frame that names the function. -/
def samplesNaming (func : String) : ℤ :=
  (counts.entries.map fun entry => ((framesOf entry.1.toList).count func : ℤ) * entry.2).sum

theorem keys_selfCount :
    (selfCount counts).entries.map Prod.fst = leafFunctions counts := by
  rw [selfCount_eq, Dict.keys_sumUp, List.map_map]
  rfl

theorem entries_selfCount : (selfCount counts).entries =
    (leafFunctions counts).map fun func => (func, samplesEndingIn counts func) := by
  have hvalue : ∀ entry ∈ (selfCount counts).entries,
      entry = (entry.1, samplesEndingIn counts entry.1) := by
    intro entry hentry
    have hget := Dict.get?_eq_some_iff.mpr (show (entry.1, entry.2) ∈ _ from hentry)
    have hsum := Dict.get?_sumUp (counts.entries.map fun e => (lastFrame e.1, e.2)) entry.1
    rw [← selfCount_eq, hget, Option.getD_some, List.filter_map, List.map_map] at hsum
    exact Prod.ext rfl hsum
  rw [← keys_selfCount, List.map_map]
  exact (List.map_id _).symm.trans (List.map_congr_left hvalue)

theorem totalCount_get? (func : String) :
    ((totalCount counts).get? func).getD 0 = samplesNaming counts func := by
  rw [totalCount_eq, Dict.get?_sumUp, samplesNaming]
  induction counts.entries with
  | nil => rfl
  | cons entry entries ih =>
      rw [List.flatMap_cons, List.filter_append, List.map_append, List.sum_append, ih,
        List.map_cons, List.sum_cons, List.filter_map, List.map_map]
      congr 1
      induction framesOf entry.1.toList with
      | nil => simp
      | cons frame frames ih =>
          rw [List.filter_cons, List.count_cons]
          by_cases h : frame = func
          · simp [h, add_mul, add_comm] at ih ⊢
            exact ih
          · simpa [h] using ih

/-- A function with the samples of its frames. -/
def hotFunction (func : String) : HotFunction :=
  ⟨func, samplesEndingIn counts func, samplesNaming counts func⟩

theorem analyzeTopn_eq (topK : ℕ) :
    analyzeTopn counts topK = (topFunctions counts topK).map (hotFunction counts) := by
  unfold analyzeTopn topFunctions
  rw [entries_selfCount, List.map_map, List.map_take]
  congr 1
  rw [List.map_mergeSort (s := fun f g : HotFunction => decide (g.self ≤ f.self))]
  · congr 1
    refine List.map_congr_left fun func _ => ?_
    simp only [Function.comp_apply, totalCount_get?, hotFunction]
  · intro f _ g _
    rfl

theorem nodup_leafFunctions : (leafFunctions counts).Nodup :=
  List.nodup_reverse.mpr (List.nodup_dedup _)

/-- The first functions and the others. -/
theorem topFunctions_split (topK : ℕ) : ∃ rest,
    (topFunctions counts topK ++ rest).Perm (leafFunctions counts) ∧
      (topFunctions counts topK ++ rest).Pairwise fun f g =>
        samplesEndingIn counts g ≤ samplesEndingIn counts f := by
  refine ⟨((leafFunctions counts).mergeSort fun f g =>
    samplesEndingIn counts g ≤ samplesEndingIn counts f).drop topK, ?_, ?_⟩
  · rw [topFunctions, List.take_append_drop]
    exact List.mergeSort_perm _ _
  · rw [topFunctions, List.take_append_drop]
    refine (List.pairwise_mergeSort ?_ ?_ (leafFunctions counts)).imp of_decide_eq_true
    · intro f g h hfg hgh
      rw [decide_eq_true_eq] at hfg hgh ⊢
      exact hgh.trans hfg
    · intro f g
      rw [Bool.or_eq_true, decide_eq_true_eq, decide_eq_true_eq]
      exact le_total _ _

end Computed

/-! ## Recursive stacks -/

section Recursion

variable (func : String) {entries : List (String × ℤ)} (hentries : ∀ entry ∈ entries, 0 ≤ entry.2)
include hentries

/-- Frames count what their stacks count, and more where a stack repeats one. -/
theorem sum_holding_le_sum_naming :
    ((entries.filter fun entry => func ∈ framesOf entry.1.toList).map Prod.snd).sum ≤
        (entries.map fun entry => ((framesOf entry.1.toList).count func : ℤ) * entry.2).sum ∧
      ((entries.map fun entry => ((framesOf entry.1.toList).count func : ℤ) * entry.2).sum =
          ((entries.filter fun entry => func ∈ framesOf entry.1.toList).map Prod.snd).sum ↔
        ∀ entry ∈ entries, 0 < entry.2 → (framesOf entry.1.toList).count func ≤ 1) := by
  induction entries with
  | nil => simp
  | cons entry entries ih =>
      obtain ⟨hentry, hrest⟩ := List.forall_mem_cons.mp hentries
      obtain ⟨hle, heq⟩ := ih hrest
      rw [List.filter_cons, List.map_cons, List.sum_cons, List.forall_mem_cons, ← heq]
      by_cases hmem : func ∈ framesOf entry.1.toList
      · have hcount : 1 ≤ (framesOf entry.1.toList).count func := List.count_pos_iff.mpr hmem
        have hterm : entry.2 ≤ ((framesOf entry.1.toList).count func : ℤ) * entry.2 :=
          le_mul_of_one_le_left hentry (by omega)
        have honce : ((framesOf entry.1.toList).count func : ℤ) * entry.2 = entry.2 ↔
            (0 < entry.2 → (framesOf entry.1.toList).count func ≤ 1) := by
          rcases hentry.eq_or_lt with hzero | hpos
          · simp [← hzero]
          · rw [mul_eq_right₀ hpos.ne']
            omega
        rw [← honce, if_pos (by simpa using hmem), List.map_cons, List.sum_cons]
        omega
      · rw [if_neg (by simpa using hmem), List.count_eq_zero_of_not_mem hmem]
        simpa using hle

theorem sum_filter_le_sum_filter {p q : String × ℤ → Bool} (h : ∀ entry, p entry → q entry) :
    ((entries.filter p).map Prod.snd).sum ≤ ((entries.filter q).map Prod.snd).sum := by
  induction entries with
  | nil => simp
  | cons entry entries ih =>
      obtain ⟨hentry, hrest⟩ := List.forall_mem_cons.mp hentries
      have hle := ih hrest
      rw [List.filter_cons, List.filter_cons]
      by_cases hp : p entry = true
      · rw [if_pos hp, if_pos (h entry hp), List.map_cons, List.map_cons, List.sum_cons,
          List.sum_cons]
        omega
      · rw [if_neg hp]
        split
        · rw [List.map_cons, List.sum_cons]
          omega
        · exact hle

end Recursion

section Bounds

variable {counts : Dict String ℤ} (hcounts : ∀ entry ∈ counts.entries, 0 ≤ entry.2)
include hcounts

theorem samplesEndingIn_le_samplesHolding (func : String) :
    samplesEndingIn counts func ≤ samplesHolding counts func := by
  refine sum_filter_le_sum_filter hcounts fun entry hlast => ?_
  have hne : framesOf entry.1.toList ≠ [] := by simp [framesOf]
  have hmem := List.getLast_mem hne
  rw [decide_eq_true_eq, lastFrame, List.getLastD_eq_getLast?,
    List.getLast?_eq_getLast_of_ne_nil hne, Option.getD_some] at hlast
  rw [hlast] at hmem
  exact decide_eq_true hmem

theorem samplesHolding_le_sum (func : String) : samplesHolding counts func ≤ counts.sum := by
  have hle := sum_filter_le_sum_filter hcounts (q := fun _ => true)
    (p := fun entry => func ∈ framesOf entry.1.toList) fun _ _ => rfl
  rwa [List.filter_true] at hle

/-- The counts mean what they say if and only if no first function is repeated in a stack. -/
theorem countsFunctions_iff (topK : ℕ) : CountsFunctions counts topK ↔
    ∀ func ∈ topFunctions counts topK, ∀ entry ∈ counts.entries, 0 < entry.2 →
      (framesOf entry.1.toList).count func ≤ 1 := by
  obtain ⟨rest, hperm, hsorted⟩ := topFunctions_split counts topK
  have hnodup : (topFunctions counts topK).Nodup :=
    (hperm.nodup_iff.mpr (nodup_leafFunctions counts)).sublist (List.sublist_append_left ..)
  have htotal : ∀ func, samplesNaming counts func = samplesHolding counts func ↔
      ∀ entry ∈ counts.entries, 0 < entry.2 → (framesOf entry.1.toList).count func ≤ 1 :=
    fun func => (sum_holding_le_sum_naming func hcounts).2
  have hfuncs : ((topFunctions counts topK).map (hotFunction counts)).map HotFunction.func =
      topFunctions counts topK := by
    rw [List.map_map]
    exact List.map_id _
  constructor
  · intro h func hfunc
    refine (htotal func).mp (h.total (hotFunction counts func) ?_)
    rw [analyzeTopn_eq]
    exact List.mem_map_of_mem hfunc
  · intro h
    have hself : ∀ func ∈ topFunctions counts topK,
        samplesNaming counts func = samplesHolding counts func :=
      fun func hfunc => (htotal func).mpr (h func hfunc)
    constructor
    case sum =>
      intro hlength
      exact sum_analyzeTopn counts (by rwa [← List.length_map, keys_selfCount])
    all_goals rw [analyzeTopn_eq]
    case length => rw [List.length_map, topFunctions, List.length_take, List.length_mergeSort]
    case distinct => rwa [hfuncs]
    case sorted =>
      rw [List.pairwise_map]
      exact (List.pairwise_append.mp hsorted).1
    case omitted =>
      intro func hleaf hnot
      rw [hfuncs] at hnot
      rw [List.forall_mem_map]
      have hrest : func ∈ rest := (List.mem_append.mp (hperm.mem_iff.mpr hleaf)).resolve_left hnot
      exact fun f hf => (List.pairwise_append.mp hsorted).2.2 f hf func hrest
    all_goals rw [List.forall_mem_map]
    case leaf => exact fun func hfunc => hperm.subset (List.mem_append_left _ hfunc)
    case self => exact fun func _ => rfl
    case total => exact hself
    case bounds =>
      intro func hfunc
      have htop : (hotFunction counts func).total = samplesHolding counts func := hself func hfunc
      rw [htop]
      exact ⟨samplesEndingIn_le_samplesHolding hcounts func, samplesHolding_le_sum hcounts func⟩

end Bounds

theorem countsFunctions_twoStacks :
    CountsFunctions (.ofList [("a;b;c", 100), ("a;d", 200)]) 10 := by
  have hleaf : ∀ func ∈ leafFunctions (.ofList [("a;b;c", 100), ("a;d", 200)]),
      ∀ entry ∈ (Dict.ofList [("a;b;c", (100 : ℤ)), ("a;d", 200)]).entries, 0 < entry.2 →
        (framesOf entry.1.toList).count func ≤ 1 := by decide
  exact (countsFunctions_iff (by decide) 10).mpr fun func hfunc =>
    hleaf func (List.mem_mergeSort.mp (List.mem_of_mem_take hfunc))

/-- One sample of a function that calls itself is counted as two. -/
theorem not_countsFunctions : ¬CountsFunctions (.ofList [("f;f", 1)]) 10 := by
  intro h
  have hleaf : leafFunctions (.ofList [("f;f", 1)]) = ["f"] := by decide
  have htop : analyzeTopn (.ofList [("f;f", 1)]) 10 =
      [hotFunction (.ofList [("f;f", 1)]) "f"] := by
    rw [analyzeTopn_eq, topFunctions, hleaf, List.mergeSort_singleton]
    rfl
  have htotal := h.total (hotFunction (.ofList [("f;f", 1)]) "f") (by simp [htop])
  exact absurd htotal (by decide)

end MiniDrop
