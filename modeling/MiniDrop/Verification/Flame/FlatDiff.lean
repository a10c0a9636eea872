import MiniDrop.Model.FlatDiff
import MiniDrop.Verification.Flame.Lines
import MiniDrop.Verification.Flame.TopFunctions

/-! # What the flat differences mean

They compare the first fifty functions of each profile, by name up to surrounding white space. Where
these are all functions, the lists are true to the profiles. -/

namespace MiniDrop

/-! ## Statement -/

section Statement

variable (exceeds : ℤ → ℤ → Bool) (counts counts1 counts2 : Dict String ℤ)

/-- A stack with a positive count ends in the function. -/
def IsLeaf (func : String) : Prop :=
  ∃ entry ∈ counts.entries, 0 < entry.2 ∧ lastFrame entry.1 = func

/-- No stack holds the function twice. -/
def Unrepeated (func : String) : Prop :=
  ∀ entry ∈ counts.entries, (framesOf entry.1.toList).count func ≤ 1

/-- The difference with the opposite sign. -/
def FuncSample.neg (f : FuncSample) : FuncSample := { f with self := -f.self, total := -f.total }

/-- The lists tell what the profiles differ in, in both directions. -/
structure TrueDiff : Prop where
  added : ∀ func, func ∈ (flameDiff exceeds counts1 counts2).added.map FuncSample.func ↔
    IsLeaf counts2 func ∧ ¬IsLeaf counts1 func
  removed : ∀ func, func ∈ (flameDiff exceeds counts1 counts2).removed.map FuncSample.func ↔
    IsLeaf counts1 func ∧ ¬IsLeaf counts2 func
  changed : ∀ f ∈ (flameDiff exceeds counts1 counts2).changed,
    IsLeaf counts1 f.func ∧ IsLeaf counts2 f.func ∧
      f.self = samplesEndingIn counts2 f.func - samplesEndingIn counts1 f.func ∧
      f.total = samplesHolding counts2 f.func - samplesHolding counts1 f.func
  swapped : (flameDiff exceeds counts2 counts1).added = (flameDiff exceeds counts1 counts2).removed
  negated : (flameDiff exceeds counts2 counts1).changed.Perm
    ((flameDiff exceeds counts1 counts2).changed.map FuncSample.neg)

/-- All functions of the profile are among the first fifty, under names that FlameDiff takes as they
are, and their counts fit. -/
structure Listed : Prop where
  few : (leafFunctions counts).length ≤ 50
  positive : ∀ entry ∈ counts.entries, 0 < entry.2
  trimmed : ∀ func ∈ leafFunctions counts, normalizeFunc func = func
  small : counts.sum < 9223372036854775808

/-- What `TrueDiff` says, but for functions that repeat and for the threshold, which is relative to
the base. -/
structure ListedDiff : Prop where
  added : ∀ func, func ∈ (flameDiff exceeds counts1 counts2).added.map FuncSample.func ↔
    IsLeaf counts2 func ∧ ¬IsLeaf counts1 func
  removed : ∀ func, func ∈ (flameDiff exceeds counts1 counts2).removed.map FuncSample.func ↔
    IsLeaf counts1 func ∧ ¬IsLeaf counts2 func
  changed : ∀ f ∈ (flameDiff exceeds counts1 counts2).changed,
    IsLeaf counts1 f.func ∧ IsLeaf counts2 f.func ∧
      f.self = samplesEndingIn counts2 f.func - samplesEndingIn counts1 f.func ∧
      (Unrepeated counts1 f.func → Unrepeated counts2 f.func →
        f.total = samplesHolding counts2 f.func - samplesHolding counts1 f.func)
  negated : ∀ f ∈ (flameDiff exceeds counts1 counts2).changed,
    ∀ g ∈ (flameDiff exceeds counts2 counts1).changed, g.func = f.func → g = f.neg

/-- The lists tell what the first fifty functions of the profiles differ in. -/
structure TopDiff : Prop where
  added : ∀ func, func ∈ (flameDiff exceeds counts1 counts2).added.map FuncSample.func ↔
    func ∈ topFunctions counts2 50 ∧
      ∀ g ∈ topFunctions counts1 50, normalizeFunc g ≠ normalizeFunc func
  removed : ∀ func, func ∈ (flameDiff exceeds counts1 counts2).removed.map FuncSample.func ↔
    func ∈ topFunctions counts1 50 ∧
      ∀ g ∈ topFunctions counts2 50, normalizeFunc g ≠ normalizeFunc func
  changed : ∀ f ∈ (flameDiff exceeds counts1 counts2).changed, f.func ∈ topFunctions counts2 50 ∧
    ∃ g ∈ topFunctions counts1 50, normalizeFunc g = normalizeFunc f.func ∧
      f.self = int64 (decodeInt64 (samplesEndingIn counts2 f.func) -
        decodeInt64 (samplesEndingIn counts1 g)) ∧
      (Unrepeated counts1 g → Unrepeated counts2 f.func →
        f.total = int64 (decodeInt64 (samplesHolding counts2 f.func) -
          decodeInt64 (samplesHolding counts1 g)))
  distinct : (((flameDiff exceeds counts1 counts2).added ++
    (flameDiff exceeds counts1 counts2).removed ++
      (flameDiff exceeds counts1 counts2).changed).map FuncSample.func).Nodup
  swapped : (flameDiff exceeds counts2 counts1).added = (flameDiff exceeds counts1 counts2).removed
  listed : Listed counts1 → Listed counts2 → ListedDiff exceeds counts1 counts2

end Statement

/-! ## The lists -/

section Lists

variable (exceeds : ℤ → ℤ → Bool) (counts counts1 counts2 : Dict String ℤ)

/-- The entry of a function in `top.json`. -/
def topSample (func : String) : FuncSample :=
  { func
    self := decodeInt64 (samplesEndingIn counts func)
    total := decodeInt64 (samplesNaming counts func) }

theorem loadTopN_eq : loadTopN counts = (topFunctions counts 50).map (topSample counts) := by
  unfold loadTopN
  rw [analyzeTopn_eq, List.map_map]
  rfl

theorem nodup_topFunctions (topK : ℕ) : (topFunctions counts topK).Nodup := by
  obtain ⟨rest, hperm, -⟩ := topFunctions_split counts topK
  exact (hperm.nodup_iff.mpr (nodup_leafFunctions counts)).sublist (List.sublist_append_left ..)

/-- Those of the second profile whose name no function of the first one has. -/
theorem map_func_diffAdded : (diffAdded (loadTopN counts1) (loadTopN counts2)).map FuncSample.func =
    (topFunctions counts2 50).filter fun func =>
      normalizeFunc func ∉ (topFunctions counts1 50).map normalizeFunc := by
  unfold diffAdded
  rw [loadTopN_eq, loadTopN_eq, List.map_map, List.filter_map, List.map_map]
  exact List.map_id _

theorem mem_diffAdded {func : String} :
    func ∈ (diffAdded (loadTopN counts1) (loadTopN counts2)).map FuncSample.func ↔
      func ∈ topFunctions counts2 50 ∧
        ∀ g ∈ topFunctions counts1 50, normalizeFunc g ≠ normalizeFunc func := by
  rw [map_func_diffAdded, List.mem_filter, decide_eq_true_eq, List.mem_map, not_exists]
  simp only [not_and, ne_eq]

/-- A change compares functions of one name. -/
theorem mem_diffChanged {f : FuncSample}
    (h : f ∈ diffChanged exceeds (loadTopN counts1) (loadTopN counts2)) :
    f.func ∈ topFunctions counts2 50 ∧ ∃ g ∈ topFunctions counts1 50,
      normalizeFunc g = normalizeFunc f.func ∧
      f.self = int64 ((topSample counts2 f.func).self - (topSample counts1 g).self) ∧
      f.total = int64 ((topSample counts2 f.func).total - (topSample counts1 g).total) := by
  unfold diffChanged at h
  obtain ⟨new, hnew, hsome⟩ := List.mem_filterMap.mp h
  simp only [Option.bind_eq_bind, Option.bind_eq_some_iff, Option.ite_none_right_eq_some,
    Option.some.injEq] at hsome
  obtain ⟨old, hget, -, rfl⟩ := hsome
  rw [loadTopN_eq] at hnew
  obtain ⟨func, hfunc, rfl⟩ := List.mem_map.mp hnew
  have hmem := Dict.mem_of_get?_ofList hget
  rw [loadTopN_eq, List.map_map] at hmem
  obtain ⟨g, hg, hpair⟩ := List.mem_map.mp hmem
  obtain ⟨hname, rfl⟩ := Prod.mk.inj hpair
  exact ⟨hfunc, g, hg, hname, rfl, rfl⟩

theorem map_func_diffChanged_sublist (top1 top2 : List FuncSample) :
    ((diffChanged exceeds top1 top2).map FuncSample.func).Sublist (top2.map FuncSample.func) := by
  unfold diffChanged
  induction top2 with
  | nil => exact .slnil
  | cons f top2 ih =>
      rw [List.filterMap_cons]
      split
      · exact ih.cons _
      · next g hsome =>
          simp only [Option.bind_eq_bind, Option.bind_eq_some_iff, Option.ite_none_right_eq_some,
            Option.some.injEq] at hsome
          obtain ⟨old, -, -, rfl⟩ := hsome
          exact ih.cons_cons _

/-- Without repetitions, frames count what their stacks count. -/
theorem samplesNaming_of_unrepeated {func : String} (h : Unrepeated counts func) :
    samplesNaming counts func = samplesHolding counts func := by
  unfold samplesNaming samplesHolding
  unfold Unrepeated at h
  generalize counts.entries = entries at h ⊢
  induction entries with
  | nil => rfl
  | cons entry entries ih =>
      obtain ⟨honce, hrest⟩ := List.forall_mem_cons.mp h
      rw [List.map_cons, List.sum_cons, ih hrest, List.filter_cons]
      by_cases hmem : func ∈ framesOf entry.1.toList
      · have hcount : (framesOf entry.1.toList).count func = 1 :=
          Nat.le_antisymm honce (List.count_pos_iff.mpr hmem)
        simp [hmem, hcount]
      · simp [hmem, List.count_eq_zero_of_not_mem hmem]

theorem nodup_flameDiff : (((flameDiff exceeds counts1 counts2).added ++
    (flameDiff exceeds counts1 counts2).removed ++
      (flameDiff exceeds counts1 counts2).changed).map FuncSample.func).Nodup := by
  simp only [flameDiff, List.map_append]
  have hadded : ((diffAdded (loadTopN counts1) (loadTopN counts2)).map FuncSample.func).Nodup := by
    rw [map_func_diffAdded]
    exact (nodup_topFunctions counts2 50).filter _
  have hremoved :
      ((diffAdded (loadTopN counts2) (loadTopN counts1)).map FuncSample.func).Nodup := by
    rw [map_func_diffAdded]
    exact (nodup_topFunctions counts1 50).filter _
  have hchanged := map_func_diffChanged_sublist exceeds (loadTopN counts1) (loadTopN counts2)
  have htop : (loadTopN counts2).map FuncSample.func = topFunctions counts2 50 := by
    rw [loadTopN_eq, List.map_map]
    exact List.map_id _
  rw [htop] at hchanged
  refine List.nodup_append'.mpr ⟨List.nodup_append'.mpr ⟨hadded, hremoved, fun func hin hout => ?_⟩,
    (nodup_topFunctions counts2 50).sublist hchanged, fun func hin hboth => ?_⟩
  · exact ((mem_diffAdded _ _).mp hin).2 func ((mem_diffAdded _ _).mp hout).1 rfl
  · obtain ⟨f, hf, rfl⟩ := List.mem_map.mp hboth
    obtain ⟨htop2, g, hg, hname, -, -⟩ := mem_diffChanged exceeds _ _ hf
    rcases List.mem_append.mp hin with hin | hin
    · exact ((mem_diffAdded _ _).mp hin).2 g hg hname
    · exact ((mem_diffAdded _ _).mp hin).2 f.func htop2 rfl

end Lists

/-! ## Listed profiles -/

section Listed

variable {counts counts1 counts2 : Dict String ℤ}

theorem mem_leafFunctions {func : String} :
    func ∈ leafFunctions counts ↔ ∃ entry ∈ counts.entries, lastFrame entry.1 = func := by
  simp [leafFunctions]

theorem Listed.mem_topFunctions (h : Listed counts) {func : String} :
    func ∈ topFunctions counts 50 ↔ IsLeaf counts func := by
  unfold topFunctions
  rw [List.take_of_length_le (by rw [List.length_mergeSort]; exact h.few), List.mem_mergeSort,
    mem_leafFunctions]
  exact exists_congr fun entry => and_congr_right fun hentry =>
    (and_iff_right (h.positive entry hentry)).symm

theorem Listed.normalizeFunc (h : Listed counts) {func : String} (hleaf : IsLeaf counts func) :
    normalizeFunc func = func := by
  obtain ⟨entry, hentry, -, hlast⟩ := hleaf
  exact h.trimmed func (mem_leafFunctions.mpr ⟨entry, hentry, hlast⟩)

theorem decodeInt64_of_bounds {n : ℤ} (hlow : 0 ≤ n) (hhigh : n < 9223372036854775808) :
    decodeInt64 n = n :=
  if_pos (int64_of_lt hlow hhigh)

/-- What the decoder leaves is in range. -/
theorem decodeInt64_bounds {n : ℤ} (hlow : 0 ≤ n) :
    0 ≤ decodeInt64 n ∧ decodeInt64 n < 9223372036854775808 := by
  unfold decodeInt64
  split
  · next h =>
      rw [int64, Int.bmod_def] at h
      omega
  · omega

theorem Listed.nonneg (h : Listed counts) : ∀ entry ∈ counts.entries, 0 ≤ entry.2 :=
  fun entry hentry => (h.positive entry hentry).le

theorem Listed.samplesHolding_bounds (h : Listed counts) (func : String) :
    0 ≤ samplesHolding counts func ∧ samplesHolding counts func < 9223372036854775808 := by
  refine ⟨List.sum_nonneg fun n hn => ?_, (samplesHolding_le_sum h.nonneg func).trans_lt h.small⟩
  obtain ⟨entry, hentry, rfl⟩ := List.mem_map.mp hn
  exact h.nonneg entry (List.mem_filter.mp hentry).1

theorem Listed.samplesEndingIn_bounds (h : Listed counts) (func : String) :
    0 ≤ samplesEndingIn counts func ∧ samplesEndingIn counts func < 9223372036854775808 := by
  refine ⟨List.sum_nonneg fun n hn => ?_, (samplesEndingIn_le_samplesHolding h.nonneg func).trans_lt
    (h.samplesHolding_bounds func).2⟩
  obtain ⟨entry, hentry, rfl⟩ := List.mem_map.mp hn
  exact h.nonneg entry (List.mem_filter.mp hentry).1

theorem Listed.samplesNaming_nonneg (h : Listed counts) (func : String) :
    0 ≤ samplesNaming counts func := by
  refine List.sum_nonneg fun n hn => ?_
  obtain ⟨entry, hentry, rfl⟩ := List.mem_map.mp hn
  exact Int.mul_nonneg (Int.natCast_nonneg _) (h.nonneg entry hentry)

theorem Listed.topSample_self (h : Listed counts) (func : String) :
    (topSample counts func).self = samplesEndingIn counts func :=
  decodeInt64_of_bounds (h.samplesEndingIn_bounds func).1 (h.samplesEndingIn_bounds func).2

theorem Listed.topSample_total (h : Listed counts) {func : String}
    (honce : Unrepeated counts func) :
    (topSample counts func).total = samplesHolding counts func := by
  unfold topSample
  rw [samplesNaming_of_unrepeated counts honce]
  exact decodeInt64_of_bounds (h.samplesHolding_bounds func).1 (h.samplesHolding_bounds func).2

/-- Differences of counts do not wrap around. -/
theorem int64_sub_of_bounds {a b : ℤ} (ha : 0 ≤ a ∧ a < 9223372036854775808)
    (hb : 0 ≤ b ∧ b < 9223372036854775808) : int64 (a - b) = a - b :=
  int64_of_bounds (by omega) (by omega)

theorem Listed.self_bounds (h : Listed counts) (func : String) :
    0 ≤ (topSample counts func).self ∧ (topSample counts func).self < 9223372036854775808 :=
  decodeInt64_bounds (h.samplesEndingIn_bounds func).1

theorem Listed.total_bounds (h : Listed counts) (func : String) :
    0 ≤ (topSample counts func).total ∧ (topSample counts func).total < 9223372036854775808 :=
  decodeInt64_bounds (h.samplesNaming_nonneg func)

variable {exceeds : ℤ → ℤ → Bool} (h1 : Listed counts1) (h2 : Listed counts2)
include h1 h2

theorem Listed.mem_diffAdded {func : String} :
    func ∈ (diffAdded (loadTopN counts1) (loadTopN counts2)).map FuncSample.func ↔
      IsLeaf counts2 func ∧ ¬IsLeaf counts1 func := by
  rw [MiniDrop.mem_diffAdded, h2.mem_topFunctions]
  refine and_congr_right fun hleaf => ?_
  rw [h2.normalizeFunc hleaf]
  constructor
  · intro hnew hold
    exact hnew func (h1.mem_topFunctions.mpr hold) (h1.normalizeFunc hold)
  · intro hnew g hg hname
    rw [h1.mem_topFunctions] at hg
    rw [h1.normalizeFunc hg] at hname
    exact hnew (hname ▸ hg)

/-- A change compares a function with itself. -/
theorem Listed.mem_diffChanged {f : FuncSample}
    (h : f ∈ diffChanged exceeds (loadTopN counts1) (loadTopN counts2)) :
    IsLeaf counts1 f.func ∧ IsLeaf counts2 f.func ∧
      f.self = (topSample counts2 f.func).self - (topSample counts1 f.func).self ∧
      f.total = (topSample counts2 f.func).total - (topSample counts1 f.func).total := by
  obtain ⟨hfunc, g, hg, hname, hself, htotal⟩ := MiniDrop.mem_diffChanged exceeds _ _ h
  have hnew := h2.mem_topFunctions.mp hfunc
  have hold := h1.mem_topFunctions.mp hg
  rw [h1.normalizeFunc hold, h2.normalizeFunc hnew] at hname
  subst hname
  rw [int64_sub_of_bounds (h2.self_bounds _) (h1.self_bounds _)] at hself
  rw [int64_sub_of_bounds (h2.total_bounds _) (h1.total_bounds _)] at htotal
  exact ⟨hold, hnew, hself, htotal⟩

theorem Listed.listedDiff : ListedDiff exceeds counts1 counts2 where
  added _ := h1.mem_diffAdded h2
  removed _ := h2.mem_diffAdded h1
  changed f hf := by
    obtain ⟨hold, hnew, hself, htotal⟩ := h1.mem_diffChanged h2 hf
    refine ⟨hold, hnew, ?_, fun honce1 honce2 => ?_⟩
    · rw [hself, h1.topSample_self, h2.topSample_self]
    · rw [htotal, h1.topSample_total honce1, h2.topSample_total honce2]
  negated f hf g hg hfunc := by
    obtain ⟨-, -, hself, htotal⟩ := h1.mem_diffChanged h2 hf
    obtain ⟨-, -, hself', htotal'⟩ := h2.mem_diffChanged h1 hg
    rw [hfunc] at hself' htotal'
    obtain ⟨func, self, total⟩ := g
    simp only [FuncSample.neg, FuncSample.mk.injEq]
    simp only at hfunc hself' htotal'
    exact ⟨hfunc, by omega, by omega⟩

end Listed

/-- The quotient exceeds 0.2, for numbers of a few digits. -/
def exceedsFifth (diff base : ℤ) : Bool := base.natAbs < 5 * diff.natAbs

/-- One function more than `top.json` lists; `f0` has the fewest samples. -/
def manyFunctions : Dict String ℤ :=
  .ofList ((List.range 51).map fun i => ("f" ++ toString i, (i : ℤ) + 1))

theorem f0_notMem_topFunctions : "f0" ∉ topFunctions manyFunctions 50 := by
  intro hmem
  obtain ⟨rest, hperm, hsorted⟩ := topFunctions_split manyFunctions 50
  have hfewest : (leafFunctions manyFunctions).length = 51 ∧
      samplesEndingIn manyFunctions "f0" = 1 ∧
        ∀ func ∈ leafFunctions manyFunctions, samplesEndingIn manyFunctions func ≤ 1 →
          func = "f0" := by
    decide +kernel
  obtain ⟨hlength, hself, hleast⟩ := hfewest
  have htop : (topFunctions manyFunctions 50).length ≤ 50 := List.length_take_le _ _
  have hsplit := hperm.length_eq
  rw [List.length_append, hlength] at hsplit
  obtain ⟨func, hfunc⟩ := List.exists_mem_of_length_pos (show 0 < rest.length by omega)
  have hle := (List.pairwise_append.mp hsorted).2.2 "f0" hmem func hfunc
  rw [hself] at hle
  have hsame := hleast func (hperm.subset (List.mem_append_right _ hfunc)) hle
  have hnodup := hperm.nodup_iff.mpr (nodup_leafFunctions manyFunctions)
  exact (List.nodup_append'.mp hnodup).2.2 hmem (hsame ▸ hfunc)

/-- A profile of one stack lists its leaf. -/
theorem topFunctions_single {counts : Dict String ℤ} {func : String}
    (h : leafFunctions counts = [func]) : topFunctions counts 50 = [func] := by
  rw [topFunctions, h, List.mergeSort_singleton]
  rfl

end MiniDrop
