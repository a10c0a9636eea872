import MiniDrop.Library.Ranking
import MiniDrop.Model.HeapAnalyzer

/-! # The top lists of a heap

The list of the largest classes is taken from the classes with the most instances, so a large class
with few instances is not in it. -/

namespace MiniDrop

open Ranking

/-! ## Statement -/

/-- What is known of a class. -/
structure ClassFigures where
  name : List UInt8
  instanceCount : ℕ
  totalSize : ℤ

def ClassInfo.figures (info : ClassInfo) : ClassFigures :=
  ⟨info.name, info.instanceCount, info.totalSize⟩

def ClassStats.figures (s : ClassStats) : ClassFigures := ⟨s.name, s.instanceCount, s.totalSize⟩

/-- The classes of these entries that have instances. -/
def countedClasses (entries : List (ℕ × ClassInfo)) : List ClassInfo :=
  (entries.map Prod.snd).filter fun info => 0 < info.instanceCount

def HPROFParser.figures (p : HPROFParser) : List ClassFigures :=
  (countedClasses p.classes.entries).map ClassInfo.figures

structure HeapStats.IsTopOf (stats : HeapStats) (p : HPROFParser) : Prop where
  classes : IsTop 20 ClassFigures.instanceCount p.figures (stats.topClasses.map ClassStats.figures)
  sizes : IsTop 20 ClassFigures.totalSize p.figures (stats.topSizes.map ClassStats.figures)
  averages : ∀ s ∈ stats.topClasses ++ stats.topSizes, s.avgSize = s.totalSize / s.instanceCount

/-- The classes that may have the most instances are at least as large as those that may not, and
their sizes are divided like natural numbers. -/
structure HPROFParser.TopsAgree (p : HPROFParser) : Prop where
  sizes : ∀ a ∈ p.figures, ∀ b ∈ p.figures, a.instanceCount ≤ b.instanceCount →
    above ClassFigures.instanceCount p.figures b.instanceCount < 20 →
      20 < atLeast ClassFigures.instanceCount p.figures a.instanceCount → a.totalSize ≤ b.totalSize
  averages : ∀ b ∈ p.figures, above ClassFigures.instanceCount p.figures b.instanceCount < 20 →
    0 ≤ b.totalSize ∨ (b.instanceCount : ℤ) ∣ b.totalSize

/-! ## Sorting -/

section Sorting

variable {β : Type} [LinearOrder β] {key : ClassStats → β} {less : ClassStats → ClassStats → Bool}

theorem sinkClassStats_eq (hless : ∀ a b, less a b = decide (key b < key a)) (x : ClassStats)
    (list : List ClassStats) :
    sinkClassStats less x list = list.orderedInsert (key · ≤ key ·) x := by
  induction list with
  | nil => rfl
  | cons y list ih =>
      rw [sinkClassStats, List.orderedInsert_cons, hless, ih]
      by_cases h : key y < key x
      · simp [h, h.not_ge]
      · simp [h, not_lt.mp h]

theorem ranks_sortClassStats (hless : ∀ a b, less a b = decide (key b < key a))
    (list : List ClassStats) : Ranks key list (sortClassStats list less) := by
  have hfold : list.foldl (fun sorted x => sinkClassStats less x sorted) [] =
      list.reverse.insertionSort (key · ≤ key ·) := by
    rw [List.insertionSort, List.foldr_reverse]
    exact congrFun (congrFun (congrArg List.foldl
      (funext fun sorted => funext fun x => sinkClassStats_eq hless x sorted)) []) list
  rw [sortClassStats, hfold]
  exact ranks_insertionSort list

end Sorting

/-! ## The lists -/

section Lists

variable {p : HPROFParser} (go : GoRuntime)

/-- The statistics of the classes, in the order of the iteration. -/
def classListOf (entries : List (ℕ × ClassInfo)) : List ClassStats :=
  (countedClasses entries).map fun info =>
    { name := info.name, instanceCount := info.instanceCount, totalSize := info.totalSize
      avgSize := info.totalSize.tdiv info.instanceCount }

def rankedClasses (entries : List (ℕ × ClassInfo)) : List ClassStats :=
  sortClassStats (classListOf entries) fun a b => b.instanceCount < a.instanceCount

theorem topClasses_buildStats (p : HPROFParser) :
    (p.buildStats go).topClasses = (rankedClasses (go.order p.classes)).take 20 := rfl

theorem ranks_rankedClasses (entries : List (ℕ × ClassInfo)) :
    Ranks ClassStats.instanceCount (classListOf entries) (rankedClasses entries) :=
  ranks_sortClassStats (fun _ _ => rfl) _

theorem map_figures_classListOf (entries : List (ℕ × ClassInfo)) :
    (classListOf entries).map ClassStats.figures = (countedClasses entries).map ClassInfo.figures := by
  rw [classListOf, List.map_map]
  rfl

theorem ranks_figures (entries : List (ℕ × ClassInfo)) :
    Ranks ClassFigures.instanceCount ((countedClasses entries).map ClassInfo.figures)
      ((rankedClasses entries).map ClassStats.figures) := by
  rw [← map_figures_classListOf]
  exact (ranks_rankedClasses entries).map fun _ => rfl

theorem perm_figures (p : HPROFParser) :
    ((countedClasses (go.order p.classes)).map ClassInfo.figures).Perm p.figures :=
  ((go.perm p.classes).map Prod.snd |>.filter _).map ClassInfo.figures

theorem ranks_sizes (list : List ClassStats) : Ranks ClassStats.totalSize list
    (sortClassStats list fun a b => b.totalSize < a.totalSize) :=
  ranks_sortClassStats (fun _ _ => rfl) list

/-- The largest classes are those with the most instances, in another order. -/
theorem perm_topSizes (p : HPROFParser) :
    (p.buildStats go).topSizes.Perm (p.buildStats go).topClasses := by
  have hranks := ranks_sizes (p.buildStats go).topClasses
  have hlength : (sortClassStats (p.buildStats go).topClasses
      fun a b => b.totalSize < a.totalSize).length ≤ 20 := by
    rw [hranks.perm.length_eq, topClasses_buildStats]
    exact List.length_take_le 20 _
  have htake : (p.buildStats go).topSizes = sortClassStats (p.buildStats go).topClasses
      fun a b => b.totalSize < a.totalSize := List.take_of_length_le hlength
  rw [htake]
  exact hranks.perm

theorem descending_topSizes (p : HPROFParser) :
    (p.buildStats go).topSizes.Pairwise fun a b => b.totalSize ≤ a.totalSize :=
  (ranks_sizes (p.buildStats go).topClasses).descending.sublist (List.take_sublist 20 _)

/-- The figures of the classes, cut behind those with the most instances. -/
theorem perm_take_drop (p : HPROFParser) :
    (((p.buildStats go).topSizes.map ClassStats.figures) ++
      ((rankedClasses (go.order p.classes)).map ClassStats.figures).drop 20).Perm p.figures := by
  have hperm := (ranks_figures (go.order p.classes)).perm.trans (perm_figures go p)
  have htake : ((p.buildStats go).topSizes.map ClassStats.figures).Perm
      (((rankedClasses (go.order p.classes)).map ClassStats.figures).take 20) := by
    rw [← List.map_take, ← topClasses_buildStats]
    exact (perm_topSizes go p).map ClassStats.figures
  refine List.Perm.trans (htake.append_right _) ?_
  rw [List.take_append_drop]
  exact hperm

/-- Sizes are divided towards zero. -/
theorem avgSize_eq_iff {n : ℕ} (h : 0 < n) (size : ℤ) :
    size.tdiv n = size / n ↔ 0 ≤ size ∨ (n : ℤ) ∣ size := by
  have hsign : (n : ℤ).sign = 1 := Int.sign_eq_one_of_pos (Int.natCast_pos.mpr h)
  rw [Int.tdiv_eq_ediv, hsign]
  split
  · next hexact => simp [hexact]
  · next hrest => simp [hrest]

theorem avgSize_of_mem {entries : List (ℕ × ClassInfo)} {s : ClassStats}
    (h : s ∈ classListOf entries) : 0 < s.instanceCount ∧ s.avgSize = s.totalSize.tdiv s.instanceCount := by
  obtain ⟨info, hinfo, rfl⟩ := List.mem_map.mp h
  exact ⟨by simpa using (List.mem_filter.mp hinfo).2, rfl⟩

end Lists

/-! ## The condition is enough -/

section Sufficient

variable {p : HPROFParser} (go : GoRuntime)

theorem isTop_classes (p : HPROFParser) : IsTop 20 ClassFigures.instanceCount p.figures
    ((p.buildStats go).topClasses.map ClassStats.figures) := by
  obtain ⟨hlength, hdescending, rest, hperm, hlargest⟩ :=
    (ranks_figures (go.order p.classes)).sorts.isTop_take 20
  rw [← List.map_take, ← topClasses_buildStats] at hlength hdescending hperm hlargest
  refine ⟨?_, hdescending, rest, hperm.trans (perm_figures go p), hlargest⟩
  rw [hlength, (perm_figures go p).length_eq]

theorem isTop_sizes (h : p.TopsAgree) : IsTop 20 ClassFigures.totalSize p.figures
    ((p.buildStats go).topSizes.map ClassStats.figures) where
  length := by
    rw [List.length_map, (perm_topSizes go p).length_eq, ← (isTop_classes go p).length,
      List.length_map]
  descending := by
    rw [List.pairwise_map]
    exact descending_topSizes go p
  largest := by
    refine ⟨_, perm_take_drop go p, fun b hb a ha => ?_⟩
    have hranks := ranks_figures (go.order p.classes)
    have htop : b ∈ ((rankedClasses (go.order p.classes)).map ClassStats.figures).take 20 := by
      rw [← List.map_take, ← topClasses_buildStats]
      exact ((perm_topSizes go p).map ClassStats.figures).mem_iff.mp hb
    have habove := hranks.sorts.above_lt htop
    have hatLeast := hranks.sorts.lt_atLeast ha
    rw [above_perm (perm_figures go p)] at habove
    rw [atLeast_perm (perm_figures go p)] at hatLeast
    have hmem := (perm_take_drop go p).mem_iff (a := a) |>.mp (List.mem_append_right _ ha)
    have hmem' := (perm_take_drop go p).mem_iff (a := b) |>.mp (List.mem_append_left _ hb)
    exact h.sizes a hmem b hmem' (hranks.sorts.le_of_mem htop ha) habove hatLeast

theorem averages_of_topsAgree (h : p.TopsAgree) {s : ClassStats}
    (hs : s ∈ (p.buildStats go).topClasses) : s.avgSize = s.totalSize / s.instanceCount := by
  have hranks := ranks_figures (go.order p.classes)
  have htop : s.figures ∈
      ((rankedClasses (go.order p.classes)).map ClassStats.figures).take 20 := by
    rw [← List.map_take, ← topClasses_buildStats]
    exact List.mem_map_of_mem hs
  have habove := hranks.sorts.above_lt htop
  rw [above_perm (perm_figures go p)] at habove
  have hmem := (hranks.perm.trans (perm_figures go p)).mem_iff.mp (List.mem_of_mem_take htop)
  rw [topClasses_buildStats] at hs
  obtain ⟨hpos, havg⟩ :=
    avgSize_of_mem ((ranks_rankedClasses _).perm.mem_iff.mp (List.mem_of_mem_take hs))
  rw [havg]
  exact (avgSize_eq_iff hpos s.totalSize).mpr (h.averages s.figures hmem habove)

end Sufficient

/-! ## The condition is necessary -/

section Necessary

variable {p : HPROFParser} {a b : ClassFigures}

/-- Every order of the classes is one that an iteration may have. -/
theorem exists_order {order : List (ℕ × ClassInfo)} (h : order.Perm p.classes.entries) :
    ∃ go : GoRuntime, go.order p.classes = order := by
  classical
  refine ⟨{ order := fun classes => if classes = p.classes then order else classes.entries
            perm := fun classes => ?_
            megabytes := fun _ => "" }, if_pos rfl⟩
  split
  · next heq => rwa [heq]
  · exact .refl _

theorem exists_entry (h : a ∈ p.figures) :
    ∃ entry ∈ p.classes.entries, 0 < entry.2.instanceCount ∧ entry.2.figures = a := by
  obtain ⟨info, hinfo, rfl⟩ := List.mem_map.mp h
  obtain ⟨hmem, hpos⟩ := List.mem_filter.mp hinfo
  obtain ⟨entry, hentry, rfl⟩ := List.mem_map.mp hmem
  exact ⟨entry, hentry, by simpa using hpos, rfl⟩

theorem countedClasses_cons {entry : ℕ × ClassInfo} (h : 0 < entry.2.instanceCount)
    (entries : List (ℕ × ClassInfo)) :
    countedClasses (entry :: entries) = entry.2 :: countedClasses entries := by
  rw [countedClasses, List.map_cons, List.filter_cons_of_pos (by simpa using h), countedClasses]

theorem countedClasses_concat {entry : ℕ × ClassInfo} (h : 0 < entry.2.instanceCount)
    (entries : List (ℕ × ClassInfo)) :
    countedClasses (entries ++ [entry]) = countedClasses entries ++ [entry.2] := by
  rw [countedClasses, List.map_append, List.filter_append, List.map_cons,
    List.filter_cons_of_pos (by simpa using h)]
  rfl

/-- An iteration may begin with a class. -/
theorem exists_first (hb : b ∈ p.figures) : ∃ (go : GoRuntime) (rest : List ClassFigures),
    (countedClasses (go.order p.classes)).map ClassInfo.figures = b :: rest := by
  obtain ⟨entry, hentry, hpos, rfl⟩ := exists_entry hb
  obtain ⟨front, back, hsplit⟩ := List.append_of_mem hentry
  have hperm : (entry :: (front ++ back)).Perm p.classes.entries := by
    rw [hsplit]
    exact List.perm_middle.symm
  obtain ⟨go, hgo⟩ := exists_order hperm
  exact ⟨go, _, by rw [hgo, countedClasses_cons hpos, List.map_cons]⟩

/-- An iteration may begin with one class and end with another. -/
theorem exists_ends (ha : a ∈ p.figures) (hb : b ∈ p.figures) (hne : a ≠ b) :
    ∃ (go : GoRuntime) (rest : List ClassFigures),
      (countedClasses (go.order p.classes)).map ClassInfo.figures = b :: rest ++ [a] := by
  obtain ⟨entry, hentry, hpos, rfl⟩ := exists_entry hb
  obtain ⟨last, hlast, hpos', rfl⟩ := exists_entry ha
  obtain ⟨front, back, hsplit⟩ := List.append_of_mem hentry
  have hother : last ∈ front ++ back := by
    rw [hsplit, List.mem_append, List.mem_cons] at hlast
    rcases hlast with hlast | rfl | hlast
    · exact List.mem_append_left _ hlast
    · exact absurd rfl hne
    · exact List.mem_append_right _ hlast
  obtain ⟨front', back', hsplit'⟩ := List.append_of_mem hother
  have hperm : (entry :: (front' ++ back') ++ [last]).Perm p.classes.entries := by
    rw [hsplit]
    refine List.Perm.trans ?_ List.perm_middle.symm
    rw [hsplit', List.cons_append]
    refine List.Perm.cons _ ((List.perm_append_singleton _ _).trans List.perm_middle.symm)
  obtain ⟨go, hgo⟩ := exists_order hperm
  refine ⟨go, (countedClasses (front' ++ back')).map ClassInfo.figures, ?_⟩
  rw [hgo, countedClasses_concat hpos', countedClasses_cons hpos, List.map_append, List.map_cons]
  rfl

theorem mem_take_of_first {go : GoRuntime} {rest : List ClassFigures}
    (hfirst : (countedClasses (go.order p.classes)).map ClassInfo.figures = b :: rest)
    (habove : above ClassFigures.instanceCount p.figures b.instanceCount < 20) :
    b ∈ (p.buildStats go).topClasses.map ClassStats.figures := by
  have hranks := ranks_figures (go.order p.classes)
  rw [← above_perm (perm_figures go p), hfirst] at habove
  rw [hfirst] at hranks
  rw [topClasses_buildStats, List.map_take]
  exact hranks.mem_take_of_first habove

theorem mem_drop_of_last {go : GoRuntime} {rest : List ClassFigures}
    (hlast : (countedClasses (go.order p.classes)).map ClassInfo.figures = rest ++ [a])
    (hatLeast : 20 < atLeast ClassFigures.instanceCount p.figures a.instanceCount) :
    a ∈ ((rankedClasses (go.order p.classes)).map ClassStats.figures).drop 20 := by
  have hranks := ranks_figures (go.order p.classes)
  rw [← atLeast_perm (perm_figures go p), hlast] at hatLeast
  rw [hlast] at hranks
  exact hranks.mem_drop_of_last hatLeast

theorem topsAgree_of_isTopOf (h : ∀ go, (p.buildStats go).IsTopOf p) : p.TopsAgree where
  sizes a ha b hb _ habove hatLeast := by
    rcases eq_or_ne a b with rfl | hne
    · exact Int.le_refl _
    obtain ⟨go, rest, hends⟩ := exists_ends ha hb hne
    have hin := mem_take_of_first hends habove
    have hout := mem_drop_of_last hends hatLeast
    obtain ⟨-, -, others, hperm, hlargest⟩ := (h go).sizes
    have hothers : others.Perm _ :=
      (List.perm_append_left_iff _).mp (hperm.trans (perm_take_drop go p).symm)
    exact hlargest b (((perm_topSizes go p).map _).mem_iff.mpr hin) a (hothers.mem_iff.mpr hout)
  averages b hb habove := by
    obtain ⟨go, rest, hfirst⟩ := exists_first hb
    obtain ⟨s, hs, rfl⟩ := List.mem_map.mp (mem_take_of_first hfirst habove)
    have hdivided := (h go).averages s (List.mem_append_left _ hs)
    rw [topClasses_buildStats] at hs
    obtain ⟨hpos, havg⟩ :=
      avgSize_of_mem ((ranks_rankedClasses _).perm.mem_iff.mp (List.mem_of_mem_take hs))
    rw [havg] at hdivided
    exact (avgSize_eq_iff hpos s.totalSize).mp hdivided

end Necessary

/-! ## Main theorem -/

/-- The lists are right in every order of the iteration. -/
theorem isTopOf_iff (p : HPROFParser) :
    (∀ go, (p.buildStats go).IsTopOf p) ↔ p.TopsAgree := by
  refine ⟨topsAgree_of_isTopOf, fun h go => ⟨isTop_classes go p, isTop_sizes go h, ?_⟩⟩
  intro s hs
  rcases List.mem_append.mp hs with hs | hs
  · exact averages_of_topsAgree go h hs
  · exact averages_of_topsAgree go h ((perm_topSizes go p).mem_iff.mp hs)

/-- Twenty classes with two instances each, and a large one with one. -/
def largeClass : HPROFParser where
  classes :=
    { entries := (0, { id := 0, instanceCount := 1, totalSize := 4096 }) ::
        (List.range' 1 20).map fun id => (id, { id := id, instanceCount := 2, totalSize := 32 })
      nodup := by decide }

/-- The iteration follows the order of insertion. -/
def insertionOrder : GoRuntime where
  order := Dict.entries
  perm _ := .refl _
  megabytes _ := ""

/-- The large class is not among the largest. -/
theorem not_isTopOf : ¬∀ (p : HPROFParser) (go : GoRuntime), (p.buildStats go).IsTopOf p := by
  intro h
  obtain ⟨-, ⟨-, -, rest, hperm, hlargest⟩, -⟩ := h largeClass insertionOrder
  have hsizes : ((largeClass.buildStats insertionOrder).topSizes.map ClassStats.figures).map
      ClassFigures.totalSize = List.replicate 20 32 := by decide +kernel
  have hsmall : ∀ f ∈ (largeClass.buildStats insertionOrder).topSizes.map ClassStats.figures,
      f.totalSize = 32 := fun f hf =>
    List.eq_of_mem_replicate (hsizes ▸ List.mem_map_of_mem hf : f.totalSize ∈ List.replicate 20 32)
  have hlarge : (⟨[], 1, 4096⟩ : ClassFigures) ∈ largeClass.figures := List.mem_cons_self
  rcases List.mem_append.mp (hperm.mem_iff.mpr hlarge) with htop | hrest
  · exact absurd (hsmall _ htop) (by decide)
  · cases htop : (largeClass.buildStats insertionOrder).topSizes.map ClassStats.figures with
    | nil =>
        rw [htop] at hsizes
        exact absurd hsizes (by decide)
    | cons f top =>
        have hmem : f ∈ (largeClass.buildStats insertionOrder).topSizes.map ClassStats.figures := by
          rw [htop]
          exact List.mem_cons_self
        have hle := hlargest f hmem _ hrest
        rw [hsmall f hmem] at hle
        exact absurd hle (by decide)

end MiniDrop
