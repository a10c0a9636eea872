import MiniDrop.Verification.Flame.DiffNodes
import MiniDrop.Verification.Flame.Readers
import Mathlib.Algebra.Order.BigOperators.Group.Finset

/-! # The tree of differences is a trie

It is the trie of the stacks of both texts, as long as the index tells their paths apart. -/

namespace MiniDrop

/-! ## The trie -/

section Specification

variable (c1 c2 : StdMap ℤ)

/-- The frames of all stacks. -/
def stackPaths : Finset (List String) :=
  ((c1.keys ++ c2.keys).map fun stack => framesOf stack.toList).toFinset

def valueAt (path : List String) : ℤ := (c1[stackOf path]?).getD 0

def deltaAt (path : List String) : ℤ := valueAt c2 path - valueAt c1 path

end Specification

/-- The trie of the stacks, without the subtrees in which nothing changed. -/
def IsDiffTrie (c1 c2 : StdMap ℤ) (tree : DiffTreeNode) : Prop :=
  Shape (fun path => ⟨deltaAt c1 c2 path, Trie.total (stackPaths c1 c2) (deltaAt c1 c2) path,
    valueAt c1 path⟩) (Trie.Weighty (stackPaths c1 c2) (deltaAt c1 c2)) [] tree

/-- For all orders of the maps, the tree is the trie, and different paths have different nodes. -/
structure BuildsTrie (collapsed1 collapsed2 : String) : Prop where
  nil : ∀ order1 order2, order1.Perm (parseFoldedStacks collapsed1).toList →
    order2.Perm (parseFoldedStacks collapsed2).toList →
      (buildDiffTree (parseFoldedStacks collapsed2) order1 order2 = none ↔
        parseFoldedStacks collapsed1 = ∅ ∧ parseFoldedStacks collapsed2 = ∅)
  trie : ∀ order1 order2, order1.Perm (parseFoldedStacks collapsed1).toList →
    order2.Perm (parseFoldedStacks collapsed2).toList →
      ∀ tree, buildDiffTree (parseFoldedStacks collapsed2) order1 order2 = some tree →
        IsDiffTrie (parseFoldedStacks collapsed1) (parseFoldedStacks collapsed2) tree
  apart : ∀ order1 order2, order1.Perm (parseFoldedStacks collapsed1).toList →
    order2.Perm (parseFoldedStacks collapsed2).toList → ∀ path path',
      Trie.Occupied (stackPaths (parseFoldedStacks collapsed1) (parseFoldedStacks collapsed2)) path →
      Trie.Occupied (stackPaths (parseFoldedStacks collapsed1) (parseFoldedStacks collapsed2)) path' →
        (DiffNodes.build (stackDeltas (parseFoldedStacks collapsed2) order1 order2)).nodeAt path =
          (DiffNodes.build (stackDeltas (parseFoldedStacks collapsed2) order1 order2)).nodeAt path' →
            path = path'

/-! ## The counts of a text -/

/-- The counts of a text add up within `int64`. -/
def AddsUp (text : String) : Prop :=
  (((splitLines text).filterMap foldedLine).map Prod.snd).sum < 9223372036854775808

instance (text : String) : Decidable (AddsUp text) := inferInstanceAs (Decidable (_ < _))

section Counts

variable {text : String}

theorem foldedLine_spec {line : List Char} {entry : String × ℤ} (h : foldedLine line = some entry) :
    entry.1 ≠ "" ∧ 0 < entry.2 := by
  obtain ⟨⟨stack, count⟩, hcut, hentry⟩ := Option.bind_eq_some_iff.mp h
  obtain ⟨i, hi, hpos⟩ := Option.bind_eq_some_iff.mp hcut
  rw [Option.ite_none_left_eq_some, Option.some.injEq, Prod.mk.injEq] at hpos
  rw [Option.ite_none_right_eq_some, Option.some.injEq] at hentry
  obtain ⟨hcount, rfl⟩ := hentry
  refine ⟨?_, hcount⟩
  have hlength := Text.le_length_of_rfind hi
  have hne : stack ≠ [] := by
    rw [← hpos.2.1, ne_eq, List.take_eq_nil_iff]
    rintro (hzero | hnil)
    · exact hpos.1 hzero
    · simp [hnil] at hlength
  simpa using hne

/-- Samples of these stacks are among those of the text. -/
theorem sum_filter_le {entries : List (String × ℤ)} (hpos : ∀ e ∈ entries, 0 < e.2)
    (keys : Finset String) :
    ∑ key ∈ keys, ((entries.filter fun e => e.1 = key).map Prod.snd).sum ≤
      (entries.map Prod.snd).sum := by
  induction entries with
  | nil => simp
  | cons e entries ih =>
      obtain ⟨he, hrest⟩ := List.forall_mem_cons.mp hpos
      have hstep : ∀ key, (((e :: entries).filter fun e => e.1 = key).map Prod.snd).sum =
          (if e.1 = key then e.2 else 0) +
            ((entries.filter fun e => e.1 = key).map Prod.snd).sum := by
        intro key
        by_cases heq : e.1 = key <;> simp [heq]
      have hone : ∑ key ∈ keys, (if e.1 = key then e.2 else 0) ≤ e.2 := by
        rw [Finset.sum_ite_eq]
        split
        · exact le_rfl
        · exact he.le
      rw [Finset.sum_congr rfl fun key _ => hstep key, Finset.sum_add_distrib, List.map_cons,
        List.sum_cons]
      exact add_le_add hone (ih hrest)

theorem getElem?_parseFoldedStacks (text : String) (key : String) :
    (parseFoldedStacks text)[key]? =
      (((splitLines text).filterMap foldedLine).filter fun e => e.1 = key).foldl
        (fun o e => some (int64 (o.getD 0 + e.2))) none := by
  refine (Folds.foldl_observe (fun (counts : StdMap ℤ) key => counts[key]?) Prod.fst
    (fun o e => some (int64 (o.getD 0 + e.2))) ?_ _ _ key).trans ?_
  · intro counts e key
    rw [addCount, Std.ExtTreeMap.getElem?_insert]
    by_cases hkey : e.1 = key <;> simp [hkey]
  · rw [Std.ExtTreeMap.getElem?_empty]

theorem pos_of_mem_lines :
    ∀ e ∈ (splitLines text).filterMap foldedLine, 0 < e.2 := by
  intro e he
  obtain ⟨line, -, hline⟩ := List.mem_filterMap.mp he
  exact (foldedLine_spec hline).2

theorem sum_filter_nonneg (key : String) :
    0 ≤ ((((splitLines text).filterMap foldedLine).filter fun e => e.1 = key).map
      Prod.snd).sum := by
  refine List.sum_nonneg fun n hn => ?_
  obtain ⟨e, he, rfl⟩ := List.mem_map.mp hn
  exact (pos_of_mem_lines e (List.mem_of_mem_filter he)).le

theorem getD_parseFoldedStacks (h : AddsUp text) (key : String) :
    ((parseFoldedStacks text)[key]?).getD 0 =
      ((((splitLines text).filterMap foldedLine).filter fun e => e.1 = key).map Prod.snd).sum := by
  have hloop : ∀ (l : List (String × ℤ)) (o : Option ℤ),
      (l.foldl (fun o e => some (int64 (o.getD 0 + e.2))) o).getD 0 =
        (l.map Prod.snd).foldl (fun sum m => int64 (sum + m)) (o.getD 0) := by
    intro l
    induction l with
    | nil => exact fun o => rfl
    | cons e l ih => exact fun o => ih _
  have hpos : ∀ e ∈ (splitLines text).filterMap foldedLine, 0 < e.2 := pos_of_mem_lines
  have hle := sum_filter_le hpos {key}
  rw [Finset.sum_singleton] at hle
  have hzero : int64 0 = 0 := int64_of_lt le_rfl (by decide)
  rw [getElem?_parseFoldedStacks, hloop, Option.getD_none, ← hzero, foldl_int64, zero_add]
  exact int64_of_lt (sum_filter_nonneg key) (hle.trans_lt h)

theorem getD_nonneg (h : AddsUp text) (key : String) :
    0 ≤ ((parseFoldedStacks text)[key]?).getD 0 := by
  rw [getD_parseFoldedStacks h]
  exact sum_filter_nonneg key

theorem sum_getD_lt (h : AddsUp text) (keys : Finset String) :
    ∑ key ∈ keys, ((parseFoldedStacks text)[key]?).getD 0 < 9223372036854775808 := by
  rw [Finset.sum_congr rfl fun key _ => getD_parseFoldedStacks h key]
  exact (sum_filter_le pos_of_mem_lines keys).trans_lt h

theorem empty_notMem_parseFoldedStacks : "" ∉ parseFoldedStacks text := by
  have hnone : ((splitLines text).filterMap foldedLine).filter (fun e => e.1 = "") = [] := by
    refine List.filter_eq_nil_iff.mpr fun e he => ?_
    obtain ⟨line, -, hline⟩ := List.mem_filterMap.mp he
    simpa using (foldedLine_spec hline).1
  rw [Std.ExtTreeMap.mem_iff_isSome_getElem?, getElem?_parseFoldedStacks, hnone]
  simp

end Counts

/-! ## The differences of two texts -/

section Deltas

variable {c1 c2 : StdMap ℤ} {order1 order2 : List (String × ℤ)}

theorem mem_stackPaths {path : List String} : path ∈ stackPaths c1 c2 ↔
    ∃ stack, (stack ∈ c1 ∨ stack ∈ c2) ∧ framesOf stack.toList = path := by
  simp [stackPaths, or_and_right, exists_or]

theorem framed_of_mem {path : List String} (h : path ∈ stackPaths c1 c2) : Framed path := by
  obtain ⟨stack, -, rfl⟩ := mem_stackPaths.mp h
  exact framed_framesOf _

@[simp] theorem valueAt_framesOf (counts : StdMap ℤ) (stack : String) :
    valueAt counts (framesOf stack.toList) = (counts[stack]?).getD 0 := by
  rw [valueAt, stackOf_framesOf]

theorem framesOf_toList_inj {s t : String} : framesOf s.toList = framesOf t.toList ↔ s = t := by
  rw [framesOf_inj, String.toList_inj]

/-- The entries that the loops visit. -/
theorem map_frames_stackDeltas : (stackDeltas c2 order1 order2).map StackDelta.frames =
    ((order1 ++ order2.filter fun e => e.1 ∉ order1.map Prod.fst).map Prod.fst).map fun stack =>
      framesOf stack.toList := by
  simp only [stackDeltas, List.map_append, List.map_map]
  rfl

theorem nodup_stackDeltas (h1 : order1.Perm c1.toList) (h2 : order2.Perm c2.toList) :
    ((stackDeltas c2 order1 order2).map StackDelta.frames).Nodup := by
  have hkeys : ∀ c : StdMap ℤ, (c.toList.map Prod.fst).Nodup := by
    intro c
    rw [Std.ExtTreeMap.map_fst_toList_eq_keys]
    exact Std.ExtTreeMap.nodup_keys
  rw [map_frames_stackDeltas]
  refine List.Nodup.map (fun _ _ => framesOf_toList_inj.mp) ?_
  rw [List.map_append]
  refine List.nodup_append'.mpr ⟨(h1.map _).nodup_iff.mpr (hkeys c1), ?_, ?_⟩
  · exact (List.filter_sublist.map _).nodup ((h2.map _).nodup_iff.mpr (hkeys c2))
  · intro stack hfirst hsecond
    obtain ⟨e, he, rfl⟩ := List.mem_map.mp hsecond
    exact absurd hfirst (by simpa using (List.mem_filter.mp he).2)

theorem getElem?_of_mem {counts : StdMap ℤ} {order : List (String × ℤ)}
    (h : order.Perm counts.toList) {e : String × ℤ} (he : e ∈ order) : counts[e.1]? = some e.2 :=
  Std.ExtTreeMap.mem_toList_iff_getElem?_eq_some.mp (h.subset he)

theorem mem_keys_iff {c : StdMap ℤ} {order : List (String × ℤ)} (h : order.Perm c.toList)
    {stack : String} : stack ∈ order.map Prod.fst ↔ stack ∈ c := by
  rw [(h.map Prod.fst).mem_iff, Std.ExtTreeMap.map_fst_toList_eq_keys, Std.ExtTreeMap.mem_keys]

theorem mem_of_mem_stackDeltas (h1 : order1.Perm c1.toList) (h2 : order2.Perm c2.toList)
    {d : StackDelta} (hd : d ∈ stackDeltas c2 order1 order2) :
    d.frames ∈ stackPaths c1 c2 ∧ int64 d.delta = int64 (deltaAt c1 c2 d.frames) ∧
      d.base = valueAt c1 d.frames := by
  rcases List.mem_append.mp hd with hd | hd
  · obtain ⟨e, he, rfl⟩ := List.mem_map.mp hd
    have hget := getElem?_of_mem h1 he
    have hmem : e.1 ∈ c1 := (mem_keys_iff h1).mp (List.mem_map_of_mem he)
    refine ⟨mem_stackPaths.mpr ⟨e.1, .inl hmem, rfl⟩, ?_, ?_⟩
    · dsimp only
      rw [deltaAt, valueAt_framesOf, valueAt_framesOf, hget, Option.getD_some, int64_int64]
    · dsimp only
      rw [valueAt_framesOf, hget, Option.getD_some]
  · obtain ⟨e, he, rfl⟩ := List.mem_map.mp hd
    obtain ⟨he, hnew⟩ := List.mem_filter.mp he
    have hget := getElem?_of_mem h2 he
    have hmem : e.1 ∈ c2 := (mem_keys_iff h2).mp (List.mem_map_of_mem he)
    have hnone : c1[e.1]? = none := by
      refine Std.ExtTreeMap.getElem?_eq_none fun hfirst => ?_
      simp [(mem_keys_iff h1).mpr hfirst] at hnew
    refine ⟨mem_stackPaths.mpr ⟨e.1, .inr hmem, rfl⟩, ?_, ?_⟩
    · dsimp only
      rw [deltaAt, valueAt_framesOf, valueAt_framesOf, hget, hnone, Option.getD_some,
        Option.getD_none, sub_zero]
    · dsimp only
      rw [valueAt_framesOf, hnone, Option.getD_none]

theorem exists_mem_stackDeltas (h1 : order1.Perm c1.toList) (h2 : order2.Perm c2.toList)
    {path : List String} (hpath : path ∈ stackPaths c1 c2) :
    ∃ d ∈ stackDeltas c2 order1 order2, d.frames = path := by
  obtain ⟨stack, hstack, rfl⟩ := mem_stackPaths.mp hpath
  have hmem : framesOf stack.toList ∈ (stackDeltas c2 order1 order2).map StackDelta.frames := by
    rw [map_frames_stackDeltas, List.mem_map]
    refine ⟨stack, ?_, rfl⟩
    rw [List.map_append, List.mem_append]
    by_cases hfirst : stack ∈ order1.map Prod.fst
    · exact .inl hfirst
    · have hsecond : stack ∈ c2 := hstack.resolve_left fun h => hfirst ((mem_keys_iff h1).mpr h)
      obtain ⟨e, he, rfl⟩ := List.mem_map.mp ((mem_keys_iff h2).mpr hsecond)
      exact .inr (List.mem_map_of_mem (List.mem_filter.mpr ⟨he, by simpa using hfirst⟩))
  obtain ⟨d, hd, hframes⟩ := List.mem_map.mp hmem
  exact ⟨d, hd, hframes⟩

/-- Every stack reaches its own path once. -/
theorem foldl_addOwn (h1 : order1.Perm c1.toList) (h2 : order2.Perm c2.toList)
    (path : List String) :
    (stackDeltas c2 order1 order2).foldl addOwn (fun _ => (0, 0)) path =
      if path ∈ stackPaths c1 c2 then (int64 (deltaAt c1 c2 path), int64 (valueAt c1 path))
      else (0, 0) := by
  have hbody : ∀ (own : List String → ℤ × ℤ) d p, addOwn own d p = if d.frames = p then
      (int64 ((own p).1 + d.delta), int64 ((own p).2 + d.base)) else own p := by
    intro own d p
    rw [addOwn, Function.update_apply]
    by_cases hp : p = d.frames
    · rw [if_pos hp, if_pos hp.symm, hp]
    · rw [if_neg hp, if_neg (Ne.symm hp)]
  refine (Folds.foldl_observe (fun own : List String → ℤ × ℤ => own) StackDelta.frames
    (fun v d => (int64 (v.1 + d.delta), int64 (v.2 + d.base))) hbody _ _ path).trans ?_
  split
  · next hpath =>
    obtain ⟨d, hd, rfl⟩ := exists_mem_stackDeltas h1 h2 hpath
    have hlength := nodup_map_iff.mp (nodup_stackDeltas h1 h2) d.frames
    have hmem : d ∈ (stackDeltas c2 order1 order2).filter fun d' => d'.frames = d.frames :=
      List.mem_filter.mpr ⟨hd, by simp⟩
    obtain ⟨-, hdelta, hbase⟩ := mem_of_mem_stackDeltas h1 h2 hd
    obtain ⟨d', hsole⟩ :=
      List.length_eq_one_iff.mp (le_antisymm hlength (List.length_pos_of_mem hmem))
    obtain rfl : d = d' := List.mem_singleton.mp (hsole ▸ hmem)
    rw [hsole, List.foldl_cons, List.foldl_nil, zero_add, zero_add, hdelta, hbase]
  · next hpath =>
    have hnone : ((stackDeltas c2 order1 order2).filter fun d => d.frames = path) = [] := by
      refine List.filter_eq_nil_iff.mpr fun d hd => ?_
      have hne : d.frames ≠ path := fun heq => hpath (heq ▸ (mem_of_mem_stackDeltas h1 h2 hd).1)
      simpa using hne
    rw [hnone, List.foldl_nil]

end Deltas

/-! ## The condition -/

section Condition

variable {text1 text2 : String}

/-- Frames of these texts that lead to no stack have no counts. -/
theorem valueAt_eq_zero {c : StdMap ℤ} {keys : Finset (List String)} {path : List String}
    (hkeys : ∀ stack ∈ c, framesOf stack.toList ∈ keys) (hempty : "" ∉ c)
    (hframed : path = [] ∨ Framed path) (hpath : path ∉ keys) : valueAt c path = 0 := by
  have hnot : stackOf path ∉ c := by
    intro hmem
    rcases eq_or_ne path [] with rfl | hne
    · exact hempty hmem
    · have hframes := framesOf_stackOf (hframed.resolve_left hne) hne
      exact hpath (hframes ▸ hkeys _ hmem)
  rw [valueAt, Std.ExtTreeMap.getElem?_eq_none hnot, Option.getD_none]

theorem stackOf_injOn (c1 c2 : StdMap ℤ) : Set.InjOn stackOf (stackPaths c1 c2) := by
  intro path hpath path' hpath' heq
  obtain ⟨stack, -, rfl⟩ := mem_stackPaths.mp hpath
  obtain ⟨stack', -, rfl⟩ := mem_stackPaths.mp hpath'
  rw [stackOf_framesOf, stackOf_framesOf] at heq
  rw [heq]

/-- No sum of differences leaves `int64`. -/
theorem sum_deltaAt_bounds (h1 : AddsUp text1) (h2 : AddsUp text2) {paths : Finset (List String)}
    (hpaths : paths ⊆ stackPaths (parseFoldedStacks text1) (parseFoldedStacks text2)) :
    -9223372036854775808 < ∑ path ∈ paths,
        deltaAt (parseFoldedStacks text1) (parseFoldedStacks text2) path ∧
      ∑ path ∈ paths, deltaAt (parseFoldedStacks text1) (parseFoldedStacks text2) path <
        9223372036854775808 := by
  have hinj : Set.InjOn stackOf paths := (stackOf_injOn _ _).mono hpaths
  have hbounds : ∀ {text}, AddsUp text → 0 ≤ ∑ path ∈ paths, valueAt (parseFoldedStacks text) path ∧
      ∑ path ∈ paths, valueAt (parseFoldedStacks text) path < 9223372036854775808 := by
    intro text htext
    refine ⟨Finset.sum_nonneg fun path _ => getD_nonneg htext _, ?_⟩
    have himage : ∑ path ∈ paths, valueAt (parseFoldedStacks text) path =
        ∑ key ∈ paths.image stackOf, ((parseFoldedStacks text)[key]?).getD 0 :=
      (Finset.sum_image (f := fun key => ((parseFoldedStacks text)[key]?).getD 0) hinj).symm
    rw [himage]
    exact sum_getD_lt htext _
  obtain ⟨hlow1, hhigh1⟩ := hbounds h1
  obtain ⟨hlow2, hhigh2⟩ := hbounds h2
  have hsum : ∑ path ∈ paths, deltaAt (parseFoldedStacks text1) (parseFoldedStacks text2) path =
      ∑ path ∈ paths, valueAt (parseFoldedStacks text2) path -
        ∑ path ∈ paths, valueAt (parseFoldedStacks text1) path := Finset.sum_sub_distrib ..
  rw [hsum]
  omega

theorem stackDeltas_eq_nil_iff {c1 c2 : StdMap ℤ} {order1 order2 : List (String × ℤ)}
    (h1 : order1.Perm c1.toList) (h2 : order2.Perm c2.toList) :
    stackDeltas c2 order1 order2 = [] ↔ c1 = ∅ ∧ c2 = ∅ := by
  rw [Std.ExtTreeMap.eq_empty_iff_forall_not_mem, Std.ExtTreeMap.eq_empty_iff_forall_not_mem]
  constructor
  · intro hnil
    have hnone : ∀ stack, ¬ (stack ∈ c1 ∨ stack ∈ c2) := by
      intro stack hstack
      obtain ⟨d, hd, -⟩ := exists_mem_stackDeltas h1 h2 (mem_stackPaths.mpr ⟨stack, hstack, rfl⟩)
      rw [hnil] at hd
      cases hd
    exact ⟨fun stack hstack => hnone stack (.inl hstack),
      fun stack hstack => hnone stack (.inr hstack)⟩
  · rintro ⟨hnone1, hnone2⟩
    refine List.eq_nil_iff_forall_not_mem.mpr fun d hd => ?_
    obtain ⟨stack, hstack, -⟩ := mem_stackPaths.mp (mem_of_mem_stackDeltas h1 h2 hd).1
    exact hstack.elim (hnone1 stack) (hnone2 stack)

/-- Paths that the index confuses are the only defect. -/
theorem framesApart_of_buildsTrie (h : BuildsTrie text1 text2) :
    FramesApart (stackPaths (parseFoldedStacks text1) (parseFoldedStacks text2)) := by
  have hconfused := h.apart _ _ (List.Perm.refl _) (List.Perm.refl _)
  have hfront : ∀ {keys : Finset (List String)} {path key}, key ∈ keys → path <+: key →
      Trie.Occupied keys path := fun hkey hpath => ⟨_, hkey, hpath⟩
  constructor
  · intro key hkey hpath
    have hsame := hconfused [""] ["", ""]
      (hfront hkey ((List.prefix_append [""] [""]).trans hpath)) (hfront hkey hpath) rfl
    simp at hsame
  · intro key hkey key' hkey' frame hframe hpath hpath'
    have hsame := hconfused ["", frame] [frame] (hfront hkey hpath) (hfront hkey' hpath') rfl
    simp at hsame

theorem keyed_of_framesApart {c1 c2 : StdMap ℤ} (h : FramesApart (stackPaths c1 c2)) :
    Keyed fun path => path = [] ∨ Trie.Occupied (stackPaths c1 c2) path where
  front path rest hpath := by
    rcases hpath with hnil | hocc
    · exact .inl (List.append_eq_nil_iff.mp hnil).1
    · exact .inr hocc.of_append
  inj path path' hpath hpath' hne hne' heq :=
    pathKey_inj h (fun _ => framed_of_mem) (hpath.resolve_left hne) (hpath'.resolve_left hne') hne
      hne' heq

/-- Where the index confuses no paths, it leads to the nodes of the trie. -/
theorem holds_build_stackDeltas {c1 c2 : StdMap ℤ} {order1 order2 : List (String × ℤ)}
    (h : FramesApart (stackPaths c1 c2)) (h1 : order1.Perm c1.toList)
    (h2 : order2.Perm c2.toList) :
    Holds (fun path => path = [] ∨ Trie.Occupied (stackPaths c1 c2) path)
      (DiffNodes.build (stackDeltas c2 order1 order2))
      (fun path => path = [] ∨ Trie.Occupied (stackPaths c1 c2) path)
      ((stackDeltas c2 order1 order2).foldl addOwn fun _ => (0, 0)) := by
  have hholds := holds_build (keyed_of_framesApart h) (.inl rfl) fun d hd =>
    .inr ⟨_, (mem_of_mem_stackDeltas h1 h2 hd).1, List.prefix_refl d.frames⟩
  have hsame : (fun path => path = [] ∨ ∃ d ∈ stackDeltas c2 order1 order2, path <+: d.frames) =
      fun path => path = [] ∨ Trie.Occupied (stackPaths c1 c2) path := by
    funext path
    refine propext (or_congr Iff.rfl ⟨?_, ?_⟩)
    · rintro ⟨d, hd, hpath⟩
      exact ⟨_, (mem_of_mem_stackDeltas h1 h2 hd).1, hpath⟩
    · rintro ⟨key, hkey, hpath⟩
      obtain ⟨d, hd, rfl⟩ := exists_mem_stackDeltas h1 h2 hkey
      exact ⟨d, hd, hpath⟩
  rwa [hsame] at hholds

/-- No stack is empty, and no counts or sums of differences leave `int64`. -/
structure Bounded (c1 c2 : StdMap ℤ) : Prop where
  empty : "" ∉ c1 ∧ "" ∉ c2
  value : ∀ path, int64 (valueAt c1 path) = valueAt c1 path
  delta : ∀ paths ⊆ stackPaths c1 c2,
    int64 (∑ path ∈ paths, deltaAt c1 c2 path) = ∑ path ∈ paths, deltaAt c1 c2 path

theorem bounded_of_addsUp (h1 : AddsUp text1) (h2 : AddsUp text2) :
    Bounded (parseFoldedStacks text1) (parseFoldedStacks text2) where
  empty := ⟨empty_notMem_parseFoldedStacks, empty_notMem_parseFoldedStacks⟩
  value path := by
    have hlt := sum_getD_lt h1 {stackOf path}
    rw [Finset.sum_singleton] at hlt
    exact int64_of_lt (getD_nonneg h1 _) hlt
  delta paths hpaths := by
    obtain ⟨hlow, hhigh⟩ := sum_deltaAt_bounds h1 h2 hpaths
    exact int64_of_bounds hlow.le hhigh

variable {c1 c2 : StdMap ℤ} {order1 order2 : List (String × ℤ)}

theorem own_eq (hbounded : Bounded c1 c2) (h1 : order1.Perm c1.toList)
    (h2 : order2.Perm c2.toList) (path : List String) :
    (stackDeltas c2 order1 order2).foldl addOwn (fun _ => (0, 0)) path =
      if path ∈ stackPaths c1 c2 then (deltaAt c1 c2 path, valueAt c1 path) else (0, 0) := by
  rw [foldl_addOwn h1 h2, hbounded.value]
  split
  · next hpath =>
    have hdelta := hbounded.delta {path} (Finset.singleton_subset_iff.mpr hpath)
    rw [Finset.sum_singleton] at hdelta
    rw [hdelta]
  · rfl

/-- The node of a stack has its difference and its value, and other nodes have none. -/
theorem own_eq_of_occupied (hbounded : Bounded c1 c2) (h1 : order1.Perm c1.toList)
    (h2 : order2.Perm c2.toList) {path : List String}
    (hpath : path = [] ∨ Trie.Occupied (stackPaths c1 c2) path) :
    (stackDeltas c2 order1 order2).foldl addOwn (fun _ => (0, 0)) path =
      (deltaAt c1 c2 path, valueAt c1 path) := by
  rw [own_eq hbounded h1 h2]
  split
  · rfl
  · next hnot =>
    have hframed : path = [] ∨ Framed path := by
      refine hpath.imp id ?_
      rintro ⟨key, hkey, hfront⟩ frame hframe
      exact framed_of_mem hkey frame (hfront.subset hframe)
    have hzero1 := valueAt_eq_zero (fun stack hstack =>
      mem_stackPaths.mpr ⟨stack, .inl hstack, rfl⟩) hbounded.empty.1 hframed hnot
    have hzero2 := valueAt_eq_zero (fun stack hstack =>
      mem_stackPaths.mpr ⟨stack, .inr hstack, rfl⟩) hbounded.empty.2 hframed hnot
    rw [deltaAt, hzero1, hzero2, sub_zero]

/-- Adding up in `int64` gives the totals of the trie. -/
theorem foldl_total_eq (hbounded : Bounded c1 c2) (h1 : order1.Perm c1.toList)
    (h2 : order2.Perm c2.toList) {path steps : List String}
    (hsteps : Trie.Steps (stackPaths c1 c2) path steps) :
    steps.foldl (fun sum step => int64 (sum +
        Trie.total (stackPaths c1 c2) (deltaAt c1 c2) (path ++ [step])))
      ((stackDeltas c2 order1 order2).foldl addOwn (fun _ => (0, 0)) path).1 =
      Trie.total (stackPaths c1 c2) (deltaAt c1 c2) path := by
  have hown : ((stackDeltas c2 order1 order2).foldl addOwn (fun _ => (0, 0)) path).1 =
      if path ∈ stackPaths c1 c2 then deltaAt c1 c2 path else 0 := by
    rw [own_eq hbounded h1 h2]
    split <;> rfl
  have hwrap : int64 (if path ∈ stackPaths c1 c2 then deltaAt c1 c2 path else 0) =
      if path ∈ stackPaths c1 c2 then deltaAt c1 c2 path else 0 := by
    split
    · next hpath =>
      have hdelta := hbounded.delta {path} (Finset.singleton_subset_iff.mpr hpath)
      rwa [Finset.sum_singleton] at hdelta
    · exact int64_of_lt le_rfl (by decide)
  have hmap : ∀ n, steps.foldl (fun sum step => int64 (sum +
      Trie.total (stackPaths c1 c2) (deltaAt c1 c2) (path ++ [step]))) n =
      (steps.map fun step =>
        Trie.total (stackPaths c1 c2) (deltaAt c1 c2) (path ++ [step])).foldl
          (fun sum m => int64 (sum + m)) n := fun n => by rw [List.foldl_map]
  rw [hown, ← hwrap, hmap, foldl_int64, ← Trie.total_eq hsteps]
  exact hbounded.delta _ (Finset.filter_subset _ _)

theorem isDiffTrie_of_framesApart (hbounded : Bounded c1 c2) (h : FramesApart (stackPaths c1 c2))
    (h1 : order1.Perm c1.toList) (h2 : order2.Perm c2.toList) {tree : DiffTreeNode}
    (htree : buildDiffTree c2 order1 order2 = some tree) : IsDiffTrie c1 c2 tree := by
  rw [buildDiffTree, Option.ite_none_left_eq_some, Option.some.injEq] at htree
  obtain ⟨-, rfl⟩ := htree
  have hholds := holds_build_stackDeltas h h1 h2
  have hsteps : ∀ path (steps : List String), steps.Nodup →
      (∀ step, step ∈ steps ↔ (path ++ [step] = [] ∨
        Trie.Occupied (stackPaths c1 c2) (path ++ [step]))) →
      Trie.Steps (stackPaths c1 c2) path steps := fun path steps hnodup hmem =>
    ⟨hnodup, fun step => by simpa using hmem step⟩
  have htotals := Shape.computeTotalDelta (fun path steps hnodup hmem =>
    foldl_total_eq hbounded h1 h2 (hsteps path steps hnodup hmem))
      (hholds.shape hholds.root rfl (Nat.sub_le _ _))
  have hfields : Shape (fun path => ⟨deltaAt c1 c2 path,
      Trie.total (stackPaths c1 c2) (deltaAt c1 c2) path, valueAt c1 path⟩)
      (fun path => path = [] ∨ Trie.Occupied (stackPaths c1 c2) path) []
      (computeTotalDelta ((DiffNodes.build (stackDeltas c2 order1 order2)).treeAt
        (DiffNodes.build (stackDeltas c2 order1 order2)).nodes.length 0)) := by
    refine htotals.congr fun path hpath => ?_
    have hpath : path = [] ∨ Trie.Occupied (stackPaths c1 c2) path := hpath.elim .inl id
    rw [own_eq_of_occupied hbounded h1 h2 hpath]
  refine (hfields.pruneZeroDeltaNodes ?_ ?_).1
  · rintro path ⟨key, hkey, hfront, -⟩
    exact .inr ⟨key, hkey, hfront⟩
  · exact fun path steps hnodup hmem => Trie.weighty_iff (hsteps path steps hnodup hmem)

/-- The tree is right exactly if the index confuses no paths of the two texts. -/
theorem buildsTrie_iff (h1 : AddsUp text1) (h2 : AddsUp text2) : BuildsTrie text1 text2 ↔
    FramesApart (stackPaths (parseFoldedStacks text1) (parseFoldedStacks text2)) := by
  refine ⟨framesApart_of_buildsTrie, fun h => ⟨?_, ?_, ?_⟩⟩
  · intro order1 order2 horder1 horder2
    rw [← stackDeltas_eq_nil_iff horder1 horder2, buildDiffTree]
    split <;> simp [*]
  · intro order1 order2 horder1 horder2 tree htree
    exact isDiffTrie_of_framesApart (bounded_of_addsUp h1 h2) h horder1 horder2 htree
  · intro order1 order2 horder1 horder2 path path' hpath hpath' heq
    have hholds := holds_build_stackDeltas h horder1 horder2
    obtain ⟨i, hi⟩ := Option.isSome_iff_exists.mp
      ((hholds.index path (.inr hpath)).mpr (.inr hpath))
    exact hholds.inj path path' i (.inr hpath) (.inr hpath') hi (heq ▸ hi)

end Condition

theorem buildsTrie_called : BuildsTrie "a 1" "a;b 2" := by
  refine (buildsTrie_iff (by decide +kernel) (by decide +kernel)).mpr ?_
  have hpaths : stackPaths (parseFoldedStacks "a 1") (parseFoldedStacks "a;b 2") =
      {["a"], ["a", "b"]} := by decide +kernel
  rw [hpaths]
  exact ⟨by decide, by simp⟩

/-- One sample moves from `a` to `;a`, and the tree shows no difference. -/
theorem not_buildsTrie :
    ¬ ∀ text1 text2, AddsUp text1 → AddsUp text2 → BuildsTrie text1 text2 := by
  intro h
  have hempty : (buildDiffTree (parseFoldedStacks ";a 1") (parseFoldedStacks "a 1").toList
      (parseFoldedStacks ";a 1").toList).map (fun tree => tree.children.isEmpty) = some true := by
    decide +kernel
  obtain ⟨tree, htree, hchildren⟩ := Option.map_eq_some_iff.mp hempty
  have htrie := (h "a 1" ";a 1" (by decide +kernel) (by decide +kernel)).trie _ _
    (List.Perm.refl _) (List.Perm.refl _) tree htree
  have hweighty : Trie.Weighty (stackPaths (parseFoldedStacks "a 1") (parseFoldedStacks ";a 1"))
      (deltaAt (parseFoldedStacks "a 1") (parseFoldedStacks ";a 1")) ["a"] :=
    ⟨["a"], by decide +kernel, List.prefix_refl _, by decide +kernel⟩
  cases htrie with
  | @node _ children hnodup hnames hbelow =>
      obtain rfl : children = [] := List.isEmpty_iff.mp hchildren
      cases (hnames "a").mpr hweighty

end MiniDrop
