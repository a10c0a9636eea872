import MiniDrop.Verification.Flame.FramePaths

/-! # Nodes of the tree of differences

Each difference leads along its frames to one node. The nodes have the shape of a trie as long as
all paths have keys of their own. -/

namespace MiniDrop

/-- The node of a path. -/
def DiffNodes.nodeAt (t : DiffNodes) (path : List String) : Option ℕ :=
  if path = [] then some 0 else t.childIndex[pathKey path]?

/-! ## Building the nodes -/

section Build

/-- Prefixes included, these paths have keys of their own. -/
structure Keyed (paths : List String → Prop) : Prop where
  front : ∀ path rest, paths (path ++ rest) → paths path
  inj : ∀ path path', paths path → paths path' → path ≠ [] → path' ≠ [] →
    pathKey path = pathKey path' → path = path'

/-- The nodes of the paths seen so far, with these own deltas and values. -/
structure Holds (paths : List String → Prop) (t : DiffNodes) (seen : List String → Prop)
    (own : List String → ℤ × ℤ) : Prop where
  root : seen []
  front : ∀ path frame, seen (path ++ [frame]) → seen path
  known : ∀ path, seen path → paths path
  index : ∀ path, paths path → ((t.nodeAt path).isSome ↔ seen path)
  depth : ∀ path i, seen path → t.nodeAt path = some i → path.length ≤ i ∧ i < t.nodes.length
  inj : ∀ path path' i, seen path → seen path' → t.nodeAt path = some i →
    t.nodeAt path' = some i → path = path'
  fresh : ∀ path, ¬ seen path → own path = (0, 0)
  node : ∀ path i, seen path → t.nodeAt path = some i →
    ∃ (frames : List String) (children : List ℕ), frames.Nodup ∧
      (∀ frame, frame ∈ frames ↔ seen (path ++ [frame])) ∧
      (frames.map fun frame => t.nodeAt (path ++ [frame])) = children.map some ∧
      t.nodes[i]? = some ⟨path.getLast?.getD "all", (own path).1, (own path).2, children⟩

variable {paths seen : List String → Prop} {t : DiffNodes} {own : List String → ℤ × ℤ}

@[simp] theorem DiffNodes.nodeAt_nil (t : DiffNodes) : t.nodeAt [] = some 0 := rfl

theorem DiffNodes.nodeAt_append (t : DiffNodes) (path : List String) (frame : String) :
    t.nodeAt (path ++ [frame]) = t.childIndex[pathKey (path ++ [frame])]? := by
  rw [DiffNodes.nodeAt, if_neg (by simp)]

theorem holds_empty (hroot : paths []) : Holds paths {} (· = []) fun _ => (0, 0) where
  root := rfl
  front path frame h := by simp at h
  known path h := h ▸ hroot
  index path _ := by
    rcases List.eq_nil_or_concat' path with rfl | ⟨path, frame, rfl⟩
    · simp
    · simp [DiffNodes.nodeAt_append]
  depth path i h hi := by
    subst h
    obtain rfl : 0 = i := Option.some.inj hi
    simp
  inj path path' i h h' _ _ := h.trans h'.symm
  fresh path _ := rfl
  node path i h hi := by
    subst h
    obtain rfl : 0 = i := Option.some.inj hi
    exact ⟨[], [], List.nodup_nil, by simp, rfl, rfl⟩

/-- The nodes with a new child. -/
def DiffNodes.grow (t : DiffNodes) (i : ℕ) (path : List String) (frame : String) : DiffNodes where
  nodes := (t.nodes.modify i fun n => { n with children := n.children ++ [t.nodes.length] }) ++
    [{ name := frame }]
  childIndex := t.childIndex.insert (pathKey (path ++ [frame])) t.nodes.length

section Grow

variable {path : List String} {frame : String} {i : ℕ}

theorem DiffNodes.nodeAt_grow (hkeyed : Keyed paths) (hnext : paths (path ++ [frame]))
    {other : List String} (hother : paths other) : (t.grow i path frame).nodeAt other =
      if other = path ++ [frame] then some t.nodes.length else t.nodeAt other := by
  rcases List.eq_nil_or_concat' other with rfl | ⟨other, last, rfl⟩
  · simp
  · rw [DiffNodes.nodeAt_append, DiffNodes.nodeAt_append, DiffNodes.grow,
      Std.ExtTreeMap.getElem?_insert]
    by_cases hsame : other ++ [last] = path ++ [frame]
    · rw [if_pos hsame, hsame]
      simp
    · have hkey : pathKey (path ++ [frame]) ≠ pathKey (other ++ [last]) := fun heq =>
        hsame (hkeyed.inj _ _ hother hnext (by simp) (by simp) heq.symm)
      rw [if_neg hsame, if_neg (by simpa using hkey)]

theorem DiffNodes.nodes_grow_of_lt {j : ℕ} (hj : j < t.nodes.length) :
    (t.grow i path frame).nodes[j]? = (t.nodes[j]?).map fun n =>
      if i = j then { n with children := n.children ++ [t.nodes.length] } else n := by
  rw [DiffNodes.grow, List.getElem?_append_left (by rwa [List.length_modify]),
    List.getElem?_modify]
  rfl

theorem DiffNodes.nodes_grow_length :
    (t.grow i path frame).nodes[t.nodes.length]? = some { name := frame } := by
  rw [DiffNodes.grow, List.getElem?_append_right (by rw [List.length_modify]), List.length_modify]
  simp

/-- A new child belongs to the longer path. -/
theorem Holds.grow (h : Holds paths t seen own) (hkeyed : Keyed paths) (hpath : seen path)
    (hi : t.nodeAt path = some i) (hnext : paths (path ++ [frame]))
    (hnew : ¬ seen (path ++ [frame])) :
    Holds paths (t.grow i path frame) (fun p => seen p ∨ p = path ++ [frame]) own := by
  have hnodeAt : ∀ {p}, paths p → (t.grow i path frame).nodeAt p =
      if p = path ++ [frame] then some t.nodes.length else t.nodeAt p :=
    fun hp => DiffNodes.nodeAt_grow hkeyed hnext hp
  have hold : ∀ {p}, seen p → (t.grow i path frame).nodeAt p = t.nodeAt p := by
    intro p hp
    have hne : p ≠ path ++ [frame] := fun heq => hnew (heq ▸ hp)
    rw [hnodeAt (h.known p hp), if_neg hne]
  have hlength : (t.grow i path frame).nodes.length = t.nodes.length + 1 := by
    simp [DiffNodes.grow]
  have hself : (t.grow i path frame).nodeAt (path ++ [frame]) = some t.nodes.length := by
    rw [hnodeAt hnext, if_pos rfl]
  obtain ⟨hdepth, hlt⟩ := h.depth path i hpath hi
  refine ⟨.inl h.root, ?_, ?_, ?_, ?_, ?_, fun p hp => h.fresh p fun hseen => hp (.inl hseen), ?_⟩
  · rintro p g (hp | heq)
    · exact .inl (h.front p g hp)
    · obtain ⟨rfl, -⟩ := List.append_inj' heq rfl
      exact .inl hpath
  · rintro p (hp | rfl)
    · exact h.known p hp
    · exact hnext
  · intro p hp
    rw [hnodeAt hp]
    split
    · next heq => simp [heq]
    · next hne =>
      rw [h.index p hp]
      exact ⟨.inl, fun hor => hor.resolve_right hne⟩
  · rintro p j (hp | rfl) hj
    · rw [hold hp] at hj
      have := h.depth p j hp hj
      omega
    · obtain rfl : t.nodes.length = j := Option.some.inj (hself.symm.trans hj)
      rw [List.length_append, List.length_singleton]
      omega
  · rintro p q j (hp | rfl) (hq | rfl) hj hj'
    · rw [hold hp] at hj
      rw [hold hq] at hj'
      exact h.inj p q j hp hq hj hj'
    · rw [hold hp] at hj
      have := (h.depth p j hp hj).2
      have := Option.some.inj (hself.symm.trans hj')
      omega
    · rw [hold hq] at hj'
      have := (h.depth q j hq hj').2
      have := Option.some.inj (hself.symm.trans hj)
      omega
    · rfl
  · rintro p j (hp | rfl) hj
    · rw [hold hp] at hj
      obtain ⟨frames, children, hnodup, hmem, hmap, hnode⟩ := h.node p j hp hj
      have hkeep : (frames.map fun g => (t.grow i path frame).nodeAt (p ++ [g])) =
          frames.map fun g => t.nodeAt (p ++ [g]) :=
        List.map_congr_left fun g hg => hold ((hmem g).mp hg)
      rw [DiffNodes.nodes_grow_of_lt (h.depth p j hp hj).2, hnode, Option.map_some]
      by_cases hij : i = j
      · subst hij
        obtain rfl := h.inj p path i hp hpath hj hi
        refine ⟨frames ++ [frame], children ++ [t.nodes.length], ?_, ?_, ?_, by rw [if_pos rfl]⟩
        · refine List.nodup_append'.mpr ⟨hnodup, List.nodup_singleton _, ?_⟩
          exact List.disjoint_singleton.mpr fun hg => hnew ((hmem frame).mp hg)
        · intro g
          rw [List.mem_append, hmem, List.mem_singleton]
          simp
        · rw [List.map_append, hkeep, hmap, List.map_append, List.map_singleton, hself]
          rfl
      · have hne : p ≠ path := by
          rintro rfl
          exact hij (Option.some.inj (hi.symm.trans hj))
        refine ⟨frames, children, hnodup, fun g => ?_, by rw [hkeep, hmap], by rw [if_neg hij]⟩
        rw [hmem]
        refine ⟨.inl, fun hor => hor.resolve_right fun heq => hne ?_⟩
        exact (List.append_inj' heq rfl).1
    · obtain rfl : t.nodes.length = j := Option.some.inj (hself.symm.trans hj)
      refine ⟨[], [], List.nodup_nil, fun g => ?_, rfl, ?_⟩
      · refine ⟨fun hg => by simp at hg, ?_⟩
        rintro (hg | heq)
        · exact absurd (h.front _ g hg) hnew
        · have := congrArg List.length heq
          simp at this
      · rw [DiffNodes.nodes_grow_length, h.fresh _ hnew]
        simp

end Grow

/-- A frame leads to the node of the longer path. -/
theorem Holds.child (h : Holds paths t seen own) (hkeyed : Keyed paths) {path : List String}
    {frame : String} {i : ℕ} (hpath : seen path) (hi : t.nodeAt path = some i)
    (hnext : paths (path ++ [frame])) :
    Holds paths (t.child i (pathKey (path ++ [frame])) frame).1
        (fun p => seen p ∨ p = path ++ [frame]) own ∧
      (t.child i (pathKey (path ++ [frame])) frame).1.nodeAt (path ++ [frame]) =
        some (t.child i (pathKey (path ++ [frame])) frame).2 := by
  cases hfound : t.childIndex[pathKey (path ++ [frame])]? with
  | some child =>
      have hnode : t.nodeAt (path ++ [frame]) = some child := by rw [t.nodeAt_append, hfound]
      have hseen : seen (path ++ [frame]) := (h.index _ hnext).mp (hnode ▸ rfl)
      have hsame : (fun p => seen p ∨ p = path ++ [frame]) = seen := by
        funext p
        exact propext ⟨fun hp => hp.elim id fun heq => heq ▸ hseen, .inl⟩
      have hchild : t.child i (pathKey (path ++ [frame])) frame = (t, child) := by
        rw [DiffNodes.child, hfound]
      rw [hchild, hsame]
      exact ⟨h, hnode⟩
  | none =>
      have hnode : t.nodeAt (path ++ [frame]) = none := by rw [t.nodeAt_append, hfound]
      have hnew : ¬ seen (path ++ [frame]) := fun hseen => by
        have hsome := (h.index _ hnext).mpr hseen
        rw [hnode] at hsome
        cases hsome
      have hchild : t.child i (pathKey (path ++ [frame])) frame =
          (t.grow i path frame, t.nodes.length) := by
        rw [DiffNodes.child, hfound]
        rfl
      rw [hchild]
      refine ⟨h.grow hkeyed hpath hi hnext hnew, ?_⟩
      rw [DiffNodes.nodeAt_grow hkeyed hnext hnext, if_pos rfl]

theorem Holds.seen_front (h : Holds paths t seen own) {path rest : List String}
    (hseen : seen (path ++ rest)) : seen path := by
  induction rest using List.reverseRecOn with
  | nil => simpa using hseen
  | append_singleton rest frame ih =>
      rw [← List.append_assoc] at hseen
      exact ih (h.front _ _ hseen)

/-- The frames of a stack lead to its node. -/
theorem Holds.descend (hkeyed : Keyed paths) {frames : List String} {path : List String} {i : ℕ}
    (h : Holds paths t seen own) (hpath : seen path) (hi : t.nodeAt path = some i)
    (hnext : paths (path ++ frames)) :
    Holds paths (t.descend i (pathKey path) frames).1
        (fun p => seen p ∨ p <+: path ++ frames) own ∧
      (t.descend i (pathKey path) frames).1.nodeAt (path ++ frames) =
        some (t.descend i (pathKey path) frames).2 := by
  induction frames generalizing t seen path i with
  | nil =>
      have hsame : (fun p => seen p ∨ p <+: path ++ []) = seen := by
        funext p
        refine propext ⟨fun hp => hp.elim id fun ⟨rest, hrest⟩ => ?_, .inl⟩
        rw [List.append_nil] at hrest
        exact h.seen_front (hrest ▸ hpath)
      rw [hsame, List.append_nil]
      exact ⟨h, hi⟩
  | cons frame frames ih =>
      have hassoc : path ++ frame :: frames = (path ++ [frame]) ++ frames := by simp
      rw [hassoc] at hnext ⊢
      obtain ⟨hholds, hnode⟩ := h.child hkeyed hpath hi (hkeyed.front _ _ hnext)
      obtain ⟨hholds', hnode'⟩ := ih hholds (.inr rfl) hnode hnext
      have hsame : (fun p => (seen p ∨ p = path ++ [frame]) ∨ p <+: path ++ [frame] ++ frames) =
          fun p => seen p ∨ p <+: path ++ [frame] ++ frames := by
        funext p
        refine propext ⟨?_, fun hp => hp.imp .inl id⟩
        rintro ((hp | rfl) | hp)
        · exact .inl hp
        · exact .inr (List.prefix_append _ _)
        · exact .inr hp
      rw [hsame] at hholds'
      rw [DiffNodes.descend, ← pathKey_append]
      exact ⟨hholds', hnode'⟩

/-- What a path has of its own after one more difference. -/
def addOwn (own : List String → ℤ × ℤ) (d : StackDelta) : List String → ℤ × ℤ :=
  Function.update own d.frames
    (int64 ((own d.frames).1 + d.delta), int64 ((own d.frames).2 + d.base))

/-- Only the node of the path changes. -/
theorem Holds.modify (h : Holds paths t seen own) {d : StackDelta} {i : ℕ}
    (hseen : seen d.frames) (hi : t.nodeAt d.frames = some i) :
    Holds paths { t with
      nodes := t.nodes.modify i fun n =>
        { n with
          selfDelta := int64 (n.selfDelta + d.delta)
          selfValue := int64 (n.selfValue + d.base) } } seen (addOwn own d) where
  root := h.root
  front := h.front
  known := h.known
  index := h.index
  depth p j hp hj := by
    rw [List.length_modify]
    exact h.depth p j hp hj
  inj := h.inj
  fresh p hp := by
    have hne : p ≠ d.frames := fun heq => hp (heq ▸ hseen)
    rw [addOwn, Function.update_of_ne hne, h.fresh p hp]
  node p j hp hj := by
    obtain ⟨frames, children, hnodup, hmem, hmap, hnode⟩ := h.node p j hp hj
    refine ⟨frames, children, hnodup, hmem, hmap, ?_⟩
    rw [List.getElem?_modify, hnode, Option.map_eq_map, Option.map_some]
    by_cases hij : i = j
    · subst hij
      obtain rfl := h.inj p d.frames i hp hseen hj hi
      rw [if_pos rfl, addOwn, Function.update_self]
    · have hne : p ≠ d.frames := by
        rintro rfl
        exact hij (Option.some.inj (hi.symm.trans hj))
      rw [if_neg hij, addOwn, Function.update_of_ne hne]

theorem Holds.addDelta (hkeyed : Keyed paths) (h : Holds paths t seen own) {d : StackDelta}
    (hnext : paths d.frames) :
    Holds paths (t.addDelta d) (fun p => seen p ∨ p <+: d.frames) (addOwn own d) := by
  obtain ⟨hholds, hnode⟩ := h.descend hkeyed h.root (DiffNodes.nodeAt_nil t)
    (show paths ([] ++ d.frames) from hnext)
  exact hholds.modify (.inr (List.prefix_refl _)) hnode

theorem holds_build (hkeyed : Keyed paths) (hroot : paths []) {deltas : List StackDelta}
    (hdeltas : ∀ d ∈ deltas, paths d.frames) :
    Holds paths (DiffNodes.build deltas) (fun p => p = [] ∨ ∃ d ∈ deltas, p <+: d.frames)
      (deltas.foldl addOwn fun _ => (0, 0)) := by
  induction deltas using List.reverseRecOn with
  | nil =>
      have hsame : (fun p : List String => p = [] ∨ ∃ d ∈ ([] : List StackDelta), p <+: d.frames) =
          (· = []) := by
        funext p
        simp
      rw [hsame]
      exact holds_empty hroot
  | append_singleton deltas d ih =>
      have hprev := ih fun d' hd' => hdeltas d' (List.mem_append_left _ hd')
      have hnext := hprev.addDelta hkeyed (hdeltas d (by simp))
      have hsame : (fun p => (p = [] ∨ ∃ d' ∈ deltas, p <+: d'.frames) ∨ p <+: d.frames) =
          fun p => p = [] ∨ ∃ d' ∈ deltas ++ [d], p <+: d'.frames := by
        funext p
        simp [or_and_right, exists_or, or_assoc]
      rw [hsame] at hnext
      rw [DiffNodes.build, List.foldl_append, List.foldl_append]
      exact hnext

end Build

/-! ## Trees -/

/-- The deltas and the value of a node. -/
structure DiffFields where
  selfDelta : ℤ
  totalDelta : ℤ
  selfValue : ℤ

/-- The node at a path has these fields, and below it are, in any order, the nodes at the paths that
are present. -/
inductive Shape (fields : List String → DiffFields) (present : List String → Prop) :
    List String → DiffTreeNode → Prop
  | node {path : List String} {children : List DiffTreeNode}
      (nodup : (children.map DiffTreeNode.name).Nodup)
      (names : ∀ frame, frame ∈ children.map DiffTreeNode.name ↔ present (path ++ [frame]))
      (below : ∀ child ∈ children, Shape fields present (path ++ [child.name]) child) :
      Shape fields present path (.mk (path.getLast?.getD "all") (fields path).selfDelta
        (fields path).totalDelta (fields path).selfValue children)

/-! ## From the nodes to the tree -/

section Tree

variable {fields : List String → DiffFields} {present : List String → Prop} {path : List String}
  {node : DiffTreeNode}

theorem Shape.name_eq (h : Shape fields present path node) :
    node.name = path.getLast?.getD "all" := by
  cases h
  rfl

theorem Shape.totalDelta_eq (h : Shape fields present path node) :
    node.totalDelta = (fields path).totalDelta := by
  cases h
  rfl

/-- Only the fields of present paths matter. -/
theorem Shape.congr {fields' : List String → DiffFields}
    (hfields : ∀ p, p = path ∨ present p → fields p = fields' p)
    (h : Shape fields present path node) : Shape fields' present path node := by
  induction h with
  | @node path children hnodup hnames _ ih =>
      rw [hfields path (.inl rfl)]
      refine .node hnodup hnames fun child hchild => ih child hchild fun p hp => ?_
      rcases hp with rfl | hp
      · exact hfields _ (.inr ((hnames child.name).mp (List.mem_map_of_mem hchild)))
      · exact hfields p (.inr hp)

/-- There are enough levels for everything below a node. -/
theorem Holds.shape {paths seen : List String → Prop} {t : DiffNodes}
    {own : List String → ℤ × ℤ} (h : Holds paths t seen own) {levels : ℕ} {path : List String}
    {i : ℕ} (hpath : seen path) (hi : t.nodeAt path = some i)
    (hlevels : t.nodes.length - path.length ≤ levels) :
    Shape (fun path => ⟨(own path).1, 0, (own path).2⟩) seen path (t.treeAt levels i) := by
  induction levels generalizing path i with
  | zero =>
      have := h.depth path i hpath hi
      omega
  | succ levels ih =>
      obtain ⟨frames, children, hnodup, hmem, hmap, hnode⟩ := h.node path i hpath hi
      have hbelow : ∀ g, seen (path ++ [g]) → ∀ j, t.nodeAt (path ++ [g]) = some j →
          Shape (fun path => ⟨(own path).1, 0, (own path).2⟩) seen (path ++ [g])
            (t.treeAt levels j) := by
        intro g hg j hj
        refine ih hg hj ?_
        rw [List.length_append, List.length_singleton]
        omega
      have hseen : ∀ g ∈ frames, seen (path ++ [g]) := fun g => (hmem g).mp
      have hchildren : (children.map (t.treeAt levels)).map DiffTreeNode.name = frames ∧
          ∀ child ∈ children.map (t.treeAt levels),
            Shape (fun path => ⟨(own path).1, 0, (own path).2⟩) seen (path ++ [child.name])
              child := by
        clear hnode hnodup hmem
        induction frames generalizing children with
        | nil =>
            obtain rfl : children = [] := by simpa using hmap.symm
            simp
        | cons g frames ihf =>
            rcases children with _ | ⟨j, children⟩
            · simp at hmap
            · rw [List.map_cons, List.map_cons, List.cons.injEq] at hmap
              obtain ⟨hnames, hshapes⟩ := ihf children hmap.2
                fun g' hg' => hseen g' (List.mem_cons_of_mem _ hg')
              have hshape := hbelow g (hseen g (List.mem_cons_self)) j hmap.1
              have hname : (t.treeAt levels j).name = g := by
                rw [hshape.name_eq]
                simp
              refine ⟨by rw [List.map_cons, List.map_cons, hnames, hname], ?_⟩
              rw [List.map_cons, List.forall_mem_cons, hname]
              exact ⟨hshape, hshapes⟩
      rw [DiffNodes.treeAt, hnode]
      refine .node ?_ ?_ hchildren.2
      · rwa [hchildren.1]
      · rwa [hchildren.1]

theorem computeTotalDeltas_eq (children : List DiffTreeNode) :
    computeTotalDeltas children = children.map computeTotalDelta := by
  induction children with
  | nil => rfl
  | cons child children ih => rw [computeTotalDeltas, ih, List.map_cons]

/-- The totals are those of the subtrees. -/
theorem Shape.computeTotalDelta {own : List String → ℤ × ℤ} {total : List String → ℤ}
    (htotal : ∀ path (steps : List String), steps.Nodup → (∀ step, step ∈ steps ↔ present (path ++ [step])) →
      steps.foldl (fun sum step => int64 (sum + total (path ++ [step]))) (own path).1 = total path)
    (h : Shape (fun path => ⟨(own path).1, 0, (own path).2⟩) present path node) :
    Shape (fun path => ⟨(own path).1, total path, (own path).2⟩) present path
      (MiniDrop.computeTotalDelta node) := by
  induction h with
  | @node path children hnodup hnames _ ih =>
      have hname : ∀ child ∈ children,
          (MiniDrop.computeTotalDelta child).name = child.name := by
        intro child hchild
        rw [(ih child hchild).name_eq]
        simp
      have hmap : (children.map MiniDrop.computeTotalDelta).map DiffTreeNode.name =
          children.map DiffTreeNode.name := by
        rw [List.map_map]
        exact List.map_congr_left hname
      have hsum : (children.map MiniDrop.computeTotalDelta).foldl
          (fun sum child => int64 (sum + child.totalDelta)) (own path).1 = total path := by
        rw [← htotal path _ hnodup hnames, List.foldl_map, List.foldl_map]
        refine List.foldl_ext _ _ _ fun sum child hchild => ?_
        rw [(ih child hchild).totalDelta_eq]
      rw [MiniDrop.computeTotalDelta, computeTotalDeltas_eq, hsum]
      refine .node ?_ ?_ ?_
      · rwa [hmap]
      · rwa [hmap]
      · intro child hchild
        obtain ⟨child, hmem, rfl⟩ := List.mem_map.mp hchild
        rw [hname child hmem]
        exact ih child hmem

theorem pruneChildren_eq (children : List DiffTreeNode) :
    pruneChildren children = (children.map pruneZeroDeltaNodes).filter hasNonZeroDelta := by
  induction children with
  | nil => rfl
  | cons child children ih =>
      rw [pruneChildren, List.map_cons, List.filter_cons, ih]

theorem anyNonZeroDelta_eq (children : List DiffTreeNode) :
    anyNonZeroDelta children = children.any hasNonZeroDelta := by
  induction children with
  | nil => rfl
  | cons child children ih => rw [anyNonZeroDelta, ih, List.any_cons]

/-- The subtrees that stay are those that hold a difference. -/
theorem Shape.pruneZeroDeltaNodes {weighty : List String → Prop}
    (hpresent : ∀ path, weighty path → present path)
    (hweighty : ∀ path (steps : List String), steps.Nodup → (∀ step, step ∈ steps ↔ present (path ++ [step])) →
      (weighty path ↔ (fields path).totalDelta ≠ 0 ∨ ∃ step ∈ steps, weighty (path ++ [step])))
    (h : Shape fields present path node) :
    Shape fields weighty path (MiniDrop.pruneZeroDeltaNodes node) ∧
      (hasNonZeroDelta (MiniDrop.pruneZeroDeltaNodes node) = true ↔ weighty path) := by
  induction h with
  | @node path children hnodup hnames _ ih =>
      have hname : ∀ child ∈ children,
          (MiniDrop.pruneZeroDeltaNodes child).name = child.name := by
        intro child hchild
        rw [(ih child hchild).1.name_eq]
        simp
      have hkept : pruneChildren children = (children.filter fun child =>
          hasNonZeroDelta (MiniDrop.pruneZeroDeltaNodes child)).map
            MiniDrop.pruneZeroDeltaNodes := by
        rw [pruneChildren_eq, List.filter_map]
        rfl
      have hmap : (pruneChildren children).map DiffTreeNode.name = (children.filter fun child =>
          hasNonZeroDelta (MiniDrop.pruneZeroDeltaNodes child)).map DiffTreeNode.name := by
        rw [hkept, List.map_map]
        exact List.map_congr_left fun child hchild => hname child (List.mem_of_mem_filter hchild)
      refine ⟨?_, ?_⟩
      · rw [MiniDrop.pruneZeroDeltaNodes]
        refine .node ?_ ?_ ?_
        · rw [hmap]
          exact (List.filter_sublist.map _).nodup hnodup
        · intro frame
          rw [hmap]
          constructor
          · intro hframe
            obtain ⟨child, hchild, rfl⟩ := List.mem_map.mp hframe
            obtain ⟨hmem, hnonzero⟩ := List.mem_filter.mp hchild
            exact (ih child hmem).2.mp hnonzero
          · intro hframe
            obtain ⟨child, hmem, rfl⟩ := List.mem_map.mp ((hnames frame).mpr (hpresent _ hframe))
            exact List.mem_map_of_mem (List.mem_filter.mpr ⟨hmem, (ih child hmem).2.mpr hframe⟩)
        · intro child hchild
          rw [hkept] at hchild
          obtain ⟨child, hfilter, rfl⟩ := List.mem_map.mp hchild
          have hmem := List.mem_of_mem_filter hfilter
          rw [hname child hmem]
          exact (ih child hmem).1
      · rw [MiniDrop.pruneZeroDeltaNodes, hasNonZeroDelta, anyNonZeroDelta_eq,
          hweighty path _ hnodup hnames]
        simp only [ne_eq, Bool.or_eq_true, decide_eq_true_eq, List.any_eq_true]
        refine or_congr Iff.rfl ⟨?_, ?_⟩
        · rintro ⟨child, hchild, -⟩
          rw [hkept] at hchild
          obtain ⟨child, hfilter, rfl⟩ := List.mem_map.mp hchild
          obtain ⟨hmem, hnonzero⟩ := List.mem_filter.mp hfilter
          exact ⟨child.name, List.mem_map_of_mem hmem, (ih child hmem).2.mp hnonzero⟩
        · rintro ⟨frame, hframe, hheavy⟩
          obtain ⟨child, hmem, rfl⟩ := List.mem_map.mp hframe
          have hnonzero := (ih child hmem).2.mpr hheavy
          refine ⟨MiniDrop.pruneZeroDeltaNodes child, ?_, hnonzero⟩
          rw [hkept]
          exact List.mem_map_of_mem (List.mem_filter.mpr ⟨hmem, hnonzero⟩)

end Tree

end MiniDrop
