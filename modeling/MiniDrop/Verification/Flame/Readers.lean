import MiniDrop.Library.Folds
import MiniDrop.Verification.Flame.Lines
import Mathlib.Algebra.Order.BigOperators.Group.List

/-! # The three readers of folded stacks

All of them read the same entries. The API server and the flame graph add the counts of a stack up;
the analysis keeps the last. -/

namespace MiniDrop

/-- The entries of a stack. -/
def entriesAt (entries : List FoldedEntry) (stack : List Char) : List FoldedEntry :=
  entries.filter fun e => e.stack = stack

/-- The samples that the lines give to a stack. -/
def samplesOf (entries : List FoldedEntry) (stack : List Char) : ℕ :=
  ((entriesAt entries stack).map FoldedEntry.count).sum

/-- The samples of the node that the frames reach. -/
def FlameNode.samplesAt (frames : List String) (node : FlameNode) : ℕ :=
  ((node.at? frames).map FlameNode.value).getD 0

/-- Every reader gives every stack the samples of its lines. -/
structure ReadersAgree (lines : List FoldedLine) : Prop where
  server : ∀ stack, ((parseFoldedStacks (foldedText lines))[String.ofList stack]?).getD 0 =
    samplesOf (entriesOf lines) stack
  analysis : ∀ stack, ((parseCollapsed (foldedText lines)).get? (String.ofList stack)).getD 0 =
    samplesOf (entriesOf lines) stack
  web : ∀ stack, ((parseCollapsedToTree (foldedText lines)).map
    (FlameNode.samplesAt (framesOf stack))).getD 0 = samplesOf (entriesOf lines) stack

/-! ## The tree of the flame graph -/

namespace FlameNode

@[simp] theorem name_mk (name : String) (value : ℕ) (children : List FlameNode) :
    (mk name value children).name = name := rfl

@[simp] theorem name_addCount (count : ℕ) (frames : List String) (node : FlameNode) :
    (addCount count frames node).name = node.name := by
  obtain ⟨name, value, children⟩ := node
  cases frames with
  | nil => rfl
  | cons frame frames =>
      unfold addCount
      split <;> rfl

/-- The first child of a name changes, and no other. -/
theorem find?_modify {f : FlameNode → FlameNode} (hf : ∀ node, (f node).name = node.name)
    {children : List FlameNode} {frame : String} {i : ℕ}
    (h : children.findIdx? (fun child => child.name = frame) = some i) (other : String) :
    (children.modify i f).find? (fun child => child.name = other) =
      if frame = other then (children.find? fun child => child.name = other).map f
      else children.find? fun child => child.name = other := by
  induction children generalizing i with
  | nil => simp at h
  | cons child children ih =>
      rw [List.findIdx?_cons] at h
      split at h
      · next hname =>
        obtain rfl : 0 = i := Option.some.inj h
        simp only [decide_eq_true_eq] at hname
        subst hname
        by_cases hother : child.name = other <;> simp [hf, hother]
      · next hname =>
        obtain ⟨j, hj, rfl⟩ := Option.map_eq_some_iff.mp h
        simp only [decide_eq_true_eq] at hname
        rw [List.modify_succ_cons, List.find?_cons, List.find?_cons, ih hj]
        by_cases hother : child.name = other
        · have hne : frame ≠ other := fun heq => hname (hother.trans heq.symm)
          simp [hother, hne]
        · simp [hother]

/-- Adding a count to one path changes its samples only. -/
theorem samplesAt_addCount (count : ℕ) (frames path : List String) (node : FlameNode) :
    (addCount count frames node).samplesAt path =
      if frames = path then JavaScript.double (node.samplesAt path + count)
      else node.samplesAt path := by
  induction frames generalizing path node with
  | nil =>
      obtain ⟨name, value, children⟩ := node
      cases path with
      | nil => rfl
      | cons frame path => rfl
  | cons frame frames ih =>
      obtain ⟨name, value, children⟩ := node
      cases path with
      | nil =>
          unfold addCount
          split <;> rfl
      | cons other path =>
          have hsamples : ∀ children, (mk name value children).samplesAt (other :: path) =
              ((children.find? fun child => child.name = other).map (samplesAt path)).getD 0 := by
            intro children
            rw [samplesAt, at?, FlameNode.children]
            cases children.find? fun child => child.name = other <;> rfl
          unfold addCount
          split
          · next i hi =>
            rw [hsamples, hsamples, find?_modify (name_addCount count frames) hi]
            by_cases hframe : frame = other
            · subst hframe
              have hany : children.any (fun child => child.name = frame) = true := by
                rw [← List.findIdx?_isSome, hi]
                rfl
              obtain ⟨child, hchild⟩ :=
                Option.isSome_iff_exists.mp (List.find?_isSome.mpr (List.any_eq_true.mp hany))
              simp [hchild, ih]
            · simp [hframe]
          · next hnone =>
            rw [hsamples, hsamples, List.find?_append]
            by_cases hframe : frame = other
            · subst hframe
              have hnot : children.find? (fun child => child.name = frame) = none := by
                rw [List.find?_eq_none]
                simpa using hnone
              have hnew : (mk frame 0 []).samplesAt path = 0 := by cases path <;> rfl
              simp [hnot, ih, hnew]
            · simp [hframe]

theorem samplesAt_empty (name : String) (path : List String) :
    (mk name 0 []).samplesAt path = 0 := by cases path <;> rfl

end FlameNode

/-! ## What each reader gives a stack -/

section Readers

variable (lines : List FoldedLine) (stack : List Char)

theorem ofList_eq_iff {s t : List Char} : String.ofList s = String.ofList t ↔ s = t :=
  ⟨fun h => by simpa using congrArg String.toList h, congrArg String.ofList⟩

theorem framesOf_inj {s t : List Char} : framesOf s = framesOf t ↔ s = t := by
  refine ⟨fun h => ?_, congrArg framesOf⟩
  have hsplit := List.map_injective_iff.mpr (fun _ _ => ofList_eq_iff.mp) h
  calc s = [';'].intercalate (s.splitOn ';') := (List.intercalate_splitOn ';').symm
    _ = [';'].intercalate (t.splitOn ';') := by rw [hsplit]
    _ = t := List.intercalate_splitOn ';'

variable {lines}

theorem parseFoldedStacks_getD (h : ∀ e ∈ entriesOf lines, e.Exact) :
    ((parseFoldedStacks (foldedText lines))[String.ofList stack]?).getD 0 =
      (entriesAt (entriesOf lines) stack).foldl (fun n e => int64 (n + e.count)) 0 := by
  have hread : ((splitLines (foldedText lines)).filterMap foldedLine) =
      (entriesOf lines).map fun e => (String.ofList e.stack, (e.count : ℤ)) := by
    rw [filterMap_splitLines fun _ => foldedLine_of_isBlank, ← List.filterMap_eq_map']
    exact List.filterMap_congr fun e he => foldedLine_text e (h e he)
  rw [parseFoldedStacks, hread, List.foldl_map]
  refine (Folds.foldl_observe (fun (counts : StdMap ℤ) stack =>
    (counts[String.ofList stack]?).getD 0) FoldedEntry.stack
    (fun n e => int64 (n + e.count)) ?_ _ _ stack).trans ?_
  · intro counts e stack
    rw [addCount, Std.ExtTreeMap.getElem?_insert]
    by_cases hstack : e.stack = stack
    · simp [hstack]
    · have hne : String.ofList e.stack ≠ String.ofList stack := fun heq =>
        hstack (ofList_eq_iff.mp heq)
      simp [hstack, hne]
  · simp [entriesAt]

/-- Python trims the whole text first. -/
theorem trimmable_collapsedLine :
    Text.Trimmable Python.isSpace (fun line => ∃ l : FoldedLine, l.text = line) collapsedLine where
  nil := rfl
  front := by
    rintro c line hc ⟨l, hl⟩
    cases l with
    | blank text h hline =>
        obtain rfl : text = c :: line := hl
        have hrest : ∀ d ∈ line, isBlank d = true := fun d hd => h d (List.mem_cons_of_mem _ hd)
        refine ⟨⟨.blank line hrest fun hmem => hline (List.mem_cons_of_mem _ hmem), rfl⟩, ?_⟩
        rw [collapsedLine_of_isBlank h, collapsedLine_of_isBlank hrest]
    | entry e =>
        have hhead : c ∈ e.body.head? := by
          have hl : e.body ++ _ = c :: line := hl
          rw [← List.head?_append_of_ne_nil _ e.body_ne, hl]
          rfl
        have hspace := (isSpace_of_isBlank_eq_false (e.isBlank_head c hhead)).2.1
        rw [hspace] at hc
        cases hc
  back := by
    rintro c line hc ⟨l, hl⟩
    cases l with
    | blank text h hline =>
        obtain rfl : text = line ++ [c] := hl
        have hrest : ∀ d ∈ line, isBlank d = true := fun d hd => h d (List.mem_append_left _ hd)
        refine ⟨⟨.blank line hrest fun hmem => hline (List.mem_append_left _ hmem), rfl⟩, ?_⟩
        rw [collapsedLine_of_isBlank h, collapsedLine_of_isBlank hrest]
    | entry e =>
        cases hcr : e.cr with
        | true =>
            have hconcat : e.body ++ (if e.cr then ['\r'] else []) = line ++ [c] := hl
            rw [hcr, if_pos rfl] at hconcat
            obtain ⟨hbody, -⟩ := List.append_inj' hconcat rfl
            have htext : FoldedEntry.text { e with cr := false } = line := by
              rw [FoldedEntry.text, if_neg (by simp), List.append_nil]
              exact hbody
            refine ⟨⟨.entry { e with cr := false }, htext⟩, ?_⟩
            rw [← hl, ← htext]
            exact (collapsedLine_text e).trans (collapsedLine_text { e with cr := false }).symm
        | false =>
            have hl : e.body ++ (if e.cr then ['\r'] else []) = line ++ [c] := hl
            rw [hcr, if_neg (by simp), List.append_nil] at hl
            have hspace := (isSpace_of_isBlank_eq_false
              (e.isBlank_getLast c (by simp [hl]))).2.1
            rw [hspace] at hc
            cases hc

/-- The analysis sets the counts that it reads, one after another. -/
theorem parseCollapsed_foldedText (lines : List FoldedLine) :
    parseCollapsed (foldedText lines) =
      .ofList (((entriesOf lines).filter FoldedEntry.Readable).map fun e =>
        (String.ofList e.stack, (e.count : ℤ))) := by
  have hread : ((Python.strip (foldedText lines).toList).splitOn '\n').filterMap collapsedLine =
      ((entriesOf lines).filter FoldedEntry.Readable).map fun e =>
        (String.ofList e.stack, (e.count : ℤ)) := by
    refine (Text.filterMap_trim trimmable_collapsedLine
      fun line => exists_of_mem_splitLines).trans ?_
    refine (filterMap_splitLines fun _ => collapsedLine_of_isBlank).trans ?_
    rw [← List.filterMap_eq_map', List.filterMap_filter]
    refine List.filterMap_congr fun e _ => (collapsedLine_text e).trans ?_
    simp only [decide_eq_true_eq]
  rw [parseCollapsed, hread]

theorem parseCollapsed_getD :
    ((parseCollapsed (foldedText lines)).get? (String.ofList stack)).getD 0 =
      ((entriesAt (entriesOf lines) stack).filter FoldedEntry.Readable).foldl
        (fun _ e => (e.count : ℤ)) 0 := by
  rw [parseCollapsed_foldedText, Dict.ofList, List.foldl_map]
  refine (Folds.foldl_observe (fun (counts : Dict String ℤ) stack =>
    (counts.get? (String.ofList stack)).getD 0) FoldedEntry.stack
    (fun _ e => (e.count : ℤ)) ?_ _ _ stack).trans ?_
  · intro counts e stack
    rw [Dict.get?_set]
    by_cases hstack : e.stack = stack
    · simp [hstack]
    · have hne : String.ofList e.stack ≠ String.ofList stack := fun heq =>
        hstack (ofList_eq_iff.mp heq)
      simp [hstack, hne]
  · rw [entriesAt, List.filter_filter, List.filter_filter]
    simp only [Bool.and_comm]
    rfl

theorem parseCollapsedToTree_getD (h : ∀ e ∈ entriesOf lines, e.Exact) :
    ((parseCollapsedToTree (foldedText lines)).map
      (FlameNode.samplesAt (framesOf stack))).getD 0 =
      (entriesAt (entriesOf lines) stack).foldl (fun n e => JavaScript.double (n + e.count)) 0 := by
  have hread : (splitLines (foldedText lines)).filterMap treeLine =
      (entriesOf lines).map fun e => (framesOf e.stack, e.count) := by
    rw [filterMap_splitLines fun _ => treeLine_of_isBlank, ← List.filterMap_eq_map']
    exact List.filterMap_congr fun e he => treeLine_text e (h e he)
  have hnull : ∀ root : FlameNode,
      ((if root.children.isEmpty then none else some root).map
        (FlameNode.samplesAt (framesOf stack))).getD 0 = root.samplesAt (framesOf stack) := by
    rintro ⟨name, value, children⟩
    have hne : framesOf stack ≠ [] := by simp [framesOf]
    obtain ⟨frame, frames, hframes⟩ := List.exists_cons_of_ne_nil hne
    cases children with
    | nil =>
        rw [hframes]
        rfl
    | cons child children => rfl
  rw [parseCollapsedToTree, hread, List.foldl_map]
  refine (hnull _).trans ?_
  refine (Folds.foldl_observe (fun (root : FlameNode) stack => root.samplesAt (framesOf stack))
    FoldedEntry.stack (fun n e => JavaScript.double (n + e.count)) ?_ _ _ stack).trans ?_
  · intro root e stack
    rw [FlameNode.samplesAt_addCount]
    simp only [framesOf_inj]
  · rw [FlameNode.samplesAt_empty]
    rfl

end Readers

/-! ## The condition -/

/-- A list has no key twice where no key has two entries. -/
theorem nodup_map_iff {α κ : Type} [DecidableEq κ] {f : α → κ} {l : List α} :
    (l.map f).Nodup ↔ ∀ k, (l.filter fun x => f x = k).length ≤ 1 := by
  rw [List.nodup_iff_count_le_one]
  refine forall_congr' fun k => ?_
  rw [List.count, List.countP_map, List.countP_eq_length_filter]
  rfl

theorem sum_count_eq_zero {l : List FoldedEntry} (hpos : ∀ e ∈ l, 0 < e.count)
    (h : (l.map FoldedEntry.count).sum = 0) : l = [] := by
  cases l with
  | nil => rfl
  | cons e l =>
      have he := hpos e (List.mem_cons_self)
      rw [List.map_cons, List.sum_cons] at h
      omega

/-- The last count is the whole sum only where there is no other. -/
theorem length_le_one_of_last_eq_sum {l : List FoldedEntry} (hpos : ∀ e ∈ l, 0 < e.count)
    (h : (l.filter FoldedEntry.Readable).foldl (fun _ e => (e.count : ℤ)) 0 =
      ((l.map FoldedEntry.count).sum : ℕ)) : l.length ≤ 1 ∧ ∀ e ∈ l, e.Readable := by
  have hperm := List.filter_append_perm (fun e : FoldedEntry => decide e.Readable) l
  have hsum := (hperm.map FoldedEntry.count).sum_eq
  rw [List.map_append, List.sum_append] at hsum
  have hrest : ∀ e ∈ l.filter (fun e => !decide e.Readable), 0 < e.count := fun e he =>
    hpos e (List.mem_of_mem_filter he)
  rcases List.eq_nil_or_concat' (l.filter FoldedEntry.Readable) with hnone | ⟨init, last, hconcat⟩
  · rw [hnone, List.foldl_nil] at h
    obtain rfl := sum_count_eq_zero hpos (by omega)
    simp
  · rw [hconcat, List.foldl_append, List.foldl_cons, List.foldl_nil] at h
    rw [hconcat, List.map_append, List.sum_append, List.map_singleton, List.sum_singleton] at hsum
    have hinit : init = [] := by
      refine sum_count_eq_zero (fun e he => hpos e ?_) (by omega)
      exact List.mem_of_mem_filter (hconcat ▸ List.mem_append_left _ he)
    have hunread := sum_count_eq_zero hrest (by omega)
    refine ⟨?_, fun e he => ?_⟩
    · rw [← hperm.length_eq, hunread, hconcat, hinit]
      rfl
    · have hnot := List.filter_eq_nil_iff.mp hunread e he
      simpa using hnot

/-- The readers agree exactly on the texts that repeat no stack and hold no count with more digits
than Python accepts. -/
theorem readersAgree_iff (lines : List FoldedLine) (h : ∀ e ∈ entriesOf lines, e.Exact) :
    ReadersAgree lines ↔ ((entriesOf lines).map FoldedEntry.stack).Nodup ∧
      ∀ e ∈ entriesOf lines, e.Readable := by
  have hlength : ((entriesOf lines).map FoldedEntry.stack).Nodup ↔
      ∀ stack, (entriesAt (entriesOf lines) stack).length ≤ 1 := nodup_map_iff
  rw [hlength]
  constructor
  · intro hagree
    have hstack : ∀ stack, (entriesAt (entriesOf lines) stack).length ≤ 1 ∧
        ∀ e ∈ entriesAt (entriesOf lines) stack, e.Readable := by
      intro stack
      have hanalysis := hagree.analysis stack
      rw [parseCollapsed_getD, samplesOf] at hanalysis
      exact length_le_one_of_last_eq_sum
        (fun e he => (h e (List.mem_of_mem_filter he)).pos) hanalysis
    refine ⟨fun stack => (hstack stack).1, fun e he => (hstack e.stack).2 e ?_⟩
    exact List.mem_filter.mpr ⟨he, by simp⟩
  · rintro ⟨hnodup, hread⟩
    have hcases : ∀ stack, entriesAt (entriesOf lines) stack = [] ∨ ∃ e ∈ entriesOf lines,
        entriesAt (entriesOf lines) stack = [e] := by
      intro stack
      rcases Nat.le_one_iff_eq_zero_or_eq_one.mp (hnodup stack) with hzero | hone
      · exact .inl (List.length_eq_zero_iff.mp hzero)
      · obtain ⟨e, he⟩ := List.length_eq_one_iff.mp hone
        exact .inr ⟨e, List.mem_of_mem_filter (he ▸ List.mem_singleton_self e), he⟩
    refine ⟨fun stack => ?_, fun stack => ?_, fun stack => ?_⟩
    · rw [parseFoldedStacks_getD stack h, samplesOf]
      rcases hcases stack with hnone | ⟨e, he, hone⟩
      · rw [hnone]
        rfl
      · have hlt := (h e he).int64
        rw [hone, List.foldl_cons, List.foldl_nil, zero_add,
          int64_of_lt (Int.natCast_nonneg _) (Int.ofNat_lt.mpr hlt), List.map_singleton,
          List.sum_singleton]
    · rw [parseCollapsed_getD, samplesOf]
      rcases hcases stack with hnone | ⟨e, he, hone⟩
      · rw [hnone]
        rfl
      · rw [hone, List.filter_cons_of_pos (by simpa using hread e he), List.filter_nil,
          List.map_singleton, List.sum_singleton]
        rfl
    · rw [parseCollapsedToTree_getD stack h, samplesOf]
      rcases hcases stack with hnone | ⟨e, he, hone⟩
      · rw [hnone]
        rfl
      · rw [hone, List.foldl_cons, List.foldl_nil, zero_add, (h e he).double, List.map_singleton,
          List.sum_singleton]

/-- One function and a one-digit count. -/
def sampled (frame digit : Char) (hframe : isBlank frame = false ∧ frame ≠ '\n')
    (hdigit : digit.isDigit = true) : FoldedEntry where
  stack := [frame]
  digits := [digit]
  stack_ne := List.cons_ne_nil _ _
  stack_head _ hc := Option.some.inj hc ▸ hframe.1
  stack_line h := hframe.2 (List.mem_singleton.mp h).symm
  digits_ne := List.cons_ne_nil _ _
  digits_decimal _ hc := List.mem_singleton.mp hc ▸ hdigit

theorem readersAgree_twoStacks :
    ReadersAgree [.entry (sampled 'a' '1' (by decide) (by decide)),
      .entry (sampled 'b' '2' (by decide) (by decide))] := by
  refine (readersAgree_iff _ (List.forall_mem_cons.mpr ⟨?_, List.forall_mem_singleton.mpr ?_⟩)).mpr
    (by decide)
  · exact ⟨by decide, by decide, by decide⟩
  · exact ⟨by decide, by decide, by decide⟩

/-- The lines `a 1` and `a 2` hold three samples, of which the analysis sees two. -/
theorem not_readersAgree :
    ¬ ∀ lines, (∀ e ∈ entriesOf lines, e.Exact) → ReadersAgree lines := by
  intro h
  have hagree := h [.entry (sampled 'a' '1' (by decide) (by decide)),
    .entry (sampled 'a' '2' (by decide) (by decide))] (List.forall_mem_cons.mpr
    ⟨⟨by decide, by decide, by decide⟩,
      List.forall_mem_singleton.mpr ⟨by decide, by decide, by decide⟩⟩)
  have hanalysis := hagree.analysis ['a']
  rw [parseCollapsed_getD] at hanalysis
  exact absurd hanalysis (by decide)

end MiniDrop
