import MiniDrop.Library.Text
import Mathlib.Data.List.ReduceOption

/-! # Lines of a text

A text is cut at a separator, and each line is read by itself. -/

namespace Text

variable {α β : Type*} [DecidableEq α] {sep : α}

/-! ## Ends of a text -/

theorem splitOn_concat_self (t : List α) : (t ++ [sep]).splitOn sep = t.splitOn sep ++ [[]] := by
  rw [List.splitOn_append_cons_self, List.splitOn_nil]

/-- Each line ends with a separator. -/
theorem splitOn_flatMap_concat {lines : List (List α)} (h : ∀ line ∈ lines, sep ∉ line) :
    (lines.flatMap (· ++ [sep])).splitOn sep = lines ++ [[]] := by
  induction lines with
  | nil => exact List.splitOn_nil sep
  | cons line lines ih =>
      obtain ⟨hline, hlines⟩ := List.forall_mem_cons.mp h
      rw [List.flatMap_cons, List.append_assoc, List.singleton_append,
        List.splitOn_append_cons_self, ih hlines, List.splitOn_eq_singleton hline]
      rfl

/-- A character at the end belongs to the last line. -/
theorem splitOn_concat_of_ne {c : α} (hc : c ≠ sep) (t : List α) :
    ∃ init last, t.splitOn sep = init ++ [last] ∧
      (t ++ [c]).splitOn sep = init ++ [last ++ [c]] := by
  induction t with
  | nil => exact ⟨[], [], rfl, by simp [List.splitOn_cons_eq_if_modifyHead, hc]⟩
  | cons d t ih =>
      obtain ⟨init, last, hsplit, hconcat⟩ := ih
      rw [List.cons_append, List.splitOn_cons_eq_if_modifyHead, List.splitOn_cons_eq_if_modifyHead,
        hsplit, hconcat]
      by_cases hd : (d == sep) = true
      · rw [if_pos hd, if_pos hd]
        exact ⟨[] :: init, last, rfl, rfl⟩
      · rw [if_neg hd, if_neg hd]
        cases init with
        | nil => exact ⟨[], d :: last, rfl, rfl⟩
        | cons line init => exact ⟨(d :: line) :: init, last, rfl, rfl⟩

/-- A character at the front belongs to the first line. -/
theorem splitOn_cons_of_ne {c : α} (hc : c ≠ sep) (t : List α) :
    ∃ first rest, t.splitOn sep = first :: rest ∧
      (c :: t).splitOn sep = (c :: first) :: rest := by
  obtain ⟨first, rest, hsplit⟩ := List.exists_cons_of_ne_nil (List.splitOn_ne_nil sep t)
  refine ⟨first, rest, hsplit, ?_⟩
  rw [List.splitOn_cons_eq_if_modifyHead, if_neg (by simpa using hc), hsplit]
  rfl

/-- No part holds the separator. -/
theorem notMem_of_mem_splitOn {t part : List α} (h : part ∈ t.splitOn sep) : sep ∉ part := by
  induction t generalizing part with
  | nil =>
      rw [List.splitOn_nil, List.mem_singleton] at h
      simp [h]
  | cons c t ih =>
      by_cases hc : c = sep
      · subst hc
        have hsplit : (c :: t).splitOn c = [] :: t.splitOn c := by
          simp [List.splitOn_cons_eq_if_modifyHead]
        rw [hsplit] at h
        rcases List.mem_cons.mp h with rfl | h
        · simp
        · exact ih h
      · obtain ⟨first, rest, hsplit, hcons⟩ := splitOn_cons_of_ne hc t
        rw [hcons] at h
        rcases List.mem_cons.mp h with rfl | h
        · have hfirst := ih (hsplit ▸ List.mem_cons_self)
          simp [Ne.symm hc, hfirst]
        · exact ih (hsplit ▸ List.mem_cons_of_mem _ h)

/-! ## Trimming -/

section Trim

variable {p : α → Bool} {s t : List α}

omit [DecidableEq α] in
theorem rdropWhile_append (hlast : ∀ c ∈ s.getLast?, p c = false) (ht : ∀ c ∈ t, p c = true) :
    (s ++ t).rdropWhile p = s := by
  rcases List.eq_nil_or_concat' s with rfl | ⟨init, last, rfl⟩
  · rw [List.nil_append, List.rdropWhile_eq_nil_iff.mpr ht]
  · rw [List.append_assoc, List.singleton_append,
      rdropWhile_append_of_neg p (hlast last (by simp)), List.rdropWhile_eq_nil_iff.mpr ht]

omit [DecidableEq α] in
theorem rdropWhile_append_of_ne_nil (h : t.rdropWhile p ≠ []) :
    (s ++ t).rdropWhile p = s ++ t.rdropWhile p := by
  have hne : (t.reverse.dropWhile p).isEmpty = false := by
    rw [List.isEmpty_eq_false_iff]
    intro hnil
    exact h (by rw [List.rdropWhile, hnil, List.reverse_nil])
  rw [List.rdropWhile, List.rdropWhile, List.reverse_append, List.dropWhile_append, hne,
    if_neg Bool.false_ne_true, List.reverse_append, List.reverse_reverse]

omit [DecidableEq α] in
theorem getLast_rdropWhile (s : List α) : ∀ c ∈ (s.rdropWhile p).getLast?, p c = false := by
  intro c hc
  have hne : s.rdropWhile p ≠ [] := by
    intro hnil
    rw [hnil] at hc
    cases hc
  have hlast := List.rdropWhile_last_not p s hne
  rw [List.getLast?_eq_some_getLast hne, Option.mem_some_iff] at hc
  rw [← hc]
  simpa using hlast

omit [DecidableEq α] in
/-- Characters after the text are trimmed, and nothing else. -/
theorem trim_append (hs : s ≠ []) (hhead : ∀ c ∈ s.head?, p c = false)
    (hlast : ∀ c ∈ s.getLast?, p c = false) (ht : ∀ c ∈ t, p c = true) :
    trim p (s ++ t) = s := by
  have hfront : (s ++ t).dropWhile p = s ++ t := by
    obtain ⟨c, cs, rfl⟩ := List.exists_cons_of_ne_nil hs
    rw [List.cons_append, List.dropWhile_cons_of_neg]
    simp [hhead c rfl]
  rw [trim, hfront, rdropWhile_append hlast ht]

omit [DecidableEq α] in
/-- Nothing is trimmed off a text whose ends stay. -/
theorem trim_of_ends (hhead : ∀ c ∈ s.head?, p c = false) (hlast : ∀ c ∈ s.getLast?, p c = false) :
    trim p s = s := by
  rcases eq_or_ne s [] with rfl | hs
  · rfl
  · have htrim := trim_append (t := []) hs hhead hlast (by simp)
    rwa [List.append_nil] at htrim

omit [DecidableEq α] in
theorem trim_eq_self (h : ∀ c ∈ s, p c = false) : trim p s = s :=
  trim_of_ends (fun c hc => h c (List.mem_of_mem_head? hc))
    fun c hc => h c (List.mem_of_mem_getLast? hc)

omit [DecidableEq α] in
theorem trim_sublist (p : α → Bool) (s : List α) : (trim p s).Sublist s :=
  (List.rdropWhile_prefix p _).sublist.trans (List.dropWhile_sublist p)

omit [DecidableEq α] in
theorem mem_of_mem_trim {c : α} (h : c ∈ trim p s) : c ∈ s := (trim_sublist p s).subset h

omit [DecidableEq α] in
theorem head_trim (s : List α) : ∀ c ∈ (trim p s).head?, p c = false := by
  intro c hc
  obtain ⟨rest, hrest⟩ : trim p s <+: s.dropWhile p := List.rdropWhile_prefix p _
  have hnot := List.head?_dropWhile_not p s
  rw [← hrest, List.head?_append, Option.mem_def.mp hc] at hnot
  simpa using hnot

omit [DecidableEq α] in
theorem getLast_trim (s : List α) : ∀ c ∈ (trim p s).getLast?, p c = false :=
  getLast_rdropWhile _

omit [DecidableEq α] in
theorem trim_concat {c : α} (hc : p c = true) (s : List α) : trim p (s ++ [c]) = trim p s := by
  rw [trim, trim, List.dropWhile_append]
  split
  · next hempty =>
    rw [List.isEmpty_iff.mp hempty, List.dropWhile_cons_of_pos hc]
    rfl
  · exact List.rdropWhile_concat_pos p _ c hc

theorem count_dropWhile {c : α} (hc : p c = false) (s : List α) :
    (s.dropWhile p).count c = s.count c := by
  have hfront : (s.takeWhile p).count c = 0 := List.count_eq_zero.mpr fun hmem => by
    simp [List.mem_takeWhile_imp hmem] at hc
  conv_rhs => rw [← s.takeWhile_append_dropWhile (p := p), List.count_append, hfront, Nat.zero_add]

/-- Characters that are not trimmed are all still there. -/
theorem count_trim {c : α} (hc : p c = false) (s : List α) : (trim p s).count c = s.count c := by
  rw [trim, List.rdropWhile, List.count_reverse, count_dropWhile hc, List.count_reverse,
    count_dropWhile hc]

end Trim

/-! ## Trimming a text before it is cut -/

/-- Trimmed characters at an end of a line do not matter to the line. -/
structure Trimmable (p : α → Bool) (Plain : List α → Prop) (read : List α → Option β) : Prop where
  nil : read [] = none
  front : ∀ c line, p c = true → Plain (c :: line) → Plain line ∧ read (c :: line) = read line
  back : ∀ c line, p c = true → Plain (line ++ [c]) → Plain line ∧ read (line ++ [c]) = read line

variable {p : α → Bool} {Plain : List α → Prop} {read : List α → Option β}

theorem filterMap_dropWhile (h : Trimmable p Plain read) {t : List α}
    (hplain : ∀ line ∈ t.splitOn sep, Plain line) :
    (∀ line ∈ (t.dropWhile p).splitOn sep, Plain line) ∧
      ((t.dropWhile p).splitOn sep).filterMap read = (t.splitOn sep).filterMap read := by
  induction t with
  | nil => exact ⟨hplain, rfl⟩
  | cons c t ih =>
      rw [List.dropWhile_cons]
      split
      · next hp =>
        by_cases hc : c = sep
        · subst hc
          have hsplit : (c :: t).splitOn c = [] :: t.splitOn c := by
            simp [List.splitOn_cons_eq_if_modifyHead]
          rw [hsplit] at hplain ⊢
          obtain ⟨hrest, heq⟩ := ih fun line hmem => hplain line (List.mem_cons_of_mem _ hmem)
          exact ⟨hrest, by rw [heq, List.filterMap_cons_none h.nil]⟩
        · obtain ⟨first, rest, hsplit, hcons⟩ := splitOn_cons_of_ne hc t
          rw [hcons] at hplain ⊢
          obtain ⟨hfirst, hread⟩ := h.front c first hp (hplain _ (List.mem_cons_self))
          rw [hsplit] at ih
          obtain ⟨hrest, heq⟩ := ih fun line hmem => by
            rcases List.mem_cons.mp hmem with rfl | hmem
            · exact hfirst
            · exact hplain line (List.mem_cons_of_mem _ hmem)
          refine ⟨hrest, heq.trans ?_⟩
          rw [List.filterMap_cons, List.filterMap_cons, hread]
      · exact ⟨hplain, rfl⟩

theorem filterMap_rdropWhile (h : Trimmable p Plain read) {t : List α}
    (hplain : ∀ line ∈ t.splitOn sep, Plain line) :
    ((t.rdropWhile p).splitOn sep).filterMap read = (t.splitOn sep).filterMap read := by
  induction t using List.reverseRecOn with
  | nil => rfl
  | append_singleton t c ih =>
      rw [List.rdropWhile_concat]
      split
      · next hp =>
        by_cases hc : c = sep
        · subst hc
          rw [splitOn_concat_self] at hplain ⊢
          rw [ih fun line hmem => hplain line (List.mem_append_left _ hmem), List.filterMap_append,
            List.filterMap_cons_none h.nil, List.filterMap_nil, List.append_nil]
        · obtain ⟨init, last, hsplit, hconcat⟩ := splitOn_concat_of_ne hc t
          rw [hconcat] at hplain ⊢
          obtain ⟨hlast, hread⟩ := h.back c last hp (hplain _ (by simp))
          rw [hsplit] at ih
          rw [ih fun line hmem => by
            rcases List.mem_append.mp hmem with hmem | hmem
            · exact hplain line (List.mem_append_left _ hmem)
            · rw [List.mem_singleton.mp hmem]
              exact hlast]
          rw [List.filterMap_append, List.filterMap_append, List.filterMap_cons,
            List.filterMap_cons, hread]
      · rfl

/-- Trimming a text does not change what its lines say. -/
theorem filterMap_trim (h : Trimmable p Plain read) {t : List α}
    (hplain : ∀ line ∈ t.splitOn sep, Plain line) :
    ((trim p t).splitOn sep).filterMap read = (t.splitOn sep).filterMap read := by
  obtain ⟨hfront, heq⟩ := filterMap_dropWhile h hplain
  rw [trim, filterMap_rdropWhile h hfront, heq]

/-! ## Parts of a text -/

omit [DecidableEq α] in
/-- The first parts of a text are a front of it. -/
theorem isPrefix_intercalate_take (c : α) (n : ℕ) (parts : List (List α)) :
    [c].intercalate (parts.take n) <+: [c].intercalate parts := by
  induction parts generalizing n with
  | nil => simp
  | cons first rest ih =>
      cases n with
      | zero => simp
      | succ n =>
          cases rest with
          | nil => simp
          | cons second rest =>
              have htail := ih n
              cases n with
              | zero => simp [List.intercalate_cons_cons]
              | succ n =>
                  rw [List.take_succ_cons, List.take_succ_cons, List.intercalate_cons_cons,
                    List.intercalate_cons_cons, ← List.take_succ_cons]
                  exact List.prefix_append_right_inj _ |>.mpr htail

omit [DecidableEq α] in
theorem mem_intercalate {c : α} {gap : List α} {lines : List (List α)}
    (h : c ∈ gap.intercalate lines) : c ∈ gap ∨ ∃ line ∈ lines, c ∈ line := by
  induction lines with
  | nil => cases h
  | cons line lines ih =>
      cases lines with
      | nil => exact .inr ⟨line, List.mem_cons_self, by simpa using h⟩
      | cons next lines =>
          rw [List.intercalate_cons_cons, List.mem_append, List.mem_append] at h
          rcases h with (hline | hgap) | hrest
          · exact .inr ⟨line, List.mem_cons_self, hline⟩
          · exact .inl hgap
          · refine (ih hrest).imp_right ?_
            rintro ⟨other, hother, hc⟩
            exact ⟨other, List.mem_cons_of_mem _ hother, hc⟩

omit [DecidableEq α] in
/-- Each part adds its length, and a separator to all but the last. -/
theorem length_intercalate_succ {c : α} {lines : List (List α)} (h : lines ≠ []) :
    ([c].intercalate lines).length + 1 = (lines.map fun line => line.length + 1).sum := by
  induction lines with
  | nil => exact absurd rfl h
  | cons line lines ih =>
      cases lines with
      | nil => simp
      | cons next lines =>
          rw [List.intercalate_cons_cons, List.length_append, List.length_append,
            List.length_singleton, Nat.add_assoc, ih (List.cons_ne_nil _ _)]
          rfl

omit [DecidableEq α] in
theorem intercalate_ne_nil {line : List α} (h : line ≠ []) (gap : List α) (lines : List (List α)) :
    gap.intercalate (line :: lines) ≠ [] := by
  cases lines with
  | nil => simpa using h
  | cons next lines => simp [List.intercalate_cons_cons, h]

omit [DecidableEq α] in
/-- A text ends like its parts. -/
theorem getLast_intercalate {p : α → Bool} {gap : List α} {lines : List (List α)}
    (h : ∀ line ∈ lines, line ≠ [] ∧ ∀ c ∈ line.getLast?, p c = false) :
    ∀ c ∈ (gap.intercalate lines).getLast?, p c = false := by
  induction lines with
  | nil => simp
  | cons line lines ih =>
      obtain ⟨hline, hlines⟩ := List.forall_mem_cons.mp h
      cases lines with
      | nil => simpa using hline.2
      | cons next lines =>
          have hne := intercalate_ne_nil (hlines next List.mem_cons_self).1 gap lines
          rw [List.intercalate_cons_cons, List.getLast?_append_of_ne_nil _ hne]
          exact ih hlines

omit [DecidableEq α] in
theorem head_intercalate {line : List α} (h : line ≠ []) (gap : List α) (lines : List (List α)) :
    (gap.intercalate (line :: lines)).head? = line.head? := by
  cases lines with
  | nil => simp
  | cons next lines => rw [List.intercalate_cons_cons, List.append_assoc,
      List.head?_append_of_ne_nil _ h]

/-! ## Numbers and separators within a line -/

/-- The last occurrence of a character. -/
theorem rfind_append_cons {c : α} {t : List α} (ht : c ∉ t) (s : List α) :
    rfind [c] (s ++ c :: t) = some s.length :=
  rfind_append (rfind_cons_self ht) s

/-- The first occurrence of a character. -/
theorem idxOf?_append_cons {c : α} {s : List α} (hs : c ∉ s) (t : List α) :
    (s ++ c :: t).idxOf? c = some s.length := by
  induction s with
  | nil => simp [List.idxOf?_cons]
  | cons d s ih =>
      obtain ⟨hd, hs⟩ : c ≠ d ∧ c ∉ s := by simpa using hs
      rw [List.cons_append, List.idxOf?_cons, if_neg (by simpa using Ne.symm hd), ih hs]
      rfl

/-! ## Cutting at a text -/

section Cut

variable {part s t u : List α} {sep : List α}

/-- The parts between the occurrences of a text, behind the front of the first part; the first
characters may belong to an occurrence. -/
def cutFrom (sep : List α) : List α → ℕ → List α → List (List α)
  | part, _, [] => [part]
  | part, n + 1, _ :: s => cutFrom sep part n s
  | part, 0, c :: s =>
    if sep <+: c :: s then part :: cutFrom sep [] (sep.length - 1) s
    else cutFrom sep (part ++ [c]) 0 s

/-- The parts between the occurrences of a text that is not empty. -/
def cut (sep s : List α) : List (List α) := cutFrom sep [] 0 s

theorem cutFrom_skip (part u t : List α) :
    cutFrom sep part u.length (u ++ t) = cutFrom sep part 0 t := by
  induction u with
  | nil => rfl
  | cons c u ih =>
      rw [List.length_cons, List.cons_append, cutFrom]
      exact ih

theorem cutFrom_sep (hsep : sep ≠ []) (part t : List α) :
    cutFrom sep part 0 (sep ++ t) = part :: cutFrom sep [] 0 t := by
  obtain ⟨c, rest, rfl⟩ := List.exists_cons_of_ne_nil hsep
  rw [List.cons_append, cutFrom, if_pos ⟨t, rfl⟩, List.length_cons, Nat.add_sub_cancel,
    cutFrom_skip]

/-- Characters before the first occurrence belong to the part. -/
theorem cutFrom_append (h : ∀ a b, u = a ++ b → b ≠ [] → ¬sep <+: b ++ t) (part : List α) :
    cutFrom sep part 0 (u ++ t) = cutFrom sep (part ++ u) 0 t := by
  induction u generalizing part with
  | nil => rw [List.nil_append, List.append_nil]
  | cons c u ih =>
      have hfirst := h [] (c :: u) rfl (List.cons_ne_nil c u)
      rw [List.cons_append] at hfirst ⊢
      rw [cutFrom, if_neg hfirst, ih fun a b hab hb => h (c :: a) b (by rw [hab]; rfl) hb,
        List.append_assoc, List.singleton_append]

end Cut

/-! ## Reading each part -/

section Each

variable {α β : Type} {read : α → Option β}

theorem mapM_cons_eq (a : α) (as : List α) :
    (a :: as).mapM read = (read a).bind fun b => (as.mapM read).map (b :: ·) := by
  rw [List.mapM_cons]
  cases read a with
  | none => rfl
  | some b => cases as.mapM read <;> rfl

theorem mapM_eq_some_map_iff {value : α → β} {as : List α} :
    as.mapM read = some (as.map value) ↔ ∀ a ∈ as, read a = some (value a) := by
  induction as with
  | nil => simp
  | cons a as ih =>
      rw [List.mapM_cons, List.forall_mem_cons, ← ih]
      cases hread : read a with
      | none => simp
      | some b =>
          cases hrest : as.mapM read with
          | none => simp
          | some bs => simp

variable {ε σ : Type} {load : α → Except ε β} {as : List α}

/-- A loop that ends well has read each part. -/
theorem exists_of_foldlM_eq_ok {store : σ → β → σ} {x y : σ}
    (h : as.foldlM (fun x a => (load a).map (store x)) x = .ok y) :
    ∀ a ∈ as, ∃ b, load a = .ok b := by
  induction as generalizing x with
  | nil => exact fun a ha => absurd ha List.not_mem_nil
  | cons a as ih =>
      rw [List.foldlM_cons] at h
      cases hload : load a with
      | error e =>
          rw [hload] at h
          cases h
      | ok b =>
          rw [hload] at h
          exact List.forall_mem_cons.mpr ⟨⟨b, hload⟩, ih h⟩

theorem foldlM_eq_ok (store : σ → β → σ) (value : α → β)
    (h : ∀ a ∈ as, load a = .ok (value a)) (x : σ) :
    as.foldlM (fun x a => (load a).map (store x)) x = .ok ((as.map value).foldl store x) := by
  induction as generalizing x with
  | nil => rfl
  | cons a as ih =>
      obtain ⟨ha, has⟩ := List.forall_mem_cons.mp h
      rw [List.foldlM_cons, ha]
      exact ih has (store x (value a))

/-- A loop that passes each part. -/
theorem foldlM_eq_ok_self {store : σ → β → σ} {skipped : β} (hstore : ∀ x, store x skipped = x)
    (h : ∀ a ∈ as, load a = .ok skipped) (x : σ) :
    as.foldlM (fun x a => (load a).map (store x)) x = .ok x := by
  induction as with
  | nil => rfl
  | cons a as ih =>
      obtain ⟨ha, has⟩ := List.forall_mem_cons.mp h
      rw [List.foldlM_cons, ha]
      change as.foldlM _ (store x skipped) = _
      rw [hstore]
      exact ih has

theorem reduceOption_map_some (as : List α) : (as.map some).reduceOption = as := by
  induction as with
  | nil => exact List.reduceOption_nil
  | cons a as ih => rw [List.map_cons, List.reduceOption_cons_of_some, ih]

/-- Nothing is left out where as much is read as there is. -/
theorem reduceOption_map_eq_map_iff {value : α → β} {as : List α} :
    (as.map read).reduceOption = as.map value ↔ ∀ a ∈ as, read a = some (value a) := by
  induction as with
  | nil => simp
  | cons a as ih =>
      rw [List.forall_mem_cons, ← ih, List.map_cons, List.map_cons]
      cases hread : read a with
      | some b => rw [List.reduceOption_cons_of_some, List.cons.injEq, Option.some.injEq]
      | none =>
          rw [List.reduceOption_cons_of_none]
          refine iff_of_false (fun h => ?_) (fun h => Option.some_ne_none _ h.1.symm)
          have hle := (as.map read).reduceOption_length_le
          rw [h, List.length_cons, List.length_map, List.length_map] at hle
          omega

end Each

end Text
