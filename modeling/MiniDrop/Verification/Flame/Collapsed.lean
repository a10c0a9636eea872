import MiniDrop.Verification.Flame.Lines

/-! # Collapsed text is read back

Every entry has a line of its own. A count with more digits than Python prints stops the printing. -/

namespace MiniDrop

/-! ## Statement -/

/-- A stack that can stand at the front of a line. -/
structure Printable (stack : String) : Prop where
  ne : stack ≠ ""
  line : '\n' ∉ stack.toList
  head : ∀ c ∈ stack.toList.head?, Python.isSpace c = false
  last : ∀ c ∈ stack.toList.getLast?, Python.isSpace c = false

/-- Python prints the count. -/
def Countable (n : ℤ) : Prop := (Nat.toDigits 10 n.natAbs).length ≤ Python.maxStrDigits

instance (n : ℤ) : Decidable (Countable n) := inferInstanceAs (Decidable (_ ≤ _))

/-- There is a text, and it is read as the dictionary. -/
def IsReadAs (text : Option String) (counts : Dict String ℤ) : Prop :=
  ∃ t, text = some t ∧ ∀ stack, (parseCollapsed t).get? stack = counts.get? stack

/-- In whatever order entries with equal counts are printed. -/
structure CollapsedRoundTrip (counts : Dict String ℤ) : Prop where
  sorted : IsReadAs (stacksToCollapsed counts) counts
  ties : ∀ entries, entries.Perm counts.entries → entries.Pairwise (fun a b => b.2 ≤ a.2) →
    IsReadAs (collapsedText entries) counts

/-! ## One line -/

section Line

variable {stack : String} {n : ℤ}

/-- The line of a stack and a count. -/
def lineOf (entry : String × ℤ) : List Char := entry.1.toList ++ ' ' :: Python.str entry.2

theorem printedLine_of_countable (h : Countable n) :
    printedLine (stack, n) = some (lineOf (stack, n)) := by
  rw [printedLine, Python.str?, if_neg (Nat.not_lt.mpr h)]
  rfl

theorem printedLine_of_not_countable (h : ¬Countable n) : printedLine (stack, n) = none := by
  rw [printedLine, Python.str?, if_pos (Nat.lt_of_not_le h)]
  rfl

theorem lineOf_ne (entry : String × ℤ) : lineOf entry ≠ [] := by simp [lineOf]

theorem newline_notMem_lineOf (h : Printable stack) : '\n' ∉ lineOf (stack, n) := by
  have hcount : '\n' ∉ Python.str n := fun hmem =>
    Python.ne_of_mem_str hmem (by decide) (by decide) rfl
  simp [lineOf, h.line, hcount]

theorem head_lineOf (h : Printable stack) :
    ∀ c ∈ (lineOf (stack, n)).head?, Python.isSpace c = false := by
  obtain ⟨c, cs, hstack⟩ := List.exists_cons_of_ne_nil
    (fun hnil => h.ne (String.toList_eq_nil_iff.mp hnil) : stack.toList ≠ [])
  have hhead := h.head
  rw [hstack] at hhead
  simpa [lineOf, hstack] using hhead

theorem getLast_lineOf (entry : String × ℤ) :
    ∀ c ∈ (lineOf entry).getLast?, Python.isSpace c = false := by
  intro c hc
  rw [lineOf, List.getLast?_append_of_ne_nil _ (List.cons_ne_nil _ _),
    List.getLast?_cons_of_ne_nil (Python.str_ne_nil _)] at hc
  exact Python.not_isSpace_of_mem_str (List.mem_of_mem_getLast? hc)

theorem collapsedLine_lineOf (hstack : Printable stack) (hcount : Countable n) :
    collapsedLine (lineOf (stack, n)) = some (stack, n) := by
  have hblank : Python.strip (lineOf (stack, n)) = lineOf (stack, n) :=
    Text.trim_of_ends (head_lineOf hstack) (getLast_lineOf (stack, n))
  have hspace : ' ' ∉ Python.str n := fun hmem =>
    Python.ne_of_mem_str hmem (by decide) (by decide) rfl
  have hcut : Python.rsplit (lineOf (stack, n)) = some (stack.toList, Python.str n) :=
    rsplit_append_cons hspace
  rw [collapsedLine, if_neg (by rw [hblank]; exact lineOf_ne _), hcut, Option.bind_some]
  dsimp only
  rw [Python.int?_str hcount, Option.map_some, String.ofList_toList]

end Line

/-! ## All lines -/

section Text

variable {entries : List (String × ℤ)} {counts : Dict String ℤ}

theorem mapM_printedLine (h : ∀ e ∈ entries, Countable e.2) :
    entries.mapM printedLine = some (entries.map lineOf) := by
  induction entries with
  | nil => rfl
  | cons entry entries ih =>
      obtain ⟨hentry, hentries⟩ := List.forall_mem_cons.mp h
      rw [List.mapM_cons, printedLine_of_countable hentry, ih hentries]
      rfl

/-- One count that is not printed stops the loop. -/
theorem mapM_printedLine_eq_none {entry : String × ℤ} (hmem : entry ∈ entries)
    (h : ¬Countable entry.2) : entries.mapM printedLine = none := by
  induction entries with
  | nil => cases hmem
  | cons first entries ih =>
      rw [List.mapM_cons]
      rcases List.mem_cons.mp hmem with rfl | hmem
      · rw [printedLine_of_not_countable h]
        rfl
      · rw [ih hmem]
        cases printedLine first <;> rfl

/-- The last newline is the only white space around the lines. -/
theorem strip_lines (h : ∀ e ∈ entries, Printable e.1) :
    Python.strip (['\n'].intercalate (entries.map lineOf) ++ ['\n']) =
      ['\n'].intercalate (entries.map lineOf) := by
  cases entries with
  | nil => rfl
  | cons entry entries =>
      have hends : ∀ line ∈ (entry :: entries).map lineOf,
          line ≠ [] ∧ ∀ c ∈ line.getLast?, Python.isSpace c = false := by
        intro line hline
        obtain ⟨e, -, rfl⟩ := List.mem_map.mp hline
        exact ⟨lineOf_ne e, getLast_lineOf e⟩
      have hhead := head_lineOf (n := entry.2) (h entry List.mem_cons_self)
      have hne := lineOf_ne entry
      refine Text.trim_append (Text.intercalate_ne_nil hne _ _) ?_ (Text.getLast_intercalate hends)
        (by simp [Python.isSpace, isCommonSpace])
      rwa [List.map_cons, Text.head_intercalate hne]

theorem parseCollapsed_lines (hstacks : ∀ e ∈ entries, Printable e.1)
    (hcounts : ∀ e ∈ entries, Countable e.2) :
    parseCollapsed (String.ofList (['\n'].intercalate (entries.map lineOf) ++ ['\n'])) =
      .ofList entries := by
  have hlines : (['\n'].intercalate (entries.map lineOf)).splitOn '\n' =
      if entries = [] then [[]] else entries.map lineOf := by
    split
    · next hnil => rw [hnil]; rfl
    · next hne =>
        refine List.splitOn_intercalate '\n' (fun line hline => ?_) (by simpa using hne)
        obtain ⟨e, he, rfl⟩ := List.mem_map.mp hline
        exact newline_notMem_lineOf (hstacks e he)
  have hread : (entries.map lineOf).filterMap collapsedLine = entries := by
    rw [List.filterMap_map]
    exact (List.filterMap_congr fun e he =>
      collapsedLine_lineOf (hstacks e he) (hcounts e he)).trans List.filterMap_some
  rw [parseCollapsed, String.toList_ofList, strip_lines hstacks, hlines]
  split
  · next hnil => rw [hnil]; rfl
  · rw [hread]

theorem isReadAs_collapsedText (hstacks : ∀ e ∈ counts.entries, Printable e.1)
    (hperm : entries.Perm counts.entries) :
    IsReadAs (collapsedText entries) counts ↔ ∀ e ∈ counts.entries, Countable e.2 := by
  constructor
  · rintro ⟨t, ht, -⟩ entry hmem
    by_contra hcount
    rw [collapsedText, mapM_printedLine_eq_none (hperm.mem_iff.mpr hmem) hcount] at ht
    cases ht
  · intro hcounts
    have hprintable : ∀ e ∈ entries, Printable e.1 := fun e he => hstacks e (hperm.mem_iff.mp he)
    have hcountable : ∀ e ∈ entries, Countable e.2 := fun e he => hcounts e (hperm.mem_iff.mp he)
    refine ⟨_, by rw [collapsedText, mapM_printedLine hcountable, Option.map_some], fun stack => ?_⟩
    have hnodup : (entries.map Prod.fst).Nodup := (hperm.map Prod.fst).nodup_iff.mpr counts.nodup
    have hentries := Dict.ofList_entries_of_nodup hnodup
    rw [parseCollapsed_lines hprintable hcountable]
    refine Option.ext fun n => ?_
    rw [Dict.get?_eq_some_iff, Dict.get?_eq_some_iff, hentries, hperm.mem_iff]

end Text

/-! ## Main theorem -/

theorem collapsedRoundTrip_iff (counts : Dict String ℤ)
    (hstacks : ∀ e ∈ counts.entries, Printable e.1) :
    CollapsedRoundTrip counts ↔ ∀ e ∈ counts.entries, Countable e.2 := by
  constructor
  · rintro ⟨hsorted, -⟩
    exact (isReadAs_collapsedText hstacks (List.mergeSort_perm _ _)).mp hsorted
  · intro hcounts
    exact ⟨(isReadAs_collapsedText hstacks (List.mergeSort_perm _ _)).mpr hcounts,
      fun entries hperm _ => (isReadAs_collapsedText hstacks hperm).mpr hcounts⟩

/-- Frames with spaces and digits, and counts of either sign. -/
def mixedCounts : Dict String ℤ where
  entries := [("operator new 2;f", 3), ("main;;g", -3), ("7 8", 0)]
  nodup := by decide

theorem collapsedRoundTrip_mixed : CollapsedRoundTrip mixedCounts := by
  refine (collapsedRoundTrip_iff mixedCounts ?_).mpr ?_
  · rintro e (_ | ⟨_, _ | ⟨_, _ | ⟨_, ⟨⟩⟩⟩⟩) <;>
      exact ⟨by decide, by decide, by rintro _ ⟨⟩; rfl, by rintro _ ⟨⟩; rfl⟩
  · rintro e (_ | ⟨_, _ | ⟨_, _ | ⟨_, ⟨⟩⟩⟩⟩) <;>
      decide

/-- The least count with too many digits. -/
def hugeCount : ℤ := 10 ^ Python.maxStrDigits

theorem not_countable_hugeCount : ¬Countable hugeCount := by
  intro h
  have habs : hugeCount.natAbs = 10 ^ Python.maxStrDigits := by
    have hten : (10 : ℤ).natAbs = 10 := rfl
    rw [hugeCount, Int.natAbs_pow, hten]
  rw [Countable, habs, Nat.length_toDigits_le_iff (by decide) (by decide)] at h
  exact Nat.lt_irrefl _ h

def hugeCounts : Dict String ℤ where
  entries := [("main", hugeCount)]

theorem not_collapsedRoundTrip : ¬∀ counts : Dict String ℤ,
    (∀ e ∈ counts.entries, Printable e.1) → CollapsedRoundTrip counts := by
  intro h
  have hstacks : ∀ e ∈ hugeCounts.entries, Printable e.1 := by
    rintro e (_ | ⟨_, ⟨⟩⟩)
    exact ⟨by decide, by decide, by rintro _ ⟨⟩; rfl, by rintro _ ⟨⟩; rfl⟩
  obtain ⟨t, ht, -⟩ := (h hugeCounts hstacks).sorted
  have hlines : [("main", hugeCount)].mapM printedLine = none :=
    mapM_printedLine_eq_none List.mem_cons_self not_countable_hugeCount
  rw [stacksToCollapsed, collapsedText, hugeCounts, List.mergeSort_singleton, hlines] at ht
  cases ht

end MiniDrop
