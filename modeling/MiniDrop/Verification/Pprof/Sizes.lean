import MiniDrop.Verification.Pprof.Columns
import Mathlib.Data.Rat.Floor

/-! # Sizes

A row of a heap profile is read if its units are B, MB, GB or TB, and skipped otherwise. -/

namespace MiniDrop.Pprof

open Regex (Filled Refuses)

/-! ## The property -/

/-- Each function has one sample with its sizes, in the order of the rows. -/
def ReadsSizes (d : Listing SizeUnit sizePatterns) : Prop :=
  parseHeapText d.text = .ok (d.rows.map fun r =>
    { func := r.name, flatSpace := ⌊r.flat.value⌋, cumSpace := ⌊r.cum.value⌋ })

/-- Units that parse_heap_text knows. -/
def knownSizeUnits : List SizeUnit := [.b, .mB, .gB, .tB]

/-! ## Patterns -/

theorem Amount.unitIn_knownSizeUnits {a : Amount SizeUnit} :
    a.UnitIn knownSizeUnits ↔ a.unitText = [] ∨ a.unitText ∈ sizeUnits := by
  cases a with
  | zero => exact ⟨fun _ => .inl rfl, fun _ => trivial⟩
  | of number unit => cases unit <;> simp only [UnitIn, unitText] <;> decide

theorem filled_isSizeChar (n : Decimal) : Filled isSizeChar n.text :=
  ⟨n.filled_text.ne, fun c hc => by rw [isSizeChar, n.filled_text.all c hc, Bool.true_or]⟩

section Row

variable {r : Row SizeUnit} {rest : List Char}

theorem Amount.apart_sizeText {a : Amount SizeUnit} :
    ∀ c ∈ a.unitText, Python.isSpace c = false ∧ isSizeChar c = false := fun c hc =>
  have hletter := Amount.isLetter_of_mem_unitText c hc
  ⟨not_isSpace_of_isLetter hletter, not_isSizeChar_of_isLetter hletter⟩

theorem groups?_fullSizes : fullSizes.groups? (r.front rest) =
    if r.flat.UnitIn knownSizeUnits then
      if r.cum.UnitIn knownSizeUnits then
        (Regex.plus Python.isSpace).run
          [r.flat.number.text, r.flat.unitText, r.flatPercent.text, r.cum.number.text,
            r.cum.unitText, r.cumPercent.text] rest
          fun groups s => (Regex.cat [remainder]).run groups s fun groups _ => some groups
      else none
    else none := by
  change (optionalSize.run [] (r.front rest) fun groups s =>
    (Regex.cat [percentageGroup, percentage, optionalSize, percentageGroup, remainder]).run groups s
      fun groups _ => some groups) = _
  rw [Row.front, Amount.text, List.append_assoc]
  refine (apart_sizes.run_amount (filled_isSizeChar _) Amount.apart_sizeText (filled_blanks _)
    (head_text_append _ _) (refuses_percentageGroup _)).trans ?_
  refine if_congr Amount.unitIn_knownSizeUnits.symm ?_ rfl
  rw [run_percentageGroup, run_blanks (filled_blanks _) (head_text_append _ _) (refuses_percentage _),
    run_percentage]
  change ((Regex.plus Python.isSpace).run _ _ fun groups s => optionalSize.run groups s fun groups s =>
    (Regex.cat [percentageGroup, remainder]).run groups s fun groups _ => some groups) = _
  rw [run_blanks (filled_blanks _) (head_back _ _), Row.back, Amount.text]
  · simp only [List.append_assoc]
    refine (apart_sizes.run_amount (filled_isSizeChar _) Amount.apart_sizeText (filled_blanks _)
      (head_text_append _ _) (refuses_percentageGroup _)).trans ?_
    refine if_congr Amount.unitIn_knownSizeUnits.symm ?_ rfl
    exact run_percentageGroup _ _ _
  · exact fun _ _ _ hc => Regex.run_plus_of_neg (apart_sizes.not_of_isSpace hc)

/-- The sum of the percentages is no size. -/
theorem groups?_simpleSizes : simpleSizes.groups? (r.front rest) = none := by
  change (optionalSize.run [] (r.front rest) fun groups s =>
    (Regex.cat [percentageGroup, optionalSize, percentageGroup, remainder]).run groups s
      fun groups _ => some groups) = none
  rw [Row.front, Amount.text, List.append_assoc]
  refine (apart_sizes.run_amount (filled_isSizeChar _) Amount.apart_sizeText (filled_blanks _)
    (head_text_append _ _) (refuses_percentageGroup _)).trans ?_
  split
  · rw [run_percentageGroup]
    have hpercent : Refuses (fun c => c = '%') fun groups s =>
        (Regex.cat [.group (.opt (.oneOf sizeUnits)), .plus Python.isSpace]).run groups s
          fun groups s => (Regex.cat [percentageGroup, remainder]).run groups s
            fun groups _ => some groups := by
      refine Regex.refuses_group_opt_oneOf (fun w hw => ⟨apart_sizes.ne w hw, fun c hc => ?_⟩)
        (Regex.refuses_plus fun c hc => ?_)
      · have hheads : ∀ w ∈ sizeUnits, w.head? ≠ some '%' := by simp [sizeUnits]
        exact decide_eq_false fun heq => hheads w hw (heq ▸ hc)
      · rw [of_decide_eq_true hc]
        rfl
    refine (run_blanks (filled_blanks _) (head_text_append _ _)
      (fun _ _ _ hc => Regex.run_plus_of_neg (apart_sizes.not_of_isSpace hc))).trans ?_
    refine (Regex.run_group_plus (filled_isSizeChar _) ?_
      (Regex.refuses_group_opt_oneOf apart_sizes.head_word
        (Regex.refuses_plus apart_sizes.number))).trans ?_
    · rintro c ⟨⟩
      rfl
    · exact hpercent _ _ _ rfl
  · rfl

end Row

/-! ## Values -/

theorem Decimal.value_nonneg (n : Decimal) : 0 ≤ n.value := by
  rw [value]
  positivity

theorem truncate_eq_floor {q : ℚ} (h : 0 ≤ q) : Python.truncate q = ⌊q⌋ := by
  rw [Python.truncate, Rat.floor_def', Int.tdiv_eq_ediv_of_nonneg (Rat.num_nonneg.mpr h)]

theorem zero_value : (Amount.zero : Amount SizeUnit).number.value = 0 := by
  simp [Amount.number, Decimal.value, Nat.ofDigitChars]

theorem space_unitText {a : Amount SizeUnit} (h : a.UnitIn knownSizeUnits) :
    space a.number.text a.unitText = .ok ⌊a.value⌋ := by
  have hfilter : a.number.text.filter (· ≠ ',') = a.number.text :=
    List.filter_eq_self.mpr fun c hc => decide_eq_true (by
      rintro rfl
      exact absurd (Decimal.isTimeChar_of_mem_text hc) (by decide))
  have hbytes : toBytes a.number.value (if a.unitText = [] then ['B'] else a.unitText) =
      Python.truncate a.value := by
    cases a with
    | zero => exact congrArg Python.truncate ((congrArg (· * _) zero_value).trans (zero_mul _))
    | of number unit =>
        cases unit with
        | b => rfl
        | mB => rfl
        | gB => rfl
        | tB => rfl
        | kB => simp [Amount.UnitIn, knownSizeUnits] at h
        | pB => simp [Amount.UnitIn, knownSizeUnits] at h
  have hnonneg : 0 ≤ a.value := by
    cases a with
    | zero => exact le_rfl
    | of number unit =>
        refine mul_nonneg number.value_nonneg ?_
        cases unit <;> norm_num [PrintedUnit.size]
  rw [space, hfilter, Decimal.float_text]
  change Except.ok (toBytes _ _) = _
  rw [hbytes, truncate_eq_floor hnonneg]

/-! ## Lines -/

section Rows

variable {r : Row SizeUnit}

/-- What is read of a row: a row of other units, or whose name is blank, is skipped. -/
def Row.sample? (r : Row SizeUnit) : Option HeapSample :=
  if (r.flat.UnitIn knownSizeUnits ∧ r.cum.UnitIn knownSizeUnits) ∧ Python.strip r.name ≠ [] then
    some
      { func := Python.strip r.name, flatSpace := ⌊r.flat.value⌋, cumSpace := ⌊r.cum.value⌋ }
  else none

theorem readSize_front (r : Row SizeUnit) (rest : List Char) :
    readSize (r.front rest) = match fullSizes.groups? (r.front rest) with
      | some [flat, unit, _, cum, cumUnit, _, func] => do
        let flatSpace ← space flat unit
        let cumSpace ← space cum cumUnit
        pure (some { func := Python.strip func, flatSpace, cumSpace })
      | _ => .ok none := by
  rw [readSize, r.isHeading_front, if_neg Bool.false_ne_true, groups?_simpleSizes]
  cases fullSizes.groups? (r.front rest) <;> rfl

theorem readSize_line (r : Row SizeUnit) : readSize (Python.strip r.line) = .ok r.sample? := by
  rcases r.strip_line with ⟨hblank, hline⟩ | ⟨hne, gap, hgap, hline⟩
  · have hsample : r.sample? = none := if_neg fun h => h.2 hblank
    have hgroups : fullSizes.groups? (r.front []) = none := by
      rw [groups?_fullSizes]
      split
      · split <;> rfl
      · rfl
    rw [hline, readSize_front, hgroups, hsample]
  · rw [hline, readSize_front, groups?_fullSizes, Row.sample?]
    by_cases hunits : r.flat.UnitIn knownSizeUnits ∧ r.cum.UnitIn knownSizeUnits
    · have hread : (Regex.plus Python.isSpace).run
          [r.flat.number.text, r.flat.unitText, r.flatPercent.text, r.cum.number.text,
            r.cum.unitText, r.cumPercent.text] (gap ++ Python.strip r.name)
          (fun groups s => (Regex.cat [remainder]).run groups s fun groups _ => some groups) =
          some _ :=
        run_remainder hgap hne (Text.head_trim r.name) fun hmem => r.clear (Text.mem_of_mem_trim hmem)
      rw [if_pos hunits.1, if_pos hunits.2, if_pos ⟨hunits, hne⟩, hread]
      simp only [List.cons_append, List.nil_append, space_unitText hunits.1,
        space_unitText hunits.2, Python.strip_strip]
      rfl
    · have hskipped : ¬((r.flat.UnitIn knownSizeUnits ∧ r.cum.UnitIn knownSizeUnits) ∧
          Python.strip r.name ≠ []) := fun h => hunits h.1
      rw [if_neg hskipped]
      by_cases hflat : r.flat.UnitIn knownSizeUnits
      · rw [if_pos hflat, if_neg fun hcum => hunits ⟨hflat, hcum⟩]
      · rw [if_neg hflat]

end Rows

/-! ## The loop -/

section Listing

variable {d : Listing SizeUnit sizePatterns}

theorem readSize_preamble {line : List Char} (hline : line ∈ d.preamble) :
    readSize (Python.strip line) = .ok none := by
  have hrow := d.preamble_row line hline
  rw [readSize, hrow fullSizes (by simp [sizePatterns])]
  simp only [Option.orElse]
  rw [hrow simpleSizes (by simp [sizePatterns])]
  split <;> rfl

theorem readSize_header (d : Listing SizeUnit sizePatterns) :
    readSize (Python.strip d.header) = .ok none := by
  have hheading : isHeading (Python.strip d.header) = true := by
    rw [isHeading, d.header_flat, Bool.or_true, Bool.true_or]
  rw [readSize, if_pos hheading]

/-- What the loop does with the sample of a line. -/
def storeSize (samples : List HeapSample) (sample : Option HeapSample) : List HeapSample :=
  samples ++ sample.toList

theorem foldl_storeSize (samples : List HeapSample) (es : List (Option HeapSample)) :
    es.foldl storeSize samples = samples ++ es.reduceOption := by
  induction es generalizing samples with
  | nil => exact (List.append_nil samples).symm
  | cons e es ih =>
      rw [List.foldl_cons, ih, storeSize, List.append_assoc]
      cases e <;> rfl

/-- The samples are those of the rows that are not skipped. -/
theorem parseHeapText_text (d : Listing SizeUnit sizePatterns) :
    parseHeapText d.text = .ok (d.rows.map Row.sample?).reduceOption := by
  have hskip : ∀ xs, storeSize xs none = xs := List.append_nil
  have hblank : ∀ xs, (readSize []).map (storeSize xs) = pure xs := fun xs =>
    congrArg Except.ok (hskip xs)
  have hlines : parseHeapText d.text =
      d.lines.foldlM (fun xs line => (readSize (Python.strip line)).map (storeSize xs)) [] :=
    d.foldlM_lines (fun xs line => (readSize line).map (storeSize xs)) hblank []
  rw [hlines, Listing.lines, List.foldlM_append,
    Text.foldlM_eq_ok_self hskip fun line hline => readSize_preamble hline]
  change (d.header :: d.rows.map Row.line).foldlM
    (fun xs line => (readSize (Python.strip line)).map (storeSize xs)) [] = _
  rw [List.foldlM_cons, readSize_header]
  change (d.rows.map Row.line).foldlM
    (fun xs line => (readSize (Python.strip line)).map (storeSize xs)) [] = _
  rw [List.foldlM_map]
  rw [← List.nil_append (d.rows.map Row.sample?).reduceOption, ← foldl_storeSize]
  exact Text.foldlM_eq_ok storeSize Row.sample? (fun r _ => readSize_line r) []

end Listing

end MiniDrop.Pprof
