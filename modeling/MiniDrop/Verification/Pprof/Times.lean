import MiniDrop.Verification.Pprof.Columns

/-! # Times

A row of a CPU profile is read if its units are us, ms or s. -/

namespace MiniDrop.Pprof

open Regex (Filled)

/-! ## The property -/

/-- Each function is read with its time. -/
def ReadsTimes (d : Listing TimeUnit timePatterns) : Prop :=
  ∃ samples, parsePprofText d.text = .ok samples ∧
    samples.entries.Perm (d.rows.map fun r => (r.name, r.flat.value))

/-! ## The condition -/

/-- Units that parse_pprof_text knows. -/
def knownTimeUnits : List TimeUnit := [.us, .ms, .s]

/-- Rows are legible, and no line of the preamble begins like a number behind its indentation. -/
structure TimesLegible (d : Listing TimeUnit timePatterns) : Prop where
  preamble : ∀ line ∈ d.preamble, ∀ c ∈ (Python.strip line).head?, isTimeChar c = false
  rows : ∀ r ∈ d.rows, r.Legible knownTimeUnits

/-! ## Patterns -/

theorem Amount.unitIn_knownTimeUnits {a : Amount TimeUnit} :
    a.UnitIn knownTimeUnits ↔ a.unitText = [] ∨ a.unitText ∈ timeUnits := by
  cases a with
  | zero => exact ⟨fun _ => .inl rfl, fun _ => trivial⟩
  | of number unit => cases unit <;> simp only [UnitIn, unitText] <;> decide

section Row

variable {r : Row TimeUnit} {rest : List Char}

theorem Amount.apart_unitText {a : Amount TimeUnit} :
    ∀ c ∈ a.unitText, Python.isSpace c = false ∧ isTimeChar c = false := by
  intro c hc
  have hletter := Amount.isLetter_of_mem_unitText c hc
  have hsize := not_isSizeChar_of_isLetter hletter
  rw [isSizeChar, Bool.or_eq_false_iff] at hsize
  exact ⟨not_isSpace_of_isLetter hletter, hsize.1⟩

theorem groups?_fullTimes : fullTimes.groups? (r.front rest) =
    if r.flat.UnitIn knownTimeUnits then
      if r.cum.UnitIn knownTimeUnits then
        (Regex.plus Python.isSpace).run
          [r.flat.number.text, r.flat.unitText, r.cum.number.text, r.cum.unitText] rest
          fun groups s => (Regex.cat [remainder]).run groups s fun groups _ => some groups
      else none
    else none := by
  change (optionalTime.run [] (r.front rest) fun groups s =>
    (Regex.cat [percentage, percentage, optionalTime, percentage, remainder]).run groups s
      fun groups _ => some groups) = _
  rw [Row.front, Amount.text, List.append_assoc]
  refine (apart_times.run_amount r.flat.number.filled_text Amount.apart_unitText (filled_blanks _)
    (head_text_append _ _) (refuses_percentage _)).trans ?_
  refine if_congr Amount.unitIn_knownTimeUnits.symm ?_ rfl
  rw [run_percentage, run_blanks (filled_blanks _) (head_text_append _ _) (refuses_percentage _),
    run_percentage]
  change ((Regex.plus Python.isSpace).run _ _ fun groups s => optionalTime.run groups s fun groups s =>
    (Regex.cat [percentage, remainder]).run groups s fun groups _ => some groups) = _
  rw [run_blanks (filled_blanks _) (head_back _ _), Row.back, Amount.text, List.append_assoc]
  · refine (apart_times.run_amount r.cum.number.filled_text Amount.apart_unitText (filled_blanks _)
      (head_text_append _ _) (refuses_percentage _)).trans ?_
    refine if_congr Amount.unitIn_knownTimeUnits.symm ?_ rfl
    exact run_percentage _ _ _
  · exact fun _ _ _ hc => Regex.run_plus_of_neg (apart_times.not_of_isSpace hc)

theorem groups?_simpleTimes (hclear : '\n' ∉ r.back rest) :
    ((simpleTimes1.groups? (r.front rest)).orElse fun _ => simpleTimes2.groups? (r.front rest)) =
      if r.flat.unitText ∈ timeUnits then
        some [r.flat.number.text, r.flat.unitText, r.back rest]
      else none := by
  have hne : r.back rest ≠ [] := by simp [Row.back]
  have hfirst : simpleTimes1.groups? (r.front rest) =
      if r.flat.unitText ∈ timeUnits then
        some [r.flat.number.text, r.flat.unitText, r.back rest]
      else none := by
    change (time.run [] (r.front rest) fun groups s =>
      (Regex.cat [percentage, percentage, remainder]).run groups s fun groups _ => some groups) = _
    rw [Row.front, Amount.text, List.append_assoc]
    refine (apart_times.run_amount_unit r.flat.number.filled_text Amount.apart_unitText
      (filled_blanks _) (head_text_append _ _) (refuses_percentage _)).trans ?_
    refine if_congr Iff.rfl ?_ rfl
    rw [run_percentage, run_blanks (filled_blanks _) (head_text_append _ _) (refuses_percentage _),
      run_percentage]
    exact run_remainder (filled_blanks _) hne (head_back _ _) hclear
  rw [hfirst]
  split
  · rfl
  · next hunit =>
    change (time.run [] (r.front rest) fun groups s =>
      (Regex.cat [percentage, remainder]).run groups s fun groups _ => some groups) = none
    rw [Row.front, Amount.text, List.append_assoc]
    exact (apart_times.run_amount_unit r.flat.number.filled_text Amount.apart_unitText
      (filled_blanks _) (head_text_append _ _) (refuses_percentage _)).trans (if_neg hunit)

/-! ## Lines -/

theorem Amount.value_of_unitText {a : Amount TimeUnit} (h : a.unitText = []) :
    a.number.value = 0 := by
  cases a with
  | zero => simp [number, Decimal.value, Nat.ofDigitChars]
  | of number unit => cases unit <;> cases h

theorem Amount.toSeconds_value {a : Amount TimeUnit} (h : a.UnitIn knownTimeUnits) :
    toSeconds a.number.value (if a.unitText = [] then ['s'] else a.unitText) = .ok a.value := by
  cases a with
  | zero =>
      rw [value_of_unitText rfl, unitText, if_pos rfl]
      exact congrArg Except.ok (zero_mul _)
  | of number unit =>
      cases unit with
      | us => rfl
      | ms => rfl
      | s => rfl
      | ns => simp [UnitIn, knownTimeUnits] at h
      | mins => simp [UnitIn, knownTimeUnits] at h
      | hrs => simp [UnitIn, knownTimeUnits] at h

/-- A row of known units is read with the name that is left of it. -/
theorem readTime_known {gap core : List Char} (hflat : r.flat.UnitIn knownTimeUnits)
    (hcum : r.cum.UnitIn knownTimeUnits) (hgap : Filled Python.isSpace gap) (hne : core ≠ [])
    (hhead : ∀ c ∈ core.head?, Python.isSpace c = false) (hclear : '\n' ∉ core) :
    readTime (r.front (gap ++ core)) = .ok (some (Python.strip core, r.flat.value)) := by
  rw [readTime, r.isHeading_front, if_neg Bool.false_ne_true, groups?_fullTimes, if_pos hflat,
    if_pos hcum, run_remainder hgap hne hhead hclear]
  simp only [List.cons_append, List.nil_append, Decimal.float_text]
  have hmissing : ¬(r.flat.unitText = [] ∧ r.flat.number.value ≠ 0) := fun h =>
    h.2 (Amount.value_of_unitText h.1)
  refine (if_neg hmissing).trans ?_
  rw [Amount.toSeconds_value hflat]
  by_cases hunit : r.cum.unitText = []
  · have hzero : ¬r.cum.number.value ≠ 0 := not_not.mpr (Amount.value_of_unitText hunit)
    rw [if_pos hunit]
    exact if_neg hzero
  · rw [if_neg hunit]
    rfl

theorem groups?_fullTimes_eq_none
    (h : ¬(r.flat.UnitIn knownTimeUnits ∧ r.cum.UnitIn knownTimeUnits) ∨ rest = []) :
    fullTimes.groups? (r.front rest) = none := by
  rw [groups?_fullTimes]
  split
  · next hflat =>
    split
    · next hcum =>
      obtain rfl : rest = [] := h.resolve_left fun hnot => hnot ⟨hflat, hcum⟩
      rfl
    · rfl
  · rfl

theorem Amount.unitIn_of_mem {a : Amount TimeUnit} (h : a.unitText ∈ timeUnits) :
    a.UnitIn knownTimeUnits := unitIn_knownTimeUnits.mpr (.inr h)

/-- A row that only a simpler pattern matches is read with the cumulative columns in its name. -/
theorem readTime_simple (hfull : fullTimes.groups? (r.front rest) = none)
    (hunit : r.flat.unitText ∈ timeUnits) (hclear : '\n' ∉ r.back rest) :
    readTime (r.front rest) = .ok (some (Python.strip (r.back rest), r.flat.value)) := by
  have hne : r.flat.unitText ≠ [] := fun hnil => apart_times.ne _ hunit hnil
  have hseconds := Amount.toSeconds_value (Amount.unitIn_of_mem hunit)
  rw [if_neg hne] at hseconds
  rw [readTime, r.isHeading_front, if_neg Bool.false_ne_true, hfull]
  simp only
  rw [groups?_simpleTimes hclear, if_pos hunit]
  simp only [Decimal.float_text]
  change (toSeconds r.flat.number.value r.flat.unitText).bind _ = _
  rw [hseconds]
  rfl

theorem exists_readTime_error (hfull : fullTimes.groups? (r.front rest) = none)
    (hunit : r.flat.unitText ∉ timeUnits) (hclear : '\n' ∉ r.back rest) :
    ∃ e, readTime (r.front rest) = .error e := by
  obtain ⟨c, cs, hfront, hdigit⟩ := r.exists_front_cons rest
  have hhead : (r.front rest).head?.any isTimeChar = true := by
    rw [hfront, List.head?_cons, Option.any_some, isTimeChar, Python.isDecimal_of_isDigit hdigit,
      Bool.true_or]
  refine ⟨refuseLine (r.front rest), ?_⟩
  rw [readTime, r.isHeading_front, if_neg Bool.false_ne_true, hfull]
  simp only
  rw [groups?_simpleTimes hclear, if_neg hunit]
  simp only
  rw [if_pos hhead]

end Row

/-! ## Rows -/

section Rows

variable {r : Row TimeUnit}

theorem Row.Legible.readTime_line (h : r.Legible knownTimeUnits) :
    readTime (Python.strip r.line) = .ok (some (r.name, r.flat.value)) := by
  rcases r.strip_line with ⟨hblank, -⟩ | ⟨hne, gap, hgap, hline⟩
  · exact absurd (h.trimmed.symm.trans hblank) h.ne
  · have hread := readTime_known h.flat h.cum hgap hne (Text.head_trim r.name)
      fun hmem => r.clear (Text.mem_of_mem_trim hmem)
    rw [hline, hread, Python.strip_strip, h.trimmed]

/-- What is read of a row: a name, which has no white space at its ends and is longer than the
row's where it takes in other columns. -/
structure ReadAs (r : Row TimeUnit) (key : List Char) : Prop where
  ne : key ≠ []
  trimmed : Python.strip key = key
  le : (Python.strip r.name).length ≤ key.length
  lt : ¬(r.flat.UnitIn knownTimeUnits ∧ r.cum.UnitIn knownTimeUnits) →
    (Python.strip r.name).length < key.length

theorem readAs_back {rest : List Char} (hname : (Python.strip r.name).length ≤ rest.length)
    (hlast : ∀ c ∈ ('%' :: rest).getLast?, Python.isSpace c = false) :
    ReadAs r (Python.strip (r.back rest)) := by
  have hlength : rest.length < (r.back rest).length := by
    simp only [Row.back, List.length_append, List.length_cons]
    omega
  have htrim : Python.strip (r.back rest) = r.back rest := by
    refine Text.trim_of_ends (head_back r rest) ?_
    rw [Row.back, List.getLast?_append_of_ne_nil _ (by simp), List.getLast?_append_of_ne_nil _ (by simp),
      List.getLast?_append_of_ne_nil _ (List.cons_ne_nil _ _)]
    exact hlast
  rw [← htrim] at hlength
  exact ⟨fun hnil => by simp [hnil] at hlength, Python.strip_strip _, hname.trans hlength.le,
    fun _ => hname.trans_lt hlength⟩

theorem readAs_of_readTime {e : Option (List Char × ℚ)}
    (h : readTime (Python.strip r.line) = .ok e) : ∃ key v, e = some (key, v) ∧ ReadAs r key := by
  have hsimple : ∀ rest, Python.strip r.line = r.front rest →
      fullTimes.groups? (r.front rest) = none → ReadAs r (Python.strip (r.back rest)) →
        ∃ key v, e = some (key, v) ∧ ReadAs r key := by
    intro rest hline hfull hread
    have hclear : '\n' ∉ r.back rest := fun hmem => by
      refine r.newline_notMem_line (Text.mem_of_mem_trim (p := Python.isSpace) ?_)
      change '\n' ∈ Python.strip r.line
      rw [hline, Row.front]
      simp [hmem]
    rw [hline] at h
    by_cases hunit : r.flat.unitText ∈ timeUnits
    · rw [readTime_simple hfull hunit hclear] at h
      exact ⟨_, _, (Except.ok.inj h).symm, hread⟩
    · obtain ⟨error, herror⟩ := exists_readTime_error hfull hunit hclear
      rw [herror] at h
      cases h
  rcases r.strip_line with ⟨hblank, hline⟩ | ⟨hne, gap, hgap, hline⟩
  · refine hsimple [] hline (groups?_fullTimes_eq_none (.inr rfl))
      (readAs_back (by simp [hblank]) ?_)
    rintro c ⟨⟩
    rfl
  · have hcore : '\n' ∉ Python.strip r.name := fun hmem => r.clear (Text.mem_of_mem_trim hmem)
    by_cases hunits : r.flat.UnitIn knownTimeUnits ∧ r.cum.UnitIn knownTimeUnits
    · rw [hline, readTime_known hunits.1 hunits.2 hgap hne (Text.head_trim r.name) hcore,
        Python.strip_strip] at h
      exact ⟨_, _, (Except.ok.inj h).symm, hne, Python.strip_strip _, le_rfl,
        fun hnot => absurd hunits hnot⟩
    · refine hsimple _ hline (groups?_fullTimes_eq_none (.inl hunits)) (readAs_back (by simp) ?_)
      rw [← List.cons_append, List.getLast?_append_of_ne_nil _ hne]
      exact Text.getLast_trim r.name

end Rows

/-! ## The loop -/

/-- What the loop does with the function of a line. -/
def storeTime (samples : Dict (List Char) ℚ) : Option (List Char × ℚ) → Dict (List Char) ℚ
  | some (func, seconds) => samples.set func seconds
  | none => samples

theorem timeLine_eq (samples : Dict (List Char) ℚ) (line : List Char) :
    timeLine samples line = (readTime (Python.strip line)).map (storeTime samples) := by
  rw [timeLine]
  cases readTime (Python.strip line) with
  | error e => rfl
  | ok e => cases e <;> rfl

section Listing

variable {d : Listing TimeUnit timePatterns}

theorem readTime_header (d : Listing TimeUnit timePatterns) :
    readTime (Python.strip d.header) = .ok none := by
  have hheading : isHeading (Python.strip d.header) = true := by
    rw [isHeading, d.header_flat, Bool.or_true, Bool.true_or]
  rw [readTime, if_pos hheading]

theorem readTime_preamble {line : List Char} (hline : line ∈ d.preamble) :
    (∀ e, readTime (Python.strip line) = .ok e →
      ∀ c ∈ (Python.strip line).head?, isTimeChar c = false) ∧
    ((∀ c ∈ (Python.strip line).head?, isTimeChar c = false) →
      readTime (Python.strip line) = .ok none) := by
  have hrow := d.preamble_row line hline
  have hfull := hrow fullTimes (by simp [timePatterns])
  have hsimple : ((simpleTimes1.groups? (Python.strip line)).orElse fun _ =>
      simpleTimes2.groups? (Python.strip line)) = none := by
    rw [hrow simpleTimes1 (by simp [timePatterns]), hrow simpleTimes2 (by simp [timePatterns])]
    rfl
  by_cases hheading : isHeading (Python.strip line) = true
  · refine ⟨fun _ _ c hc => ?_, fun _ => by rw [readTime, if_pos hheading]⟩
    obtain ⟨cs, hcs⟩ : ∃ cs, Python.strip line = c :: cs := by
      cases hstrip : Python.strip line with
      | nil =>
          rw [hstrip] at hc
          cases hc
      | cons first cs =>
          rw [hstrip] at hc
          cases hc
          exact ⟨cs, rfl⟩
    have hfirst : c = 'f' ∨ c = '-' := by
      rw [isHeading, hcs] at hheading
      simp only [reduceCtorEq, decide_false, Bool.false_or, Bool.or_eq_true, List.isPrefixOf_cons_cons,
        Bool.and_eq_true, beq_iff_eq] at hheading
      exact hheading.imp (fun h => h.1.symm) fun h => h.1.symm
    rcases hfirst with rfl | rfl <;> decide
  · have hread : readTime (Python.strip line) =
        if (Python.strip line).head?.any isTimeChar then .error (refuseLine (Python.strip line))
        else .ok none := by
      rw [readTime, if_neg hheading, hfull]
      simp only
      rw [hsimple]
    rw [hread]
    cases hhead : (Python.strip line).head? with
    | none => exact ⟨fun _ _ _ hc => absurd hc (by simp), fun _ => rfl⟩
    | some c =>
        rw [Option.any_some]
        cases hc : isTimeChar c with
        | true =>
            refine ⟨fun _ h => absurd h (by simp), fun h => ?_⟩
            rw [h c rfl] at hc
            cases hc
        | false => exact ⟨fun _ _ _ hmem => Option.some.inj hmem ▸ hc, fun _ => rfl⟩

theorem parsePprofText_eq_lines (d : Listing TimeUnit timePatterns) :
    parsePprofText d.text =
      d.lines.foldlM (fun x line => (readTime (Python.strip line)).map (storeTime x)) {} := by
  have hblank : ∀ x : Dict (List Char) ℚ, (readTime []).map (storeTime x) = pure x := fun _ => rfl
  rw [← d.foldlM_lines (fun x line => (readTime line).map (storeTime x)) hblank, parsePprofText]
  exact congrArg (fun f => List.foldlM f {} _)
    (funext fun samples => funext fun line => timeLine_eq samples line)

/-- Only rows are stored. -/
theorem parsePprofText_eq_rows
    (h : ∀ line ∈ d.preamble, ∀ c ∈ (Python.strip line).head?, isTimeChar c = false) :
    parsePprofText d.text = d.rows.foldlM
      (fun x r => (readTime (Python.strip r.line)).map (storeTime x)) {} := by
  have hpreamble : ∀ x : Dict (List Char) ℚ, d.preamble.foldlM
      (fun x line => (readTime (Python.strip line)).map (storeTime x)) x = .ok x :=
    Text.foldlM_eq_ok_self (fun _ => rfl) fun line hline =>
      (readTime_preamble hline).2 (h line hline)
  rw [parsePprofText_eq_lines, Listing.lines, List.foldlM_append, hpreamble]
  change (d.header :: d.rows.map Row.line).foldlM
    (fun x line => (readTime (Python.strip line)).map (storeTime x)) {} = _
  rw [List.foldlM_cons, readTime_header]
  exact List.foldlM_map ..

/-- Rows of known units are stored under their names. -/
theorem TimesLegible.readsTimes (h : TimesLegible d) : ReadsTimes d := by
  have hread := Text.foldlM_eq_ok storeTime (fun r => some (r.name, r.flat.value))
    (fun r hr => (h.rows r hr).readTime_line) {}
  refine ⟨_, (parsePprofText_eq_rows h.preamble).trans hread, ?_⟩
  have hentries : (d.rows.map fun r => some (r.name, r.flat.value)).foldl storeTime {} =
      (d.rows.map fun r => (r.name, r.flat.value)).foldl (fun x e => x.set e.1 e.2) {} := by
    rw [List.foldl_map, List.foldl_map]
    rfl
  rw [hentries, Dict.foldl_set_entries_of_nodup]
  · exact List.Perm.refl _
  · rw [List.map_map]
    exact d.names

/-- As many names are read as there are rows, so none may be longer than its row's. -/
theorem ReadsTimes.timesLegible (h : ReadsTimes d) : TimesLegible d := by
  obtain ⟨samples, hparse, hperm⟩ := h
  have hlines := hparse
  rw [parsePprofText_eq_lines] at hlines
  have hloaded := Text.exists_of_foldlM_eq_ok hlines
  have hpreamble : ∀ line ∈ d.preamble, ∀ c ∈ (Python.strip line).head?, isTimeChar c = false := by
    intro line hline
    obtain ⟨e, he⟩ := hloaded line (List.mem_append_left _ hline)
    exact (readTime_preamble hline).1 e he
  have hrows : ∀ r ∈ d.rows, ∃ entry : List Char × ℚ,
      readTime (Python.strip r.line) = .ok (some entry) ∧ ReadAs r entry.1 := by
    intro r hr
    obtain ⟨e, he⟩ := hloaded r.line
      (List.mem_append_right _ (List.mem_cons_of_mem _ (List.mem_map_of_mem hr)))
    obtain ⟨key, v, rfl, hread⟩ := readAs_of_readTime he
    exact ⟨(key, v), he, hread⟩
  choose! entry hentry hread using hrows
  rw [parsePprofText_eq_rows hpreamble,
    Text.foldlM_eq_ok storeTime (fun r => some (entry r)) hentry] at hparse
  have hsamples : samples = (d.rows.map entry).foldl (fun x e => x.set e.1 e.2) {} := by
    rw [← Except.ok.inj hparse, List.foldl_map, List.foldl_map]
    rfl
  -- The names of the rows are the names that were read.
  have hkeys : ∀ k ∈ samples.entries.map Prod.fst, k ∈ d.rows.map fun r => (entry r).1 := by
    intro k hk
    obtain ⟨⟨k, v⟩, hmem, rfl⟩ := List.mem_map.mp hk
    have hget := Dict.get?_eq_some_iff.mpr hmem
    rw [hsamples] at hget
    rcases Dict.mem_of_get?_foldl_set hget with hmem | hnil
    · have hfst := List.mem_map_of_mem (f := Prod.fst) hmem
      rwa [List.map_map] at hfst
    · cases hnil
  have hnames : (samples.entries.map Prod.fst).Perm (d.rows.map Row.name) := by
    have hfst := hperm.map Prod.fst
    rwa [List.map_map] at hfst
  have hall : (d.rows.map Row.name).Perm (d.rows.map fun r => (entry r).1) :=
    (List.subperm_of_subset d.names fun k hk => hkeys k (hnames.mem_iff.mpr hk)).perm_of_length_le (by simp)
  have htrimmed : ∀ r ∈ d.rows, r.name ≠ [] ∧ Python.strip r.name = r.name := by
    intro r hr
    obtain ⟨other, hother, hname⟩ := List.mem_map.mp (hall.mem_iff.mp (List.mem_map_of_mem hr))
    rw [← hname]
    exact ⟨(hread other hother).ne, (hread other hother).trimmed⟩
  have hle : ∀ r ∈ d.rows, r.name.length ≤ (entry r).1.length := fun r hr => by
    have hle := (hread r hr).le
    rwa [(htrimmed r hr).2] at hle
  have hsum : (d.rows.map fun r => (entry r).1.length).sum =
      (d.rows.map fun r => r.name.length).sum := by
    have hlengths := (hall.map List.length).sum_eq
    rw [List.map_map, List.map_map] at hlengths
    exact hlengths.symm
  refine ⟨hpreamble, fun r hr => ?_⟩
  have hunits : r.flat.UnitIn knownTimeUnits ∧ r.cum.UnitIn knownTimeUnits := by
    by_contra hnot
    have hlt := (hread r hr).lt hnot
    rw [(htrimmed r hr).2] at hlt
    exact absurd hsum (List.sum_lt_sum _ _ hle ⟨r, hr, hlt⟩).ne'
  exact ⟨hunits.1, hunits.2, (htrimmed r hr).1, (htrimmed r hr).2⟩

/-- A listing of times is read exactly if it is legible. -/
theorem readsTimes_iff (d : Listing TimeUnit timePatterns) : ReadsTimes d ↔ TimesLegible d :=
  ⟨ReadsTimes.timesLegible, TimesLegible.readsTimes⟩

end Listing

end MiniDrop.Pprof
