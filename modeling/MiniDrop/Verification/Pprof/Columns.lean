import MiniDrop.Verification.Pprof.Listing

/-! # Columns

How the patterns read a row, column by column. -/

namespace MiniDrop.Pprof

open Regex (Filled Refuses)

/-! ## Numbers -/

namespace Decimal

variable {n : Decimal}

theorem isTimeChar_of_mem_text {c : Char} (h : c ∈ n.text) : c.isDigit = true ∨ c = '.' := by
  rcases List.mem_append.mp h with hc | hc
  · exact .inl (n.digits c (List.mem_append_left _ hc))
  · cases hfraction : n.fraction with
    | none =>
        rw [hfraction] at hc
        cases hc
    | some ds =>
        rw [hfraction] at hc
        rcases List.mem_cons.mp hc with hc | hc
        · exact .inr hc
        · exact .inl (n.digits c (List.mem_append_right _ (by rw [hfraction]; exact hc)))

theorem filled_text (n : Decimal) : Filled isTimeChar n.text where
  ne := List.append_ne_nil_of_left_ne_nil n.ne _
  all c hc := by
    rcases isTimeChar_of_mem_text hc with hc | rfl
    · rw [isTimeChar, Python.isDecimal_of_isDigit hc, Bool.true_or]
    · rfl

theorem head_text (n : Decimal) : ∀ c ∈ n.text.head?, c.isDigit = true := by
  obtain ⟨c, cs, hwhole⟩ := List.exists_cons_of_ne_nil n.ne
  intro d hd
  have hhead : n.text.head? = some c := by rw [text, hwhole]; rfl
  rw [hhead, Option.mem_some_iff] at hd
  exact hd ▸ n.digits c (List.mem_append_left _ (hwhole ▸ List.mem_cons_self))

theorem scientific?_text (n : Decimal) : Python.scientific? n.text =
    some (Nat.ofDigitChars 10 (n.whole ++ n.fraction.getD []) 0,
      -((n.fraction.getD []).length : ℤ)) := by
  have hdecimal : ∀ ds ⊆ n.whole ++ n.fraction.getD [], ∀ c ∈ ds, Python.isDecimal c = true :=
    fun ds hds c hc => Python.isDecimal_of_isDigit (n.digits c (hds hc))
  have hwhole := hdecimal n.whole (List.subset_append_left _ _)
  have hvalue := Python.digitsNat_of_isDigit n.digits
  cases hfraction : n.fraction with
  | none =>
      rw [hfraction] at hvalue
      rw [text, hfraction, Python.scientific?]
      simp only [Option.map_none, Option.getD_none, List.append_nil] at hvalue ⊢
      rw [List.takeWhile_eq_self_iff.mpr hwhole, List.dropWhile_eq_nil_iff.mpr hwhole]
      dsimp only
      rw [if_neg fun h => n.ne h.1, List.append_nil, hvalue]
      rfl
  | some ds =>
      have hds := hdecimal ds (by rw [hfraction]; exact List.subset_append_right _ _)
      rw [hfraction] at hvalue
      rw [text, hfraction, Python.scientific?]
      simp only [Option.map_some, Option.getD_some] at hvalue ⊢
      have hpoint : ¬Python.isDecimal '.' = true := by decide
      rw [List.takeWhile_append_of_pos hwhole, List.dropWhile_append_of_pos hwhole,
        List.takeWhile_cons_of_neg hpoint, List.dropWhile_cons_of_neg hpoint, List.append_nil]
      change (if n.whole = [] ∧ ds.takeWhile Python.isDecimal = [] then none
        else (Python.exponent? (ds.dropWhile Python.isDecimal)).map fun e =>
          (Python.digitsNat (n.whole ++ ds.takeWhile Python.isDecimal),
            e - ((ds.takeWhile Python.isDecimal).length : ℤ))) = _
      rw [List.takeWhile_eq_self_iff.mpr hds, List.dropWhile_eq_nil_iff.mpr hds,
        if_neg fun h => n.ne h.1, hvalue, Python.exponent?, Option.map_some, zero_sub]

theorem scaled_neg (m k : ℕ) : Python.scaled m (-(k : ℤ)) = m / 10 ^ k := by
  rw [Python.scaled]
  split
  · rw [Int.natAbs_neg, Int.natAbs_natCast]
  · obtain rfl : k = 0 := by omega
    simp

theorem rational?_text (n : Decimal) : Python.rational? n.text = some n.value := by
  have hspace : ∀ c ∈ n.text, Python.isSpace c = false := fun c hc =>
    not_isSpace_of_isTimeChar (n.filled_text.all c hc)
  have hplain : ∀ c ∈ n.text, c ≠ '_' ∧ c ≠ '-' ∧ c ≠ '+' := by
    intro c hc
    have htime := isTimeChar_of_mem_text hc
    refine ⟨?_, ?_, ?_⟩ <;>
      · rintro rfl
        exact absurd htime (by decide)
  have hfilter : n.text.filter (· ≠ '_') = n.text :=
    List.filter_eq_self.mpr fun c hc => decide_eq_true (hplain c hc).1
  have hunsigned : Python.unsignedRational? n.text = some n.value := by
    rw [Python.unsignedRational?, Python.separates_of_notMem fun h => (hplain _ h).1 rfl, if_pos rfl,
      hfilter, scientific?_text, Option.map_some, scaled_neg, value, Nat.ofDigitChars_append,
      Nat.ofDigitChars_eq_ofDigitChars_zero]
    push_cast
    rw [add_div, mul_div_cancel_left₀ _ (pow_ne_zero _ (by norm_num))]
  rw [Python.rational?, Python.strip, Text.trim_eq_self hspace]
  split
  · next heq => exact absurd rfl (hplain '-' (by rw [heq]; exact List.mem_cons_self)).2.1
  · next heq => exact absurd rfl (hplain '+' (by rw [heq]; exact List.mem_cons_self)).2.2
  · exact hunsigned

theorem float_text (n : Decimal) : float n.text = .ok n.value := by
  rw [float, rational?_text]

end Decimal

/-! ## Classes -/

/-- Numbers, units and blanks have no character in common. -/
structure Apart (p : Char → Bool) (words : List (List Char)) : Prop where
  number : ∀ c, p c = true → Python.isSpace c = false
  ne : ∀ w ∈ words, w ≠ []
  word : ∀ w ∈ words, ∀ c ∈ w, Python.isSpace c = false ∧ p c = false

theorem Apart.not_of_isSpace {p : Char → Bool} {words : List (List Char)} (h : Apart p words)
    {c : Char} (hc : Python.isSpace c = true) : p c = false :=
  eq_false_of_ne_true fun hp => by
    rw [h.number c hp] at hc
    cases hc

theorem apart_times : Apart isTimeChar timeUnits where
  number _ := not_isSpace_of_isTimeChar
  ne := by decide
  word w hw c hc := by
    have h : ∀ w ∈ timeUnits, w.all (fun c => !Python.isSpace c && !isTimeChar c) = true :=
      List.all_eq_true.mp rfl
    simpa using List.all_eq_true.mp (h w hw) c hc

theorem apart_sizes : Apart isSizeChar sizeUnits where
  number c hc := by
    rw [isSizeChar, Bool.or_eq_true, decide_eq_true_eq] at hc
    rcases hc with hc | rfl
    · exact not_isSpace_of_isTimeChar hc
    · rfl
  ne := by decide
  word w hw c hc := by
    have h : ∀ w ∈ sizeUnits, w.all (fun c => !Python.isSpace c && !isSizeChar c) = true :=
      List.all_eq_true.mp rfl
    simpa using List.all_eq_true.mp (h w hw) c hc

theorem filled_blanks (n : ℕ) : Filled Python.isSpace (blanks n) where
  ne := List.cons_ne_nil _ _
  all c hc := by rw [List.eq_of_mem_replicate hc]; rfl

/-! ## Reading a column -/

section Columns

variable {α : Type} {p : Char → Bool} {words : List (List Char)} {groups : List (List Char)}
  {number unit gap s : List Char} {k : List (List Char) → List Char → Option α}

theorem run_blanks (hgap : Filled Python.isSpace gap) (hs : ∀ c ∈ s.head?, Python.isSpace c = false)
    (hk : Refuses Python.isSpace k) :
    (Regex.plus Python.isSpace).run groups (gap ++ s) k = k groups s :=
  Regex.run_plus hgap hs fun c s hc => hk groups c s hc

theorem head_append_of_filled (hnumber : Filled p number)
    (h : ∀ c, p c = true → Python.isSpace c = false) (s : List Char) :
    ∀ c ∈ (number ++ s).head?, Python.isSpace c = false := by
  intro c hc
  rw [List.head?_append_of_ne_nil _ hnumber.ne] at hc
  exact h c (hnumber.all c (List.mem_of_mem_head? hc))

/-- An amount, where `r` reads the unit under a condition. -/
theorem Apart.run_amount_of (h : Apart p words) {r : Regex} {Q : Prop} [Decidable Q]
    (hr : ∀ (groups : List (List Char)) (c : Char) (s : List Char)
      (k : List (List Char) → List Char → Option α), Python.isSpace c = true →
        Refuses (fun c => !Python.isSpace c) k → (Regex.group r).run groups (unit ++ c :: s) k =
          if Q then k (groups ++ [unit]) (c :: s) else none)
    (hrefuses : Refuses p fun groups s =>
      (Regex.cat [.group r, .plus Python.isSpace]).run groups s k)
    (hnumber : Filled p number) (hunit : ∀ c ∈ unit, Python.isSpace c = false ∧ p c = false)
    (hgap : Filled Python.isSpace gap) (hs : ∀ c ∈ s.head?, Python.isSpace c = false)
    (hk : Refuses Python.isSpace k) :
    (Regex.cat [.group (.plus p), .group r, .plus Python.isSpace]).run groups
        (number ++ (unit ++ (gap ++ s))) k =
      if Q then k (groups ++ [number, unit]) s else none := by
  obtain ⟨blank, gap, rfl⟩ := List.exists_cons_of_ne_nil hgap.ne
  have hblank := hgap.all blank List.mem_cons_self
  have hhead : ∀ c ∈ (unit ++ (blank :: gap ++ s)).head?, p c = false := by
    intro c hc
    cases unit with
    | nil =>
        obtain rfl : blank = c := by simpa using hc
        exact h.not_of_isSpace hblank
    | cons d unit =>
        obtain rfl : d = c := by simpa using hc
        exact (hunit d List.mem_cons_self).2
  refine (Regex.run_group_plus hnumber hhead hrefuses).trans ?_
  refine (hr _ _ _ _ hblank (Regex.refuses_plus fun c hc => by simpa using hc)).trans ?_
  split
  · rw [List.append_assoc]
    exact run_blanks hgap hs hk
  · rfl

theorem Apart.head_word (h : Apart p words) :
    ∀ w ∈ words, w ≠ [] ∧ ∀ c ∈ w.head?, p c = false :=
  fun w hw => ⟨h.ne w hw, fun c hc => (h.word w hw c (List.mem_of_mem_head? hc)).2⟩

/-- An amount with a unit of the pattern, or without a unit. -/
theorem Apart.run_amount (h : Apart p words) (hnumber : Filled p number)
    (hunit : ∀ c ∈ unit, Python.isSpace c = false ∧ p c = false) (hgap : Filled Python.isSpace gap)
    (hs : ∀ c ∈ s.head?, Python.isSpace c = false) (hk : Refuses Python.isSpace k) :
    (Regex.cat [.group (.plus p), .group (.opt (.oneOf words)), .plus Python.isSpace]).run groups
        (number ++ (unit ++ (gap ++ s))) k =
      if unit = [] ∨ unit ∈ words then k (groups ++ [number, unit]) s else none :=
  h.run_amount_of (fun _ _ s _ hc hk => Regex.run_group_opt_oneOf (fun c hc => (hunit c hc).1) hc
      (fun w hw c hc => (h.word w hw c hc).1) hk s)
    (Regex.refuses_group_opt_oneOf h.head_word (Regex.refuses_plus h.number)) hnumber hunit hgap hs hk

/-- An amount whose unit has to be there. -/
theorem Apart.run_amount_unit (h : Apart p words) (hnumber : Filled p number)
    (hunit : ∀ c ∈ unit, Python.isSpace c = false ∧ p c = false) (hgap : Filled Python.isSpace gap)
    (hs : ∀ c ∈ s.head?, Python.isSpace c = false) (hk : Refuses Python.isSpace k) :
    (Regex.cat [.group (.plus p), .group (.oneOf words), .plus Python.isSpace]).run groups
        (number ++ (unit ++ (gap ++ s))) k =
      if unit ∈ words then k (groups ++ [number, unit]) s else none :=
  h.run_amount_of (fun _ _ s _ hc hk => Regex.run_group_oneOf (fun c hc => (hunit c hc).1) hc
      (fun w hw c hc => (h.word w hw c hc).1) hk s)
    (Regex.refuses_group_oneOf
      (k := fun groups s => (Regex.cat [.plus Python.isSpace]).run groups s k) h.head_word)
    hnumber hunit hgap hs hk

/-! ## Percentages and names -/

theorem refuses_percent (parts : List Regex) : Refuses isTimeChar fun groups s =>
    (Regex.cat (.char '%' :: parts)).run groups s k := by
  intro groups c s hc
  have hne : c ≠ '%' := by
    rintro rfl
    cases hc
  change (Regex.cat (.char '%' :: parts)).run groups (c :: s) k = none
  rw [Regex.run_cat_cons, Regex.run_char_of_ne hne]

theorem run_percentage (n : Decimal) (parts : List Regex) (t : List Char) :
    (Regex.cat (percentage :: parts)).run groups (n.text ++ '%' :: t) k =
      (Regex.plus Python.isSpace).run groups t fun groups s => (Regex.cat parts).run groups s k := by
  refine (Regex.run_plus n.filled_text ?_ fun c s hc => refuses_percent _ groups c s hc).trans ?_
  · rintro c ⟨⟩
    rfl
  · change (Regex.cat [.char '%', .plus Python.isSpace]).run groups ('%' :: t)
      (fun groups s => (Regex.cat parts).run groups s k) = _
    rw [Regex.run_cat_cons, Regex.run_char]
    rfl

theorem run_percentageGroup (n : Decimal) (parts : List Regex) (t : List Char) :
    (Regex.cat (percentageGroup :: parts)).run groups (n.text ++ '%' :: t) k =
      (Regex.plus Python.isSpace).run (groups ++ [n.text]) t
        fun groups s => (Regex.cat parts).run groups s k := by
  refine (Regex.run_group_plus n.filled_text ?_ (refuses_percent [.plus Python.isSpace])).trans ?_
  · rintro c ⟨⟩
    rfl
  · rw [Regex.run_cat_cons, Regex.run_char]
    rfl

theorem refuses_percentage (parts : List Regex) : Refuses Python.isSpace fun groups s =>
    (Regex.cat (percentage :: parts)).run groups s k :=
  fun _ _ _ hc => Regex.run_plus_of_neg (apart_times.not_of_isSpace hc)

theorem refuses_percentageGroup (parts : List Regex) : Refuses Python.isSpace fun groups s =>
    (Regex.cat (percentageGroup :: parts)).run groups s k :=
  fun _ _ _ hc => Regex.run_plus_of_neg (apart_times.not_of_isSpace hc)

/-- The rest of the line is the name, where it is not empty. -/
theorem run_remainder (hgap : Filled Python.isSpace gap) (hne : s ≠ [])
    (hs : ∀ c ∈ s.head?, Python.isSpace c = false) (hclear : '\n' ∉ s) :
    ((Regex.plus Python.isSpace).run groups (gap ++ s) fun groups s =>
      (Regex.cat [remainder]).run groups s fun groups _ => some groups) = some (groups ++ [s]) :=
  Regex.run_plus_of_some hgap hs (Regex.run_group_plus_atEnd hne fun _ hc =>
    decide_eq_true fun heq => hclear (heq ▸ hc))

end Columns

/-! ## Lines -/

section Lines

variable {U : Type} [PrintedUnit U]

theorem isLetter_bounds {c : Char} (h : isLetter c = true) :
    97 ≤ c.toNat ∧ c.toNat ≤ 122 ∨ 65 ≤ c.toNat ∧ c.toNat ≤ 90 := by
  simp only [isLetter, Bool.or_eq_true, Bool.and_eq_true, decide_eq_true_eq] at h
  exact h

theorem not_isSpace_of_isLetter {c : Char} (h : isLetter c = true) : Python.isSpace c = false := by
  have hbounds := isLetter_bounds h
  simp only [Python.isSpace, isCommonSpace, Bool.or_eq_false_iff, decide_eq_false_iff_not,
    List.mem_cons, List.not_mem_nil, or_false]
  omega

theorem not_isSizeChar_of_isLetter {c : Char} (h : isLetter c = true) : isSizeChar c = false := by
  have hbounds := isLetter_bounds h
  have hzeros : ∀ base ∈ Python.zeros, base = 0x30 ∨ 0x660 ≤ base := by decide
  have hdecimal : Python.isDecimal c = false := by
    rw [Python.isDecimal, Python.digit?, Option.isSome_map, Option.isSome_eq_false_iff,
      Option.isNone_iff_eq_none, List.find?_eq_none]
    intro base hbase
    have hrange := hzeros base hbase
    rw [decide_eq_true_eq]
    omega
  have hne : c ≠ '.' ∧ c ≠ ',' := by
    constructor <;>
      · rintro rfl
        exact absurd hbounds (by decide)
  simp [isSizeChar, isTimeChar, hdecimal, hne]

namespace Amount

theorem isLetter_of_mem_unitText {a : Amount U} : ∀ c ∈ a.unitText, isLetter c = true := by
  cases a with
  | zero => exact fun c hc => absurd hc List.not_mem_nil
  | of number unit => exact List.all_eq_true.mp (PrintedUnit.letters unit)

end Amount

theorem head_text_append (n : Decimal) (t : List Char) :
    ∀ c ∈ (n.text ++ t).head?, Python.isSpace c = false :=
  head_append_of_filled n.filled_text (fun _ => not_isSpace_of_isTimeChar) t

theorem head_back (r : Row U) (rest : List Char) :
    ∀ c ∈ (r.back rest).head?, Python.isSpace c = false := by
  rw [Row.back, Amount.text, List.append_assoc]
  exact head_text_append _ _

namespace Row

variable {r : Row U}

/-- The columns end with a sign. -/
theorem exists_front_eq (r : Row U) : ∃ columns, (∀ rest, r.front rest = columns ++ '%' :: rest) ∧
    ∀ c ∈ columns.head?, c.isDigit = true := by
  refine ⟨r.flat.text ++ (blanks (r.gap 0) ++ (r.flatPercent.text ++ '%' :: (blanks (r.gap 1) ++
    (r.sumPercent.text ++ '%' :: (blanks (r.gap 2) ++ (r.cum.text ++ (blanks (r.gap 3) ++
      r.cumPercent.text))))))), fun rest => by simp [front, back], ?_⟩
  rw [Amount.text, List.append_assoc, List.head?_append_of_ne_nil _ r.flat.number.filled_text.ne]
  exact r.flat.number.head_text

theorem strip_line_eq (r : Row U) :
    Python.strip r.line = r.front ((blanks (r.gap 4) ++ r.name).rdropWhile Python.isSpace) := by
  obtain ⟨columns, hfront, hhead⟩ := r.exists_front_eq
  have hindent : ∀ c ∈ List.replicate r.indent ' ', Python.isSpace c = true := fun c hc => by
    rw [List.eq_of_mem_replicate hc]
    rfl
  have hcolumns : columns.dropWhile Python.isSpace = columns := by
    cases columns with
    | nil => rfl
    | cons c columns =>
        refine List.dropWhile_cons_of_neg ?_
        rw [Python.not_isSpace_of_isDigit (.inl (hhead c rfl))]
        exact Bool.false_ne_true
  rw [line, hfront, ← List.append_assoc, Python.strip, Text.trim_append_cons Python.isSpace rfl,
    List.dropWhile_append_of_pos hindent, hcolumns, hfront]

/-- A line without the white space at its ends: the name loses it as well, and the columns end the
line where nothing is left of the name. -/
theorem strip_line (r : Row U) :
    Python.strip r.name = [] ∧ Python.strip r.line = r.front [] ∨
      Python.strip r.name ≠ [] ∧ ∃ gap, Filled Python.isSpace gap ∧
        Python.strip r.line = r.front (gap ++ Python.strip r.name) := by
  rw [strip_line_eq]
  by_cases hname : Python.strip r.name = []
  · refine .inl ⟨hname, ?_⟩
    rw [List.rdropWhile_eq_nil_iff.mpr fun c hc => ?_]
    rcases List.mem_append.mp hc with hc | hc
    · exact (filled_blanks _).all c hc
    · exact Python.strip_eq_nil_iff.mp hname c hc
  · refine .inr ⟨hname, blanks (r.gap 4) ++ r.name.takeWhile Python.isSpace, ⟨by simp [blanks], ?_⟩, ?_⟩
    · intro c hc
      rcases List.mem_append.mp hc with hc | hc
      · exact (filled_blanks _).all c hc
      · exact List.mem_takeWhile_imp hc
    · have hparts := r.name.takeWhile_append_dropWhile (p := Python.isSpace)
      conv_lhs => rw [← hparts, ← List.append_assoc]
      rw [Text.rdropWhile_append_of_ne_nil hname]
      rfl

/-- Rows begin with a digit. -/
theorem exists_front_cons (r : Row U) (rest : List Char) :
    ∃ c cs, r.front rest = c :: cs ∧ c.isDigit = true := by
  obtain ⟨c, cs, hnumber⟩ := List.exists_cons_of_ne_nil r.flat.number.filled_text.ne
  have hdigit := r.flat.number.head_text c (by rw [hnumber]; rfl)
  rw [front, Amount.text, List.append_assoc, hnumber, List.cons_append]
  exact ⟨c, _, rfl, hdigit⟩

theorem isHeading_front (r : Row U) (rest : List Char) : isHeading (r.front rest) = false := by
  obtain ⟨c, cs, hfront, hdigit⟩ := r.exists_front_cons rest
  have hne : c ≠ 'f' ∧ c ≠ '-' := by
    constructor <;>
      · rintro rfl
        exact absurd hdigit (by decide)
  rw [hfront]
  simp [isHeading, List.isPrefixOf, Ne.symm hne.1, Ne.symm hne.2]

theorem newline_notMem_line (r : Row U) : '\n' ∉ r.line := by
  have hnumber : ∀ n : Decimal, '\n' ∉ n.text := fun n h =>
    absurd (Decimal.isTimeChar_of_mem_text h) (by decide)
  have hamount : ∀ a : Amount U, '\n' ∉ a.text := fun a h =>
    (List.mem_append.mp h).elim (hnumber _) fun h =>
      absurd (Amount.isLetter_of_mem_unitText _ h) (by decide)
  have hblanks : ∀ n, '\n' ∉ blanks n := fun n h => absurd (List.eq_of_mem_replicate h) (by decide)
  simp [line, front, back, hnumber, hamount, hblanks, r.clear]

end Row

/-- A listing is read line by line, by a loop that passes blank lines. -/
theorem Listing.foldlM_lines {patterns : List Regex} {σ : Type} {m : Type → Type} [Monad m]
    [LawfulMonad m] (d : Listing U patterns) (body : σ → List Char → m σ)
    (hblank : ∀ x, body x [] = pure x) (x : σ) :
    ((Python.strip d.text).splitOn '\n').foldlM (fun x line => body x (Python.strip line)) x =
      d.lines.foldlM (fun x line => body x (Python.strip line)) x := by
  have hclear : ∀ line ∈ d.lines, '\n' ∉ line := by
    intro line hline
    rcases List.mem_append.mp hline with h | h
    · exact d.preamble_clear line h
    · rcases List.mem_cons.mp h with rfl | h
      · exact d.header_clear
      · obtain ⟨r, -, rfl⟩ := List.mem_map.mp h
        exact r.newline_notMem_line
  have hend : ∀ x : σ, [[]].foldlM (fun x line => body x (Python.strip line)) x = pure x := by
    intro x
    rw [List.foldlM_cons, Python.strip, Text.trim_nil, hblank, pure_bind, List.foldlM_nil]
  rw [Python.foldlM_strip hblank, text, Text.splitOn_flatMap_concat hclear, List.foldlM_append]
  simp only [hend, bind_pure]

end Lines

end MiniDrop.Pprof
