import MiniDrop.Library.Lines
import MiniDrop.Verification.Perf.Samples

/-! # Frames

How the line of a frame is read: the symbol is up to the first parenthesis that is closed at the
end. -/

namespace MiniDrop

open Regex (Filled)

/-! ## Parentheses at the end -/

/-- The end of a line, or white space and a parenthesis up to there. -/
def Closes (s : List Char) : Prop :=
  s = [] ∨ ∃ blanks inside, s = blanks ++ '(' :: (inside ++ [')']) ∧ Filled Python.isSpace blanks

section Closing

variable {groups groups' : List (List Char)} {s t u : List Char} {c : Char}

theorem takes_closingPattern (hclear : '\n' ∉ s) :
    (∃ t, closingPattern.Takes groups s groups' t) ↔ groups' = groups ∧ Closes s := by
  have hdot : ∀ u : List Char, '\n' ∉ u → ∀ c ∈ u, Regex.dot c = true := fun u hu c hc =>
    decide_eq_true fun heq => hu (heq ▸ hc)
  have hend : ∀ u : List Char, '\n' ∉ u → (u = [] ∨ u = ['\n'] ↔ u = []) := fun u hu =>
    or_iff_left fun heq => hu (heq ▸ List.mem_singleton_self _)
  constructor
  · rintro ⟨t, _, m, hopt, _, m', ⟨rfl, rfl, hm⟩, rfl, rfl⟩
    rcases hopt with ⟨_, m₁, hblanks, _, m₂, hopen, _, m₃, ⟨rfl, inside, rfl, -⟩, _, m₄, hclose, rfl,
      rfl⟩ | ⟨rfl, rfl⟩
    · obtain ⟨rfl, blanks, hfilled, rfl⟩ := Regex.takes_plus.mp hblanks
      obtain ⟨rfl, rfl⟩ := Regex.takes_char.mp hopen
      obtain ⟨rfl, rfl⟩ := Regex.takes_char.mp hclose
      obtain rfl := (hend _ (by simp_all)).mp hm
      exact ⟨rfl, .inr ⟨blanks, inside, rfl, hfilled⟩⟩
    · exact ⟨rfl, .inl ((hend _ hclear).mp hm)⟩
  · rintro ⟨rfl, rfl | ⟨blanks, inside, rfl, hfilled⟩⟩
    · exact ⟨[], _, [], .inr ⟨rfl, rfl⟩, _, [], ⟨rfl, rfl, .inl rfl⟩, rfl, rfl⟩
    · refine ⟨[], _, [], .inl ⟨_, _, Regex.takes_plus.mpr ⟨rfl, blanks, hfilled, rfl⟩, _, _,
        Regex.takes_char.mpr ⟨rfl, rfl⟩, _, [')'], ⟨rfl, inside, rfl, hdot inside ?_⟩, _, _,
        Regex.takes_char.mpr ⟨rfl, rfl⟩, rfl, rfl⟩, _, [], ⟨rfl, rfl, .inl rfl⟩, rfl, rfl⟩
      simp_all

theorem Closes.isSpace_head (h : Closes (c :: s)) : Python.isSpace c = true := by
  rcases h with h | ⟨blanks, inside, heq, hblanks⟩
  · cases h
  · obtain ⟨d, blanks, rfl⟩ := List.exists_cons_of_ne_nil hblanks.ne
    obtain ⟨rfl, -⟩ := List.cons.inj heq
    exact hblanks.all c List.mem_cons_self

end Closing

/-! ## The pattern -/

section Pattern

variable {indent addr gap body : List Char} {c : Char}

theorem isLowerHex_bounds {c : Char} (h : isLowerHex c = true) :
    48 ≤ c.toNat ∧ c.toNat ≤ 57 ∨ 97 ≤ c.toNat ∧ c.toNat ≤ 102 := by
  rw [isLowerHex, Bool.or_eq_true, Bool.and_eq_true, decide_eq_true_eq, decide_eq_true_eq] at h
  rcases h with h | ⟨hlow, hhigh⟩
  · exact .inl (isDigit_bounds h)
  · exact .inr ⟨hlow, hhigh⟩

theorem not_isSpace_of_isLowerHex {c : Char} (h : isLowerHex c = true) :
    Python.isSpace c = false := by
  have hbounds := isLowerHex_bounds h
  simp only [Python.isSpace, isCommonSpace, Bool.or_eq_false_iff, decide_eq_false_iff_not,
    List.mem_cons, List.not_mem_nil, or_false]
  omega

theorem not_isLowerHex_of_isSpace {c : Char} (h : Python.isSpace c = true) :
    isLowerHex c = false := by
  by_contra hhex
  rw [not_isSpace_of_isLowerHex (eq_true_of_ne_false hhex)] at h
  cases h

/-- The line of a frame: what is taken of it is up to where it closes first. -/
theorem exists_groups?_framePattern (hindent : Filled Python.isSpace indent)
    (haddr : Filled isLowerHex addr) (hgap : Filled Python.isSpace gap)
    (hc : Python.isSpace c = false) (hclear : '\n' ∉ c :: body) :
    ∃ u t, body = u ++ t ∧ Closes t ∧ (∀ v w, u = v ++ w → w ≠ [] → ¬Closes (w ++ t)) ∧
      framePattern.groups? (indent ++ (addr ++ (gap ++ c :: body))) = some [c :: u] := by
  obtain ⟨u, t, rfl, hcloses, hfirst, hrun⟩ := Regex.exists_run_group (r := closingPattern)
    (Q := Closes) (fun _ _ _ => takes_closingPattern) (.inl rfl) hclear []
  refine ⟨u, t, rfl, hcloses, hfirst, ?_⟩
  have hhex : ∀ d ∈ (addr ++ (gap ++ c :: (u ++ t))).head?, Python.isSpace d = false := by
    intro d hd
    rw [List.head?_append_of_ne_nil _ haddr.ne] at hd
    exact not_isSpace_of_isLowerHex (haddr.all d (List.mem_of_mem_head? hd))
  have hspace : ∀ d ∈ (gap ++ c :: (u ++ t)).head?, isLowerHex d = false := by
    intro d hd
    rw [List.head?_append_of_ne_nil _ hgap.ne] at hd
    exact not_isLowerHex_of_isSpace (hgap.all d (List.mem_of_mem_head? hd))
  have hsymbol : (Regex.cat [.plus Python.isSpace, .group (.plusFew Regex.dot),
      closingPattern]).run [] (gap ++ c :: (u ++ t)) (fun groups _ => some groups) =
        some [c :: u] := by
    rw [Regex.run_cat_cons]
    refine Regex.run_plus_of_some hgap (fun d hd => ?_) hrun
    rw [List.head?_cons, Option.mem_some_iff] at hd
    rwa [← hd]
  rw [Regex.groups?, framePattern, Regex.run_cat_cons, Regex.run_plus hindent hhex,
    Regex.run_cat_cons, Regex.run_plus haddr hspace]
  · exact hsymbol
  · intro d s hd
    rw [Regex.run_cat_cons, Regex.run_plus_of_neg (not_isSpace_of_isLowerHex hd)]
  · intro d s hd
    rw [Regex.run_cat_cons, Regex.run_plus_of_neg (not_isLowerHex_of_isSpace hd)]

end Pattern

/-! ## Offsets -/

def IsOffset (s : List Char) : Prop := ∃ digits, s = '+' :: '0' :: 'x' :: digits ∧ Filled isHex digits

section Offset

variable {groups groups' : List (List Char)} {s t : List Char} {c : Char}

theorem takes_offsetPattern (hclear : '\n' ∉ s) :
    offsetPattern.Takes groups s groups' t ↔ groups' = groups ∧ t = [] ∧ IsOffset s := by
  constructor
  · rintro ⟨_, _, hplus, _, _, hzero, _, _, hx, _, _, hdigits, _, _, ⟨rfl, rfl, hend⟩, rfl, rfl⟩
    obtain ⟨rfl, rfl⟩ := Regex.takes_char.mp hplus
    obtain ⟨rfl, rfl⟩ := Regex.takes_char.mp hzero
    obtain ⟨rfl, rfl⟩ := Regex.takes_char.mp hx
    obtain ⟨rfl, digits, hfilled, rfl⟩ := Regex.takes_plus.mp hdigits
    obtain rfl : t = [] := hend.resolve_right fun heq => hclear (by simp [heq])
    exact ⟨rfl, rfl, digits, by rw [List.append_nil], hfilled⟩
  · rintro ⟨rfl, rfl, digits, rfl, hfilled⟩
    exact ⟨_, _, Regex.takes_char.mpr ⟨rfl, rfl⟩, _, _, Regex.takes_char.mpr ⟨rfl, rfl⟩, _, _,
      Regex.takes_char.mpr ⟨rfl, rfl⟩, _, [], Regex.takes_plus.mpr
        ⟨rfl, digits, hfilled, (List.append_nil _).symm⟩, _, [], ⟨rfl, rfl, .inl rfl⟩, rfl, rfl⟩

theorem matchLength?_offsetPattern (hclear : '\n' ∉ s) (h : IsOffset s) :
    offsetPattern.matchLength? s = some s.length := by
  obtain ⟨n, hn⟩ := Option.isSome_iff_exists.mp
    (((@takes_offsetPattern [] [] s [] hclear).mpr ⟨rfl, rfl, h⟩).run_isSome
      (k := fun _ t => some (s.length - t.length)) rfl)
  obtain ⟨groups', t, htakes, heq⟩ := Regex.of_run_eq_some hn
  obtain ⟨-, rfl, -⟩ := (takes_offsetPattern hclear).mp htakes
  exact hn.trans heq.symm

theorem matchLength?_offsetPattern_eq_none (hclear : '\n' ∉ s) (h : ¬IsOffset s) :
    offsetPattern.matchLength? s = none := by
  rw [Option.eq_none_iff_forall_ne_some]
  intro n hn
  obtain ⟨groups', t, htakes, -⟩ := Regex.of_run_eq_some hn
  exact h ((takes_offsetPattern hclear).mp htakes).2.2

theorem remove_offset (hclear : '\n' ∉ s) (h : IsOffset s) : offsetPattern.remove 0 s = [] := by
  have hlength := matchLength?_offsetPattern hclear h
  obtain ⟨digits, rfl, -⟩ := h
  rw [Regex.remove, hlength]
  exact Regex.remove_of_length_le (Nat.le_refl _)

theorem remove_cons (hclear : '\n' ∉ c :: s) (h : ¬IsOffset (c :: s)) :
    offsetPattern.remove 0 (c :: s) = c :: offsetPattern.remove 0 s := by
  rw [Regex.remove, matchLength?_offsetPattern_eq_none hclear h]

/-- Nothing but the end is removed. -/
theorem remove_isPrefix (hclear : '\n' ∉ s) : offsetPattern.remove 0 s <+: s := by
  induction s with
  | nil => exact List.prefix_rfl
  | cons c s ih =>
      by_cases h : IsOffset (c :: s)
      · rw [remove_offset hclear h]
        exact List.nil_prefix
      · rw [remove_cons hclear h, List.prefix_cons_inj]
        exact ih fun hmem => hclear (List.mem_cons_of_mem c hmem)

theorem remove_of_forall (hclear : '\n' ∉ s) (h : ∀ a b, s = a ++ b → ¬IsOffset b) :
    offsetPattern.remove 0 s = s := by
  induction s with
  | nil => rfl
  | cons c s ih =>
      rw [remove_cons hclear (h [] (c :: s) rfl)]
      refine congrArg (c :: ·) (ih (fun hmem => hclear (List.mem_cons_of_mem c hmem)) ?_)
      exact fun a b hab => h (c :: a) b (by rw [hab, List.cons_append])

/-- The first offset at the end is removed. -/
theorem remove_append {u : List Char} (hclear : '\n' ∉ u ++ s) (h : IsOffset s)
    (hfirst : ∀ a b, u = a ++ b → b ≠ [] → ¬IsOffset (b ++ s)) :
    offsetPattern.remove 0 (u ++ s) = u := by
  induction u with
  | nil => exact remove_offset hclear h
  | cons c u ih =>
      rw [List.cons_append] at hclear ⊢
      rw [remove_cons hclear (hfirst [] (c :: u) rfl (by simp))]
      refine congrArg (c :: ·) (ih (fun hmem => hclear (List.mem_cons_of_mem c hmem)) ?_)
      exact fun a b hab hb => hfirst (c :: a) b (by rw [hab, List.cons_append]) hb

theorem length_remove_append_le {u : List Char} (hclear : '\n' ∉ u ++ s) (h : IsOffset s) :
    (offsetPattern.remove 0 (u ++ s)).length ≤ u.length := by
  induction u with
  | nil =>
      rw [List.nil_append] at hclear ⊢
      rw [remove_offset hclear h]
  | cons c u ih =>
      rw [List.cons_append] at hclear ⊢
      by_cases hc : IsOffset (c :: (u ++ s))
      · rw [remove_offset hclear hc]
        exact Nat.zero_le _
      · rw [remove_cons hclear hc, List.length_cons, List.length_cons]
        exact Nat.succ_le_succ (ih fun hmem => hclear (List.mem_cons_of_mem c hmem))

/-- An offset has one sign. -/
theorem not_isOffset_append (h : IsOffset s) {b : List Char} (hb : b ≠ []) : ¬IsOffset (b ++ s) := by
  rintro ⟨digits, heq, hfilled⟩
  obtain ⟨digits', rfl, -⟩ := h
  obtain ⟨d, b, rfl⟩ := List.exists_cons_of_ne_nil hb
  rw [List.cons_append, List.cons.injEq] at heq
  have hsign : '+' ∈ '0' :: 'x' :: digits := by
    rw [← heq.2]
    exact List.mem_append_right b List.mem_cons_self
  simp only [List.mem_cons] at hsign
  rcases hsign with hzero | hx | hmem
  · exact absurd hzero (by decide)
  · exact absurd hx (by decide)
  · exact absurd (hfilled.all _ hmem) (by decide)

end Offset

/-! ## Reading a frame -/

namespace PerfFrame

/-- The symbol is read as it stands. -/
structure Legible (f : PerfFrame) : Prop where
  ne : f.symbol ≠ []
  first : ∀ c ∈ f.symbol.head?, Python.isSpace c = false
  /-- Nothing in it closes the line. -/
  uncut : ∀ a b, f.symbol = a ++ b → a ≠ [] → b ≠ [] → ¬Closes (b ++ f.ending)
  last : f.place = none → ∀ c ∈ f.symbol.getLast?, Python.isSpace c = false
  bare : f.place = none → ∀ a b, f.symbol = a ++ b → ¬IsOffset b

end PerfFrame

/-- What a line has left of the symbol. -/
def PerfFrame.core (f : PerfFrame) : List Char :=
  match f.place with
  | none => Python.strip f.symbol
  | some _ => f.symbol.dropWhile Python.isSpace

section Core

variable {layout : PerfLayout} {f : PerfFrame} {func u t : List Char} {c : Char}

theorem PerfFrame.core_sublist (f : PerfFrame) : f.core.Sublist f.symbol := by
  rw [PerfFrame.core]
  split
  · exact Text.trim_sublist _ _
  · exact List.dropWhile_sublist _

theorem head_dropWhile_not_isSpace (s : List Char) :
    ∀ c ∈ (s.dropWhile Python.isSpace).head?, Python.isSpace c = false := by
  intro c hc
  have hnot := List.head?_dropWhile_not Python.isSpace s
  rw [Option.mem_def.mp hc] at hnot
  simpa using hnot

theorem PerfFrame.head_core (f : PerfFrame) : ∀ c ∈ f.core.head?, Python.isSpace c = false := by
  intro c hc
  rw [PerfFrame.core] at hc
  split at hc
  · refine head_dropWhile_not_isSpace f.symbol c ?_
    have hprefix : Python.strip f.symbol <+: f.symbol.dropWhile Python.isSpace :=
      List.rdropWhile_prefix _ _
    obtain ⟨rest, hrest⟩ := hprefix
    rw [← hrest, List.head?_append, Option.mem_def.mp hc]
    rfl
  · exact head_dropWhile_not_isSpace f.symbol c hc

theorem PerfFrame.closes_closing (f : PerfFrame) : Closes f.closing := by
  rw [PerfFrame.closing]
  split
  · exact .inl rfl
  · exact .inr ⟨[' '], _, rfl, List.cons_ne_nil _ _, by simp; decide⟩

theorem PerfFrame.not_isSpace_offset (f : PerfFrame) :
    ∀ c ∈ f.offset, Python.isSpace c = false := by
  intro c hc
  rw [PerfFrame.offset] at hc
  split at hc
  · simp at hc
  · next offset _ _ =>
    simp only [List.mem_cons] at hc
    rcases hc with rfl | rfl | rfl | hc
    · decide
    · decide
    · decide
    · exact not_isSpace_of_isLowerHex (offset.filled.all c hc)

theorem Closes.not_isSpace_head (h : Closes (u ++ t)) (hu : u ≠ []) :
    ∃ c ∈ u, Python.isSpace c = true := by
  obtain ⟨c, u, rfl⟩ := List.exists_cons_of_ne_nil hu
  exact ⟨c, List.mem_cons_self, h.isSpace_head⟩

/-- The line is cut behind the offset, or within the symbol. -/
theorem PerfFrame.cut_cases (h : f.core ++ f.ending = (c :: u) ++ t) (hcloses : Closes t)
    (hfirst : ∀ v w, u = v ++ w → w ≠ [] → ¬Closes (w ++ t)) (hne : f.core ++ f.offset ≠ []) :
    c :: u = f.core ++ f.offset ∧ t = f.closing ∨
      ∃ b, b ≠ [] ∧ f.core = (c :: u) ++ b ∧ t = b ++ f.ending := by
  rw [PerfFrame.ending, ← List.append_assoc] at h
  rcases List.append_eq_append_iff.mp h with ⟨b, hb, hclosing⟩ | ⟨b, hb, ht⟩
  · by_cases hnil : b = []
    · rw [hnil, List.append_nil] at hb
      rw [hnil, List.nil_append] at hclosing
      exact .inl ⟨hb, hclosing.symm⟩
    · obtain ⟨d, rest, hrest⟩ := List.exists_cons_of_ne_nil hne
      rw [hrest, List.cons_append, List.cons.injEq] at hb
      refine absurd ?_ (hfirst rest b hb.2 hnil)
      rw [← hclosing]
      exact f.closes_closing
  · by_cases hnil : b = []
    · rw [hnil, List.append_nil] at hb
      rw [hnil, List.nil_append] at ht
      exact .inl ⟨hb.symm, ht⟩
    · rcases List.append_eq_append_iff.mp hb with ⟨a, ha, hoffset⟩ | ⟨a, ha, hbeq⟩
      · obtain ⟨d, hd, hspace⟩ := Closes.not_isSpace_head (ht ▸ hcloses) hnil
        rw [f.not_isSpace_offset d (hoffset ▸ List.mem_append_right a hd)] at hspace
        cases hspace
      · by_cases hanil : a = []
        · rw [hanil, List.nil_append] at hbeq
          obtain ⟨d, hd, hspace⟩ := Closes.not_isSpace_head (ht ▸ hcloses) hnil
          rw [f.not_isSpace_offset d (hbeq ▸ hd)] at hspace
          cases hspace
        · exact .inr ⟨a, hanil, ha, by rw [ht, hbeq, PerfFrame.ending, List.append_assoc]⟩

end Core

section Reading

variable {layout : PerfLayout} {f : PerfFrame} {func body : List Char} {c : Char}

/-- What is left of the line of a frame is read. -/
theorem frameFunc?_line (layout : PerfLayout) (f : PerfFrame) (blanks : List Char)
    (hblanks : ∀ c ∈ blanks, Python.isSpace c = true) (hc : Python.isSpace c = false)
    (hclear : '\n' ∉ c :: body) :
    ∃ u t, body = u ++ t ∧ Closes t ∧ (∀ v w, u = v ++ w → w ≠ [] → ¬Closes (w ++ t)) ∧
      frameFunc? (layout.indent.chars ++ f.addr.chars ++ ' ' :: (blanks ++ c :: body)) =
        if offsetPattern.remove 0 (Python.strip (c :: u)) ≠ [] ∧
            offsetPattern.remove 0 (Python.strip (c :: u)) ≠ "[unknown]".toList then
          some (offsetPattern.remove 0 (Python.strip (c :: u)))
        else none := by
  have hindent : Filled Python.isSpace layout.indent.chars :=
    ⟨layout.indent.filled.ne, fun c hc => (Bool.and_eq_true_iff.mp (layout.indent.filled.all c hc)).1⟩
  have hgap : Filled Python.isSpace (' ' :: blanks) :=
    ⟨List.cons_ne_nil _ _, List.forall_mem_cons.mpr ⟨by decide, hblanks⟩⟩
  obtain ⟨u, t, hbody, hcloses, hfirst, hgroups⟩ :=
    exists_groups?_framePattern hindent f.addr.filled hgap hc hclear
  refine ⟨u, t, hbody, hcloses, hfirst, ?_⟩
  rw [List.append_assoc, ← List.cons_append, frameFunc?, hgroups]
  rfl

theorem rstrip_append_of_ne_nil {s t : List Char} (h : Python.rstrip t ≠ []) :
    Python.rstrip (s ++ t) = s ++ Python.rstrip t := Text.rdropWhile_append_of_ne_nil h

theorem rstrip_of_last {s : List Char} (h : ∀ c ∈ s.getLast?, Python.isSpace c = false) :
    Python.rstrip s = s := by
  have hstrip := Text.rdropWhile_append (s := s) (t := []) h (by simp)
  rwa [List.append_nil] at hstrip

theorem PerfFrame.getLast_ending {f : PerfFrame} (h : f.place.isSome = true) :
    f.ending ≠ [] ∧ ∀ c ∈ f.ending.getLast?, Python.isSpace c = false := by
  obtain ⟨⟨offset, module⟩, hplace⟩ := Option.isSome_iff_exists.mp h
  have hending : f.ending = (f.offset ++ ' ' :: '(' :: module) ++ [')'] := by
    rw [PerfFrame.ending, PerfFrame.closing, hplace, List.append_assoc]
    rfl
  rw [hending]
  refine ⟨by simp, fun c hc => ?_⟩
  rw [List.getLast?_concat, Option.mem_some_iff] at hc
  rw [← hc]
  decide

theorem PerfFrame.ending_of_none {f : PerfFrame} (h : f.place = none) : f.ending = [] := by
  rw [PerfFrame.ending, PerfFrame.offset, PerfFrame.closing, h]
  rfl

theorem rstrip_symbol_ending (f : PerfFrame) (h : f.core ++ f.ending ≠ []) :
    Python.rstrip (f.symbol ++ f.ending) =
      f.symbol.takeWhile Python.isSpace ++ (f.core ++ f.ending) := by
  have hparts := f.symbol.takeWhile_append_dropWhile (p := Python.isSpace)
  cases hplace : f.place with
  | none =>
      have hcore : f.core = Python.rstrip (f.symbol.dropWhile Python.isSpace) := by
        rw [PerfFrame.core, hplace]
        rfl
      rw [PerfFrame.ending_of_none hplace, List.append_nil, hcore] at h
      rw [PerfFrame.ending_of_none hplace, List.append_nil, List.append_nil, hcore,
        ← rstrip_append_of_ne_nil h, hparts]
  | some place =>
      have hcore : f.core = f.symbol.dropWhile Python.isSpace := by rw [PerfFrame.core, hplace]
      obtain ⟨hne, hlast⟩ := f.getLast_ending (by rw [hplace]; rfl)
      rw [hcore, ← List.append_assoc, hparts]
      refine rstrip_of_last fun c hc => hlast c ?_
      rwa [List.getLast?_append_of_ne_nil _ hne] at hc

/-- The line without blanks at its end. -/
theorem rstrip_line (layout : PerfLayout) (f : PerfFrame) (h : f.core ++ f.ending ≠ []) :
    Python.rstrip (f.line layout) = layout.indent.chars ++ f.addr.chars ++
      ' ' :: (f.symbol.takeWhile Python.isSpace ++ (f.core ++ f.ending)) := by
  have hline : f.line layout = (layout.indent.chars ++ f.addr.chars ++ [' ']) ++
      (f.symbol ++ f.ending) := by
    rw [PerfFrame.line, List.append_assoc _ [' '], List.singleton_append]
  have hsymbol := rstrip_symbol_ending f h
  rw [hline, rstrip_append_of_ne_nil, hsymbol, List.append_assoc _ [' '], List.singleton_append]
  rw [hsymbol]
  exact fun hnil => h (List.append_eq_nil_iff.mp hnil).2

/-- Nothing is read of a line without a symbol. -/
theorem frameFunc?_rstrip_of_nil (layout : PerfLayout) (f : PerfFrame)
    (h : f.core ++ f.ending = []) : frameFunc? (Python.rstrip (f.line layout)) = none := by
  obtain ⟨hcore, hending⟩ := List.append_eq_nil_iff.mp h
  have hplace : f.place = none := by
    by_contra hplace
    exact (f.getLast_ending (Option.isSome_iff_ne_none.mpr hplace)).1 hending
  rw [PerfFrame.core, hplace] at hcore
  have hblank : ∀ c ∈ ' ' :: (f.symbol ++ f.ending), Python.isSpace c = true := by
    rw [hending, List.append_nil]
    exact List.forall_mem_cons.mpr ⟨by decide, Python.strip_eq_nil_iff.mp hcore⟩
  have hlast : ∀ c ∈ (layout.indent.chars ++ f.addr.chars).getLast?, Python.isSpace c = false := by
    intro c hc
    rw [List.getLast?_append_of_ne_nil _ f.addr.filled.ne] at hc
    exact not_isSpace_of_isLowerHex (f.addr.filled.all c (List.mem_of_mem_getLast? hc))
  have hstrip : Python.rstrip (f.line layout) = layout.indent.chars ++ (f.addr.chars ++ []) := by
    rw [List.append_nil]
    exact Text.rdropWhile_append hlast hblank
  have hindent : Filled Python.isSpace layout.indent.chars :=
    ⟨layout.indent.filled.ne, fun c hc =>
      (Bool.and_eq_true_iff.mp (layout.indent.filled.all c hc)).1⟩
  have hhead : ∀ d ∈ (f.addr.chars ++ []).head?, Python.isSpace d = false := by
    intro d hd
    rw [List.append_nil] at hd
    exact not_isSpace_of_isLowerHex (f.addr.filled.all d (List.mem_of_mem_head? hd))
  rw [hstrip, frameFunc?, Regex.groups?, framePattern, Regex.run_cat_cons,
    Regex.run_plus hindent hhead]
  · rw [Regex.run_cat_cons, Regex.run_plus f.addr.filled (by simp)]
    · rfl
    · intro d s hd
      rw [Regex.run_cat_cons, Regex.run_plus_of_neg (not_isSpace_of_isLowerHex hd)]
  · intro d s hd
    rw [Regex.run_cat_cons, Regex.run_plus_of_neg (not_isLowerHex_of_isSpace hd)]

theorem PerfFrame.newline_notMem_ending (f : PerfFrame) : '\n' ∉ f.core ++ f.ending := by
  have hoffset : '\n' ∉ f.offset := fun hmem =>
    absurd (f.not_isSpace_offset _ hmem) (by decide)
  have hclosing : '\n' ∉ f.closing := by
    rw [PerfFrame.closing]
    split
    · simp
    · next offset module hplace =>
      have hmodule := f.place_clear (offset, module) hplace
      simpa using hmodule
  rw [PerfFrame.ending, List.mem_append, List.mem_append]
  rintro (hmem | hmem | hmem)
  · exact f.clear (f.core_sublist.subset hmem)
  · exact hoffset hmem
  · exact hclosing hmem

theorem PerfFrame.ending_of_offset {f : PerfFrame} (h : f.offset = []) : f.ending = [] := by
  cases hplace : f.place with
  | none => exact f.ending_of_none hplace
  | some place =>
      rw [PerfFrame.offset, hplace] at h
      cases h

theorem PerfFrame.head_core_ending (f : PerfFrame) :
    ∀ c ∈ (f.core ++ f.ending).head?, Python.isSpace c = false := by
  intro c hc
  by_cases hcore : f.core = []
  · by_cases hoffset : f.offset = []
    · rw [hcore, f.ending_of_offset hoffset] at hc
      cases hc
    · rw [hcore, List.nil_append, PerfFrame.ending, List.head?_append_of_ne_nil _ hoffset] at hc
      exact f.not_isSpace_offset c (List.mem_of_mem_head? hc)
  · rw [List.head?_append_of_ne_nil _ hcore] at hc
    exact f.head_core c hc

/-- The function of a frame: it is what the line has left of the symbol, or a front of that. -/
theorem exists_frameFunc?_rstrip (layout : PerfLayout) (f : PerfFrame)
    (h : f.core ++ f.ending ≠ []) :
    ∃ g t, f.core ++ f.ending = g ++ t ∧ g ≠ [] ∧
      (∀ a b, g = a ++ b → a ≠ [] → b ≠ [] → ¬Closes (b ++ t)) ∧
      (g = f.core ++ f.offset ∧ t = f.closing ∨
        ∃ b, b ≠ [] ∧ f.core = g ++ b ∧ t = b ++ f.ending ∧ Closes t) ∧
      frameFunc? (Python.rstrip (f.line layout)) =
        if offsetPattern.remove 0 (Python.strip g) ≠ [] ∧
            offsetPattern.remove 0 (Python.strip g) ≠ "[unknown]".toList then
          some (offsetPattern.remove 0 (Python.strip g))
        else none := by
  obtain ⟨c, body, hbody⟩ := List.exists_cons_of_ne_nil h
  have hclear : '\n' ∉ c :: body := hbody ▸ f.newline_notMem_ending
  have hc : Python.isSpace c = false := f.head_core_ending c (by rw [hbody]; rfl)
  have hblanks : ∀ d ∈ f.symbol.takeWhile Python.isSpace, Python.isSpace d = true := fun d hd =>
    List.mem_takeWhile_imp hd
  obtain ⟨u, t, rfl, hcloses, hfirst, hfunc⟩ := frameFunc?_line layout f _ hblanks hc hclear
  have hne : f.core ++ f.offset ≠ [] := fun hnil => by
    obtain ⟨hcore, hoffset⟩ := List.append_eq_nil_iff.mp hnil
    exact h (by rw [hcore, f.ending_of_offset hoffset]; rfl)
  refine ⟨c :: u, t, hbody, List.cons_ne_nil c u, ?_, ?_, ?_⟩
  · rintro a b hab ha hb
    obtain ⟨d, a, rfl⟩ := List.exists_cons_of_ne_nil ha
    rw [List.cons_append, List.cons.injEq] at hab
    exact hfirst a b hab.2 hb
  · refine (f.cut_cases hbody hcloses hfirst hne).imp_right ?_
    rintro ⟨b, hb, hcore, ht⟩
    exact ⟨b, hb, hcore, ht, hcloses⟩
  · rw [rstrip_line layout f h, hbody]
    exact hfunc

/-- Nothing is left of the offset. -/
theorem remove_core_offset (f : PerfFrame) (hplace : f.place.isSome = true) :
    offsetPattern.remove 0 (Python.strip (f.core ++ f.offset)) = f.core := by
  obtain ⟨⟨offset, module⟩, hplace⟩ := Option.isSome_iff_exists.mp hplace
  have hoffset : f.offset = '+' :: '0' :: 'x' :: offset.chars := by
    rw [PerfFrame.offset, hplace]
  have hne : f.offset ≠ [] := by
    rw [hoffset]
    exact List.cons_ne_nil _ _
  have hdigits : IsOffset f.offset := by
    refine ⟨offset.chars, hoffset, offset.filled.ne, fun c hc => ?_⟩
    rw [isHex, offset.filled.all c hc, Bool.true_or]
  have hclear : '\n' ∉ f.core ++ f.offset := fun hmem =>
    (List.mem_append.mp hmem).elim (fun hcore => f.clear (f.core_sublist.subset hcore))
      fun hend => absurd (f.not_isSpace_offset _ hend) (by decide)
  have hstrip : Python.strip (f.core ++ f.offset) = f.core ++ f.offset := by
    refine Text.trim_of_ends (fun c hc => ?_) fun c hc => ?_
    · by_cases hcore : f.core = []
      · rw [hcore, List.nil_append] at hc
        exact f.not_isSpace_offset c (List.mem_of_mem_head? hc)
      · rw [List.head?_append_of_ne_nil _ hcore] at hc
        exact f.head_core c hc
    · rw [List.getLast?_append_of_ne_nil _ hne] at hc
      exact f.not_isSpace_offset c (List.mem_of_mem_getLast? hc)
  rw [hstrip]
  exact remove_append hclear hdigits fun a b _ hb => not_isOffset_append hdigits hb

theorem length_remove_strip_le {g : List Char} (hclear : '\n' ∉ g) :
    (offsetPattern.remove 0 (Python.strip g)).length ≤ g.length := by
  have hstrip : '\n' ∉ Python.strip g := fun hmem =>
    hclear ((Text.trim_sublist _ _).subset hmem)
  exact (remove_isPrefix hstrip).length_le.trans (Text.trim_sublist _ _).length_le

theorem PerfFrame.Legible.core_eq (h : f.Legible) : f.core = f.symbol := by
  cases hplace : f.place with
  | none =>
      rw [PerfFrame.core, hplace]
      exact Text.trim_of_ends h.first (h.last hplace)
  | some place =>
      rw [PerfFrame.core, hplace]
      obtain ⟨c, rest, hsymbol⟩ := List.exists_cons_of_ne_nil h.ne
      have hc := h.first c (by rw [hsymbol]; rfl)
      rw [hsymbol]
      exact List.dropWhile_cons_of_neg (by simp [hc])

theorem PerfFrame.offset_of_none (h : f.place = none) : f.offset = [] := by
  rw [PerfFrame.offset, h]

theorem PerfFrame.Legible.remove_eq (h : f.Legible) :
    offsetPattern.remove 0 (Python.strip (f.core ++ f.offset)) = f.symbol := by
  cases hplace : f.place with
  | none =>
      rw [f.offset_of_none hplace, List.append_nil, h.core_eq]
      have hstrip : Python.strip f.symbol = f.symbol := Text.trim_of_ends h.first (h.last hplace)
      rw [hstrip]
      exact remove_of_forall f.clear (h.bare hplace)
  | some place =>
      rw [remove_core_offset f (by rw [hplace]; rfl)]
      exact h.core_eq

theorem frameFunc?_of_legible (layout : PerfLayout) (h : f.Legible) :
    frameFunc? (Python.rstrip (f.line layout)) = some f.symbol := by
  have hne : f.core ++ f.ending ≠ [] := fun hnil => h.ne (by
    rw [← h.core_eq]
    exact (List.append_eq_nil_iff.mp hnil).1)
  obtain ⟨g, t, -, hg, -, hcases, hfunc⟩ := exists_frameFunc?_rstrip layout f hne
  rcases hcases with ⟨rfl, -⟩ | ⟨b, hb, hcore, rfl, hcloses⟩
  · rw [hfunc, h.remove_eq, if_pos ⟨h.ne, f.known⟩]
  · exact absurd hcloses (h.uncut g b (h.core_eq.symm.trans hcore) hg hb)

/-- Without a place, the symbol is all there is. -/
theorem legible_of_none (hplace : f.place = none) (hne : f.symbol ≠ []) (hcore : f.core = f.symbol)
    (huncut : ∀ a b, f.symbol = a ++ b → a ≠ [] → b ≠ [] → ¬Closes (b ++ f.ending))
    (hremove : (offsetPattern.remove 0 f.symbol).length = f.symbol.length) : f.Legible where
  ne := hne
  first := hcore ▸ f.head_core
  uncut := huncut
  last _ c hc := by
    have hstrip : f.symbol = Text.trim Python.isSpace f.symbol := by
      rw [PerfFrame.core, hplace] at hcore
      exact hcore.symm
    rw [hstrip] at hc
    exact Text.getLast_rdropWhile _ c hc
  bare _ a b hab hoffset := by
    have hle := length_remove_append_le (hab ▸ f.clear) hoffset
    obtain ⟨digits, rfl, -⟩ := hoffset
    rw [← hab, hremove, hab, List.length_append] at hle
    simp only [List.length_cons] at hle
    omega

/-- What is read is shorter than the symbol, unless it is the symbol. -/
theorem of_frameFunc?_eq_some (h : frameFunc? (Python.rstrip (f.line layout)) = some func) :
    func.length ≤ f.symbol.length ∧
      (func.length = f.symbol.length → func = f.symbol ∧ f.Legible) := by
  have hne : f.core ++ f.ending ≠ [] := fun hnil => by
    rw [frameFunc?_rstrip_of_nil layout f hnil] at h
    cases h
  obtain ⟨g, t, hgt, hg, hfirst, hcases, hfunc⟩ := exists_frameFunc?_rstrip layout f hne
  rw [hfunc] at h
  split at h
  case isFalse => cases h
  next hsome =>
  obtain rfl := Option.some.inj h
  have hclear : '\n' ∉ g := fun hmem => f.newline_notMem_ending (hgt ▸ List.mem_append_left t hmem)
  have hle := length_remove_strip_le hclear
  rcases hcases with ⟨rfl, rfl⟩ | ⟨b, hb, hcore, -, -⟩
  · cases hplace : f.place with
    | none =>
        rw [f.offset_of_none hplace, List.append_nil] at hle hsome hfirst ⊢
        refine ⟨hle.trans f.core_sublist.length_le, fun heq => ?_⟩
        have hcore : f.core = f.symbol := f.core_sublist.eq_of_length
          (Nat.le_antisymm f.core_sublist.length_le (heq ▸ hle))
        have hstrip : Python.strip f.symbol = f.symbol := by
          rw [PerfFrame.core, hplace] at hcore
          exact hcore
        have hclosing : f.ending = f.closing := by
          rw [PerfFrame.ending, f.offset_of_none hplace, List.nil_append]
        rw [hcore, hstrip] at heq hsome ⊢
        rw [hcore] at hfirst
        have hfunc := (remove_isPrefix f.clear).eq_of_length heq
        exact ⟨hfunc, legible_of_none hplace (hfunc ▸ hsome.1) hcore (hclosing ▸ hfirst) heq⟩
    | some place =>
        rw [remove_core_offset f (by rw [hplace]; rfl)] at hsome ⊢
        refine ⟨f.core_sublist.length_le, fun heq => ?_⟩
        have hcore : f.core = f.symbol := f.core_sublist.eq_of_length heq
        refine ⟨hcore, hcore ▸ hsome.1, hcore ▸ f.head_core, fun a b hab ha hb => ?_, ?_, ?_⟩
        · rw [PerfFrame.ending, ← List.append_assoc]
          refine hfirst a (b ++ f.offset) ?_ ha fun hnil => hb (List.append_eq_nil_iff.mp hnil).1
          rw [hcore, hab, List.append_assoc]
        · intro hnone
          rw [hplace] at hnone
          cases hnone
        · intro hnone
          rw [hplace] at hnone
          cases hnone
  · have hlt : g.length < f.symbol.length := by
      have hlength := congrArg List.length hcore
      rw [List.length_append] at hlength
      have hpos := List.length_pos_iff.mpr hb
      have hsub := f.core_sublist.length_le
      omega
    exact ⟨hle.trans hlt.le, fun heq => absurd (heq ▸ hle) (Nat.not_le.mpr hlt)⟩

end Reading

end MiniDrop
