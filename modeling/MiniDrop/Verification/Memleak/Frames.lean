import MiniDrop.Model.LeakReports
import MiniDrop.Verification.Markdown.Headings

/-! # Frames of a text report

The function of a frame is read up to a place in parentheses at the end of the line. -/

namespace MiniDrop

open Regex (Filled)

/-! ## Places -/

/-- The end of a line, or blanks and a file with a line number in parentheses up to there. -/
def IsPlace (s : List Char) : Prop :=
  s = [] ∨ ∃ blanks file digits, s = blanks ++ '(' :: (file ++ ':' :: (digits ++ [')'])) ∧
    Filled Python.isSpace blanks ∧ file ≠ [] ∧ Filled Python.isDecimal digits

/-- A name in which no place follows a nonempty front. -/
def Placeless (f : List Char) : Prop := ∀ a b, f = a ++ b → a ≠ [] → b ≠ [] → ¬IsPlace b

section Places

variable {groups groups' : List (List Char)} {s : List Char}

theorem takes_locationPattern (hclear : '\n' ∉ s) :
    (∃ t, locationPattern.Takes groups s groups' t) ↔ groups' = groups ∧ IsPlace s := by
  have hend : ∀ u : List Char, '\n' ∉ u → (u = [] ∨ u = ['\n'] ↔ u = []) := fun u hu =>
    or_iff_left fun heq => hu (heq ▸ List.mem_singleton_self _)
  constructor
  · rintro ⟨t, _, m, hopt, _, m', ⟨rfl, rfl, hm⟩, rfl, rfl⟩
    rcases hopt with ⟨_, m₁, hblanks, _, m₂, hopen, _, m₃, ⟨_, m₄, ⟨rfl, c, rfl, -⟩, rfl, file,
      rfl, -⟩, _, m₅, hcolon, _, m₆, hnumber, _, m₇, hclose, rfl, rfl⟩ | ⟨rfl, rfl⟩
    · obtain ⟨rfl, blanks, hfilled, rfl⟩ := Regex.takes_plus.mp hblanks
      obtain ⟨rfl, heq⟩ := Regex.takes_char.mp hopen
      obtain ⟨rfl, rfl⟩ := Regex.takes_char.mp hcolon
      obtain ⟨rfl, digits, hdigits, rfl⟩ := Regex.takes_plus.mp hnumber
      obtain ⟨rfl, rfl⟩ := Regex.takes_char.mp hclose
      subst heq
      obtain rfl := (hend _ (by simp_all)).mp hm
      refine ⟨rfl, .inr ⟨blanks, c :: file, digits, ?_, hfilled, List.cons_ne_nil _ _, hdigits⟩⟩
      simp
    · exact ⟨rfl, .inl ((hend _ hclear).mp hm)⟩
  · rintro ⟨rfl, rfl | ⟨blanks, file, digits, rfl, hblanks, hfile, hdigits⟩⟩
    · exact ⟨[], _, [], .inr ⟨rfl, rfl⟩, _, [], ⟨rfl, rfl, .inl rfl⟩, rfl, rfl⟩
    · obtain ⟨c, file, rfl⟩ := List.exists_cons_of_ne_nil hfile
      have hdot : ∀ d ∈ c :: file, Regex.dot d = true := fun d hd =>
        decide_eq_true fun heq => hclear (by
          rw [heq] at hd
          simp only [List.mem_append, List.mem_cons] at hd ⊢
          tauto)
      obtain ⟨hc, hfile⟩ := List.forall_mem_cons.mp hdot
      exact ⟨[], _, [], .inl ⟨_, _, Regex.takes_plus.mpr ⟨rfl, blanks, hblanks, rfl⟩, _, _,
        Regex.takes_char.mpr ⟨rfl, rfl⟩, _, _, ⟨_, _, ⟨rfl, c, rfl, hc⟩, rfl, file, rfl, hfile⟩, _,
        _, Regex.takes_char.mpr ⟨rfl, rfl⟩, _, _, Regex.takes_plus.mpr ⟨rfl, digits, hdigits, rfl⟩,
        _, [], Regex.takes_char.mpr ⟨rfl, rfl⟩, rfl, rfl⟩, _, [], ⟨rfl, rfl, .inl rfl⟩, rfl, rfl⟩

end Places

/-! ## Lines -/

/-- A function name that is on one line of a file. -/
structure LeakName where
  chars : List Char
  named : IsFuncName chars
  carriageless : '\r' ∉ chars

/-- A frame of a report as text. -/
structure AsanFrame where
  addr : List Char
  hex : Filled isLowerHex addr
  func : LeakName

/-- The line of a frame and its number. -/
def AsanFrame.line (f : AsanFrame) (i : ℕ) : List Char :=
  "    #".toList ++ Python.str i ++ " 0x".toList ++ f.addr ++ " in ".toList ++ f.func.chars

section Lines

variable {s : List Char}

theorem LeakName.exists_cons (name : LeakName) :
    ∃ c rest, name.chars = c :: rest ∧ Python.isSpace c = false := by
  obtain ⟨c, rest, heq⟩ := List.exists_cons_of_ne_nil name.named.ne
  exact ⟨c, rest, heq, name.named.head c (by rw [heq]; rfl)⟩

theorem AsanFrame.line_eq (f : AsanFrame) (i : ℕ) : f.line i =
    [' ', ' ', ' ', ' '] ++ '#' :: (Python.str i ++ ([' '] ++ '0' :: 'x' :: (f.addr ++
      ([' '] ++ 'i' :: 'n' :: ([' '] ++ f.func.chars))))) := by
  have hindent : "    #".toList = [' ', ' ', ' ', ' ', '#'] := rfl
  have haddr : " 0x".toList = [' ', '0', 'x'] := rfl
  have hin : " in ".toList = [' ', 'i', 'n', ' '] := rfl
  unfold AsanFrame.line
  rw [hindent, haddr, hin]
  simp

theorem strip_line (f : AsanFrame) (i : ℕ) : Python.strip (f.line i) =
    '#' :: (Python.str i ++ ([' '] ++ '0' :: 'x' :: (f.addr ++
      ([' '] ++ 'i' :: 'n' :: ([' '] ++ f.func.chars))))) := by
  have hlast : ∀ {u : List Char}, (u ++ f.func.chars).rdropWhile Python.isSpace =
      u ++ f.func.chars := by
    intro u
    have hchars : f.func.chars.rdropWhile Python.isSpace = f.func.chars := by
      have hdrop := Text.rdropWhile_append (t := []) f.func.named.last (by simp)
      rwa [List.append_nil] at hdrop
    rw [Text.rdropWhile_append_of_ne_nil, hchars]
    rw [hchars]
    exact f.func.named.ne
  have hassoc : '#' :: (Python.str i ++ ([' '] ++ '0' :: 'x' :: (f.addr ++
      ([' '] ++ 'i' :: 'n' :: ([' '] ++ f.func.chars))))) =
        ('#' :: (Python.str i ++ ([' '] ++ '0' :: 'x' :: (f.addr ++ [' ', 'i', 'n', ' '])))) ++
          f.func.chars := by simp
  have hdrop : ∀ u : List Char, ([' ', ' ', ' ', ' '] ++ '#' :: u).dropWhile Python.isSpace =
      '#' :: u := fun _ => rfl
  rw [AsanFrame.line_eq, Python.strip, Text.trim, hdrop, hassoc, hlast]

/-- What the pattern takes behind the address. -/
theorem groups?_leakFramePattern {digits addr : List Char} (hdigits : Filled Python.isDecimal digits)
    (haddr : Filled isLowerHex addr) (hs : ∀ c ∈ s.head?, Python.isSpace c = false)
    {x : List (List Char)}
    (hname : (Regex.cat [.group (.plusFew Regex.dot), locationPattern]).run [] s
      (fun groups _ => some groups) = some x) :
    leakFramePattern.groups? ('#' :: (digits ++ ([' '] ++ '0' :: 'x' :: (addr ++
      ([' '] ++ 'i' :: 'n' :: ([' '] ++ s)))))) = some x := by
  have hblank : Filled Python.isSpace [' '] := ⟨by simp, by simp; decide⟩
  have hin : ∀ k : List (List Char) → List Char → Option (List (List Char)),
      (Regex.text "in".toList).run [] ('i' :: 'n' :: ([' '] ++ s)) k = k [] ([' '] ++ s) := fun k =>
    Regex.run_text ['i', 'n'] [] ([' '] ++ s) k
  rw [Regex.groups?, leakFramePattern, Regex.run_cat_cons, Regex.run_char, Regex.run_cat_cons]
  refine Regex.run_plus_of_some hdigits (by simp; decide) ?_
  rw [Regex.run_cat_cons]
  refine Regex.run_plus_of_some hblank (by simp; decide) ?_
  rw [Regex.run_cat_cons, Regex.run_char, Regex.run_cat_cons, Regex.run_char, Regex.run_cat_cons]
  refine Regex.run_plus_of_some haddr (by simp; decide) ?_
  rw [Regex.run_cat_cons]
  refine Regex.run_plus_of_some hblank (by simp; decide) ?_
  rw [Regex.run_cat_cons, hin, Regex.run_cat_cons]
  exact Regex.run_plus_of_some hblank hs hname

/-- The function of a frame is read unless a place seems to follow a front of it. -/
theorem exists_asanFrame? (f : AsanFrame) (i : ℕ) :
    ∃ g, asanFrame? (f.line i) = some g ∧ (g = f.func.chars ↔ Placeless f.func.chars) := by
  obtain ⟨c, rest, hname, hc⟩ := f.func.exists_cons
  have hclear : '\n' ∉ c :: rest := hname ▸ f.func.named.clear
  obtain ⟨u, t, rfl, ht, hfirst, hrun⟩ := Regex.exists_run_group (r := locationPattern)
    (Q := IsPlace) (fun _ _ _ => takes_locationPattern) (.inl rfl) hclear []
  have hgroups := groups?_leakFramePattern (filled_str i) f.hex
    (by simpa [hname] using hc) (hname ▸ hrun)
  refine ⟨Python.strip (c :: u), ?_, ?_⟩
  · rw [asanFrame?, strip_line, Regex.searchGroups?_of_some hgroups]
    rfl
  · rw [hname]
    constructor
    · intro heq a b hab ha hb
      have hle := Python.length_strip_le (c :: u)
      rw [heq, List.length_cons, List.length_cons, List.length_append] at hle
      obtain rfl : t = [] := List.length_eq_zero_iff.mp (by omega)
      obtain ⟨d, a, rfl⟩ := List.exists_cons_of_ne_nil ha
      rw [List.append_nil, List.cons_append, List.cons.injEq] at hab
      have hplace := hfirst a b hab.2 hb
      rwa [List.append_nil] at hplace
    · intro hplace
      have hnil : t = [] := by
        by_contra hne
        exact hplace (c :: u) t rfl (List.cons_ne_nil c u) hne ht
      rw [hnil, List.append_nil] at hname ⊢
      rw [← hname, f.func.named.strip]

/-- A line without number signs is that of no frame. -/
theorem asanFrame?_of_notMem (h : '#' ∉ s) : asanFrame? s = none := by
  have hnone : leakFramePattern.searchGroups? (Python.strip s) = none := by
    refine Regex.searchGroups?_eq_none rfl fun c hc t => ?_
    have hne : c ≠ '#' := fun heq => h (Text.mem_of_mem_trim (heq ▸ hc))
    rw [Regex.groups?, leakFramePattern, Regex.run_cat_cons, Regex.run_char_of_ne hne]
  rw [asanFrame?, hnone]
  rfl

end Lines

end MiniDrop
