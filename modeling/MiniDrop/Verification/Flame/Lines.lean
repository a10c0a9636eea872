import MiniDrop.Library.Lines
import MiniDrop.Model.FoldedStacks

/-! # What the readers make of one line

A line is blank, or it holds a stack and a count. -/

namespace MiniDrop

/-! ## Lines of a collapsed file -/

/-- A line `<stack> <count>`, which a carriage return may end. No blank begins the stack. -/
structure FoldedEntry where
  stack : List Char
  digits : List Char
  cr : Bool := false
  stack_ne : stack ≠ []
  stack_head : ∀ c ∈ stack.head?, isBlank c = false
  stack_line : '\n' ∉ stack
  digits_ne : digits ≠ []
  digits_decimal : ∀ c ∈ digits, c.isDigit = true

namespace FoldedEntry

def count (e : FoldedEntry) : ℕ := Nat.ofDigitChars 10 e.digits 0

/-- The line without what ends it. -/
def body (e : FoldedEntry) : List Char := e.stack ++ ' ' :: e.digits

def text (e : FoldedEntry) : List Char := e.body ++ if e.cr then ['\r'] else []

/-- Python accepts as many digits. -/
def Readable (e : FoldedEntry) : Prop := e.digits.length ≤ Python.maxStrDigits

instance (e : FoldedEntry) : Decidable e.Readable := inferInstanceAs (Decidable (_ ≤ _))

/-- The count is positive, fits in `int64`, and is a double. -/
structure Exact (e : FoldedEntry) : Prop where
  pos : 0 < e.count
  int64 : e.count < 9223372036854775808
  double : JavaScript.double e.count = e.count

end FoldedEntry

inductive FoldedLine where
  | blank (text : List Char) (h : ∀ c ∈ text, isBlank c = true) (hline : '\n' ∉ text)
  | entry (e : FoldedEntry)

namespace FoldedLine

def text : FoldedLine → List Char
  | blank text _ _ => text
  | entry e => e.text

def entry? : FoldedLine → Option FoldedEntry
  | blank .. => none
  | entry e => some e

end FoldedLine

/-- The text of these lines. -/
def foldedText (lines : List FoldedLine) : String :=
  String.ofList (['\n'].intercalate (lines.map FoldedLine.text))

/-! ## Numbers -/

section Numbers

variable {ds : List Char}

theorem int64_of_bounds {n : ℤ} (hlow : -9223372036854775808 ≤ n)
    (hhigh : n < 9223372036854775808) : int64 n = n := by
  rw [int64, Int.bmod_def]
  omega

theorem int64_of_lt {n : ℤ} (hlow : 0 ≤ n) (hhigh : n < 9223372036854775808) : int64 n = n :=
  int64_of_bounds (by omega) hhigh

theorem int64_int64 (n : ℤ) : int64 (int64 n) = int64 n := Int.bmod_bmod

theorem int64_add (n m : ℤ) : int64 (int64 n + m) = int64 (n + m) := by
  rw [int64, int64, Int.add_bmod, Int.bmod_bmod, ← Int.add_bmod, int64]

/-- A sum that is in range at its end may wrap around on the way. -/
theorem foldl_int64 (l : List ℤ) (n : ℤ) :
    l.foldl (fun sum m => int64 (sum + m)) (int64 n) = int64 (n + l.sum) := by
  induction l generalizing n with
  | nil => rw [List.foldl_nil, List.sum_nil, add_zero]
  | cons m l ih => rw [List.foldl_cons, int64_add, ih, List.sum_cons, add_assoc]

theorem int64_idem (n m : ℤ) : int64 (int64 n * 10 + m) = int64 (n * 10 + m) := by
  rw [int64, int64, Int.add_bmod, Int.bmod_mul_bmod, ← Int.add_bmod, int64]

/-- The digits that are read one after another give the number, in `int64`. -/
theorem leadingInt64_of_isDigit (h : ∀ c ∈ ds, c.isDigit = true) :
    leadingInt64 ds = int64 (Nat.ofDigitChars 10 ds 0) := by
  have hloop : ∀ (l : List Char) (n : ℕ),
      l.foldl (fun n c => int64 (n * 10 + (c.toNat - '0'.toNat : ℕ))) (int64 n) =
        int64 (Nat.ofDigitChars 10 l n) := by
    intro l
    induction l with
    | nil => exact fun n => by rw [List.foldl_nil, Nat.ofDigitChars_nil]
    | cons c l ih =>
        intro n
        have hstep : int64 (int64 n * 10 + (c.toNat - '0'.toNat : ℕ)) =
            int64 (10 * n + (c.toNat - '0'.toNat) : ℕ) := by
          rw [int64_idem, Int.natCast_add, Int.natCast_mul, Int.mul_comm]
          rfl
        rw [List.foldl_cons, hstep, Nat.ofDigitChars_cons, ih]
  rw [leadingInt64, List.takeWhile_eq_self_iff.mpr h, ← hloop ds 0, int64_of_lt (by simp) (by simp)]
  rfl

end Numbers

/-! ## One line -/

namespace FoldedEntry

variable (e : FoldedEntry)

theorem isBlank_digits : ∀ c ∈ e.digits, isBlank c = false := fun c hc =>
  isBlank_of_isDigit (e.digits_decimal c hc)

theorem space_notMem_digits : ' ' ∉ e.digits := fun h =>
  absurd (e.isBlank_digits ' ' h) (by decide)

theorem body_ne : e.body ≠ [] := by simp [body]

theorem isBlank_head : ∀ c ∈ e.body.head?, isBlank c = false := by
  intro c hc
  refine e.stack_head c ?_
  rwa [body, List.head?_append_of_ne_nil _ e.stack_ne] at hc

theorem isBlank_getLast : ∀ c ∈ e.body.getLast?, isBlank c = false := by
  intro c hc
  obtain ⟨d, ds, hdigits⟩ := List.exists_cons_of_ne_nil e.digits_ne
  refine e.isBlank_digits c (List.mem_of_mem_getLast? ?_)
  rwa [body, hdigits, List.getLast?_append_cons, List.getLast?_cons_cons, ← hdigits] at hc

/-- All readers trim the line to its body. -/
theorem trim_text {p : Char → Bool} (hp : ∀ c, isBlank c = false → p c = false)
    (hcr : p '\r' = true) : Text.trim p e.text = e.body := by
  refine Text.trim_append e.body_ne (fun c hc => hp c (e.isBlank_head c hc))
    (fun c hc => hp c (e.isBlank_getLast c hc)) ?_
  split <;> simp [hcr]

theorem cutLastSpace_body : cutLastSpace e.body = some (e.stack, e.digits) := by
  have hlength : e.stack.length ≠ 0 := by simpa using e.stack_ne
  rw [cutLastSpace, body, Text.rfind_append_cons e.space_notMem_digits, Option.bind_some,
    if_neg hlength]
  simp

end FoldedEntry

/-- The API server reads the count. -/
theorem foldedLine_text (e : FoldedEntry) (h : e.Exact) :
    foldedLine e.text = some (String.ofList e.stack, (e.count : ℤ)) := by
  have hspace : ∀ c ∈ e.digits, Go.isSpace c = false := fun c hc =>
    (isSpace_of_isBlank_eq_false (e.isBlank_digits c hc)).1
  have hcount : parseInt64 e.digits = e.count := by
    have hread : leadingInt64 e.digits = e.count := by
      have hlt := h.int64
      rw [leadingInt64_of_isDigit e.digits_decimal]
      exact int64_of_lt (Int.natCast_nonneg _) (Int.ofNat_lt.mpr hlt)
    rw [parseInt64, Go.trimSpace, Text.trim_eq_self hspace]
    split
    · next ds hdigits =>
      exact absurd (e.digits_decimal '-' (by simp [hdigits])) (by decide)
    · exact hread
  have htrim : Go.trimSpace e.text = e.body :=
    e.trim_text (fun c hc => (isSpace_of_isBlank_eq_false hc).1) (by decide)
  have hpos : (e.count : ℤ) > 0 := by exact_mod_cast h.pos
  rw [foldedLine, htrim, e.cutLastSpace_body, Option.bind_some]
  simp only [hcount]
  rw [if_pos hpos]

section Python

theorem rsplit_append_cons {s t : List Char} (h : ' ' ∉ t) :
    Python.rsplit (s ++ ' ' :: t) = some (s, t) := by
  rw [Python.rsplit, Text.rfind_append_cons h]
  simp

variable (e : FoldedEntry) {tail : List Char} (h : ∀ c ∈ tail, Python.isSpace c = true)

/-- Python cuts the line at the same space, if no other space follows. -/
theorem rsplit_body_append (hspace : ' ' ∉ tail) :
    Python.rsplit (e.body ++ tail) = some (e.stack, e.digits ++ tail) := by
  have hnotMem : ' ' ∉ e.digits ++ tail := by
    rw [List.mem_append, not_or]
    exact ⟨e.space_notMem_digits, hspace⟩
  have hbody : e.body ++ tail = e.stack ++ ' ' :: (e.digits ++ tail) := by
    simp [FoldedEntry.body]
  rw [hbody, rsplit_append_cons hnotMem]

include h in
theorem int?_digits_append :
    Python.int? (e.digits ++ tail) = if e.Readable then some (e.count : ℤ) else none := by
  have hspace : ∀ c, isBlank c = false → Python.isSpace c = false := fun c hc =>
    (isSpace_of_isBlank_eq_false hc).2.1
  have htrim : Python.strip (e.digits ++ tail) = e.digits := by
    refine Text.trim_append e.digits_ne ?_ ?_ h
    · exact fun c hc => hspace c (e.isBlank_digits c (List.mem_of_mem_head? hc))
    · exact fun c hc => hspace c (e.isBlank_digits c (List.mem_of_mem_getLast? hc))
  rw [Python.int?, htrim, Text.signed?_of_unsigned (unsigned_of_isDigit e.digits_decimal)]
  split
  · next hread =>
    rw [Python.digits?_of_isDigit e.digits_ne e.digits_decimal hread]
    rfl
  · next hlong =>
    rw [Python.digits?_of_length e.digits_decimal (Nat.lt_of_not_le hlong)]
    rfl

/-- The analysis reads the count, which a carriage return may follow. -/
theorem collapsedLine_text :
    collapsedLine e.text =
      if e.Readable then some (String.ofList e.stack, (e.count : ℤ)) else none := by
  have hne : Python.strip e.text ≠ [] := by
    rw [Python.strip, e.trim_text (fun c hc => (isSpace_of_isBlank_eq_false hc).2.1) (by decide)]
    exact e.body_ne
  have hcr : ∀ c ∈ if e.cr then ['\r'] else [], Python.isSpace c = true ∧ c ≠ ' ' := by
    split
    · exact fun c hc => List.mem_singleton.mp hc ▸ by decide
    · simp
  have hcut := rsplit_body_append e fun hmem => (hcr ' ' hmem).2 rfl
  have hcount := int?_digits_append e fun c hc => (hcr c hc).1
  rw [collapsedLine, if_neg hne, FoldedEntry.text, hcut, Option.bind_some]
  dsimp only
  rw [hcount]
  split <;> rfl

end Python

/-- The flame graph reads the count. -/
theorem treeLine_text (e : FoldedEntry) (h : e.Exact) :
    treeLine e.text = some (framesOf e.stack, e.count) := by
  have hspace : ∀ c, isBlank c = false → JavaScript.isSpace c = false := fun c hc =>
    (isSpace_of_isBlank_eq_false hc).2.2
  have hcount : JavaScript.parseInt e.digits = some (e.count : ℤ) := by
    have hfront : e.digits.dropWhile JavaScript.isSpace = e.digits := by
      obtain ⟨d, ds, hdigits⟩ := List.exists_cons_of_ne_nil e.digits_ne
      rw [hdigits, List.dropWhile_cons_of_neg]
      simp [hspace d (e.isBlank_digits d (by simp [hdigits]))]
    rw [JavaScript.parseInt, hfront]
    rw [Text.signed?_of_unsigned (unsigned_of_isDigit e.digits_decimal),
      List.takeWhile_eq_self_iff.mpr e.digits_decimal,
      Text.digits?_of_isDigit e.digits_ne e.digits_decimal, Option.map_some, Option.map_some]
    exact congrArg (fun n : ℕ => some (n : ℤ)) h.double
  have htrim : JavaScript.trim e.text = e.body := e.trim_text hspace (by decide)
  have hpos : ¬ (e.count : ℤ) ≤ 0 := by
    have := h.pos
    omega
  rw [treeLine, htrim, e.cutLastSpace_body, Option.bind_some]
  dsimp only
  rw [hcount, Option.bind_some, if_neg hpos, Int.toNat_natCast]

/-! ## Blank lines -/

section Blank

variable {line : List Char}

theorem mem_of_cutLastSpace {stack count : List Char}
    (h : cutLastSpace line = some (stack, count)) : ∀ c ∈ count, c ∈ line := by
  obtain ⟨i, -, hcut⟩ := Option.bind_eq_some_iff.mp h
  split at hcut
  · cases hcut
  · cases hcut
    exact fun c hc => List.mem_of_mem_drop hc

theorem foldedLine_of_isBlank (h : ∀ c ∈ line, isBlank c = true) : foldedLine line = none := by
  rw [foldedLine, Option.bind_eq_none_iff]
  rintro ⟨stack, count⟩ hcut
  have hblank : ∀ c ∈ Go.trimSpace count, isBlank c = true := fun c hc =>
    h c (Text.mem_of_mem_trim (mem_of_cutLastSpace hcut c (Text.mem_of_mem_trim hc)))
  have hcount : parseInt64 count = 0 := by
    unfold parseInt64
    split
    · next ds hds =>
      rw [hds] at hblank
      exact absurd (hblank '-' (List.mem_cons_self)) (by decide)
    · cases hds : Go.trimSpace count with
      | nil => rfl
      | cons c cs =>
          rw [hds] at hblank
          have hc := isDigit_of_isBlank (hblank c (List.mem_cons_self))
          rw [leadingInt64, List.takeWhile_cons_of_neg (by simp [hc]), List.foldl_nil]
  dsimp only
  rw [hcount, if_neg (by decide)]

theorem collapsedLine_of_isBlank (h : ∀ c ∈ line, isBlank c = true) :
    collapsedLine line = none := by
  unfold collapsedLine
  split
  · rfl
  · rw [Option.bind_eq_none_iff]
    rintro ⟨stack, count⟩ hcut
    obtain ⟨i, -, hcut⟩ := Option.map_eq_some_iff.mp hcut
    have hblank : ∀ c ∈ Python.strip count, isBlank c = true := by
      intro c hc
      have hmem := Text.mem_of_mem_trim hc
      rw [← (Prod.mk.inj hcut).2] at hmem
      exact h c (List.mem_of_mem_drop hmem)
    have hread : Python.digits? (Python.strip count) = none := by
      cases hds : Python.strip count with
      | nil => rfl
      | cons c cs =>
          rw [hds] at hblank
          rw [Python.digits?, Python.number?,
            Python.digit?_of_isBlank (hblank c (List.mem_cons_self)), Option.bind_none, ite_self]
    dsimp only
    rw [Python.int?, Text.signed?_of_unsigned (unsigned_of_isBlank hblank), hread]
    rfl

theorem treeLine_of_isBlank (h : ∀ c ∈ line, isBlank c = true) : treeLine line = none := by
  rw [treeLine, Option.bind_eq_none_iff]
  rintro ⟨stack, count⟩ hcut
  have hblank : ∀ c ∈ count.dropWhile JavaScript.isSpace, isBlank c = true := fun c hc =>
    h c (Text.mem_of_mem_trim (mem_of_cutLastSpace hcut c
      ((List.dropWhile_sublist _).subset hc)))
  have hread :
      Text.digits? ((count.dropWhile JavaScript.isSpace).takeWhile Char.isDigit) = none := by
    cases hds : count.dropWhile JavaScript.isSpace with
    | nil => rfl
    | cons c cs =>
        rw [hds] at hblank
        have hc := isDigit_of_isBlank (hblank c (List.mem_cons_self))
        rw [List.takeWhile_cons_of_neg (by simp [hc])]
        rfl
  dsimp only
  rw [JavaScript.parseInt, Text.signed?_of_unsigned (unsigned_of_isBlank hblank), hread]
  rfl

end Blank

/-! ## Texts -/

/-- The entries among these lines. -/
def entriesOf (lines : List FoldedLine) : List FoldedEntry := lines.filterMap FoldedLine.entry?

theorem FoldedLine.newline_notMem (l : FoldedLine) : '\n' ∉ l.text := by
  cases l with
  | blank text h hline => exact hline
  | entry e =>
      have hdigits : '\n' ∉ e.digits := fun h => absurd (e.isBlank_digits '\n' h) (by decide)
      have hcr : '\n' ∉ if e.cr then ['\r'] else [] := by split <;> simp
      simp [FoldedLine.text, FoldedEntry.text, FoldedEntry.body, e.stack_line, hdigits, hcr]

variable {β : Type} {read : List Char → Option β} {lines : List FoldedLine}

theorem splitLines_foldedText (hne : lines ≠ []) :
    splitLines (foldedText lines) = lines.map FoldedLine.text := by
  rw [splitLines, foldedText, String.toList_ofList, List.splitOn_intercalate]
  · intro line hline
    obtain ⟨l, -, rfl⟩ := List.mem_map.mp hline
    exact l.newline_notMem
  · simpa using hne

theorem exists_of_mem_splitLines {line : List Char} (h : line ∈ splitLines (foldedText lines)) :
    ∃ l : FoldedLine, l.text = line := by
  rcases eq_or_ne lines [] with rfl | hne
  · obtain rfl : line = [] := by simpa [splitLines, foldedText] using h
    exact ⟨.blank [] (by simp) (by simp), rfl⟩
  · rw [splitLines_foldedText hne] at h
    obtain ⟨l, -, hl⟩ := List.mem_map.mp h
    exact ⟨l, hl⟩

/-- A reader of lines sees the entries. -/
theorem filterMap_splitLines
    (hblank : ∀ line, (∀ c ∈ line, isBlank c = true) → read line = none) :
    (splitLines (foldedText lines)).filterMap read =
      (entriesOf lines).filterMap fun e => read e.text := by
  rcases eq_or_ne lines [] with rfl | hne
  · have hnil := hblank [] (by simp)
    simp [splitLines, foldedText, entriesOf, hnil]
  · rw [splitLines_foldedText hne, entriesOf, List.filterMap_map, List.filterMap_filterMap]
    refine List.filterMap_congr fun l _ => ?_
    cases l with
    | blank text h hline => exact hblank text h
    | entry e => rfl

/-- Every text is covered whose lines are blank or of this form. -/
theorem exists_foldedText {text : String}
    (h : ∀ line ∈ splitLines text, ∃ l : FoldedLine, l.text = line) :
    ∃ lines, foldedText lines = text := by
  have : Nonempty FoldedLine := ⟨.blank [] (by simp) (by simp)⟩
  choose! f hf using h
  refine ⟨(splitLines text).map f, ?_⟩
  have hmap : ((splitLines text).map f).map FoldedLine.text = splitLines text := by
    rw [List.map_map]
    exact (List.map_congr_left hf).trans (List.map_id _)
  rw [foldedText, hmap, splitLines, List.intercalate_splitOn, String.ofList_toList]

end MiniDrop
