import MiniDrop.Library.Text

/-! # White space and decimal numbers as Go, Python and JavaScript read them -/

/-! ## White space -/

/-- The space characters on which the three languages agree. -/
def isCommonSpace (c : Char) : Bool :=
  (9 ≤ c.toNat ∧ c.toNat ≤ 13) ∨ c.toNat ∈ [0x20, 0xA0, 0x1680] ∨
    (0x2000 ≤ c.toNat ∧ c.toNat ≤ 0x200A) ∨ c.toNat ∈ [0x2028, 0x2029, 0x202F, 0x205F, 0x3000]

namespace Go

/-- `unicode.IsSpace`. -/
def isSpace (c : Char) : Bool := isCommonSpace c || c.toNat = 0x85

/-- `strings.TrimSpace`. -/
def trimSpace (s : List Char) : List Char := Text.trim isSpace s

end Go

namespace Python

/-- `str.isspace` of one character. -/
def isSpace (c : Char) : Bool :=
  isCommonSpace c || c.toNat = 0x85 || (0x1C ≤ c.toNat ∧ c.toNat ≤ 0x1F)

def strip (s : List Char) : List Char := Text.trim isSpace s

/-- The zeros of the decimal digits, each followed by the other nine. -/
def zeros : List ℕ :=
  [0x30, 0x660, 0x6F0, 0x7C0, 0x966, 0x9E6, 0xA66, 0xAE6, 0xB66, 0xBE6, 0xC66, 0xCE6, 0xD66, 0xDE6,
    0xE50, 0xED0, 0xF20, 0x1040, 0x1090, 0x17E0, 0x1810, 0x1946, 0x19D0, 0x1A80, 0x1A90, 0x1B50,
    0x1BB0, 0x1C40, 0x1C50, 0xA620, 0xA8D0, 0xA900, 0xA9D0, 0xA9F0, 0xAA50, 0xABF0, 0xFF10, 0x104A0,
    0x10D30, 0x11066, 0x110F0, 0x11136, 0x111D0, 0x112F0, 0x11450, 0x114D0, 0x11650, 0x116C0,
    0x11730, 0x118E0, 0x11950, 0x11C50, 0x11D50, 0x11DA0, 0x16A60, 0x16AC0, 0x16B50, 0x1D7CE,
    0x1D7D8, 0x1D7E2, 0x1D7EC, 0x1D7F6, 0x1E140, 0x1E2F0, 0x1E950, 0x1FBF0]

/-- The value of a decimal digit. -/
def digit? (c : Char) : Option ℕ :=
  (zeros.find? fun base => base ≤ c.toNat ∧ c.toNat ≤ base + 9).map fun base => c.toNat - base

/-- Digits, which single underscores may separate, after digits of this value. -/
def digitsFrom (value : ℕ) : List Char → Option ℕ
  | [] => some value
  | '_' :: c :: cs => (digit? c).bind fun d => digitsFrom (10 * value + d) cs
  | c :: cs => (digit? c).bind fun d => digitsFrom (10 * value + d) cs

def number? : List Char → Option ℕ
  | [] => none
  | c :: cs => (digit? c).bind fun d => digitsFrom d cs

/-- The limit on the digits of a string that becomes an integer. -/
def maxStrDigits : ℕ := 4300

def digits? (s : List Char) : Option ℕ :=
  if (s.filter (· ≠ '_')).length > maxStrDigits then none else number? s

/-- `int` of a string; `none` where it raises ValueError. -/
def int? (s : List Char) : Option ℤ := Text.signed? digits? (strip s)

/-- `str.lower` of one character, for letters whose lower case is a letter of ASCII. -/
def lowerRune (c : Char) : Char := if c = '\u212A' then 'k' else c.toLower

def lower (s : List Char) : List Char := s.map lowerRune

/-- `rsplit(" ", 1)`, where it has two parts. -/
def rsplit (s : List Char) : Option (List Char × List Char) :=
  (Text.rfind [' '] s).map fun i => (s.take i, s.drop (i + 1))

end Python

namespace JavaScript

/-- White space and line terminators, which `trim` removes. -/
def isSpace (c : Char) : Bool := isCommonSpace c || c.toNat = 0xFEFF

def trim (s : List Char) : List Char := Text.trim isSpace s

/-- The double closest to a natural number below 2^1024, ties to even. -/
def double (n : ℕ) : ℕ :=
  if n < 2 ^ 53 then n
  else
    let unit := 2 ^ (n.log2 - 52)
    let quotient := n / unit
    let rest := n % unit
    if 2 * rest > unit ∨ 2 * rest = unit ∧ quotient % 2 = 1 then (quotient + 1) * unit
    else quotient * unit

/-- `parseInt(s, 10)`; `none` is NaN. -/
def parseInt (s : List Char) : Option ℤ :=
  Text.signed? (fun ds => (Text.digits? (ds.takeWhile Char.isDigit)).map double)
    (s.dropWhile isSpace)

end JavaScript

/-! ## Plain decimal numbers -/

/-- White space of any of the three languages. -/
def isBlank (c : Char) : Bool := Go.isSpace c || Python.isSpace c || JavaScript.isSpace c

section Digits

variable {c : Char}

theorem isDigit_bounds (h : c.isDigit = true) : 48 ≤ c.toNat ∧ c.toNat ≤ 57 := by
  simp only [Char.isDigit, Bool.and_eq_true, decide_eq_true_eq] at h
  exact ⟨h.1, h.2⟩

theorem isBlank_of_isDigit (h : c.isDigit = true) : isBlank c = false := by
  have hbounds := isDigit_bounds h
  simp only [isBlank, Go.isSpace, Python.isSpace, JavaScript.isSpace, isCommonSpace,
    Bool.or_eq_false_iff, decide_eq_false_iff_not, List.mem_cons, List.not_mem_nil, or_false]
  omega

theorem Python.digit?_of_isDigit (h : c.isDigit = true) :
    Python.digit? c = some (c.toNat - '0'.toNat) := by
  obtain ⟨hlow, hhigh⟩ := isDigit_bounds h
  have hzeros : Python.zeros = 48 :: Python.zeros.tail := rfl
  rw [Python.digit?, hzeros, List.find?_cons_of_pos]
  · rfl
  · simpa using ⟨hlow, hhigh⟩

theorem Python.digitsFrom_of_isDigit {ds : List Char} (h : ∀ c ∈ ds, c.isDigit = true) (n : ℕ) :
    Python.digitsFrom n ds = some (Nat.ofDigitChars 10 ds n) := by
  induction ds generalizing n with
  | nil => rfl
  | cons c ds ih =>
      have hc := h c (List.mem_cons_self)
      have hne : c ≠ '_' := by
        rintro rfl
        simp at hc
      have hstep : Python.digitsFrom n (c :: ds) =
          (Python.digit? c).bind fun d => Python.digitsFrom (10 * n + d) ds := by
        rw [Python.digitsFrom]
        intro _ _ heq
        exact absurd heq hne
      rw [hstep, Python.digit?_of_isDigit hc, Option.bind_some,
        ih fun d hd => h d (List.mem_cons_of_mem _ hd), Nat.ofDigitChars_cons]

variable {ds : List Char}

theorem Text.digits?_of_isDigit (hne : ds ≠ []) (h : ∀ c ∈ ds, c.isDigit = true) :
    Text.digits? ds = some (Nat.ofDigitChars 10 ds 0) := by
  rw [Text.digits?, if_pos ⟨hne, List.all_eq_true.mpr h⟩]

theorem Python.digits?_of_length (h : ∀ c ∈ ds, c.isDigit = true)
    (hlength : ds.length > Python.maxStrDigits) : Python.digits? ds = none := by
  have hfilter : ds.filter (· ≠ '_') = ds := by
    refine List.filter_eq_self.mpr fun c hc => ?_
    have hne : c ≠ '_' := by
      rintro rfl
      simpa using h _ hc
    simpa using hne
  rw [Python.digits?, hfilter, if_pos hlength]

theorem Python.digits?_of_isDigit (hne : ds ≠ []) (h : ∀ c ∈ ds, c.isDigit = true)
    (hlength : ds.length ≤ Python.maxStrDigits) :
    Python.digits? ds = some (Nat.ofDigitChars 10 ds 0) := by
  obtain ⟨c, cs, rfl⟩ := List.exists_cons_of_ne_nil hne
  have hfilter := List.length_filter_le (· ≠ '_') (c :: cs)
  rw [Python.digits?, if_neg (by omega), Python.number?,
    Python.digit?_of_isDigit (h c (List.mem_cons_self)), Option.bind_some,
    Python.digitsFrom_of_isDigit fun d hd => h d (List.mem_cons_of_mem _ hd),
    Nat.ofDigitChars_cons]
  simp

/-- Nothing but a sign at the front is read as a sign. -/
theorem Text.signed?_of_unsigned {read : List Char → Option ℕ} {s : List Char}
    (h : ∀ c ∈ s, c ≠ '-' ∧ c ≠ '+') : Text.signed? read s = (read s).map fun n : ℕ => (n : ℤ) := by
  unfold Text.signed?
  split
  · exact absurd rfl (h '-' (List.mem_cons_self)).1
  · exact absurd rfl (h '+' (List.mem_cons_self)).2
  · cases read s <;> rfl

theorem unsigned_of_isDigit (h : ∀ c ∈ ds, c.isDigit = true) : ∀ c ∈ ds, c ≠ '-' ∧ c ≠ '+' := by
  intro c hc
  constructor <;>
    · rintro rfl
      exact absurd (h _ hc) (by decide)

end Digits

/-! ## Characters that are no part of a number -/

/-- White space stands for no digit and no sign. -/
theorem Python.digit?_of_isBlank {c : Char} (h : isBlank c = true) : Python.digit? c = none := by
  have hzeros : ∀ base ∈ Python.zeros, 0x30 ≤ base ∧ (base + 9 < 0x85 ∨ 0xA0 < base) ∧
      (base + 9 < 0x1680 ∨ 0x1680 < base) ∧ (base + 9 < 0x2000 ∨ 0x205F < base) ∧
      (base + 9 < 0x3000 ∨ 0x3000 < base) ∧ (base + 9 < 0xFEFF ∨ 0xFEFF < base) := by decide
  rw [Python.digit?, Option.map_eq_none_iff, List.find?_eq_none]
  intro base hbase
  have hbounds := hzeros base hbase
  simp only [isBlank, Go.isSpace, Python.isSpace, JavaScript.isSpace, isCommonSpace,
    Bool.or_eq_true, decide_eq_true_eq, List.mem_cons, List.not_mem_nil, or_false] at h
  simp only [decide_eq_true_eq]
  omega

theorem isDigit_of_isBlank {c : Char} (h : isBlank c = true) : c.isDigit = false := by
  by_contra hdigit
  rw [isBlank_of_isDigit (by simpa using hdigit)] at h
  cases h

theorem unsigned_of_isBlank {s : List Char} (h : ∀ c ∈ s, isBlank c = true) :
    ∀ c ∈ s, c ≠ '-' ∧ c ≠ '+' := by
  intro c hc
  constructor <;>
    · rintro rfl
      exact absurd (h _ hc) (by decide)

theorem isSpace_of_isBlank_eq_false {c : Char} (h : isBlank c = false) :
    Go.isSpace c = false ∧ Python.isSpace c = false ∧ JavaScript.isSpace c = false := by
  simpa [isBlank, and_assoc] using h
