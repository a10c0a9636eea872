import MiniDrop.Library.Characters
import MiniDrop.Library.Lines

/-! # Floating-point and whole numbers as Python reads them -/

namespace Python

/-- Underscores stand between digits. -/
def separates : List Char → Bool
  | c :: '_' :: d :: cs => (digit? c).isSome && (digit? d).isSome && separates (d :: cs)
  | '_' :: _ => false
  | [_, '_'] => false
  | _ :: cs => separates cs
  | [] => true

/-- The value of decimal digits. -/
def digitsNat (s : List Char) : ℕ := s.foldl (fun n c => 10 * n + (digit? c).getD 0) 0

def isDecimal (c : Char) : Bool := (digit? c).isSome

/-- The double closest to `n * 10 ^ e`. -/
def ofDecimal (n : ℕ) (e : ℤ) : Float :=
  if e < 0 then Float.ofScientific n true e.natAbs else Float.ofScientific n false e.natAbs

/-- The exponent at the end of a number. -/
def exponent? : List Char → Option ℤ
  | [] => some 0
  | c :: cs =>
    if c = 'e' ∨ c = 'E' then
      Text.signed? (fun ds => if ds ≠ [] ∧ ds.all isDecimal then some (digitsNat ds) else none) cs
    else none

/-- A number without a sign. -/
def decimal? (s : List Char) : Option Float :=
  let whole := s.takeWhile isDecimal
  let (fraction, rest) :=
    match s.dropWhile isDecimal with
    | '.' :: cs => (cs.takeWhile isDecimal, cs.dropWhile isDecimal)
    | cs => ([], cs)
  if whole = [] ∧ fraction = [] then none
  else (exponent? rest).map fun e => ofDecimal (digitsNat (whole ++ fraction)) (e - fraction.length)

/-- A number or a name of one, without a sign. -/
def unsigned? (s : List Char) : Option Float :=
  if s.map Char.toLower ∈ ["inf".toList, "infinity".toList] then some (1 / 0)
  else if s.map Char.toLower = "nan".toList then some (0 / 0)
  else if separates s then decimal? (s.filter (· ≠ '_')) else none

/-- `float` of a string; `none` where it raises ValueError. -/
def float? (s : List Char) : Option Float :=
  match strip s with
  | '-' :: cs => (unsigned? cs).map fun x => -x
  | '+' :: cs => unsigned? cs
  | cs => unsigned? cs

/-! ## Digits -/

theorem not_isSpace_of_isDecimal {c : Char} (h : isDecimal c = true) : isSpace c = false := by
  have hzeros : ∀ base ∈ zeros, base = 0x30 ∨ 0x660 ≤ base ∧ base ≤ 0x1620 ∨
      0x1700 ≤ base ∧ base ≤ 0x1F00 ∨ 0x3010 ≤ base := by decide
  rw [isDecimal, digit?, Option.isSome_map, Option.isSome_iff_exists] at h
  obtain ⟨base, hbase⟩ := h
  have hrange := hzeros base (List.mem_of_find?_eq_some hbase)
  have hbounds := List.find?_some hbase
  simp only [decide_eq_true_eq] at hbounds
  simp only [isSpace, isCommonSpace, Bool.or_eq_false_iff, decide_eq_false_iff_not,
    List.mem_cons, List.not_mem_nil, or_false]
  omega

/-! ## Whole numbers -/

section Digits

variable {ds : List Char}

theorem separates_of_notMem (h : '_' ∉ ds) : separates ds = true := by
  induction ds with
  | nil => rfl
  | cons c ds ih =>
      unfold separates
      split
      · rename_i heq
        exact absurd (by simp [heq]) h
      · rename_i heq
        exact absurd (by simp [heq]) h
      · rename_i heq
        exact absurd (by simp [heq]) h
      · rename_i heq
        obtain ⟨-, rfl⟩ := List.cons.inj heq
        exact ih (List.not_mem_of_not_mem_cons h)
      · rfl

theorem separates_of_isDigit (h : ∀ c ∈ ds, c.isDigit = true) : separates ds = true :=
  separates_of_notMem fun hmem => absurd (h _ hmem) (by decide)

theorem digitsNat_of_isDigit (h : ∀ c ∈ ds, c.isDigit = true) :
    digitsNat ds = Nat.ofDigitChars 10 ds 0 := by
  have hfold : ∀ n, ds.foldl (fun n c => 10 * n + (digit? c).getD 0) n =
      Nat.ofDigitChars 10 ds n := by
    induction ds with
    | nil => exact fun n => by rw [List.foldl_nil, Nat.ofDigitChars_nil]
    | cons c ds ih =>
        obtain ⟨hc, hds⟩ := List.forall_mem_cons.mp h
        intro n
        rw [List.foldl_cons, digit?_of_isDigit hc, ih hds, Nat.ofDigitChars_cons]
        rfl
  exact hfold 0

theorem isDecimal_of_isDigit {c : Char} (h : c.isDigit = true) : isDecimal c = true := by
  rw [isDecimal, digit?_of_isDigit h]
  rfl

theorem unsigned?_of_isDigit (hne : ds ≠ []) (h : ∀ c ∈ ds, c.isDigit = true) :
    unsigned? ds = some (Float.ofNat (Nat.ofDigitChars 10 ds 0)) := by
  obtain ⟨c, cs, rfl⟩ := List.exists_cons_of_ne_nil hne
  have hc := h c List.mem_cons_self
  have hlower : c.toLower = c := by
    have hbounds := isDigit_bounds hc
    refine dif_neg ?_
    rintro ⟨hupper, -⟩
    have hle : 65 ≤ c.toNat := hupper
    omega
  have hletter : c ≠ 'i' ∧ c ≠ 'n' := by
    constructor <;>
      · rintro rfl
        exact absurd hc (by decide)
  have hfilter : (c :: cs).filter (· ≠ '_') = c :: cs := by
    refine List.filter_eq_self.mpr fun d hd => ?_
    have hne : d ≠ '_' := by
      rintro rfl
      exact absurd (h _ hd) (by decide)
    simpa using hne
  have hdecimal : ∀ d ∈ c :: cs, isDecimal d = true := fun d hd => isDecimal_of_isDigit (h d hd)
  have htake : (c :: cs).takeWhile isDecimal = c :: cs := List.takeWhile_eq_self_iff.mpr hdecimal
  have hdrop : (c :: cs).dropWhile isDecimal = [] := List.dropWhile_eq_nil_iff.mpr hdecimal
  rw [unsigned?, if_neg (by simp [hlower, hletter]), if_neg (by simp [hlower, hletter]),
    separates_of_isDigit h, if_pos rfl, hfilter, decimal?, htake, hdrop]
  dsimp only
  rw [if_neg (by simp), List.append_nil, digitsNat_of_isDigit h]
  rfl

end Digits

/-! ## Whole numbers with a sign -/

theorem not_isSpace_of_isDigit {c : Char} (h : c.isDigit = true ∨ c = '-') : isSpace c = false := by
  rcases h with h | rfl
  · exact (isSpace_of_isBlank_eq_false (isBlank_of_isDigit h)).2.1
  · decide

theorem isDigit_of_mem_toDigits {n : ℕ} : ∀ c ∈ Nat.toDigits 10 n, c.isDigit = true :=
  fun _ hc => Nat.isDigit_of_mem_toDigits (by omega) (by omega) hc

theorem strip_toDigits (n : ℕ) : strip (Nat.toDigits 10 n) = Nat.toDigits 10 n :=
  Text.trim_eq_self fun c hc => not_isSpace_of_isDigit (.inl (isDigit_of_mem_toDigits c hc))

theorem strip_neg_toDigits (n : ℕ) : strip ('-' :: Nat.toDigits 10 n) = '-' :: Nat.toDigits 10 n :=
  Text.trim_eq_self fun _ hc => not_isSpace_of_isDigit
    ((List.mem_cons.mp hc).elim .inr fun hc => .inl (isDigit_of_mem_toDigits _ hc))

theorem unsigned?_toDigits (n : ℕ) : unsigned? (Nat.toDigits 10 n) = some (Float.ofNat n) := by
  rw [unsigned?_of_isDigit Nat.toDigits_ne_nil isDigit_of_mem_toDigits,
    Nat.ofDigitChars_ten_toDigits]

theorem float?_toDigits (n : ℕ) : float? (Nat.toDigits 10 n) = some (Float.ofNat n) := by
  have hsign := @unsigned_of_isDigit (Nat.toDigits 10 n) isDigit_of_mem_toDigits
  rw [float?, strip_toDigits]
  split
  · rename_i heq
    exact absurd rfl (hsign '-' (by simp [heq])).1
  · rename_i heq
    exact absurd rfl (hsign '+' (by simp [heq])).2
  · exact unsigned?_toDigits n

theorem float?_neg_toDigits (n : ℕ) :
    float? ('-' :: Nat.toDigits 10 n) = some (-Float.ofNat n) := by
  rw [float?, strip_neg_toDigits]
  change (unsigned? (Nat.toDigits 10 n)).map (fun x => -x) = _
  rw [unsigned?_toDigits, Option.map_some]

variable {n : ℕ}

theorem digits?_toDigits (hlength : (Nat.toDigits 10 n).length ≤ maxStrDigits) :
    digits? (Nat.toDigits 10 n) = some n := by
  rw [digits?_of_isDigit Nat.toDigits_ne_nil isDigit_of_mem_toDigits hlength,
    Nat.ofDigitChars_ten_toDigits]

theorem int?_toDigits (hlength : (Nat.toDigits 10 n).length ≤ maxStrDigits) :
    int? (Nat.toDigits 10 n) = some (n : ℤ) := by
  rw [int?, strip_toDigits, Text.signed?_toDigits _ (digits?_toDigits hlength)]

theorem int?_neg_toDigits (hlength : (Nat.toDigits 10 n).length ≤ maxStrDigits) :
    int? ('-' :: Nat.toDigits 10 n) = some (-(n : ℤ)) := by
  rw [int?, strip_neg_toDigits, Text.signed?, digits?_toDigits hlength]
  rfl

end Python
