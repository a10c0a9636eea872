import Mathlib.Algebra.Order.Field.Rat
import MiniDrop.Library.Floats
import MiniDrop.Library.Dict

/-! # Values of JSON in Python

The numbers of a program are doubles, or the exact numbers that they stand for. -/

namespace Python

/-! ## Numbers in a text -/

/-- The digits and the exponent of a number without a sign. -/
def scientific? (s : List Char) : Option (ℕ × ℤ) :=
  let whole := s.takeWhile isDecimal
  let (fraction, rest) :=
    match s.dropWhile isDecimal with
    | '.' :: cs => (cs.takeWhile isDecimal, cs.dropWhile isDecimal)
    | cs => ([], cs)
  if whole = [] ∧ fraction = [] then none
  else (exponent? rest).map fun e => (digitsNat (whole ++ fraction), e - fraction.length)

/-- A floating-point number is read from the same digits. -/
theorem decimal?_eq (s : List Char) :
    decimal? s = (scientific? s).map fun number => ofDecimal number.1 number.2 := by
  have hparts : ∀ (parts : List Char × List Char) (whole : List Char),
      (if whole = [] ∧ parts.1 = [] then none
        else (exponent? parts.2).map fun e =>
          ofDecimal (digitsNat (whole ++ parts.1)) (e - parts.1.length)) =
      (if whole = [] ∧ parts.1 = [] then none
        else (exponent? parts.2).map fun e =>
          (digitsNat (whole ++ parts.1), e - (parts.1.length : ℤ))).map
            fun number => ofDecimal number.1 number.2 := by
    intro parts whole
    split
    · rfl
    · rw [Option.map_map]
      rfl
  exact hparts _ _

/-- `n * 10 ^ e`. -/
def scaled (n : ℕ) (e : ℤ) : ℚ := if e < 0 then n / 10 ^ e.natAbs else n * 10 ^ e.natAbs

def unsignedRational? (s : List Char) : Option ℚ :=
  if separates s then (scientific? (s.filter (· ≠ '_'))).map fun number => scaled number.1 number.2
  else none

/-- The exact value of `float` of a string. -/
def rational? (s : List Char) : Option ℚ :=
  match strip s with
  | '-' :: cs => (unsignedRational? cs).map fun q => -q
  | '+' :: cs => unsignedRational? cs
  | cs => unsignedRational? cs

end Python

/-- What Python does with numbers that are not whole. -/
structure Numbers (N : Type) where
  ofInt : ℤ → N
  /-- `float` of a string; `none` where it raises ValueError. -/
  read : List Char → Option N
  isZero : N → Bool
  /-- `int` of a number; `none` where it raises. -/
  trunc : N → Option ℤ

namespace Numbers

/-- Exact numbers, without infinite ones. -/
def exact : Numbers ℚ where
  ofInt := Int.cast
  read := Python.rational?
  isZero q := q = 0
  trunc q := some (q.num.tdiv q.den)

/-- A finite double is a number of 53 bits times a power of two. -/
def truncFloat (x : Float) : Option ℤ :=
  if x.isNaN || x.isInf then none
  else
    let (mantissa, exponent) := x.frExp
    let n := (mantissa.scaleB 53).toInt64.toInt
    some (if exponent < 53 then n.tdiv (2 ^ (53 - exponent).toNat) else n * 2 ^ (exponent - 53).toNat)

def doubles : Numbers Float where
  ofInt := Float.ofInt
  read := Python.float?
  isZero x := x == 0
  trunc := truncFloat

end Numbers

/-- The keys of a dictionary are different. -/
inductive Json (N : Type) where
  | null
  | bool (b : Bool)
  | int (n : ℤ)
  | float (x : N)
  | str (s : String)
  | list (items : List (Json N))
  | dict (entries : List (String × Json N))

namespace Json

variable {N : Type} (num : Numbers N)

/-- `bool` of a value. -/
def truthy : Json N → Bool
  | null => false
  | bool b => b
  | int n => n ≠ 0
  | float x => !num.isZero x
  | str s => s ≠ ""
  | list items => !items.isEmpty
  | dict entries => !entries.isEmpty

/-- A value that is an `int` or a `float`, which truth values are as well. -/
def number? : Json N → Option N
  | bool b => some (num.ofInt (if b then 1 else 0))
  | int n => some (num.ofInt n)
  | float x => some x
  | _ => none

/-- `float` of a value; `none` where it raises. -/
def float? : Json N → Option N
  | str s => num.read s.toList
  | v => v.number? num

/-- `int` of a value; `none` where it raises. -/
def int? : Json N → Option ℤ
  | bool b => some (if b then 1 else 0)
  | int n => some n
  | float x => num.trunc x
  | str s => Python.int? s.toList
  | _ => none

def list? : Json N → Option (List (Json N))
  | list items => some items
  | _ => none

def dict? : Json N → Option (List (String × Json N))
  | dict entries => some entries
  | _ => none

/-- `str` of a value, where `repr` prints those that are no strings. -/
def text (repr : Json N → String) : Json N → String
  | str s => s
  | v => repr v

/-- The first of these keys with a value that is not empty, or the other value. -/
def getOr (item : List (String × Json N)) (keys : List String) (other : Json N) : Json N :=
  ((keys.map fun key => (Dict.lookup key item).getD null).find? (truthy num)).getD other

/-- Of the keys only one is there. -/
theorem getOr_eq {item : List (String × Json N)} {keys : List String} {key : String} {v : Json N}
    (hmem : key ∈ keys) (hvalue : Dict.lookup key item = some v)
    (hothers : ∀ k ∈ keys, k ≠ key → Dict.lookup k item = none) (other : Json N) :
    getOr num item keys other = if v.truthy num then v else other := by
  have hkey : ((Dict.lookup key item).getD null).truthy num = v.truthy num := by rw [hvalue]; rfl
  have honly : ∀ k ∈ keys, ((Dict.lookup k item).getD null).truthy num = true → k = key := by
    intro k hk htrue
    by_contra hne
    rw [hothers k hk hne] at htrue
    exact Bool.false_ne_true htrue
  rw [getOr, List.find?_map]
  split
  · next htrue =>
      obtain ⟨k, hk⟩ := Option.isSome_iff_exists.mp (List.find?_isSome.mpr
        ⟨key, hmem, show (truthy num ∘ fun k => (Dict.lookup k item).getD null) key = true by
          rw [Function.comp_apply, hkey, htrue]⟩)
      have hk' : ((Dict.lookup k item).getD null).truthy num = true := List.find?_some
        (p := truthy num ∘ fun k => (Dict.lookup k item).getD null) hk
      rw [hk, honly k (List.mem_of_find?_eq_some hk) hk', Option.map_some, hvalue]
      rfl
  · next hfalse =>
      have hnone : keys.find? (truthy num ∘ fun k => (Dict.lookup k item).getD null) = none := by
        refine List.find?_eq_none.mpr fun k hk htrue => hfalse ?_
        rw [← hkey, ← honly k hk htrue]
        exact htrue
      rw [hnone]
      rfl

end Json
