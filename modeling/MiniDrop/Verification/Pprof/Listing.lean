import MiniDrop.Library.Words
import MiniDrop.Model.Pprof

/-! # Listings

What go tool pprof prints: a preamble, a header and a row for each function. -/

namespace MiniDrop.Pprof

open Regex (Filled)

/-! ## Numbers -/

/-- A number with or without a fraction. -/
structure Decimal where
  whole : List Char
  fraction : Option (List Char) := none
  ne : whole ≠ []
  digits : ∀ c ∈ whole ++ fraction.getD [], c.isDigit = true

namespace Decimal

def text (n : Decimal) : List Char := n.whole ++ (n.fraction.map ('.' :: ·)).getD []

def value (n : Decimal) : ℚ :=
  Nat.ofDigitChars 10 n.whole 0 +
    Nat.ofDigitChars 10 (n.fraction.getD []) 0 / 10 ^ (n.fraction.getD []).length

end Decimal

/-! ## Amounts -/

/-- Units in which amounts are printed. -/
class PrintedUnit (U : Type) where
  text : U → List Char
  size : U → ℚ
  letters : ∀ u, (text u).all isLetter = true

inductive TimeUnit where
  | ns | us | ms | s | mins | hrs
deriving DecidableEq

/-- Times are in seconds. -/
instance : PrintedUnit TimeUnit where
  text
    | .ns => ['n', 's']
    | .us => ['u', 's']
    | .ms => ['m', 's']
    | .s => ['s']
    | .mins => ['m', 'i', 'n', 's']
    | .hrs => ['h', 'r', 's']
  size
    | .ns => 1 / 10 ^ 9
    | .us => 1 / 10 ^ 6
    | .ms => 1 / 10 ^ 3
    | .s => 1
    | .mins => 60
    | .hrs => 3600
  letters u := by cases u <;> rfl

inductive SizeUnit where
  | b | kB | mB | gB | tB | pB
deriving DecidableEq

/-- Sizes are in bytes. -/
instance : PrintedUnit SizeUnit where
  text
    | .b => ['B']
    | .kB => ['k', 'B']
    | .mB => ['M', 'B']
    | .gB => ['G', 'B']
    | .tB => ['T', 'B']
    | .pB => ['P', 'B']
  size
    | .b => 1
    | .kB => 1024
    | .mB => 1024 ^ 2
    | .gB => 1024 ^ 3
    | .tB => 1024 ^ 4
    | .pB => 1024 ^ 5
  letters u := by cases u <;> rfl

inductive Amount (U : Type) where
  /-- `0`, which has no unit. -/
  | zero
  | of (number : Decimal) (unit : U)

namespace Amount

variable {U : Type} [PrintedUnit U]

def number : Amount U → Decimal
  | zero =>
    { whole := ['0']
      ne := List.cons_ne_nil _ _
      digits := fun c hc => by rw [List.mem_singleton.mp hc]; rfl }
  | of number _ => number

def unitText : Amount U → List Char
  | zero => []
  | of _ unit => PrintedUnit.text unit

def text (a : Amount U) : List Char := a.number.text ++ a.unitText

def value : Amount U → ℚ
  | zero => 0
  | of number unit => number.value * PrintedUnit.size unit

/-- The unit, if there is one, is among these. -/
def UnitIn (units : List U) : Amount U → Prop
  | zero => True
  | of _ unit => unit ∈ units

instance [DecidableEq U] (units : List U) : (a : Amount U) → Decidable (a.UnitIn units)
  | zero => .isTrue trivial
  | of _ unit => inferInstanceAs (Decidable (unit ∈ units))

end Amount

/-! ## Rows -/

/-- Columns are apart by one blank or more. -/
def blanks (n : ℕ) : List Char := List.replicate (n + 1) ' '

structure Row (U : Type) where
  flat : Amount U
  flatPercent : Decimal
  sumPercent : Decimal
  cum : Amount U
  cumPercent : Decimal
  name : List Char
  indent : ℕ := 0
  /-- Blanks behind each column, besides one. -/
  gap : Fin 5 → ℕ := 0
  clear : '\n' ∉ name

section

variable {U : Type} [PrintedUnit U]

namespace Row

/-- The units are among these, and the name is as the listing shows it: not blank, with no white
space at its ends. -/
structure Legible (units : List U) (r : Row U) : Prop where
  flat : r.flat.UnitIn units
  cum : r.cum.UnitIn units
  ne : r.name ≠ []
  trimmed : Python.strip r.name = r.name

/-- The cumulative columns, and what is behind them. -/
def back (r : Row U) (rest : List Char) : List Char :=
  r.cum.text ++ (blanks (r.gap 3) ++ (r.cumPercent.text ++ '%' :: rest))

/-- The columns, and what is behind them. -/
def front (r : Row U) (rest : List Char) : List Char :=
  r.flat.text ++ (blanks (r.gap 0) ++ (r.flatPercent.text ++ '%' :: (blanks (r.gap 1) ++
    (r.sumPercent.text ++ '%' :: (blanks (r.gap 2) ++ r.back rest)))))

def line (r : Row U) : List Char :=
  List.replicate r.indent ' ' ++ r.front (blanks (r.gap 4) ++ r.name)

end Row

/-! ## Listings -/

/-- No line of the preamble begins with a digit or is a row for one of the patterns. -/
structure Listing (U : Type) (patterns : List Regex) where
  preamble : List (List Char)
  header : List Char
  rows : List (Row U)
  preamble_clear : ∀ line ∈ preamble, '\n' ∉ line
  preamble_head : ∀ line ∈ preamble, ∀ c ∈ line.head?, c.isDigit = false
  preamble_row : ∀ line ∈ preamble, ∀ r ∈ patterns, r.groups? (Python.strip line) = none
  header_clear : '\n' ∉ header
  header_flat : ['f', 'l', 'a', 't'].isPrefixOf (Python.strip header) = true
  names : (rows.map Row.name).Nodup

namespace Listing

variable {patterns : List Regex}

def lines (d : Listing U patterns) : List (List Char) :=
  d.preamble ++ d.header :: d.rows.map Row.line

def text (d : Listing U patterns) : List Char := d.lines.flatMap (· ++ ['\n'])

end Listing

end

end MiniDrop.Pprof
