import MiniDrop.Model.FlameStats

/-! # The flat differences between two profiles

FlameDiff compares the hot functions that `top.json` lists for two tasks. Whether a quotient of
floating-point numbers exceeds 0.2 is an argument. -/

namespace MiniDrop

/-- An entry of `top.json`. Both numbers have 64 bits. -/
structure FuncSample where
  func : String
  self : ℤ
  total : ℤ
deriving DecidableEq

/-- A number that does not fit is an error for the decoder, which leaves zero. -/
def decodeInt64 (n : ℤ) : ℤ := if int64 n = n then n else 0

/-- loadTopN, from what run_cpu_flamegraph has written. -/
def loadTopN (counts : Dict String ℤ) : List FuncSample :=
  (analyzeTopn counts 50).map fun f =>
    { func := f.func, self := decodeInt64 f.self, total := decodeInt64 f.total }

def normalizeFunc (name : String) : String := String.ofList (Go.trimSpace name.toList)

def diffAdded (top1 top2 : List FuncSample) : List FuncSample :=
  let existing := top1.map fun f => normalizeFunc f.func
  top2.filter fun f => normalizeFunc f.func ∉ existing

/-- The magnitude of safeRatio exceeds 0.2; without a base it is 1, or 0. -/
def ratioExceeds (exceeds : ℤ → ℤ → Bool) (diff base : ℤ) : Bool :=
  if base = 0 then diff ≠ 0 else exceeds diff base

def diffChanged (exceeds : ℤ → ℤ → Bool) (top1 top2 : List FuncSample) : List FuncSample :=
  let map1 := Dict.ofList (top1.map fun f => (normalizeFunc f.func, f))
  top2.filterMap fun f => do
    let old ← map1.get? (normalizeFunc f.func)
    let selfDiff := int64 (f.self - old.self)
    let totalDiff := int64 (f.total - old.total)
    if ratioExceeds exceeds selfDiff old.self ∨ ratioExceeds exceeds totalDiff old.total then
      some { func := f.func, self := selfDiff, total := totalDiff }
    else none

/-- The lists in the answer of FlameDiff. -/
structure FlatDiff where
  added : List FuncSample
  removed : List FuncSample
  changed : List FuncSample

/-- The flat part of FlameDiff, for the profiles of two tasks. -/
def flameDiff (exceeds : ℤ → ℤ → Bool) (counts1 counts2 : Dict String ℤ) : FlatDiff :=
  let top1 := loadTopN counts1
  let top2 := loadTopN counts2
  { added := diffAdded top1 top2
    removed := diffAdded top2 top1
    changed := diffChanged exceeds top1 top2 }

end MiniDrop
