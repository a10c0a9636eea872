import MiniDrop.Library.Floats

/-! # Whole numbers in decimal -/

theorem toList_toString_int (k : ℤ) :
    (toString k).toList = if k < 0 then '-' :: Nat.toDigits 10 k.natAbs
      else Nat.toDigits 10 k.natAbs := by
  cases k with
  | ofNat n =>
      simp only [Int.ofNat_eq_natCast, Int.not_lt.mpr (Int.natCast_nonneg n), if_false]
      exact Nat.toList_repr
  | negSucc n =>
      rw [if_pos (Int.negSucc_lt_zero n)]
      change ("-" ++ Nat.repr (n + 1)).toList = _
      rw [String.toList_append, Nat.toList_repr]
      rfl

namespace Python

/-- The digits of a number, and its sign. -/
def str (n : ℤ) : List Char := (toString n).toList

/-- `str` of a number; `none` where it raises ValueError. -/
def str? (n : ℤ) : Option (List Char) :=
  if (Nat.toDigits 10 n.natAbs).length > maxStrDigits then none else some (str n)

section Str

variable {n : ℤ}

theorem str_cases (n : ℤ) : str n = Nat.toDigits 10 n.natAbs ∧ 0 ≤ n ∨
    str n = '-' :: Nat.toDigits 10 n.natAbs ∧ n < 0 := by
  unfold str
  rw [toList_toString_int]
  split
  · rename_i hneg
    exact .inr ⟨rfl, hneg⟩
  · rename_i hnonneg
    exact .inl ⟨rfl, Int.not_lt.mp hnonneg⟩

theorem mem_str {c : Char} (h : c ∈ str n) : c.isDigit = true ∨ c = '-' := by
  rcases str_cases n with ⟨heq, -⟩ | ⟨heq, -⟩
  · rw [heq] at h
    exact .inl (isDigit_of_mem_toDigits c h)
  · rw [heq] at h
    exact (List.mem_cons.mp h).elim .inr fun h => .inl (isDigit_of_mem_toDigits c h)

theorem str_ne_nil (n : ℤ) : str n ≠ [] := by
  rcases str_cases n with ⟨heq, -⟩ | ⟨heq, -⟩
  · rw [heq]
    exact Nat.toDigits_ne_nil
  · rw [heq]
    exact List.cons_ne_nil _ _

theorem not_isSpace_of_mem_str {c : Char} (h : c ∈ str n) : isSpace c = false :=
  not_isSpace_of_isDigit (mem_str h)

theorem ne_of_mem_str {c d : Char} (h : c ∈ str n) (hdigit : d.isDigit = false) (hminus : d ≠ '-') :
    c ≠ d := by
  rintro rfl
  rcases mem_str h with h | h
  · rw [h] at hdigit
    cases hdigit
  · exact hminus h

theorem length_str_le (n : ℤ) : (str n).length ≤ (Nat.toDigits 10 n.natAbs).length + 1 := by
  rcases str_cases n with ⟨heq, -⟩ | ⟨heq, -⟩
  · rw [heq]
    exact Nat.le_succ _
  · rw [heq, List.length_cons]

theorem strip_str (n : ℤ) : strip (str n) = str n :=
  Text.trim_eq_self fun _ hc => not_isSpace_of_mem_str hc

/-- A number is read back if it does not have too many digits. -/
theorem int?_str (h : (Nat.toDigits 10 n.natAbs).length ≤ maxStrDigits) : int? (str n) = some n := by
  rcases str_cases n with ⟨heq, hnonneg⟩ | ⟨heq, hneg⟩
  · rw [heq, int?_toDigits h, Int.natAbs_of_nonneg hnonneg]
  · rw [heq, int?_neg_toDigits h, Int.ofNat_natAbs_of_nonpos (Int.le_of_lt hneg), Int.neg_neg]

theorem str_natCast (n : ℕ) : str n = Nat.toDigits 10 n :=
  (str_cases n).elim And.left fun h => absurd h.2 (Int.not_lt.mpr (Int.natCast_nonneg n))

theorem int?_str_natCast_eq_none {n : ℕ} (h : maxStrDigits < (Nat.toDigits 10 n).length) :
    int? (str n) = none := by
  have hdigits : ∀ c ∈ Nat.toDigits 10 n, c.isDigit = true := isDigit_of_mem_toDigits
  rw [int?, strip_str, str_natCast, Text.signed?_of_unsigned (unsigned_of_isDigit hdigits),
    digits?_of_length hdigits h]
  rfl

theorem float?_str (n : ℤ) : float? (str n) = some (Float.ofInt n) := by
  cases n with
  | ofNat n =>
      have heq : str (Int.ofNat n) = Nat.toDigits 10 n :=
        (str_cases (Int.ofNat n)).elim And.left fun h => absurd h.2 (by simp)
      rw [heq, float?_toDigits]
      rfl
  | negSucc n =>
      have heq : str (Int.negSucc n) = '-' :: Nat.toDigits 10 (n + 1) :=
        (str_cases (Int.negSucc n)).elim
          (fun h => absurd h.2 (Int.not_le.mpr (Int.negSucc_lt_zero n))) And.left
      rw [heq, float?_neg_toDigits]
      rfl

end Str

end Python
