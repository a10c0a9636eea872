import Mathlib.Algebra.Ring.Int.Defs
import Mathlib.Algebra.Ring.Nat
import Mathlib.Data.List.Basic
import Mathlib.Data.List.Infix
import Mathlib.Data.List.DropRight
import Mathlib.Data.Int.Notation

/-! # Searching, trimming and reading decimal numbers in sequences of characters -/

namespace Text

/-! ## Substrings -/

section Search

variable {α : Type*}

theorem prefix_append_cons_of_notMem {pat : List α} {sep : α} (hsep : sep ∉ pat)
    (s r : List α) : pat <+: s ++ sep :: r ↔ pat <+: s := by
  induction pat generalizing s with
  | nil => simp
  | cons c pat ih =>
      obtain ⟨hc, hpat⟩ : sep ≠ c ∧ sep ∉ pat := by simpa using hsep
      cases s with
      | nil => simp [hc.symm]
      | cons d s => simp [List.cons_prefix_cons, ih hpat]

variable [DecidableEq α]

/-- Start of the last occurrence of `pat`, as `std::string::rfind` and `strings.LastIndex`
compute it. -/
def rfind (pat : List α) : List α → Option ℕ
  | [] => if pat = [] then some 0 else none
  | c :: s =>
    match rfind pat s with
    | some i => some (i + 1)
    | none => if pat <+: c :: s then some 0 else none

theorem rfind_eq_none_iff {pat s : List α} : rfind pat s = none ↔ ¬pat <:+: s := by
  induction s with
  | nil => simp [rfind]
  | cons c s ih =>
      rw [List.infix_cons_iff]
      cases h : rfind pat s with
      | some i =>
          have hin : pat <:+: s := by
            by_contra hout
            simp [ih.mpr hout] at h
          simp [rfind, h, hin]
      | none => simp [rfind, h, ih.mp h]

/-- Characters in front shift the last occurrence. -/
theorem rfind_append {pat t : List α} {i : ℕ} (h : rfind pat t = some i) (s : List α) :
    rfind pat (s ++ t) = some (s.length + i) := by
  induction s with
  | nil => simpa using h
  | cons c s ih =>
      simp only [List.cons_append, rfind, ih, List.length_cons, Option.some.injEq]
      omega

/-- What follows a separator outside `pat` does not move the last occurrence, unless `pat`
occurs there. -/
theorem rfind_append_cons_of_notMem {pat : List α} {sep : α} (hsep : sep ∉ pat)
    (hne : pat ≠ []) (s : List α) {r : List α} (hr : ¬pat <:+: r) :
    rfind pat (s ++ sep :: r) = rfind pat s := by
  induction s with
  | nil =>
      have hstart : ¬pat <+: sep :: r := by
        have h := prefix_append_cons_of_notMem hsep [] r
        simp only [List.nil_append, List.prefix_nil] at h
        exact fun hp => hne (h.mp hp)
      simp [rfind, rfind_eq_none_iff.mpr hr, hstart, hne]
  | cons c s ih =>
      have h := prefix_append_cons_of_notMem hsep (c :: s) r
      simp only [List.cons_append] at h
      simp only [List.cons_append, rfind, ih, h]

theorem rfind_cons_self {c : α} {pat t : List α} (ht : c ∉ pat ++ t) :
    rfind (c :: pat) (c :: pat ++ t) = some 0 := by
  have hnone : rfind (c :: pat) (pat ++ t) = none := by
    rw [rfind_eq_none_iff]
    intro hin
    exact ht (hin.subset (by simp))
  have hstart : c :: pat <+: c :: (pat ++ t) := List.prefix_append (c :: pat) t
  simp only [List.cons_append, rfind, hnone, if_pos hstart]

/-- The text splits at the last occurrence. -/
theorem eq_of_rfind {pat s : List α} {i : ℕ} (h : rfind pat s = some i) :
    s = s.take i ++ pat ++ s.drop (i + pat.length) := by
  induction s generalizing i with
  | nil =>
      by_cases hp : pat = []
      · simp [hp]
      · simp [rfind, hp] at h
  | cons c s ih =>
      cases hs : rfind pat s with
      | some j =>
          obtain rfl : j + 1 = i := by simpa [rfind, hs] using h
          have h := ih hs
          rw [show j + 1 + pat.length = (j + pat.length) + 1 by omega]
          simpa using h
      | none =>
          by_cases hp : pat <+: c :: s
          · obtain rfl : 0 = i := by simpa [rfind, hs, hp] using h
            obtain ⟨t, ht⟩ := hp
            simp [← ht]
          · simp [rfind, hs, hp] at h

theorem le_length_of_rfind {pat s : List α} {i : ℕ} (h : rfind pat s = some i) :
    i + pat.length ≤ s.length := by
  induction s generalizing i with
  | nil =>
      by_cases hp : pat = []
      · obtain rfl : 0 = i := by simpa [rfind, hp] using h
        simp [hp]
      · simp [rfind, hp] at h
  | cons c s ih =>
      cases hs : rfind pat s with
      | some j =>
          obtain rfl : j + 1 = i := by simpa [rfind, hs] using h
          have hlen := ih hs
          simp only [List.length_cons]
          omega
      | none =>
          by_cases hp : pat <+: c :: s
          · obtain rfl : 0 = i := by simpa [rfind, hs, hp] using h
            simpa using hp.length_le
          · simp [rfind, hs, hp] at h

end Search

/-! ## Trimming and cutting -/

section Trim

variable {α : Type*} (p : α → Bool)

/-- Removes the characters satisfying `p` from both ends. -/
def trim (s : List α) : List α :=
  (s.dropWhile p).rdropWhile p

@[simp] theorem trim_nil : trim p [] = [] := rfl

theorem rdropWhile_append_of_neg {s t : List α} {c : α} (hc : p c = false) :
    (s ++ c :: t).rdropWhile p = s ++ c :: t.rdropWhile p := by
  induction t using List.reverseRecOn with
  | nil => simp [hc]
  | append_singleton t d ih =>
      have hassoc : s ++ c :: (t ++ [d]) = (s ++ c :: t) ++ [d] := by simp
      rw [hassoc, List.rdropWhile_concat, List.rdropWhile_concat, ih]
      split <;> simp

theorem dropWhile_append_of_neg {s t : List α} {c : α} (hc : p c = false) :
    (s ++ c :: t).dropWhile p = s.dropWhile p ++ c :: t := by
  induction s with
  | nil => simp [hc]
  | cons d s ih =>
      rw [List.cons_append, List.dropWhile_cons, List.dropWhile_cons, ih]
      split <;> simp

/-- Trimming keeps whatever surrounds a character that is not trimmed. -/
theorem trim_append_cons {s t : List α} {c : α} (hc : p c = false) :
    trim p (s ++ c :: t) = s.dropWhile p ++ c :: t.rdropWhile p := by
  rw [trim, dropWhile_append_of_neg p hc, rdropWhile_append_of_neg p hc]

theorem takeWhile_append_cons_of_notMem {α : Type*} [DecidableEq α] {sep : α} {s : List α}
    (hsep : sep ∉ s) (t : List α) : (s ++ sep :: t).takeWhile (· ≠ sep) = s := by
  rw [List.takeWhile_append_of_pos]
  · simp
  · intro c hc
    have hne : c ≠ sep := by
      rintro rfl
      exact hsep hc
    simpa using hne

theorem trim_dropWhile (s : List α) : trim p (s.dropWhile p) = trim p s := by
  rw [trim, List.dropWhile_idempotent, trim]

end Trim

/-! ## Decimal numbers -/

/-- The value of a nonempty sequence of decimal digits. -/
def digits? (ds : List Char) : Option ℕ :=
  if ds ≠ [] ∧ ds.all Char.isDigit then some (Nat.ofDigitChars 10 ds 0) else none

theorem digits?_toDigits (n : ℕ) : digits? (Nat.toDigits 10 n) = some n := by
  have hall : (Nat.toDigits 10 n).all Char.isDigit = true :=
    List.all_eq_true.mpr fun c hc => Nat.isDigit_of_mem_toDigits (by omega) (by omega) hc
  simp [digits?, Nat.toDigits_ne_nil, hall, Nat.ofDigitChars_ten_toDigits]

/-- An optional sign followed by digits, the digits being read by `read`. -/
def signed? (read : List Char → Option ℕ) : List Char → Option ℤ
  | '-' :: ds => (read ds).map fun n => -(n : ℤ)
  | '+' :: ds => (read ds).map fun n => (n : ℤ)
  | ds => (read ds).map fun n => (n : ℤ)

theorem signed?_toDigits (read : List Char → Option ℕ) {n : ℕ}
    (h : read (Nat.toDigits 10 n) = some n) :
    signed? read (Nat.toDigits 10 n) = some (n : ℤ) := by
  have hdigit : ∀ c ∈ Nat.toDigits 10 n, c.isDigit = true := fun c hc =>
    Nat.isDigit_of_mem_toDigits (by omega) (by omega) hc
  unfold signed?
  split
  · rename_i ds heq
    have := hdigit '-' (by simp [heq])
    simp at this
  · rename_i ds heq
    have := hdigit '+' (by simp [heq])
    simp at this
  · simp [h]

end Text
