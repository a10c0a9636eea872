import MiniDrop.Library.Numerals

/-! # Formatted input

A stream gives the values between its blanks, as the extraction operators of C++ do: a stream
that has failed gives nothing more. -/

namespace Streams

structure InputStream where
  rest : List Char
  failed : Bool := false

/-- What a reader finds in front of a text, whether it is a value, and the text behind it. -/
abbrev Reader (α : Type) := List Char → α × Bool × List Char

section Extraction

variable (blank : Char → Bool) {α : Type}

/-- `operator>>` into a variable that holds `old`. -/
def extract (read : Reader α) (old : α) (s : InputStream) : α × InputStream :=
  if s.failed then (old, s)
  else
    match s.rest.dropWhile blank with
    | [] => (old, ⟨[], true⟩)
    | c :: rest => ((read (c :: rest)).1, ⟨(read (c :: rest)).2.2, !(read (c :: rest)).2.1⟩)

/-- Extracts values that are not used. -/
def skip (read : Reader α) (old : α) (n : ℕ) (s : InputStream) : InputStream :=
  (fun s => (extract blank read old s).2)^[n] s

/-- Extracts values until the stream fails, at most so many. -/
def extractMany (read : Reader α) (old : α) : ℕ → InputStream → List α
  | 0, _ => []
  | n + 1, s =>
    let (value, s) := extract blank read old s
    if s.failed then [] else value :: extractMany read old n s

end Extraction

/-! ## Readers -/

def readChar : Reader Char
  | [] => (' ', false, [])
  | c :: rest => (c, true, rest)

def readWord (blank : Char → Bool) : Reader (List Char) := fun s =>
  (s.takeWhile (!blank ·), true, s.dropWhile (!blank ·))

/-- The number that a text starts with. -/
def leading? (s : List Char) : Option ℤ :=
  Text.signed? (fun ds => Text.digits? (ds.takeWhile Char.isDigit)) s

/-- What follows the number that a text starts with. -/
def behindNumber : List Char → List Char
  | '-' :: s => s.dropWhile Char.isDigit
  | '+' :: s => s.dropWhile Char.isDigit
  | s => s.dropWhile Char.isDigit

/-- A number of 64 bits; one that does not fit is replaced by the closest that does. -/
def readLong : Reader ℤ := fun s =>
  match leading? s with
  | none => (0, false, behindNumber s)
  | some n =>
    if n < -2 ^ 63 then (-2 ^ 63, false, behindNumber s)
    else if 2 ^ 63 ≤ n then (2 ^ 63 - 1, false, behindNumber s)
    else (n, true, behindNumber s)

/-! ## What is printed is read -/

section Numbers

variable {n : ℤ} {t : List Char}

theorem takeWhile_toDigits_append (h : ∀ c ∈ t.head?, c.isDigit = false) (n : ℕ) :
    (Nat.toDigits 10 n ++ t).takeWhile Char.isDigit = Nat.toDigits 10 n ∧
      (Nat.toDigits 10 n ++ t).dropWhile Char.isDigit = t := by
  have hdigits : ∀ c ∈ Nat.toDigits 10 n, c.isDigit = true := Python.isDigit_of_mem_toDigits
  rw [List.takeWhile_append_of_pos hdigits, List.dropWhile_append_of_pos hdigits]
  cases t with
  | nil => simp
  | cons c t => simp [h c rfl]

/-- Digits come without a sign. -/
theorem toDigits_append_cases (n : ℕ) (t : List Char) :
    ∃ c s, Nat.toDigits 10 n ++ t = c :: s ∧ c ≠ '-' ∧ c ≠ '+' := by
  have hdigits : ∀ c ∈ Nat.toDigits 10 n, c.isDigit = true := Python.isDigit_of_mem_toDigits
  obtain ⟨c, ds, heq⟩ := List.exists_cons_of_ne_nil (Nat.toDigits_ne_nil (b := 10) (n := n))
  obtain ⟨hminus, hplus⟩ := unsigned_of_isDigit hdigits c (heq ▸ List.mem_cons_self)
  exact ⟨c, ds ++ t, by rw [heq, List.cons_append], hminus, hplus⟩

theorem leading?_cons {c : Char} (hminus : c ≠ '-') (hplus : c ≠ '+') (s : List Char) :
    leading? (c :: s) =
      (Text.digits? ((c :: s).takeWhile Char.isDigit)).map fun n : ℕ => (n : ℤ) := by
  unfold leading? Text.signed?
  split
  · rename_i heq
    exact absurd (List.cons.inj heq).1 hminus
  · rename_i heq
    exact absurd (List.cons.inj heq).1 hplus
  · dsimp only
    cases Text.digits? ((c :: s).takeWhile Char.isDigit) <;> rfl

theorem behindNumber_cons {c : Char} (hminus : c ≠ '-') (hplus : c ≠ '+') (s : List Char) :
    behindNumber (c :: s) = (c :: s).dropWhile Char.isDigit := by
  unfold behindNumber
  split
  · rename_i heq
    exact absurd (List.cons.inj heq).1 hminus
  · rename_i heq
    exact absurd (List.cons.inj heq).1 hplus
  · rfl

theorem leading?_str (h : ∀ c ∈ t.head?, c.isDigit = false) (n : ℤ) :
    leading? (Python.str n ++ t) = some n ∧ behindNumber (Python.str n ++ t) = t := by
  obtain ⟨htake, hdrop⟩ := takeWhile_toDigits_append h n.natAbs
  rcases Python.str_cases n with ⟨heq, hsign⟩ | ⟨heq, hsign⟩
  · obtain ⟨c, s, htext, hminus, hplus⟩ := toDigits_append_cases n.natAbs t
    rw [heq, htext, leading?_cons hminus hplus, behindNumber_cons hminus hplus, ← htext, htake,
      hdrop, Text.digits?_toDigits, Option.map_some, Int.natAbs_of_nonneg hsign]
    exact ⟨rfl, rfl⟩
  · rw [heq, List.cons_append, leading?, Text.signed?, htake, Text.digits?_toDigits]
    refine ⟨?_, hdrop⟩
    change some (-(n.natAbs : ℤ)) = some n
    rw [Int.ofNat_natAbs_of_nonpos (Int.le_of_lt hsign), Int.neg_neg]

theorem readLong_str (h : ∀ c ∈ t.head?, c.isDigit = false) (hmin : -2 ^ 63 ≤ n)
    (hmax : n < 2 ^ 63) : readLong (Python.str n ++ t) = (n, true, t) := by
  obtain ⟨hvalue, hrest⟩ := leading?_str h n
  unfold readLong
  rw [hvalue, hrest]
  dsimp only
  rw [if_neg (by omega), if_neg (by omega)]

end Numbers

/-! ## Values between blanks -/

/-- Each text behind the same character. -/
def spaced (c : Char) (texts : List (List Char)) : List Char := texts.flatMap (c :: ·)

/-- In front of a text without a blank at its head, up to the next `c`, the reader finds `v`. -/
structure Gives (blank : Char → Bool) (c : Char) {α : Type} (read : Reader α) (text : List Char)
    (v : α) : Prop where
  starts : ∃ d s, text = d :: s ∧ blank d = false
  reads : ∀ t, (∀ d ∈ t.head?, d = c) → read (text ++ t) = (v, true, t)

section Values

variable {blank : Char → Bool} {α : Type} {read : Reader α} {old v : α} {c : Char}
  {text : List Char} {texts : List (List Char)}

theorem head_spaced (c : Char) (texts : List (List Char)) : ∀ d ∈ (spaced c texts).head?, d = c := by
  cases texts with
  | nil => simp [spaced]
  | cons text texts => simp [spaced]

theorem extract_blank (hc : blank c = true) (old : α) (s : List Char) :
    extract blank read old ⟨c :: s, false⟩ = extract blank read old ⟨s, false⟩ := by
  simp [Streams.extract, hc]

theorem Gives.extract (h : Gives blank c read text v) (old : α) (texts : List (List Char)) :
    extract blank read old ⟨text ++ spaced c texts, false⟩ = (v, ⟨spaced c texts, false⟩) := by
  obtain ⟨d, s, rfl, hd⟩ := h.starts
  have hread := h.reads (spaced c texts) (head_spaced c texts)
  rw [List.cons_append] at hread ⊢
  unfold Streams.extract
  rw [if_neg Bool.false_ne_true, List.dropWhile_cons_of_neg (by simp [hd])]
  dsimp only
  rw [hread]
  rfl

theorem Gives.extract_spaced (h : Gives blank c read text v) (hc : blank c = true) (old : α)
    (texts : List (List Char)) : Streams.extract blank read old ⟨spaced c (text :: texts), false⟩ =
      (v, ⟨spaced c texts, false⟩) :=
  (extract_blank hc old _).trans (h.extract old texts)

theorem skip_spaced (hc : blank c = true) (old : α) {n : ℕ} (hn : n ≤ texts.length)
    (h : ∀ text ∈ texts.take n, ∃ v, Gives blank c read text v) :
    skip blank read old n ⟨spaced c texts, false⟩ = ⟨spaced c (texts.drop n), false⟩ := by
  induction n generalizing texts with
  | zero => rfl
  | succ n ih =>
      cases texts with
      | nil => simp at hn
      | cons text texts =>
          rw [List.take_succ_cons, List.forall_mem_cons] at h
          obtain ⟨⟨v, hv⟩, h⟩ := h
          rw [skip, Function.iterate_succ_apply, hv.extract_spaced hc]
          exact ih (Nat.le_of_succ_le_succ hn) h

/-- All values are extracted, and then the stream fails. -/
theorem extractMany_spaced (hc : blank c = true) {old : List Char} {read : Reader (List Char)} {n : ℕ}
    (hn : texts.length ≤ n) (h : ∀ text ∈ texts, Gives blank c read text text) :
    extractMany blank read old n ⟨spaced c texts, false⟩ = texts := by
  induction texts generalizing n with
  | nil =>
      cases n with
      | zero => rfl
      | succ n => rfl
  | cons text texts ih =>
      obtain ⟨hfirst, hrest⟩ := List.forall_mem_cons.mp h
      cases n with
      | zero => simp at hn
      | succ n =>
          rw [extractMany, hfirst.extract_spaced hc]
          dsimp only
          rw [if_neg Bool.false_ne_true, ih (Nat.le_of_succ_le_succ hn) hrest]

theorem extractMany_append (hc : blank c = true) {old : List Char} {read : Reader (List Char)}
    {n : ℕ} (hn : (text :: texts).length ≤ n)
    (h : ∀ w ∈ text :: texts, Gives blank c read w w) :
    extractMany blank read old n ⟨text ++ spaced c texts, false⟩ = text :: texts := by
  rw [← extractMany_spaced hc hn h]
  cases n with
  | zero => simp at hn
  | succ n =>
      change extractMany blank read old (n + 1) _ =
        extractMany blank read old (n + 1) ⟨c :: (text ++ spaced c texts), false⟩
      rw [extractMany, extractMany, extract_blank hc]

theorem gives_readWord (hc : blank c = true) (hne : text ≠ []) (h : ∀ d ∈ text, blank d = false) :
    Gives blank c (readWord blank) text text where
  starts := by
    obtain ⟨d, s, rfl⟩ := List.exists_cons_of_ne_nil hne
    exact ⟨d, s, rfl, h d List.mem_cons_self⟩
  reads t ht := by
    have hword : ∀ d ∈ text, (!blank d) = true := fun d hd => by rw [h d hd]; rfl
    unfold readWord
    rw [List.takeWhile_append_of_pos hword, List.dropWhile_append_of_pos hword]
    cases t with
    | nil => simp
    | cons d t => simp [ht d rfl, hc]

theorem gives_readLong {n : ℤ} (hblank : ∀ d ∈ Python.str n, blank d = false)
    (hc : c.isDigit = false) (hmin : -2 ^ 63 ≤ n) (hmax : n < 2 ^ 63) :
    Gives blank c readLong (Python.str n) n where
  starts := by
    obtain ⟨d, s, heq⟩ := List.exists_cons_of_ne_nil (Python.str_ne_nil n)
    exact ⟨d, s, heq, hblank d (heq ▸ List.mem_cons_self)⟩
  reads t ht := readLong_str (fun d hd => ht d hd ▸ hc) hmin hmax

theorem gives_readChar {c d : Char} (hd : blank d = false) : Gives blank c readChar [d] d where
  starts := ⟨d, [], rfl, hd⟩
  reads _ _ := rfl

end Values

/-! ## Lines -/

/-- The lines of a text with their ends, behind the front of the first. -/
def linesFrom (line : List Char) : List Char → List (List Char)
  | [] => if line = [] then [] else [line]
  | c :: s => if c = '\n' then (line ++ [c]) :: linesFrom [] s else linesFrom (line ++ [c]) s

def lines (s : List Char) : List (List Char) := linesFrom [] s

/-- What calls of `fgets` read into a buffer with this much room, behind what the next call has
read. -/
def fgetsFrom (size : ℕ) (line : List Char) : List Char → List (List Char)
  | [] => if line = [] then [] else [line]
  | c :: s =>
    if c = '\n' ∨ size ≤ line.length + 1 then (line ++ [c]) :: fgetsFrom size [] s
    else fgetsFrom size (line ++ [c]) s

/-- `fgets` with a buffer of this size, until the end of the text; the buffer ends with a zero. -/
def fgetsAll (size : ℕ) (s : List Char) : List (List Char) := fgetsFrom (size - 1) [] s

section Lines

variable {size : ℕ} {line s : List Char}

theorem length_le_of_linesFrom (h : ∀ l ∈ linesFrom line s, l.length ≤ size) (hline : line ≠ []) :
    line.length ≤ size := by
  induction s generalizing line with
  | nil => exact h line (by simp [linesFrom, hline])
  | cons c s ih =>
      have hlonger : (line ++ [c]).length ≤ size := by
        rw [linesFrom] at h
        split at h
        · exact h _ List.mem_cons_self
        · exact ih h (by simp)
      rw [List.length_append] at hlonger
      omega

/-- Lines that fit into the buffer are read whole. -/
theorem fgetsFrom_eq_linesFrom (h : ∀ l ∈ linesFrom line s, l.length ≤ size) :
    fgetsFrom size line s = linesFrom line s := by
  induction s generalizing line with
  | nil => rfl
  | cons c s ih =>
      rw [linesFrom] at h
      rw [fgetsFrom, linesFrom]
      by_cases hc : c = '\n'
      · rw [if_pos hc] at h
        rw [if_pos (.inl hc), if_pos hc, ih fun l hl => h l (List.mem_cons_of_mem _ hl)]
      rw [if_neg hc] at h
      rw [if_neg hc]
      by_cases hfull : size ≤ line.length + 1
      · -- only the last line may fill the buffer without an end
        cases s with
        | nil => simp [hfull, fgetsFrom, linesFrom]
        | cons d s =>
            have hlonger : (line ++ [c] ++ [d]).length ≤ size := by
              rw [linesFrom] at h
              split at h
              · exact h _ List.mem_cons_self
              · exact length_le_of_linesFrom h (by simp)
            simp only [List.length_append, List.length_singleton] at hlonger
            omega
      · rw [if_neg (by simp [hc, hfull]), ih h]

theorem fgetsAll_eq_lines {n : ℕ} (h : ∀ l ∈ lines s, l.length < n) : fgetsAll n s = lines s :=
  fgetsFrom_eq_linesFrom fun l hl => Nat.le_pred_of_lt (h l hl)

end Lines

end Streams
