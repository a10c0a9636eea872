import Mathlib.Data.List.Basic
import Mathlib.Data.List.TakeWhile
import Mathlib.Data.Nat.Notation
import Mathlib.Tactic.Common

/-! # Records of comma-separated values

The reader of Python's csv module in its default dialect, over the lines of a text. A record may go
on over several lines when a quotation mark is open. -/

namespace Csv

/-- Where the reader is in a record. -/
inductive Mode where
  | startRecord
  | startField
  | inField
  | inQuotedField
  | quoteInQuotedField
  | eatNewline
deriving DecidableEq

structure State where
  mode : Mode := .startRecord
  fields : List (List Char) := []
  field : List Char := []
deriving DecidableEq

/-- The length of a field is limited. -/
def fieldLimit : ℕ := 131072

def isNewline (c : Char) : Bool := c = '\n' || c = '\r'

namespace State

def add (s : State) (c : Char) (mode : Mode) : Option State :=
  if s.field.length < fieldLimit then some { s with mode, field := s.field ++ [c] } else none

def save (s : State) (mode : Mode) : State := { mode, fields := s.fields ++ [s.field] }

def startField (s : State) (c : Char) : Option State :=
  if isNewline c then some (s.save .eatNewline)
  else if c = '"' then some { s with mode := .inQuotedField }
  else if c = ',' then some (s.save .startField)
  else s.add c .inField

/-- One character; `none` where the reader raises an error. -/
def step (s : State) (c : Char) : Option State :=
  if c = '\x00' then none
  else
    match s.mode with
    | .startRecord => if isNewline c then some { s with mode := .eatNewline } else s.startField c
    | .startField => s.startField c
    | .inField =>
      if isNewline c then some (s.save .eatNewline)
      else if c = ',' then some (s.save .startField)
      else s.add c .inField
    | .inQuotedField =>
      if c = '"' then some { s with mode := .quoteInQuotedField } else s.add c .inQuotedField
    | .quoteInQuotedField =>
      if c = '"' then s.add c .inQuotedField
      else if c = ',' then some (s.save .startField)
      else if isNewline c then some (s.save .eatNewline)
      else s.add c .inField
    | .eatNewline => if isNewline c then some s else none

/-- The end of a line. -/
def endLine (s : State) : State :=
  match s.mode with
  | .startField | .inField | .quoteInQuotedField => s.save .startRecord
  | .eatNewline => { s with mode := .startRecord }
  | .startRecord | .inQuotedField => s

def readLine (s : State) (line : List Char) : Option State := (line.foldlM step s).map endLine

end State

/-- The records of the lines; the last one may end with a quotation mark that is open. -/
def records : State → List (List Char) → Option (List (List (List Char)))
  | s, [] => some (if s.field ≠ [] ∨ s.mode = .inQuotedField then [s.fields ++ [s.field]] else [])
  | s, line :: lines =>
    (s.readLine line).bind fun t =>
      if t.mode = .startRecord then (records {} lines).map (t.fields :: ·) else records t lines

/-- The lines of a text, each with its end. -/
def linesOf : List Char → List (List Char)
  | [] => []
  | c :: cs =>
    if c = '\n' then ['\n'] :: linesOf cs
    else
      match linesOf cs with
      | [] => [[c]]
      | line :: lines => (c :: line) :: lines

def read (text : List Char) : Option (List (List (List Char))) := records {} (linesOf text)

/-! ## Lines -/

theorem linesOf_append {line : List Char} (h : '\n' ∉ line) (rest : List Char) :
    linesOf (line ++ '\n' :: rest) = (line ++ ['\n']) :: linesOf rest := by
  induction line with
  | nil => rw [List.nil_append, linesOf, if_pos rfl, List.nil_append]
  | cons c line ih =>
      obtain ⟨hc, hline⟩ := not_or.mp (List.mem_cons.not.mp h)
      rw [List.cons_append, linesOf, if_neg (Ne.symm hc), ih hline]
      rfl

/-! ## Fields that are written as they are -/

/-- A field without quotation marks around it. -/
structure Plain (field : List Char) : Prop where
  chars : ∀ c ∈ field, c ≠ ',' ∧ isNewline c = false ∧ c ≠ '\x00'
  unquoted : field.head? ≠ some '"'
  short : field.length ≤ fieldLimit

section Plain

variable {fields : List (List Char)} {read field : List Char}

theorem foldlM_inField (hchars : ∀ c ∈ field, c ≠ ',' ∧ isNewline c = false ∧ c ≠ '\x00')
    (hshort : (read ++ field).length ≤ fieldLimit) :
    field.foldlM State.step ⟨.inField, fields, read⟩ = some ⟨.inField, fields, read ++ field⟩ := by
  induction field generalizing read with
  | nil => simp
  | cons c field ih =>
      obtain ⟨⟨hcomma, hnewline, hnul⟩, hfield⟩ := List.forall_mem_cons.mp hchars
      rw [List.append_cons] at hshort
      have hlt : read.length < fieldLimit := by
        simp only [List.length_append, List.length_singleton] at hshort
        omega
      have hstep : State.step ⟨.inField, fields, read⟩ c =
          some ⟨.inField, fields, read ++ [c]⟩ := by
        simp [State.step, State.add, hnul, hnewline, hcomma, hlt]
      rw [List.foldlM_cons, hstep]
      simpa using ih hfield hshort

/-- The mode after the comma or the newline that ends a field. -/
def modeAfter (c : Char) : Mode := if isNewline c then .eatNewline else .startField

/-- A plain field is read up to the comma or the newline behind it. -/
theorem foldlM_plain (h : Plain field) {c : Char} (hc : c = ',' ∨ isNewline c = true) :
    (field ++ [c]).foldlM State.step ⟨.startField, fields, []⟩ =
      some ⟨modeAfter c, fields ++ [field], []⟩ := by
  have hends : c ≠ '\x00' ∧ c ≠ '"' := by
    rcases hc with rfl | hc
    · decide
    · constructor <;>
        · rintro rfl
          exact absurd hc (by decide)
  cases field with
  | nil =>
      rw [List.nil_append, List.foldlM_cons, State.step, if_neg hends.1]
      rcases hc with rfl | hc
      · rfl
      · simp [State.startField, State.save, modeAfter, hc]
  | cons d field =>
      obtain ⟨⟨hcomma, hnewline, hnul⟩, hfield⟩ := List.forall_mem_cons.mp h.chars
      have hquote : d ≠ '"' := fun heq => h.unquoted (by rw [heq]; rfl)
      have hstep : State.step ⟨.startField, fields, []⟩ d = some ⟨.inField, fields, [d]⟩ := by
        simp [State.step, State.startField, State.add, hnul, hnewline, hquote, hcomma, fieldLimit]
      rw [List.cons_append, List.foldlM_cons, hstep, Option.bind_eq_bind, Option.bind_some,
        List.foldlM_append, foldlM_inField hfield h.short, Option.bind_eq_bind, Option.bind_some,
        List.foldlM_cons, State.step, if_neg hends.1]
      rcases hc with rfl | hc
      · rfl
      · simp [State.save, modeAfter, hc]

/-- What ends a line. -/
def IsLineEnd (e : List Char) : Prop := e = ['\n'] ∨ e = ['\r', '\n']

/-- So is the last one, up to the end of the line. -/
theorem readLine_plain {e : List Char} (he : IsLineEnd e) (h : Plain field) :
    (⟨.startField, fields, []⟩ : State).readLine (field ++ e) =
      some ⟨.startRecord, fields ++ [field], []⟩ := by
  rcases he with rfl | rfl
  · rw [State.readLine, foldlM_plain h (.inr rfl)]
    rfl
  · have hassoc : field ++ ['\r', '\n'] = (field ++ ['\r']) ++ ['\n'] := by simp
    rw [hassoc, State.readLine, List.foldlM_append, foldlM_plain h (.inr rfl)]
    rfl

theorem readLine_append (s : State) (init line : List Char) :
    s.readLine (init ++ line) = (init.foldlM State.step s).bind fun t => t.readLine line := by
  rw [State.readLine, List.foldlM_append]
  cases init.foldlM State.step s <;> rfl

theorem readLine_intercalate {e : List Char} (he : IsLineEnd e) {rest : List (List Char)}
    (hrest : rest ≠ []) (h : ∀ field ∈ rest, Plain field) :
    (⟨.startField, fields, []⟩ : State).readLine (List.intercalate [','] rest ++ e) =
      some ⟨.startRecord, fields ++ rest, []⟩ := by
  induction rest generalizing fields with
  | nil => exact absurd rfl hrest
  | cons field rest ih =>
      obtain ⟨hfield, hall⟩ := List.forall_mem_cons.mp h
      cases rest with
      | nil => simpa using readLine_plain he hfield
      | cons next rest =>
          rw [List.intercalate_cons_cons, List.append_assoc, readLine_append,
            foldlM_plain hfield (.inl rfl), Option.bind_some, modeAfter, if_neg (by decide),
            ih (by simp) hall, List.append_assoc]
          rfl

/-- A record begins like a field, unless its line is empty. -/
theorem foldlM_start {line : List Char} (h : ∀ c ∈ line.head?, isNewline c = false)
    (hne : line ≠ []) :
    line.foldlM State.step {} = line.foldlM State.step ⟨.startField, [], []⟩ := by
  obtain ⟨c, line, rfl⟩ := List.exists_cons_of_ne_nil hne
  have hstep : ({} : State).step c = State.step ⟨.startField, [], []⟩ c := by
    rw [State.step, State.step, h c rfl]
    rfl
  rw [List.foldlM_cons, List.foldlM_cons, hstep]

end Plain

/-! ## Rows -/

/-- A field without the characters that have a meaning. -/
def Clear (field : List Char) : Prop := ∀ c ∈ field, c ≠ ',' ∧ c ≠ '"' ∧ isNewline c = false

instance (field : List Char) : Decidable (Clear field) := List.decidableBAll _ field

/-- The reader takes the field: it has no NUL and is not too long. -/
def Storable (field : List Char) : Prop := '\x00' ∉ field ∧ field.length ≤ fieldLimit

instance (field : List Char) : Decidable (Storable field) := inferInstanceAs (Decidable (_ ∧ _))

section Rows

variable {fields row : List (List Char)} {read field e : List Char}

theorem Clear.plain (h : Clear field) (hstorable : Storable field) : Plain field where
  chars c hc := ⟨(h c hc).1, (h c hc).2.2, fun hnul => hstorable.1 (hnul ▸ hc)⟩
  unquoted hhead := (h _ (List.mem_of_mem_head? hhead)).2.1 rfl
  short := hstorable.2

theorem Plain.storable (h : Plain field) : Storable field :=
  ⟨fun hnul => (h.chars _ hnul).2.2 rfl, h.short⟩

theorem foldlM_inField_of_not_storable (h : Clear field)
    (hbad : '\x00' ∈ field ∨ fieldLimit < (read ++ field).length) (hread : read.length ≤ fieldLimit) :
    field.foldlM State.step ⟨.inField, fields, read⟩ = none := by
  induction field generalizing read with
  | nil =>
      rw [List.append_nil] at hbad
      exact absurd hread (Nat.not_le.mpr (hbad.resolve_left List.not_mem_nil))
  | cons c field ih =>
      obtain ⟨⟨hcomma, -, hnewline⟩, hfield⟩ := List.forall_mem_cons.mp h
      rw [List.foldlM_cons]
      by_cases hnul : c = '\x00'
      · rw [State.step, if_pos hnul]
        rfl
      by_cases hlt : read.length < fieldLimit
      · have hstep : State.step ⟨.inField, fields, read⟩ c =
            some ⟨.inField, fields, read ++ [c]⟩ := by
          simp [State.step, State.add, hnul, hnewline, hcomma, hlt]
        rw [hstep]
        refine ih hfield ?_ (by rw [List.length_append]; exact hlt)
        rcases hbad with hbad | hbad
        · exact .inl ((List.mem_cons.mp hbad).resolve_left (Ne.symm hnul))
        · exact .inr (by simpa using hbad)
      · have hstep : State.step ⟨.inField, fields, read⟩ c = none := by
          simp [State.step, State.add, hnul, hnewline, hcomma, hlt]
        rw [hstep]
        rfl

/-- The reader raises an error in a field that it does not take. -/
theorem foldlM_of_not_storable (h : Clear field) (hbad : ¬Storable field) :
    field.foldlM State.step ⟨.startField, fields, []⟩ = none := by
  have hcases : '\x00' ∈ field ∨ fieldLimit < field.length := by
    by_cases hnul : '\x00' ∈ field
    · exact .inl hnul
    · exact .inr (Nat.lt_of_not_le fun hshort => hbad ⟨hnul, hshort⟩)
  cases field with
  | nil => exact absurd ⟨List.not_mem_nil, Nat.zero_le _⟩ hbad
  | cons c field =>
      obtain ⟨⟨hcomma, hquote, hnewline⟩, hfield⟩ := List.forall_mem_cons.mp h
      rw [List.foldlM_cons]
      by_cases hnul : c = '\x00'
      · rw [State.step, if_pos hnul]
        rfl
      · have hstep : State.step ⟨.startField, fields, []⟩ c = some ⟨.inField, fields, [c]⟩ := by
          simp [State.step, State.startField, State.add, hnul, hnewline, hquote, hcomma, fieldLimit]
        rw [hstep]
        refine foldlM_inField_of_not_storable hfield ?_ (by simp [fieldLimit])
        exact hcases.imp_left fun hmem => (List.mem_cons.mp hmem).resolve_left (Ne.symm hnul)

theorem readLine_of_not_storable (hclear : ∀ field ∈ row, Clear field)
    (hbad : ∃ field ∈ row, ¬Storable field) :
    (⟨.startField, fields, []⟩ : State).readLine (List.intercalate [','] row ++ e) = none := by
  induction row generalizing fields with
  | nil => simp at hbad
  | cons field row ih =>
      obtain ⟨hfield, hrow⟩ := List.forall_mem_cons.mp hclear
      by_cases hstorable : Storable field
      · have hrest : ∃ field ∈ row, ¬Storable field := by
          obtain ⟨other, hmem, hother⟩ := hbad
          rcases List.mem_cons.mp hmem with rfl | hmem
          · exact absurd hstorable hother
          · exact ⟨other, hmem, hother⟩
        cases row with
        | nil => simp at hrest
        | cons next row =>
            rw [List.intercalate_cons_cons, List.append_assoc, readLine_append,
              foldlM_plain (hfield.plain hstorable) (.inl rfl), Option.bind_some, modeAfter,
              if_neg (by decide)]
            exact ih hrow hrest
      · have hline : List.intercalate [','] (field :: row) ++ e = field ++
            ((List.intercalate [','] (field :: row) ++ e).drop field.length) := by
          cases row <;> simp [List.intercalate_cons_cons]
        rw [hline, readLine_append, foldlM_of_not_storable hfield hstorable]
        rfl

/-- A row of two fields or more is read if each of its fields is taken. -/
theorem readLine_row (he : IsLineEnd e) (hlength : 2 ≤ row.length)
    (hclear : ∀ field ∈ row, Clear field) :
    ({} : State).readLine (List.intercalate [','] row ++ e) =
      if ∀ field ∈ row, Storable field then some ⟨.startRecord, row, []⟩ else none := by
  obtain ⟨first, next, rest, rfl⟩ : ∃ first next rest, row = first :: next :: rest := by
    match row, hlength with
    | first :: next :: rest, _ => exact ⟨first, next, rest, rfl⟩
  have hhead : ∀ c ∈ (List.intercalate [','] (first :: next :: rest) ++ e).head?,
      isNewline c = false := by
    rw [List.intercalate_cons_cons]
    cases first with
    | nil => simp [isNewline]
    | cons c first => simpa using (hclear (c :: first) List.mem_cons_self c List.mem_cons_self).2.2
  rw [State.readLine, foldlM_start hhead (by simp [List.intercalate_cons_cons]), ← State.readLine]
  split
  · next hstorable =>
      exact readLine_intercalate he (by simp) fun field hmem =>
        (hclear field hmem).plain (hstorable field hmem)
  · next hbad =>
      simp only [Classical.not_forall] at hbad
      obtain ⟨field, hmem, hfield⟩ := hbad
      exact readLine_of_not_storable hclear ⟨field, hmem, hfield⟩

/-- The text of rows. -/
def printRows (e : List Char) (rows : List (List (List Char))) : List Char :=
  rows.flatMap fun row => List.intercalate [','] row ++ e

theorem newline_notMem_row (hclear : ∀ field ∈ row, Clear field) :
    '\n' ∉ List.intercalate [','] row := by
  induction row with
  | nil => simp
  | cons field row ih =>
      obtain ⟨hfield, hrow⟩ := List.forall_mem_cons.mp hclear
      have hnot : '\n' ∉ field := fun hmem => absurd (hfield _ hmem).2.2 (by decide)
      cases row with
      | nil => simpa using hnot
      | cons next row =>
          rw [List.intercalate_cons_cons]
          simp [hnot, ih hrow]

theorem linesOf_printRows {rows : List (List (List Char))} (he : IsLineEnd e)
    (hclear : ∀ row ∈ rows, ∀ field ∈ row, Clear field) :
    linesOf (printRows e rows) = rows.map fun row => List.intercalate [','] row ++ e := by
  induction rows with
  | nil => rfl
  | cons row rows ih =>
      obtain ⟨hrow, hrows⟩ := List.forall_mem_cons.mp hclear
      have hnot := newline_notMem_row hrow
      have hcons : printRows e (row :: rows) =
          List.intercalate [','] row ++ e ++ printRows e rows := List.flatMap_cons
      rw [hcons, List.map_cons, ← ih hrows]
      rcases he with rfl | rfl
      · rw [List.append_assoc, List.singleton_append, linesOf_append hnot]
      · have hassoc : List.intercalate [','] row ++ ['\r', '\n'] ++ printRows ['\r', '\n'] rows =
            (List.intercalate [','] row ++ ['\r']) ++ '\n' :: printRows ['\r', '\n'] rows := by
          simp
        rw [hassoc, linesOf_append (by simp [hnot]), List.append_assoc]
        rfl

/-- Rows are read back if all of their fields are taken. -/
theorem read_printRows {rows : List (List (List Char))} (he : IsLineEnd e)
    (hrows : ∀ row ∈ rows, 2 ≤ row.length ∧ ∀ field ∈ row, Clear field) :
    Csv.read (printRows e rows) =
      if ∀ row ∈ rows, ∀ field ∈ row, Storable field then some rows else none := by
  rw [Csv.read, linesOf_printRows he fun row hmem => (hrows row hmem).2]
  induction rows with
  | nil => rfl
  | cons row rows ih =>
      obtain ⟨⟨hlength, hclear⟩, hrest⟩ := List.forall_mem_cons.mp hrows
      rw [List.map_cons, records, readLine_row he hlength hclear]
      by_cases hrow : ∀ field ∈ row, Storable field
      · rw [if_pos hrow, Option.bind_some, if_pos rfl, ih hrest]
        by_cases hothers : ∀ row ∈ rows, ∀ field ∈ row, Storable field
        · rw [if_pos hothers, if_pos (List.forall_mem_cons.mpr ⟨hrow, hothers⟩)]
          rfl
        · rw [if_neg hothers, if_neg fun hall => hothers (List.forall_mem_cons.mp hall).2]
          rfl
      · rw [if_neg hrow, if_neg fun hall => hrow (List.forall_mem_cons.mp hall).1]
        rfl

end Rows

/-! ## What is read stays -/

namespace State

/-- The fields that are finished, and the one that is not. -/
def cells (s : State) : List (List Char) := s.fields ++ [s.field]

/-- A later state of the same record. -/
def Grows (s t : State) : Prop :=
  ∃ more rest, t.cells = s.fields ++ (s.field ++ more) :: rest

variable {s t u : State}

theorem Grows.refl (s : State) : s.Grows s := ⟨[], [], by simp [cells]⟩

theorem Grows.trans (h : s.Grows t) (h' : t.Grows u) : s.Grows u := by
  obtain ⟨more, rest, ht⟩ := h
  obtain ⟨more', rest', hu⟩ := h'
  rcases List.eq_nil_or_concat' rest with rfl | ⟨init, last, rfl⟩
  · obtain ⟨hfields, hfield⟩ := List.append_inj' ht rfl
    rw [List.singleton_inj] at hfield
    exact ⟨more ++ more', rest', by rw [hu, hfields, hfield, List.append_assoc]⟩
  · have hsplit : t.fields ++ [t.field] = (s.fields ++ (s.field ++ more) :: init) ++ [last] := by
      rw [List.append_assoc]
      exact ht
    obtain ⟨hfields, -⟩ := List.append_inj' hsplit rfl
    exact ⟨more, init ++ (t.field ++ more') :: rest', by rw [hu, hfields]; simp⟩

theorem Grows.of_same (hfields : t.fields = s.fields) (hfield : t.field = s.field) : s.Grows t :=
  ⟨[], [], by simp [cells, hfields, hfield]⟩

theorem grows_add {c : Char} {mode : Mode} (h : s.add c mode = some t) : s.Grows t := by
  unfold add at h
  split at h
  · obtain rfl := Option.some.inj h
    exact ⟨[c], [], rfl⟩
  · cases h

theorem grows_save (s : State) (mode : Mode) : s.Grows (s.save mode) :=
  ⟨[], [[]], by simp [cells, save]⟩

theorem grows_startField {c : Char} (h : s.startField c = some t) : s.Grows t := by
  unfold startField at h
  split at h
  · exact Option.some.inj h ▸ grows_save s _
  split at h
  · exact Option.some.inj h ▸ .of_same rfl rfl
  split at h
  · exact Option.some.inj h ▸ grows_save s _
  · exact grows_add h

theorem grows_step {c : Char} (h : s.step c = some t) : s.Grows t := by
  unfold step at h
  repeat' split at h
  all_goals first
    | exact grows_startField h
    | exact grows_add h
    | exact Option.some.inj h ▸ grows_save s _
    | exact Option.some.inj h ▸ .of_same rfl rfl
    | cases h

theorem grows_endLine (s : State) : s.Grows s.endLine := by
  unfold endLine
  split
  all_goals first
    | exact grows_save s _
    | exact .of_same rfl rfl

theorem grows_foldlM {line : List Char} (h : line.foldlM step s = some t) : s.Grows t := by
  induction line generalizing s with
  | nil =>
      obtain rfl := Option.some.inj h
      exact .refl s
  | cons c line ih =>
      rw [List.foldlM_cons] at h
      obtain ⟨u, hstep, hrest⟩ := Option.bind_eq_some_iff.mp h
      exact (grows_step hstep).trans (ih hrest)

theorem grows_readLine {line : List Char} (h : s.readLine line = some t) : s.Grows t := by
  obtain ⟨u, hline, rfl⟩ := Option.map_eq_some_iff.mp h
  exact (grows_foldlM hline).trans u.grows_endLine

/-- A finished field, and the beginning of the one that follows, are those of the record. -/
theorem Grows.getElem? (h : s.Grows t) {record : List (List Char)} (hrecord : record <+: t.cells)
    {i : ℕ} {value : List Char} (hvalue : record[i]? = some value) :
    (∀ read ∈ s.fields[i]?, value = read) ∧ (s.fields.length = i → s.field <+: value) := by
  obtain ⟨more, rest, hcells⟩ := h
  have hcell : t.cells[i]? = some value := by
    obtain ⟨tail, htail⟩ := hrecord
    rw [← htail, List.getElem?_append_left (List.getElem?_eq_some_iff.mp hvalue).1, hvalue]
  rw [hcells] at hcell
  refine ⟨fun read hread => ?_, fun hlength => ?_⟩
  · have hlt := (List.getElem?_eq_some_iff.mp hread).1
    rw [List.getElem?_append_left hlt, Option.mem_def.mp hread] at hcell
    exact (Option.some.inj hcell).symm
  · rw [List.getElem?_append_right (Nat.le_of_eq hlength), hlength, Nat.sub_self, List.getElem?_cons_zero] at hcell
    exact ⟨more, Option.some.inj hcell⟩

end State

/-- The record that is being read is finished first. -/
theorem records_grows {s : State} {lines : List (List Char)} {rest : List (List (List Char))}
    {record : List (List Char)} (h : records s lines = some (record :: rest)) : ∃ t, s.Grows t ∧ record <+: t.cells := by
  induction lines generalizing s with
  | nil =>
      have hrecords := Option.some.inj h
      split at hrecords
      · obtain ⟨rfl, -⟩ := List.cons.inj hrecords
        exact ⟨s, .refl s, List.prefix_rfl⟩
      · cases hrecords
  | cons line lines ih =>
      rw [records] at h
      obtain ⟨t, hline, hrecords⟩ := Option.bind_eq_some_iff.mp h
      split at hrecords
      · obtain ⟨later, -, heq⟩ := Option.map_eq_some_iff.mp hrecords
        obtain ⟨rfl, -⟩ := List.cons.inj heq
        exact ⟨t, State.grows_readLine hline, List.prefix_append ..⟩
      · obtain ⟨u, hgrows, hprefix⟩ := ih hrecords
        exact ⟨u, (State.grows_readLine hline).trans hgrows, hprefix⟩

/-- The first record grows from what is read first. -/
theorem records_cons_grows {s u : State} {init line : List Char} {lines : List (List Char)}
    {rest : List (List (List Char))} {record : List (List Char)}
    (hinit : init.foldlM State.step s = some u)
    (h : records s ((init ++ line) :: lines) = some (record :: rest)) :
    ∃ t, u.Grows t ∧ record <+: t.cells := by
  rw [records, readLine_append, hinit, Option.bind_some] at h
  obtain ⟨t, hline, hrecords⟩ := Option.bind_eq_some_iff.mp h
  split at hrecords
  · obtain ⟨later, -, heq⟩ := Option.map_eq_some_iff.mp hrecords
    obtain ⟨rfl, -⟩ := List.cons.inj heq
    exact ⟨t, State.grows_readLine hline, List.prefix_append ..⟩
  · obtain ⟨v, hgrows, hprefix⟩ := records_grows hrecords
    exact ⟨v, (State.grows_readLine hline).trans hgrows, hprefix⟩

/-! ## Quoted fields -/

/-- A field that began with a quotation mark, after the characters `text` behind it. -/
inductive Quoted (fields : List (List Char)) (text : List Char) (s : State) : Prop where
  /-- It has had all commas. -/
  | quoted (hfields : s.fields = fields)
      (hmode : s.mode = .inQuotedField ∨ s.mode = .quoteInQuotedField)
      (hcount : s.field.count ',' = text.count ',') (hlength : s.field.length ≤ text.length)
  /-- The quotation is over, and the next comma ends the field. -/
  | unquoted (hfields : s.fields = fields) (hmode : s.mode = .inField)
      (hlength : s.field.length ≤ text.length)
  | saved {value : List Char} {rest : List (List Char)}
      (hfields : s.fields = fields ++ value :: rest) (hlength : value.length ≤ text.length)

section Quoted

variable {fields : List (List Char)} {text : List Char} {s t : State} {c : Char}

theorem add_eq {mode : Mode} (h : s.add c mode = some t) :
    t = { s with mode, field := s.field ++ [c] } := by
  unfold State.add at h
  split at h
  · exact (Option.some.inj h).symm
  · cases h

/-- Finished fields stay as they are. -/
theorem fields_step (h : s.step c = some t) : ∃ more, t.fields = s.fields ++ more := by
  have hadd : ∀ mode, s.add c mode = some t → ∃ more, t.fields = s.fields ++ more := fun mode h =>
    ⟨[], by rw [add_eq h, List.append_nil]⟩
  have hstart : s.startField c = some t → ∃ more, t.fields = s.fields ++ more := by
    intro h
    unfold State.startField at h
    repeat' split at h
    all_goals first
      | exact hadd _ h
      | exact ⟨[s.field], by rw [← Option.some.inj h]; rfl⟩
      | exact ⟨[], by rw [← Option.some.inj h, List.append_nil]⟩
  unfold State.step at h
  repeat' split at h
  all_goals first
    | exact hadd _ h
    | exact hstart h
    | exact ⟨[s.field], by rw [← Option.some.inj h]; rfl⟩
    | exact ⟨[], by rw [← Option.some.inj h, List.append_nil]⟩
    | cases h

theorem fields_foldlM {line : List Char} (h : line.foldlM State.step s = some t) :
    ∃ more, t.fields = s.fields ++ more := by
  induction line generalizing s with
  | nil =>
      obtain rfl := Option.some.inj h
      exact ⟨[], (List.append_nil _).symm⟩
  | cons c line ih =>
      rw [List.foldlM_cons] at h
      obtain ⟨u, hstep, hrest⟩ := Option.bind_eq_some_iff.mp h
      obtain ⟨more, hmore⟩ := fields_step hstep
      obtain ⟨more', hmore'⟩ := ih hrest
      exact ⟨more ++ more', by rw [hmore', hmore, List.append_assoc]⟩

theorem Quoted.step (hs : Quoted fields text s) (h : s.step c = some t) :
    Quoted fields (text ++ [c]) t := by
  have hle : text.length ≤ (text ++ [c]).length := by simp
  have hnul : c ≠ '\x00' := by
    rintro rfl
    cases h
  rw [State.step, if_neg hnul] at h
  cases hs with
  | quoted hfields hmode hcount hlength =>
      have hadd : s.add c .inQuotedField = some t → Quoted fields (text ++ [c]) t := by
        intro h
        rw [add_eq h]
        refine .quoted hfields (.inl rfl) ?_ (by simpa using hlength)
        rw [List.count_append, List.count_append, hcount]
      rcases hmode with hmode | hmode
      · rw [hmode] at h
        dsimp only at h
        split at h
        · rename_i hquote
          rw [← Option.some.inj h, hquote]
          refine .quoted hfields (.inr rfl) ?_ (Nat.le_trans hlength (by simp))
          rw [List.count_append, hcount]
          rfl
        · exact hadd h
      · rw [hmode] at h
        dsimp only at h
        split at h
        · exact hadd h
        split at h
        · rw [← Option.some.inj h]
          exact .saved (by rw [State.save, hfields]) (Nat.le_trans hlength hle)
        split at h
        · rw [← Option.some.inj h]
          exact .saved (by rw [State.save, hfields]) (Nat.le_trans hlength hle)
        · rw [add_eq h]
          exact .unquoted hfields rfl (by simpa using hlength)
  | unquoted hfields hmode hlength =>
      rw [hmode] at h
      dsimp only at h
      split at h
      · rw [← Option.some.inj h]
        exact .saved (by rw [State.save, hfields]) (Nat.le_trans hlength hle)
      split at h
      · rw [← Option.some.inj h]
        exact .saved (by rw [State.save, hfields]) (Nat.le_trans hlength hle)
      · rw [add_eq h]
        exact .unquoted hfields rfl (by simpa using hlength)
  | saved hfields hlength =>
      have hstep : s.step c = some t := by rw [State.step, if_neg hnul, h]
      obtain ⟨more, hmore⟩ := fields_step hstep
      exact .saved (by rw [hmore, hfields, List.append_assoc]; rfl) (Nat.le_trans hlength hle)

theorem Quoted.foldlM {line : List Char} (hs : Quoted fields text s)
    (h : line.foldlM State.step s = some t) : Quoted fields (text ++ line) t := by
  induction line generalizing s text with
  | nil =>
      obtain rfl := Option.some.inj h
      rwa [List.append_nil]
  | cons c line ih =>
      rw [List.foldlM_cons] at h
      obtain ⟨u, hstep, hrest⟩ := Option.bind_eq_some_iff.mp h
      rw [List.append_cons]
      exact ih (hs.step hstep) hrest

/-- At the comma behind the text, the field is shorter than the text with its quotation mark, or
goes on and has another comma. -/
theorem foldlM_quoted (h : (text ++ [',']).foldlM State.step ⟨.inQuotedField, fields, []⟩ = some t) :
    (∃ value rest, t.fields = fields ++ value :: rest ∧ value.length ≤ text.length) ∨
      t.fields = fields ∧ t.field.count ',' = text.count ',' + 1 := by
  rw [List.foldlM_append] at h
  obtain ⟨s, hs, hcomma⟩ := Option.bind_eq_some_iff.mp h
  rw [List.foldlM_cons] at hcomma
  obtain ⟨u, hstep, hu⟩ := Option.bind_eq_some_iff.mp hcomma
  obtain rfl := Option.some.inj hu
  have hquoted := Quoted.foldlM (.quoted rfl (.inl rfl) rfl (Nat.le_refl _)) hs
  rw [List.nil_append] at hquoted
  cases hquoted with
  | quoted hfields hmode hcount hlength =>
      rcases hmode with hmode | hmode
      · rw [State.step, if_neg (by decide), hmode] at hstep
        have hadd : s.add ',' .inQuotedField = some u := hstep
        rw [add_eq hadd]
        refine .inr ⟨hfields, ?_⟩
        rw [List.count_append, hcount]
        rfl
      · rw [State.step, if_neg (by decide), hmode] at hstep
        refine .inl ⟨s.field, [], ?_, hlength⟩
        rw [← Option.some.inj hstep, State.save, hfields]
  | unquoted hfields hmode hlength =>
      rw [State.step, if_neg (by decide), hmode] at hstep
      refine .inl ⟨s.field, [], ?_, hlength⟩
      rw [← Option.some.inj hstep, State.save, hfields]
  | saved hfields hlength =>
      obtain ⟨more, hmore⟩ := fields_step hstep
      exact .inl ⟨_, _, by rw [hmore, hfields, List.append_assoc]; rfl, hlength⟩

/-- A field that is not plain is cut off, or goes on behind the comma. -/
theorem foldlM_of_not_plain (hnul : '\x00' ∉ text) (hshort : text.length ≤ fieldLimit)
    (hplain : ¬Plain text)
    (h : (text ++ [',']).foldlM State.step ⟨.startField, fields, []⟩ = some t) :
    (∃ value rest, t.fields = fields ++ value :: rest ∧ value.length < text.length) ∨
      t.fields = fields ∧ text.count ',' < t.field.count ',' := by
  by_cases hquote : text.head? = some '"'
  · obtain ⟨inner, rfl⟩ : ∃ inner, text = '"' :: inner := by
      cases text with
      | nil => cases hquote
      | cons c inner => exact ⟨inner, by rw [Option.some.inj hquote]⟩
    rw [List.cons_append, List.foldlM_cons] at h
    obtain ⟨value, rest, hfields, hlength⟩ | ⟨hfields, hcount⟩ := foldlM_quoted h
    · exact .inl ⟨value, rest, hfields, Nat.lt_succ_of_le hlength⟩
    · refine .inr ⟨hfields, ?_⟩
      rw [hcount, List.count_cons_of_ne (by decide)]
      exact Nat.lt_succ_self _
  · -- the field ends before a comma or a newline of the text
    let ends : Char → Bool := fun c => c = ',' || isNewline c
    have hsplit : text.takeWhile (!ends ·) ++ text.dropWhile (!ends ·) = text :=
      List.takeWhile_append_dropWhile
    have hinit : Plain (text.takeWhile (!ends ·)) := by
      refine ⟨fun c hc => ?_, fun hhead => hquote ?_,
        Nat.le_trans (List.takeWhile_prefix _).length_le hshort⟩
      · have hnone : ends c = false := by simpa using List.mem_takeWhile_imp hc
        have hmem : c ∈ text := (List.takeWhile_subset _ hc :)
        simp only [ends, Bool.or_eq_false_iff, decide_eq_false_iff_not] at hnone
        exact ⟨hnone.1, hnone.2, fun heq => hnul (heq ▸ hmem)⟩
      · rw [← hsplit, List.head?_append, hhead]
        rfl
    cases hrest : text.dropWhile (!ends ·) with
    | nil =>
        rw [hrest, List.append_nil] at hsplit
        exact absurd (hsplit ▸ hinit) hplain
    | cons c rest =>
        have hends : ends c = true := by
          have hhead := List.head?_dropWhile_not (!ends ·) text
          rw [hrest] at hhead
          simpa using hhead
        generalize text.takeWhile (!ends ·) = init at hsplit hinit
        rw [hrest] at hsplit
        have hassoc : init ++ c :: rest ++ [','] = (init ++ [c]) ++ (rest ++ [',']) := by simp
        rw [← hsplit, hassoc, List.foldlM_append, foldlM_plain hinit (by simpa [ends] using hends)] at h
        obtain ⟨more, hmore⟩ := fields_foldlM h
        refine .inl ⟨init, more, by rw [hmore, List.append_assoc]; rfl, ?_⟩
        rw [← hsplit, List.length_append, List.length_cons]
        omega

end Quoted

/-! ## How many records there are -/

section Count

variable {α : Type*} (event : List (List Char) → Option α)

/-- The line is no record of its own, or one with an event. -/
def isOpen (line : List Char) : Bool :=
  !(({} : State).readLine line).any fun t => t.mode = .startRecord && (event t.fields).isNone

variable {event}

theorem isOpen_eq_false_iff {line : List Char} : isOpen event line = false ↔ ∃ t : State,
    ({} : State).readLine line = some t ∧ t.mode = .startRecord ∧ event t.fields = none := by
  simp [isOpen, Option.any_eq_true]

/-- The records behind the first one are those of a later line's start. -/
theorem length_filterMap_of_cons {n : ℕ} {lines : List (List Char)}
    (hfresh : ∀ rs, records {} lines = some rs → (rs.filterMap event).length ≤ n)
    (hlater : ∀ s record rs, records s lines = some (record :: rs) →
      (rs.filterMap event).length ≤ n)
    {s : State} {line : List Char} {record : List (List Char)} {rs : List (List (List Char))}
    (h : records s (line :: lines) = some (record :: rs)) : (rs.filterMap event).length ≤ n := by
  rw [records] at h
  obtain ⟨t, -, hrecords⟩ := Option.bind_eq_some_iff.mp h
  split at hrecords
  · obtain ⟨later, hlater', heq⟩ := Option.map_eq_some_iff.mp hrecords
    obtain ⟨-, rfl⟩ := List.cons.inj heq
    exact hfresh _ hlater'
  · exact hlater _ _ _ hrecords

theorem length_filterMap_records (lines : List (List Char)) :
    (∀ rs, records {} lines = some rs →
      (rs.filterMap event).length ≤ (lines.filter (isOpen event)).length) ∧
    ∀ s record rs, records s lines = some (record :: rs) →
      (rs.filterMap event).length ≤ (lines.filter (isOpen event)).length := by
  induction lines with
  | nil =>
      refine ⟨fun rs h => ?_, fun s record rs h => ?_⟩
      · obtain rfl := Option.some.inj h
        simp
      · have hrecords := Option.some.inj h
        split at hrecords
        · obtain ⟨-, rfl⟩ := List.cons.inj hrecords
          simp
        · cases hrecords
  | cons line lines ih =>
      obtain ⟨hfresh, hlater⟩ := ih
      have hle : (lines.filter (isOpen event)).length ≤
          ((line :: lines).filter (isOpen event)).length :=
        (List.sublist_cons_self line lines).filter (isOpen event) |>.length_le
      refine ⟨fun rs h => ?_, fun s record rs h => ?_⟩
      · rw [records] at h
        obtain ⟨t, hread, hrecords⟩ := Option.bind_eq_some_iff.mp h
        -- a line that is not open ends its record and gives no event
        have hclosed : isOpen event line = false →
            t.mode = .startRecord ∧ event t.fields = none := by
          intro hopen
          obtain ⟨u, hu, hends⟩ := isOpen_eq_false_iff.mp hopen
          obtain rfl := Option.some.inj (hread.symm.trans hu)
          exact hends
        have hcount : (lines.filter (isOpen event)).length + (if isOpen event line then 1 else 0) =
            ((line :: lines).filter (isOpen event)).length := by
          rw [List.filter_cons]
          cases isOpen event line <;> rfl
        split at hrecords
        · obtain ⟨later, hlater', rfl⟩ := Option.map_eq_some_iff.mp hrecords
          have hrest := hfresh _ hlater'
          cases hopen : isOpen event line with
          | false =>
              rw [List.filterMap_cons_none (hclosed hopen).2]
              exact Nat.le_trans hrest hle
          | true =>
              have hone : ((t.fields :: later).filterMap event).length ≤
                  (later.filterMap event).length + 1 := by
                rw [List.filterMap_cons]
                split <;> simp
              rw [hopen, if_pos rfl] at hcount
              omega
        · rename_i hmode
          cases hopen : isOpen event line with
          | false => exact absurd (hclosed hopen).1 hmode
          | true =>
              rw [hopen, if_pos rfl] at hcount
              cases rs with
              | nil => simp
              | cons record rs =>
                  have hrest := hlater _ _ _ hrecords
                  have hone : ((record :: rs).filterMap event).length ≤
                      (rs.filterMap event).length + 1 := by
                    rw [List.filterMap_cons]
                    split <;> simp
                  omega
      · exact Nat.le_trans (length_filterMap_of_cons hfresh hlater h) hle

/-- The records behind the first one have no more events than the lines behind its first. -/
theorem length_filterMap_records_cons {s : State} {line : List Char} {lines : List (List Char)}
    {record : List (List Char)} {rs : List (List (List Char))}
    (h : records s (line :: lines) = some (record :: rs)) :
    (rs.filterMap event).length ≤ (lines.filter (isOpen event)).length :=
  length_filterMap_of_cons (length_filterMap_records lines).1 (length_filterMap_records lines).2 h

end Count

end Csv
