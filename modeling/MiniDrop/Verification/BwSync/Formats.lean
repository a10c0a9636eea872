import Mathlib.Data.List.FinRange
import MiniDrop.Model.BwSync

/-! # One table of events in both formats -/

namespace MiniDrop.BwSync

/-- A table with a cell for each of its columns, which may stand in any order. -/
structure Table where
  header : List (List Char)
  rows : List (List (List Char))
  nodup : header.Nodup
  width : 2 ≤ header.length
  length : ∀ row ∈ rows, row.length = header.length
  clear : ∀ row ∈ header :: rows, ∀ cell ∈ row, Csv.Clear cell
  storable : ∀ row ∈ header :: rows, ∀ cell ∈ row, Csv.Storable cell
  lineEnd : List Char
  lineEnd_eq : Csv.IsLineEnd lineEnd

def Table.csv (table : Table) : List Char :=
  Csv.printRows table.lineEnd (table.header :: table.rows)

/-- A row as a JSON object, whose values are the texts of the cells. -/
def entriesOf (header row : List (List Char)) : List (String × Json ℚ) :=
  (header.zip row).map fun entry => (String.ofList entry.1, .str (String.ofList entry.2))

def Table.json (table : Table) : Json ℚ :=
  .list (table.rows.map fun row => .dict (entriesOf table.header row))

/-- What the row stands for, if its numbers can be read. -/
def Table.event? (table : Table) (row : List (List Char)) : Option SyncEvent :=
  (bwSyncRow table.header row).toOption

/-! ## Cells -/

section Cells

variable {header row : List (List Char)}

theorem ofList_eq_iff {cs : List Char} {key : String} : String.ofList cs = key ↔ cs = key.toList := by
  constructor
  · rintro rfl
    exact String.toList_ofList.symm
  · rintro rfl
    exact String.ofList_toList

/-- Column by column, behind the cells `before`. -/
theorem dictCell_zip (before : List (List Char)) (hnodup : header.Nodup)
    (hlength : row.length = header.length) (key : String) :
    (((header.zipIdx before.length).filter fun column => column.1 = key.toList).getLast?).map
        (fun column => (before ++ row)[column.2]?) =
      (((header.zip row).find? fun entry => entry.1 = key.toList).map Prod.snd).map some := by
  induction header generalizing before row with
  | nil => rfl
  | cons name header ih =>
      cases row with
      | nil => exact absurd hlength (by simp)
      | cons cell row =>
          obtain ⟨hname, hnodup⟩ := List.nodup_cons.mp hnodup
          have hrest := ih (before ++ [cell]) hnodup (Nat.succ.inj hlength)
          rw [List.length_append, List.length_singleton, List.append_assoc,
            List.singleton_append] at hrest
          rw [List.zipIdx_cons, List.zip_cons_cons]
          by_cases hkey : name = key.toList
          · have hnone : (header.zipIdx (before.length + 1)).filter
                (fun column => column.1 = key.toList) = [] := by
              refine List.filter_eq_nil_iff.mpr fun column hmem heq => hname ?_
              rw [hkey, ← of_decide_eq_true heq]
              exact List.fst_mem_of_mem_zipIdx hmem
            rw [List.filter_cons_of_pos (by simpa using hkey), hnone,
              List.find?_cons_of_pos (by simpa using hkey)]
            simp
          · rw [List.filter_cons_of_neg (by simpa using hkey),
              List.find?_cons_of_neg (by simpa using hkey), hrest]

theorem lookup_entriesOf (key : String) :
    Dict.lookup key (entriesOf header row) =
      (((header.zip row).find? fun entry => entry.1 = key.toList).map Prod.snd).map
        fun cell => .str (String.ofList cell) := by
  rw [entriesOf]
  induction header.zip row with
  | nil => rfl
  | cons entry entries ih =>
      rw [List.map_cons, Dict.lookup, ih]
      by_cases hkey : entry.1 = key.toList
      · rw [if_pos (ofList_eq_iff.mpr hkey), List.find?_cons_of_pos (by simpa using hkey)]
        rfl
      · rw [if_neg (mt ofList_eq_iff.mp hkey), List.find?_cons_of_neg (by simpa using hkey)]

theorem dictCell_eq (hnodup : header.Nodup) (hlength : row.length = header.length) (key : String) :
    dictCell header row key =
      (((header.zip row).find? fun entry => entry.1 = key.toList).map Prod.snd).map some :=
  dictCell_zip [] hnodup hlength key

end Cells

/-! ## Rows -/

theorem toOption_bind {ε α β : Type} (x : Except ε α) (f : α → Except ε β) :
    (x >>= f).toOption = x.toOption.bind fun a => (f a).toOption := by
  cases x <;> rfl

/-- A cell, or no cell, in both formats. -/
theorem toOption_cellNumber (cell : Option (List Char)) :
    (cellNumber Python.rational? 0 (cell.map some)).toOption =
      ((cell.map fun cs => (.str (String.ofList cs) : Json ℚ)).getD (.int 0)).float? .exact := by
  cases cell with
  | none => rfl
  | some cs =>
      rw [Option.map_some, Option.map_some, Option.getD_some, Json.float?, String.toList_ofList,
        cellNumber]
      change _ = Python.rational? cs
      cases Python.rational? cs <;> rfl

theorem toOption_cellInt (cell : Option (List Char)) :
    (cellNumber Python.int? 0 (cell.map some)).toOption =
      ((cell.map fun cs => (.str (String.ofList cs) : Json ℚ)).getD (.int 0)).int? .exact := by
  cases cell with
  | none => rfl
  | some cs =>
      rw [Option.map_some, Option.map_some, Option.getD_some, Json.int?, String.toList_ofList,
        cellNumber]
      cases Python.int? cs <;> rfl

theorem cellText_map_some (cell : Option (List Char)) :
    cellText (cell.map some) =
      (cell.map fun cs => (.str (String.ofList cs) : Json ℚ)).getD (.str "") := by
  cases cell <;> rfl

variable {table : Table} {row : List (List Char)}

theorem bwSyncItem_entriesOf (hrow : row ∈ table.rows) :
    bwSyncItem (.dict (entriesOf table.header row)) = table.event? row := by
  have hcell := dictCell_eq table.nodup (table.length row hrow)
  rw [Table.event?, bwSyncRow, bwSyncItem]
  simp only [hcell, lookup_entriesOf, toOption_bind, toOption_cellNumber, toOption_cellInt,
    cellText_map_some, Json.dict?, Option.bind_eq_bind, Option.bind_some]
  rfl

theorem ok_ne_error {ε α : Type} {a : α} {e : ε} : Except.ok a ≠ .error e := by
  intro h
  cases h

theorem bind_ne_error {ε α β : Type} {e : ε} {x : Except ε α} {f : α → Except ε β}
    (hx : x ≠ .error e) (hf : ∀ a, f a ≠ .error e) : (x >>= f) ≠ .error e := by
  cases x with
  | error e' => exact fun h => hx (congrArg Except.error (Except.error.inj h))
  | ok a => exact hf a

theorem cellNumber_ne_type {α : Type} (read : List Char → Option α) (zero : α)
    (cell : Option (List Char)) : cellNumber read zero (cell.map some) ≠ .error .type := by
  cases cell with
  | none => exact ok_ne_error
  | some cs =>
      rw [Option.map_some, cellNumber]
      split
      · exact ok_ne_error
      · exact fun h => CellError.noConfusion (Except.error.inj h)

theorem bwSyncRow_ne_type (hrow : row ∈ table.rows) : bwSyncRow table.header row ≠ .error .type := by
  have hcell := dictCell_eq table.nodup (table.length row hrow)
  simp only [bwSyncRow, hcell]
  exact bind_ne_error (cellNumber_ne_type _ _ _) fun _ =>
    bind_ne_error (cellNumber_ne_type _ _ _) fun _ =>
      bind_ne_error (cellNumber_ne_type _ _ _) fun _ =>
        bind_ne_error (cellNumber_ne_type _ _ _) fun _ => ok_ne_error

/-- A row that cannot be read is left out. -/
theorem bwSyncRows_eq {rows : List (List (List Char))} (h : ∀ row ∈ rows, row ∈ table.rows) :
    bwSyncRows table.header rows = some (rows.filterMap table.event?) := by
  induction rows with
  | nil => rfl
  | cons row rows ih =>
      obtain ⟨hrow, hrows⟩ := List.forall_mem_cons.mp h
      have htype := bwSyncRow_ne_type hrow
      rw [bwSyncRows, ih hrows, List.filterMap_cons, Table.event?]
      cases hread : bwSyncRow table.header row with
      | ok e => rfl
      | error e =>
          cases e with
          | value => rfl
          | type => exact absurd hread htype

/-! ## Texts -/

theorem read_csv (table : Table) : Csv.read table.csv = some (table.header :: table.rows) := by
  have hrows : ∀ row ∈ table.header :: table.rows, 2 ≤ row.length ∧ ∀ cell ∈ row, Csv.Clear cell := by
    refine fun row hrow => ⟨?_, table.clear row hrow⟩
    rcases List.mem_cons.mp hrow with rfl | hrow
    · exact table.width
    · exact table.width.trans (table.length row hrow).ge
  rw [Table.csv, Csv.read_printRows table.lineEnd_eq hrows, if_pos table.storable]

theorem analyzeBwSyncCsv_csv (table : Table) (threshold : ℚ) :
    analyzeBwSyncCsv table.csv threshold =
      some (analyzeEvents (table.rows.filterMap table.event?) threshold) := by
  have hfull : table.rows.filter (· ≠ []) = table.rows := by
    refine List.filter_eq_self.mpr fun row hrow => ?_
    have hlength := table.width.trans (table.length row hrow).ge
    rw [decide_eq_true_iff]
    rintro rfl
    exact absurd hlength (by simp)
  rw [analyzeBwSyncCsv, read_csv, Option.bind_eq_bind, Option.bind_some]
  dsimp only
  rw [hfull, bwSyncRows_eq fun _ h => h]
  rfl

theorem mapM_eq_ite {α β : Type} {f g : α → Option β} {xs : List α} (h : ∀ x ∈ xs, f x = g x) :
    xs.mapM f = if ∀ x ∈ xs, (g x).isSome then some (xs.filterMap g) else none := by
  induction xs with
  | nil => rfl
  | cons x xs ih =>
      obtain ⟨hx, hxs⟩ := List.forall_mem_cons.mp h
      rw [List.mapM_cons, ih hxs, hx, List.filterMap_cons]
      simp only [List.forall_mem_cons]
      cases g x with
      | none => simp
      | some y =>
          by_cases hall : ∀ x ∈ xs, (g x).isSome
          · rw [if_pos hall, if_pos ⟨rfl, hall⟩]
            rfl
          · rw [if_neg hall, if_neg fun hand => hall hand.2]
            rfl

/-! ## Main theorem -/

end MiniDrop.BwSync
