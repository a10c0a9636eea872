import MiniDrop.Model.BioStats
import MiniDrop.Verification.Probe.Output

/-! # The encodings of block requests

The same records as comma-separated values, as JSON and as a table, and the events that the readers
make of them. -/

namespace MiniDrop

/-! ## Records -/

/-- A time, as text and as JSON has it. -/
structure BioTime where
  text : List Char
  json : Json Float
  value : Float
  read : Python.float? text = some value
  json_eq : json.float? .doubles = some value
  ne : text ≠ []
  chars : ∀ c ∈ text, c.isDigit = true ∨ c ∈ ['.', '+', '-', 'e']
  short : text.length ≤ Csv.fieldLimit

/-- A text without commas, quotation marks and white space. -/
structure Word where
  chars : List Char
  plain : ∀ c ∈ chars, c ≠ ',' ∧ c ≠ '"' ∧ Python.isSpace c = false

structure IoRecord where
  timestamp : BioTime
  comm : Word
  pid : Int64
  device : Word
  direction : Rwbs
  bytes : Int64
  latencyNs : Int64

/-- What an encoding leaves open. -/
structure BioLayout where
  lineEnd : List Char := ['\n']
  lineEnd_eq : Csv.IsLineEnd lineEnd
  /-- Blanks behind a cell of the table, besides one. -/
  pad : ℕ → List Char → ℕ := fun _ _ => 0
  /-- The list of JSON stands under `events`. -/
  wrapped : Bool := false

namespace IoRecord

def cells (r : IoRecord) : List (List Char) :=
  [r.timestamp.text, r.comm.chars, Python.str r.pid.toInt, r.device.chars, r.direction.chars,
    Python.str r.bytes.toInt, Python.str r.latencyNs.toInt]

def item (r : IoRecord) : List (String × Json Float) :=
  [("timestamp", r.timestamp.json), ("comm", .str (String.ofList r.comm.chars)),
    ("pid", .int r.pid.toInt), ("disk", .str (String.ofList r.device.chars)),
    ("direction", .str (String.ofList r.direction.chars)), ("bytes", .int r.bytes.toInt),
    ("latency_ns", .int r.latencyNs.toInt)]

/-- The event of the texts. -/
def event (r : IoRecord) : BioEvent where
  timestamp := r.timestamp.value
  comm := r.comm.chars
  pid := r.pid.toInt
  disk := r.device.chars
  direction := normalizeDirection r.direction.chars
  ioSize := r.bytes.toInt
  latencyUs := Float.ofInt r.latencyNs.toInt / 1000

/-- The event of the item, which has the first letter of the direction. -/
def jsonEvent (r : IoRecord) : BioEvent :=
  { r.event with
    direction := String.ofList (r.direction.chars.take 1)
    latencyUs := Python.thousandth r.latencyNs.toInt }

end IoRecord

def bioHeader : List (List Char) :=
  ["TIME(s)".toList, "COMM".toList, "PID".toList, "DISK".toList, "T".toList, "BYTES".toList,
    "LAT(ns)".toList]

/-- Cells with blanks behind each. -/
def padded (pad : ℕ → List Char → ℕ) (cells : List (List Char)) : List Char :=
  (cells.mapIdx fun i cell => cell ++ List.replicate (pad i cell + 1) ' ').flatten

/-- A line of the table. -/
def BioLayout.tableLine (layout : BioLayout) (cells : List (List Char)) : List Char :=
  padded layout.pad cells

def BioLayout.csv (layout : BioLayout) (records : List IoRecord) : List Char :=
  Csv.printRows layout.lineEnd (bioHeader :: records.map IoRecord.cells)

def BioLayout.table (layout : BioLayout) (records : List IoRecord) : List Char :=
  ['\n'].intercalate (layout.tableLine bioHeader ::
    records.map fun r => layout.tableLine r.cells) ++ ['\n']

def BioLayout.json (layout : BioLayout) (records : List IoRecord) : Json Float :=
  let items := Json.list (records.map fun r => .dict r.item)
  if layout.wrapped then .dict [("events", items)] else items

/-! ## The cells -/

section Cells

variable {c : Char} {r : IoRecord}

theorem BioTime.not_isSpace (t : BioTime) (h : c ∈ t.text) : Python.isSpace c = false := by
  rcases t.chars c h with hdigit | hother
  · exact Python.not_isSpace_of_isDigit (.inl hdigit)
  · simp only [List.mem_cons, List.not_mem_nil, or_false] at hother
    rcases hother with rfl | rfl | rfl | rfl <;> decide

theorem Rwbs.not_isSpace (rwbs : Rwbs) (h : c ∈ rwbs.chars) : Python.isSpace c = false :=
  not_isSpace_of_isUpper (rwbs.letters c h)

theorem isNewline_of_not_isSpace (h : Python.isSpace c = false) : Csv.isNewline c = false := by
  rw [Csv.isNewline, Bool.or_eq_false_iff, decide_eq_false_iff_not, decide_eq_false_iff_not]
  constructor <;>
    · rintro rfl
      cases h

theorem Word.clear (w : Word) : Csv.Clear w.chars := fun c hc =>
  ⟨(w.plain c hc).1, (w.plain c hc).2.1, isNewline_of_not_isSpace (w.plain c hc).2.2⟩

theorem Word.strip (w : Word) : Python.strip w.chars = w.chars :=
  Text.trim_eq_self fun c hc => (w.plain c hc).2.2

theorem clear_str (n : ℤ) : Csv.Clear (Python.str n) := fun _ hc =>
  ⟨Python.ne_of_mem_str hc (by decide) (by decide), Python.ne_of_mem_str hc (by decide) (by decide),
    isNewline_of_not_isSpace (Python.not_isSpace_of_mem_str hc)⟩

theorem BioTime.clear (t : BioTime) : Csv.Clear t.text := by
  intro c hc
  refine ⟨?_, ?_, isNewline_of_not_isSpace (t.not_isSpace hc)⟩
  · rintro rfl
    exact (t.chars _ hc).elim (by decide) (by decide)
  · rintro rfl
    exact (t.chars _ hc).elim (by decide) (by decide)

theorem Rwbs.clear (rwbs : Rwbs) : Csv.Clear rwbs.chars := by
  intro c hc
  refine ⟨(rwbs.plain.chars c hc).1, ?_, (rwbs.plain.chars c hc).2.1⟩
  rintro rfl
  exact absurd (rwbs.letters _ hc) (by decide)

theorem IoRecord.clear_cells (r : IoRecord) : ∀ cell ∈ r.cells, Csv.Clear cell := by
  simp [IoRecord.cells, r.timestamp.clear, r.comm.clear, clear_str, r.device.clear,
    r.direction.clear]

/-- No cell has white space in it. -/
theorem IoRecord.not_isSpace_cells (r : IoRecord) :
    ∀ cell ∈ r.cells, ∀ c ∈ cell, Python.isSpace c = false := by
  have hstr : ∀ n : ℤ, ∀ c ∈ Python.str n, Python.isSpace c = false := fun n c hc =>
    Python.not_isSpace_of_mem_str hc
  intro cell hcell
  simp only [IoRecord.cells, List.mem_cons, List.not_mem_nil, or_false] at hcell
  rcases hcell with rfl | rfl | rfl | rfl | rfl | rfl | rfl
  · exact fun c hc => r.timestamp.not_isSpace hc
  · exact fun c hc => (r.comm.plain c hc).2.2
  · exact hstr _
  · exact fun c hc => (r.device.plain c hc).2.2
  · exact fun c hc => r.direction.not_isSpace hc
  · exact hstr _
  · exact hstr _

/-- The reader of CSV takes the names. -/
structure IoRecord.Storable (r : IoRecord) : Prop where
  comm : Csv.Storable r.comm.chars
  device : Csv.Storable r.device.chars

instance (r : IoRecord) : Decidable r.Storable :=
  decidable_of_iff (Csv.Storable r.comm.chars ∧ Csv.Storable r.device.chars)
    ⟨fun ⟨hcomm, hdevice⟩ => ⟨hcomm, hdevice⟩, fun ⟨hcomm, hdevice⟩ => ⟨hcomm, hdevice⟩⟩

theorem storable_str (n : Int64) : Csv.Storable (Python.str n.toInt) :=
  (plain_printed (ProbeEvent.fitsInt64_toInt n)).storable

theorem BioTime.storable (t : BioTime) : Csv.Storable t.text := by
  refine ⟨fun hnul => ?_, t.short⟩
  exact (t.chars _ hnul).elim (by decide) (by decide)

theorem IoRecord.storable_cells_iff (r : IoRecord) :
    (∀ cell ∈ r.cells, Csv.Storable cell) ↔ r.Storable := by
  constructor
  · intro h
    exact ⟨h _ (by simp [IoRecord.cells]), h _ (by simp [IoRecord.cells])⟩
  · rintro ⟨hcomm, hdevice⟩
    simp [IoRecord.cells, r.timestamp.storable, hcomm, storable_str, hdevice,
      r.direction.plain.storable]

theorem int?_str_int64 (n : Int64) : Python.int? (Python.str n.toInt) = some n.toInt :=
  int?_printed (ProbeEvent.fitsInt64_toInt n)

end Cells

/-! ## Words of a line -/

section Words

variable {c : Char} {s t : List Char} {cells : List (List Char)} {pad : ℕ → List Char → ℕ}

theorem split_replicate (n : ℕ) (t : List Char) :
    Python.split (List.replicate n ' ' ++ t) = Python.split t :=
  Python.split_blank_append (fun c hc => by rw [List.eq_of_mem_replicate hc]; decide) t

theorem padded_cons (cell : List Char) (cells : List (List Char)) :
    padded pad (cell :: cells) = cell ++ ' ' :: (List.replicate (pad 0 cell) ' ' ++
      padded (fun i => pad (i + 1)) cells) := by
  rw [padded, List.mapIdx_cons, List.flatten_cons, List.replicate_succ, List.append_assoc,
    List.cons_append]
  rfl

theorem mem_padded (h : c ∈ padded pad cells) : c = ' ' ∨ ∃ cell ∈ cells, c ∈ cell := by
  simp only [padded, List.mem_flatten, List.mem_mapIdx] at h
  obtain ⟨_, ⟨i, hi, rfl⟩, hmem⟩ := h
  rcases List.mem_append.mp hmem with hmem | hmem
  · exact .inr ⟨cells[i], List.getElem_mem hi, hmem⟩
  · exact .inl (List.eq_of_mem_replicate hmem)

/-- The words of a line are its cells, without those that are empty. -/
theorem split_padded (h : ∀ cell ∈ cells, ∀ c ∈ cell, Python.isSpace c = false) :
    Python.split (padded pad cells) = cells.filter (· ≠ []) := by
  induction cells generalizing pad with
  | nil => rfl
  | cons cell cells ih =>
      obtain ⟨hcell, hcells⟩ := List.forall_mem_cons.mp h
      rw [padded_cons, Python.split_append_cons (by decide), split_replicate, ih hcells,
        Python.split_of_forall hcell, ← List.filter_append, List.singleton_append]

/-- A separator cuts what is looked for. -/
theorem infix_append_cons_iff {pat : List Char} (hc : c ∉ pat) (hne : pat ≠ []) :
    pat <:+: s ++ c :: t ↔ pat <:+: s ∨ pat <:+: t := by
  constructor
  · intro h
    by_contra hout
    obtain ⟨hs, ht⟩ := not_or.mp hout
    exact Text.rfind_eq_none_iff.mp
      ((Text.rfind_append_cons_of_notMem hc hne s ht).trans (Text.rfind_eq_none_iff.mpr hs)) h
  · rintro (h | h)
    · exact h.trans (List.prefix_append s _).isInfix
    · exact h.trans ((List.suffix_cons c t).trans (List.suffix_append s _)).isInfix

theorem time_infix_cons_iff (hc : Python.isSpace c = true) :
    "TIME".toList <:+: c :: t ↔ "TIME".toList <:+: t := by
  have hpat : c ∉ "TIME".toList := by
    rintro hmem
    simp at hmem
    rcases hmem with rfl | rfl | rfl | rfl <;> cases hc
  simpa using infix_append_cons_iff (s := []) (t := t) hpat (by simp)

theorem time_infix_replicate (n : ℕ) :
    "TIME".toList <:+: List.replicate n ' ' ++ t ↔ "TIME".toList <:+: t := by
  induction n with
  | zero => rfl
  | succ n ih => rw [List.replicate_succ, List.cons_append, time_infix_cons_iff (by decide), ih]

theorem time_infix_padded :
    "TIME".toList <:+: padded pad cells ↔ ∃ cell ∈ cells, "TIME".toList <:+: cell := by
  induction cells generalizing pad with
  | nil => simp [padded]
  | cons cell cells ih =>
      rw [padded_cons, infix_append_cons_iff (by simp) (by simp), time_infix_replicate, ih]
      simp

end Words

/-! ## The table -/

section Table

variable {layout : BioLayout} {r : IoRecord} {records : List IoRecord}

theorem bioTextLine_congr {s t : List Char}
    (hblank : (∀ c ∈ s, Python.isSpace c = true) ↔ ∀ c ∈ t, Python.isSpace c = true)
    (htime : "TIME".toList <:+: s ↔ "TIME".toList <:+: t)
    (hsplit : Python.split s = Python.split t) : bioTextLine s = bioTextLine t := by
  rw [bioTextLine, bioTextLine, hsplit]
  simp only [Python.strip_eq_nil_iff, hblank, htime]

theorem trimmable_bioTextLine :
    Text.Trimmable Python.isSpace (fun _ => True) bioTextLine where
  nil := rfl
  front c line hc _ := by
    refine ⟨trivial, bioTextLine_congr ?_ (time_infix_cons_iff hc) (Python.split_cons hc line)⟩
    simp [hc]
  back c line hc _ := by
    refine ⟨trivial, bioTextLine_congr ?_ ?_ (Python.split_concat hc line)⟩
    · simp [or_imp, forall_and, hc]
    · rw [infix_append_cons_iff (t := [])]
      · simp
      · intro hmem
        simp at hmem
        rcases hmem with rfl | rfl | rfl | rfl <;> cases hc
      · simp

/-- The table shows the record. -/
structure IoRecord.Listed (r : IoRecord) : Prop where
  comm : r.comm.chars ≠ []
  device : r.device.chars ≠ []
  direction : r.direction.chars ≠ []
  commTime : ¬"TIME".toList <:+: r.comm.chars
  deviceTime : ¬"TIME".toList <:+: r.device.chars
  directionTime : ¬"TIME".toList <:+: r.direction.chars

instance (r : IoRecord) : Decidable r.Listed :=
  decidable_of_iff (r.comm.chars ≠ [] ∧ r.device.chars ≠ [] ∧ r.direction.chars ≠ [] ∧
      ¬"TIME".toList <:+: r.comm.chars ∧ ¬"TIME".toList <:+: r.device.chars ∧
        ¬"TIME".toList <:+: r.direction.chars)
    ⟨fun ⟨h₁, h₂, h₃, h₄, h₅, h₆⟩ => ⟨h₁, h₂, h₃, h₄, h₅, h₆⟩,
      fun ⟨h₁, h₂, h₃, h₄, h₅, h₆⟩ => ⟨h₁, h₂, h₃, h₄, h₅, h₆⟩⟩

theorem not_time_infix_str (n : ℤ) : ¬"TIME".toList <:+: Python.str n := fun h =>
  Python.ne_of_mem_str (h.subset (by simp : 'T' ∈ "TIME".toList)) (by decide) (by decide) rfl

theorem BioTime.not_time_infix (t : BioTime) : ¬"TIME".toList <:+: t.text := fun h =>
  (t.chars _ (h.subset (by simp : 'T' ∈ "TIME".toList))).elim (by decide) (by decide)

theorem str_ne_nil (n : ℤ) : Python.str n ≠ [] := by
  intro h
  have hread := Python.float?_str n
  rw [h] at hread
  cases hread

theorem time_infix_cells_iff :
    (∃ cell ∈ r.cells, "TIME".toList <:+: cell) ↔ "TIME".toList <:+: r.comm.chars ∨
      "TIME".toList <:+: r.device.chars ∨ "TIME".toList <:+: r.direction.chars := by
  simp only [IoRecord.cells, List.mem_cons, List.not_mem_nil, or_false, exists_eq_or_imp,
    exists_eq_left, r.timestamp.not_time_infix, not_time_infix_str, false_or, or_false]

theorem length_filter_cells :
    (r.cells.filter (· ≠ [])).length = 7 ↔
      r.comm.chars ≠ [] ∧ r.device.chars ≠ [] ∧ r.direction.chars ≠ [] := by
  have hlength : (r.cells.filter (· ≠ [])).length = 7 ↔ ∀ cell ∈ r.cells, cell ≠ [] := by
    have hseven : 7 = r.cells.length := rfl
    rw [hseven, List.length_filter_eq_length_iff]
    simp only [decide_eq_true_eq]
  rw [hlength]
  simp [IoRecord.cells, r.timestamp.ne, str_ne_nil]

theorem bioTextLine_tableLine (layout : BioLayout) (r : IoRecord) :
    bioTextLine (layout.tableLine r.cells) = if r.Listed then some r.event else none := by
  have hsplit : Python.split (layout.tableLine r.cells) = r.cells.filter (· ≠ []) :=
    split_padded r.not_isSpace_cells
  have htime : "TIME".toList <:+: layout.tableLine r.cells ↔ _ :=
    time_infix_padded.trans time_infix_cells_iff
  by_cases hbad : "TIME".toList <:+: layout.tableLine r.cells
  · rw [bioTextLine, if_pos (.inr hbad), if_neg]
    rintro ⟨-, -, -, hcomm, hdevice, hdirection⟩
    exact (htime.mp hbad).elim hcomm fun h => h.elim hdevice hdirection
  · obtain ⟨hcomm, hrest⟩ := not_or.mp fun h => hbad (htime.mpr h)
    obtain ⟨hdevice, hdirection⟩ := not_or.mp hrest
    have hblank : Python.strip (layout.tableLine r.cells) ≠ [] := by
      intro hnil
      have hmem : r.timestamp.text ∈ r.cells.filter (· ≠ []) :=
        List.mem_filter.mpr ⟨List.mem_cons_self, decide_eq_true r.timestamp.ne⟩
      rw [← hsplit, Python.split_of_blank (Python.strip_eq_nil_iff.mp hnil)] at hmem
      exact List.not_mem_nil hmem
    rw [bioTextLine, if_neg (not_or.mpr ⟨hblank, hbad⟩), hsplit]
    by_cases hfull : r.comm.chars ≠ [] ∧ r.device.chars ≠ [] ∧ r.direction.chars ≠ []
    · have hcells : r.cells.filter (· ≠ []) = r.cells :=
        List.filter_sublist.eq_of_length (length_filter_cells.mpr hfull)
      rw [hcells, if_pos ⟨hfull.1, hfull.2.1, hfull.2.2, hcomm, hdevice, hdirection⟩]
      simp only [IoRecord.cells, r.timestamp.read, int?_str_int64, Python.float?_str,
        Option.bind_eq_bind, Option.bind_some]
      rfl
    · rw [if_neg fun h => hfull ⟨h.comm, h.device, h.direction⟩]
      split
      · next hwords =>
        refine absurd (length_filter_cells.mp (Nat.le_antisymm ?_ ?_)) hfull
        · exact List.length_filter_le _ r.cells
        · rw [hwords]
          exact Nat.le_add_left 7 _
      · rfl

/-- The table loses the records that it does not show. -/
theorem parseBiosnoopText_table (layout : BioLayout) (records : List IoRecord) :
    parseBiosnoopText (layout.table records) =
      (records.filter (·.Listed)).map IoRecord.event := by
  have hheader : bioTextLine (layout.tableLine bioHeader) = none := by
    refine if_pos (.inr (time_infix_padded.mpr ⟨_, List.mem_cons_self, ?_⟩))
    exact ⟨[], "(s)".toList, by simp⟩
  have hline : ∀ line ∈ layout.tableLine bioHeader :: records.map (layout.tableLine ·.cells),
      '\n' ∉ line := by
    rintro line hmem hnewline
    rcases List.mem_cons.mp hmem with rfl | hmem
    · rcases mem_padded hnewline with h | ⟨cell, hcell, h⟩
      · cases h
      · simp only [bioHeader, List.mem_cons, List.not_mem_nil, or_false] at hcell
        rcases hcell with rfl | rfl | rfl | rfl | rfl | rfl | rfl <;> simp at h
    · obtain ⟨r, -, rfl⟩ := List.mem_map.mp hmem
      rcases mem_padded hnewline with h | ⟨cell, hcell, h⟩
      · cases h
      · exact absurd (r.not_isSpace_cells cell hcell _ h) (by decide)
  rw [parseBiosnoopText, Python.strip, BioLayout.table,
    Text.filterMap_trim trimmable_bioTextLine fun _ _ => trivial, Text.splitOn_concat_self,
    List.splitOn_intercalate _ hline (List.cons_ne_nil _ _), List.filterMap_append,
    List.filterMap_cons_none hheader, List.filterMap_map, ← List.filterMap_eq_map',
    List.filterMap_filter]
  refine (List.append_nil _).trans (List.filterMap_congr fun r _ => ?_)
  rw [Function.comp_apply, bioTextLine_tableLine]
  simp only [decide_eq_true_eq]

end Table

/-! ## Comma-separated values -/

theorem parseBiosnoopRow_cells (r : IoRecord) : parseBiosnoopRow r.cells = some r.event := by
  simp only [IoRecord.cells, parseBiosnoopRow, r.timestamp.read, int?_str_int64,
    Python.float?_str, Option.bind_eq_bind, Option.bind_some, r.comm.strip, r.device.strip]
  rfl

theorem parseBiosnoopCsv_csv (layout : BioLayout) (records : List IoRecord) :
    parseBiosnoopCsv (layout.csv records) =
      if ∀ r ∈ records, r.Storable then some (records.map IoRecord.event) else none := by
  have hclear : ∀ row ∈ bioHeader :: records.map IoRecord.cells,
      2 ≤ row.length ∧ ∀ field ∈ row, Csv.Clear field := by
    refine List.forall_mem_cons.mpr ⟨by decide, fun row hmem => ?_⟩
    obtain ⟨r, -, rfl⟩ := List.mem_map.mp hmem
    exact ⟨Nat.le_add_left 2 5, r.clear_cells⟩
  have hheader : ∀ field ∈ bioHeader, Csv.Storable field := by decide
  have hstorable : (∀ row ∈ bioHeader :: records.map IoRecord.cells, ∀ field ∈ row,
      Csv.Storable field) ↔ ∀ r ∈ records, r.Storable := by
    rw [List.forall_mem_cons, List.forall_mem_map]
    simp only [IoRecord.storable_cells_iff]
    exact and_iff_right hheader
  have hfirst : isHeader bioHeader = true := by decide
  have hrows : (records.map IoRecord.cells).filterMap parseBiosnoopRow =
      records.map IoRecord.event := by
    rw [List.filterMap_map, ← List.filterMap_eq_map']
    exact List.filterMap_congr fun r _ => parseBiosnoopRow_cells r
  rw [parseBiosnoopCsv, BioLayout.csv, Csv.read_printRows layout.lineEnd_eq hclear]
  simp only [hstorable]
  split
  · simp only [Option.map_some, hfirst, if_true, List.nil_append, hrows]
  · rfl

/-! ## JSON -/

section Items

variable {repr : Json Float → String}

theorem bioItem_item (r : IoRecord) : bioItem repr r.item = some r.jsonEvent := by
  have hupper : Python.upper r.direction.chars = r.direction.chars :=
    upper_eq_self fun c hc => by
      have hbounds := isUpper_bounds (r.direction.letters c hc)
      omega
  have htime : Json.getEither r.item "timestamp" "time" (.int 0) = r.timestamp.json := rfl
  have hdirection : Json.getEither r.item "direction" "type" (.str "R") =
      .str (String.ofList r.direction.chars) := rfl
  have hcomm : Json.getEither r.item "comm" "process" (.str "") =
      .str (String.ofList r.comm.chars) := rfl
  have hdisk : Json.getEither r.item "disk" "device" (.str "") =
      .str (String.ofList r.device.chars) := rfl
  have hsize : Json.getEither r.item "io_size" "bytes" (.int 0) = .int r.bytes.toInt := rfl
  have hpid : (Dict.lookup "pid" r.item).getD (.int 0) = .int r.pid.toInt := rfl
  have hlatency : (Dict.lookup "latency_us" r.item).getD (latencyOfNs r.item) =
      .float (Python.thousandth r.latencyNs.toInt) := rfl
  have hsector : (Dict.lookup "sector" r.item).getD (.int 0) = .int 0 := rfl
  rw [bioItem, htime, hdirection, hcomm, hdisk, hsize, hpid, hlatency, hsector,
    r.timestamp.json_eq]
  simp only [Json.int?, Json.float?, Json.number?, Json.text, String.toList_ofList, hupper,
    Option.bind_eq_bind, Option.bind_some]
  rfl

theorem parseBiosnoopJson_json (layout : BioLayout) (records : List IoRecord) :
    parseBiosnoopJson repr (layout.json records) = some (records.map IoRecord.jsonEvent) := by
  have hitems : ∀ items, bioItems (.list (List.map Json.dict items)) = some items := by
    intro items
    rw [bioItems, List.filterMap_map]
    exact congrArg some List.filterMap_some
  have hread : (bioItems (.list (records.map fun r => .dict r.item))).bind
      (fun items => items.mapM (bioItem repr)) = some (records.map IoRecord.jsonEvent) := by
    have hmap : (records.map fun r => Json.dict r.item) =
        (records.map IoRecord.item).map .dict := by rw [List.map_map]; rfl
    have hone : (fun r : IoRecord => bioItem repr r.item) = fun r => pure r.jsonEvent :=
      funext bioItem_item
    rw [hmap, hitems, Option.bind_some, List.mapM_map]
    exact (congrArg records.mapM hone).trans List.mapM_pure
  rcases hwrapped : layout.wrapped with _ | _
  · have hjson : layout.json records = .list (records.map fun r => .dict r.item) :=
      if_neg (by rw [hwrapped]; decide)
    rw [hjson]
    exact hread
  · have hjson : layout.json records =
        .dict [("events", .list (records.map fun r => .dict r.item))] := if_pos hwrapped
    rw [hjson]
    exact hread

end Items

end MiniDrop
