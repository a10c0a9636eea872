import MiniDrop.Model.Tracing

/-! # The durations of spans

The unit of a duration is guessed from its size, so of two spans in one unit the longer may come out
as the shorter. Both file formats are read alike. -/

namespace MiniDrop

/-! ## Spans -/

/-- A number, as JSON has it and as text. -/
structure SpanNumber where
  json : Json ℚ
  value : ℚ
  text : List Char
  json_eq : json.number? .exact = some value
  read : Python.rational? text = some value
  clear : Csv.Clear text
  storable : Csv.Storable text

/-- A text that a cell may hold. -/
structure SpanText where
  chars : List Char
  ne : chars ≠ []
  clear : Csv.Clear chars
  blanks : Python.strip chars = chars

structure Span where
  timestamp : SpanNumber
  name : SpanText
  duration : SpanNumber
  service : SpanText
  status : SpanText

def timestampNames : List String := ["timestamp", "ts", "time"]

def nameNames : List String := ["name", "operation", "span_name"]

def durationNames : List String := ["duration_ms", "duration", "latency_ms"]

def serviceNames : List String := ["service", "service_name"]

def statusNames : List String := ["status", "state"]

/-- The names of the fields, of those that the parsers know. -/
structure SpanNames (durations : List String) where
  timestamp : String := "timestamp"
  name : String := "name"
  duration : String := "duration_ms"
  service : String := "service"
  status : String := "status"
  timestamp_mem : timestamp ∈ timestampNames := by decide
  name_mem : name ∈ nameNames := by decide
  duration_mem : duration ∈ durations := by decide
  service_mem : service ∈ serviceNames := by decide
  status_mem : status ∈ statusNames := by decide

def SpanNames.list {durations : List String} (names : SpanNames durations) : List String :=
  [names.timestamp, names.name, names.duration, names.service, names.status]

/-- A JSON file, which may have the list under a key. -/
structure JsonLayout where
  names : SpanNames durationNames
  key : Option String := none
  key_mem : ∀ k ∈ key, k ∈ ["spans", "events", "data", "records", "traces"]

structure CsvLayout where
  names : SpanNames (durationNames ++ ["latency"])
  lineEnd : List Char := ['\n']
  lineEnd_eq : Csv.IsLineEnd lineEnd

namespace Span

def item (names : SpanNames durationNames) (span : Span) : List (String × Json ℚ) :=
  [(names.timestamp, span.timestamp.json), (names.name, .str (String.ofList span.name.chars)),
    (names.duration, span.duration.json), (names.service, .str (String.ofList span.service.chars)),
    (names.status, .str (String.ofList span.status.chars))]

def row (span : Span) : List (List Char) :=
  [span.timestamp.text, span.name.chars, span.duration.text, span.service.chars, span.status.chars]

def event (span : Span) : TraceEvent where
  timestamp := span.timestamp.value
  name := String.ofList span.name.chars
  durationMs := normalizedDuration span.duration.value
  service := String.ofList span.service.chars
  status := String.ofList span.status.chars

/-- The reader of CSV takes the texts. -/
structure Storable (span : Span) : Prop where
  name : Csv.Storable span.name.chars
  service : Csv.Storable span.service.chars
  status : Csv.Storable span.status.chars

end Span

def JsonLayout.data (layout : JsonLayout) (spans : List Span) : Json ℚ :=
  let items := Json.list (spans.map fun span => .dict (span.item layout.names))
  match layout.key with
  | none => items
  | some key => .dict [(key, items)]

def CsvLayout.text (layout : CsvLayout) (spans : List Span) : List Char :=
  Csv.printRows layout.lineEnd ((layout.names.list.map String.toList) :: spans.map Span.row)

/-! ## Statement -/

/-- A span that is not longer than another does not come out longer. -/
def KeepsOrder (spans : List Span) (events : List TraceEvent) : Prop :=
  ∀ (i j : ℕ) (s t : Span) (e f : TraceEvent), spans[i]? = some s → spans[j]? = some t →
    events[i]? = some e → events[j]? = some f → s.duration.value ≤ t.duration.value →
      e.durationMs ≤ f.durationMs

/-- Both formats give the same events, in the order of their durations. -/
def ReadsSpans (repr : Json ℚ → String) (json : JsonLayout) (csv : CsvLayout) (spans : List Span) :
    Prop :=
  ∃ events, parseTracingJson repr (some (json.data spans)) = some events ∧
    parseTracingCsv (csv.text spans) = some events ∧ KeepsOrder spans events

/-- Durations on different sides of a threshold are as far apart as the units. -/
structure UnitsApart (spans : List Span) : Prop where
  micro : ∀ s ∈ spans, ∀ t ∈ spans, s.duration.value ≤ 10000 → 10000 < t.duration.value →
    t.duration.value ≤ 100000 → 1000 * s.duration.value ≤ t.duration.value
  nano : ∀ s ∈ spans, ∀ t ∈ spans, s.duration.value ≤ 10000 → 100000 < t.duration.value →
    1000000 * s.duration.value ≤ t.duration.value
  microNano : ∀ s ∈ spans, ∀ t ∈ spans, 10000 < s.duration.value → s.duration.value ≤ 100000 →
    100000 < t.duration.value → 1000 * s.duration.value ≤ t.duration.value

/-! ## The order -/

section Order

variable {d e : ℚ}

theorem normalizedDuration_of_le (h : d ≤ 10000) : normalizedDuration d = d := by
  have hle : d ≤ 100000 := h.trans (by norm_num)
  rw [normalizedDuration, if_neg hle.not_gt, if_neg h.not_gt]

theorem normalizedDuration_micro (hlow : 10000 < d) (hhigh : d ≤ 100000) :
    normalizedDuration d = d / 1000 := by
  rw [normalizedDuration, if_neg hhigh.not_gt, if_pos hlow]

theorem normalizedDuration_nano (h : 100000 < d) : normalizedDuration d = d / 1000000 := if_pos h

/-- The durations of a unit keep their order. -/
theorem normalizedDuration_le_iff (h : d ≤ e) :
    normalizedDuration d ≤ normalizedDuration e ↔
      (d ≤ 10000 → 10000 < e → e ≤ 100000 → 1000 * d ≤ e) ∧
        (d ≤ 10000 → 100000 < e → 1000000 * d ≤ e) ∧
          (10000 < d → d ≤ 100000 → 100000 < e → 1000 * d ≤ e) := by
  rcases le_or_gt e 10000 with he | he
  · have hd : d ≤ 10000 := h.trans he
    rw [normalizedDuration_of_le he, normalizedDuration_of_le hd]
    have he' : e ≤ 100000 := he.trans (by norm_num)
    simp [h, he.not_gt, he'.not_gt]
  rcases le_or_gt e 100000 with he' | he'
  · rw [normalizedDuration_micro he he']
    rcases le_or_gt d 10000 with hd | hd
    · rw [normalizedDuration_of_le hd, le_div_iff₀ (by norm_num), mul_comm]
      simp [hd, he, he', he'.not_gt]
    · rw [normalizedDuration_micro hd (h.trans he'), div_le_div_iff_of_pos_right (by norm_num)]
      simp [h, hd.not_ge, he'.not_gt]
  · rw [normalizedDuration_nano he']
    rcases le_or_gt d 10000 with hd | hd
    · rw [normalizedDuration_of_le hd, le_div_iff₀ (by norm_num), mul_comm]
      simp [hd, he', he'.not_ge, hd.not_gt]
    rcases le_or_gt d 100000 with hd' | hd'
    · rw [normalizedDuration_micro hd hd', div_le_div_iff₀ (by norm_num) (by norm_num)]
      have hscale : d * 1000000 ≤ e * 1000 ↔ 1000 * d ≤ e := by
        constructor <;> intro hle <;> linarith
      simp [hscale, hd, hd', he', hd.not_ge]
    · rw [normalizedDuration_nano hd', div_le_div_iff_of_pos_right (by norm_num)]
      simp [h, hd.not_ge, hd'.not_ge]

theorem keepsOrder_iff (spans : List Span) :
    KeepsOrder spans (spans.map Span.event) ↔ UnitsApart spans := by
  constructor
  · intro h
    have hpair : ∀ s ∈ spans, ∀ t ∈ spans, s.duration.value ≤ t.duration.value →
        normalizedDuration s.duration.value ≤ normalizedDuration t.duration.value := by
      intro s hs t ht hle
      obtain ⟨i, hi⟩ := List.getElem?_of_mem hs
      obtain ⟨j, hj⟩ := List.getElem?_of_mem ht
      exact h i j s t s.event t.event hi hj (by rw [List.getElem?_map, hi]; rfl)
        (by rw [List.getElem?_map, hj]; rfl) hle
    constructor
    · intro s hs t ht hd he he'
      have hle := hd.trans he.le
      exact ((normalizedDuration_le_iff hle).mp (hpair s hs t ht hle)).1 hd he he'
    · intro s hs t ht hd he
      have hle : s.duration.value ≤ t.duration.value := by linarith
      exact ((normalizedDuration_le_iff hle).mp (hpair s hs t ht hle)).2.1 hd he
    · intro s hs t ht hd hd' he
      have hle := hd'.trans he.le
      exact ((normalizedDuration_le_iff hle).mp (hpair s hs t ht hle)).2.2 hd hd' he
  · intro h i j s t e f hi hj he hf hle
    rw [List.getElem?_map, hi] at he
    rw [List.getElem?_map, hj] at hf
    obtain rfl := Option.some.inj he
    obtain rfl := Option.some.inj hf
    have hs := List.mem_of_getElem? hi
    have ht := List.mem_of_getElem? hj
    exact (normalizedDuration_le_iff hle).mpr
      ⟨h.micro s hs t ht, h.nano s hs t ht, h.microNano s hs t ht⟩

end Order

/-! ## Names -/

section Names

/-- Each name is one of its candidates, and no candidate is one of two names. -/
structure FieldNames (names : List String) (candidates : List (List String)) : Prop where
  mem : List.Forall₂ (· ∈ ·) names candidates
  nodup : candidates.flatten.Nodup

variable {names : List String} {candidates : List (List String)} {keys : List String} {i : ℕ}
  {name : String}

theorem mem_flatten_of_mem (h : List.Forall₂ (· ∈ ·) names candidates) {n : String} (hn : n ∈ names) :
    n ∈ candidates.flatten := by
  induction h with
  | nil => cases hn
  | cons hmem _ ih =>
      rw [List.flatten_cons, List.mem_append]
      rcases List.mem_cons.mp hn with rfl | hn
      · exact .inl hmem
      · exact .inr (ih hn)

theorem FieldNames.tail {n : String} (h : FieldNames (n :: names) (keys :: candidates)) :
    n ∈ keys ∧ FieldNames names candidates ∧ ∀ k ∈ keys, k ∉ candidates.flatten := by
  obtain ⟨hmem, hnodup⟩ := h
  obtain ⟨hn, hnames⟩ := List.forall₂_cons.mp hmem
  rw [List.flatten_cons, List.nodup_append'] at hnodup
  exact ⟨hn, ⟨hnames, hnodup.2.1⟩, fun k hk => hnodup.2.2 hk⟩

theorem FieldNames.nodup_names (h : FieldNames names candidates) : names.Nodup := by
  induction names generalizing candidates with
  | nil => exact List.nodup_nil
  | cons n names ih =>
      cases candidates with
      | nil => cases h.mem
      | cons keys candidates =>
          obtain ⟨hn, hrest, hapart⟩ := h.tail
          exact List.nodup_cons.mpr
            ⟨fun hmem => hapart n hn (mem_flatten_of_mem hrest.mem hmem), ih hrest⟩

/-- Other candidates of a name are no names. -/
theorem FieldNames.notMem (h : FieldNames names candidates) (hkeys : candidates[i]? = some keys)
    (hname : names[i]? = some name) :
    name ∈ keys ∧ ∀ k ∈ keys, k ≠ name → k ∉ names := by
  induction names generalizing candidates i with
  | nil => simp at hname
  | cons n names ih =>
      cases candidates with
      | nil => cases h.mem
      | cons first candidates =>
          obtain ⟨hn, hrest, hapart⟩ := h.tail
          cases i with
          | zero =>
              obtain rfl := Option.some.inj hkeys
              obtain rfl := Option.some.inj hname
              refine ⟨hn, fun k hk hne hmem => ?_⟩
              rcases List.mem_cons.mp hmem with rfl | hmem
              · exact hne rfl
              · exact hapart k hk (mem_flatten_of_mem hrest.mem hmem)
          | succ i =>
              obtain ⟨hmem, hothers⟩ := ih hrest hkeys hname
              refine ⟨hmem, fun k hk hne hmem' => ?_⟩
              rcases List.mem_cons.mp hmem' with rfl | hmem'
              · exact hapart k hn (List.mem_flatten_of_mem (List.mem_of_getElem? hkeys) hk)
              · exact hothers k hk hne hmem'

/-- The value of a name. -/
theorem FieldNames.getOr (h : FieldNames names candidates) {values : List (Json ℚ)}
    (hlength : values.length = names.length) (hkeys : candidates[i]? = some keys) {v : Json ℚ}
    (hvalue : values[i]? = some v) (other : Json ℚ) :
    Json.getOr .exact (names.zip values) keys other = if v.truthy .exact then v else other := by
  have hfst : (names.zip values).map Prod.fst = names :=
    List.map_fst_zip (Nat.le_of_eq hlength.symm)
  have hi : i < names.length := hlength ▸ (List.getElem?_eq_some_iff.mp hvalue).1
  obtain ⟨name, hname⟩ : ∃ name, names[i]? = some name := ⟨_, List.getElem?_eq_getElem hi⟩
  obtain ⟨hmem, hothers⟩ := h.notMem hkeys hname
  have hentry : (name, v) ∈ names.zip values := by
    refine List.mem_of_getElem? (i := i) ?_
    rw [List.getElem?_zip_eq_some]
    exact ⟨hname, hvalue⟩
  refine Json.getOr_eq .exact hmem (Dict.lookup_of_mem (by rw [hfst]; exact h.nodup_names) hentry) ?_ other
  intro k hk hne
  rw [Dict.lookup_eq_none_iff, hfst]
  exact hothers k hk hne

theorem idxOf?_of_nodup (h : names.Nodup) (hname : names[i]? = some name) :
    (names.map String.toList).idxOf? name.toList = some i := by
  induction names generalizing i with
  | nil => simp at hname
  | cons n names ih =>
      obtain ⟨hnot, hnodup⟩ := List.nodup_cons.mp h
      rw [List.map_cons, List.idxOf?_cons]
      cases i with
      | zero =>
          obtain rfl := Option.some.inj hname
          simp
      | succ i =>
          have hne : n ≠ name := by
            rintro rfl
            exact hnot (List.mem_of_getElem? hname)
          have hneq : (n.toList == name.toList) = false := by
            simpa [String.toList_inj] using hne
          rw [hneq, ih hnodup hname]
          rfl

/-- The column of a name. -/
theorem FieldNames.findCol (h : FieldNames names candidates) (hkeys : candidates[i]? = some keys)
    (hi : i < names.length) : findCol (names.map String.toList) keys = some i := by
  have hname : names[i]? = some names[i] := List.getElem?_eq_getElem hi
  obtain ⟨hmem, hothers⟩ := h.notMem hkeys hname
  have hown := idxOf?_of_nodup h.nodup_names hname
  unfold MiniDrop.findCol
  cases hfound : keys.findSome? fun c => (names.map String.toList).idxOf? c.toList with
  | none =>
      rw [List.findSome?_eq_none_iff.mp hfound _ hmem] at hown
      cases hown
  | some j =>
      obtain ⟨k, hk, hj⟩ := List.exists_of_findSome?_eq_some hfound
      by_cases hkey : k = names[i]
      · rw [hkey, hown] at hj
        exact hj.symm
      · have hnone : (names.map String.toList).idxOf? k.toList = none := by
          rw [List.idxOf?_eq_none_iff]
          intro hin
          obtain ⟨n, hn, heq⟩ := List.mem_map.mp hin
          exact hothers k hk hkey (String.toList_inj.mp heq ▸ hn)
        rw [hnone] at hj
        cases hj

end Names

/-! ## Both formats -/

section Formats

variable {durations : List String}

/-- The fields in their order, with the names that each may have. -/
def candidatesOf (durations : List String) : List (List String) :=
  [timestampNames, nameNames, durations, serviceNames, statusNames]

theorem SpanNames.names (names : SpanNames durations) (h : (candidatesOf durations).flatten.Nodup) :
    FieldNames names.list (candidatesOf durations) :=
  ⟨.cons names.timestamp_mem (.cons names.name_mem (.cons names.duration_mem
    (.cons names.service_mem (.cons names.status_mem .nil)))), h⟩

/-- Zero stands for the number zero. -/
theorem number?_getOr (x : SpanNumber) :
    (if x.json.truthy .exact then x.json else .int 0).number? .exact = some x.value := by
  obtain ⟨json, value, -, hjson, -⟩ := x
  dsimp only
  split
  · exact hjson
  · next hfalse =>
      rw [← hjson]
      cases json with
      | bool b =>
          have hb : b = false := by simpa [Json.truthy] using hfalse
          simp [hb, Json.number?]
      | int n =>
          have hn : n = 0 := by simpa [Json.truthy] using hfalse
          rw [hn]
      | float q =>
          have hq : q = 0 := by simpa [Json.truthy, Numbers.exact] using hfalse
          simp [hq, Json.number?, Numbers.exact]
      | null | str | list | dict => cases hjson

theorem float?_of_number? {v : Json ℚ} {q : ℚ} (h : v.number? .exact = some q) :
    v.float? .exact = some q := by
  cases v <;> first
    | exact h
    | cases h

/-- A text is not empty. -/
theorem text_getOr (repr : Json ℚ → String) (x : SpanText) :
    (if (Json.str (String.ofList x.chars) : Json ℚ).truthy .exact then Json.str (String.ofList x.chars)
      else .str "").text repr = String.ofList x.chars := by
  split
  · rfl
  · next hfalse =>
      have hempty : String.ofList x.chars = "" := by simpa [Json.truthy] using hfalse
      rw [hempty]
      rfl

def Span.values (span : Span) : List (Json ℚ) :=
  [span.timestamp.json, .str (String.ofList span.name.chars), span.duration.json,
    .str (String.ofList span.service.chars), .str (String.ofList span.status.chars)]

theorem getOr_item (names : SpanNames durationNames) (span : Span) {i : ℕ} {keys : List String}
    {v : Json ℚ} (hkeys : (candidatesOf durationNames)[i]? = some keys)
    (hvalue : span.values[i]? = some v) (other : Json ℚ) :
    Json.getOr .exact (span.item names) keys other = if v.truthy .exact then v else other :=
  (names.names (by decide)).getOr rfl hkeys hvalue other

theorem tracingItem_item (repr : Json ℚ → String) (names : SpanNames durationNames) (span : Span) :
    tracingItem repr (span.item names) = some span.event := by
  have hts := getOr_item names span (i := 0) rfl rfl (.int 0)
  have hname := getOr_item names span (i := 1) rfl rfl (.str "")
  have hdur := getOr_item names span (i := 2) rfl rfl (.int 0)
  have hsvc := getOr_item names span (i := 3) rfl rfl (.str "")
  have hstatus := getOr_item names span (i := 4) rfl rfl (.str "")
  unfold timestampNames at hts
  unfold nameNames at hname
  unfold durationNames at hdur
  unfold serviceNames at hsvc
  unfold statusNames at hstatus
  unfold tracingItem
  rw [hts, hname, hdur, hsvc, hstatus]
  dsimp only
  rw [number?_getOr, float?_of_number? (number?_getOr span.timestamp), text_getOr, text_getOr,
    text_getOr]
  rfl

theorem parseTracingJson_data (repr : Json ℚ → String) (layout : JsonLayout) (spans : List Span) :
    parseTracingJson repr (some (layout.data spans)) = some (spans.map Span.event) := by
  have hlist : spansIn (layout.data spans) =
      some (spans.map fun span => .dict (span.item layout.names)) := by
    unfold JsonLayout.data
    cases hlayout : layout.key with
    | none => rfl
    | some key =>
        have hkey := layout.key_mem key hlayout
        simp only [List.mem_cons, List.not_mem_nil, or_false] at hkey
        rcases hkey with rfl | rfl | rfl | rfl | rfl <;> rfl
  have hdicts : (spans.map fun span => Json.dict (span.item layout.names)).filterMap Json.dict? =
      spans.map (Span.item layout.names) := by
    rw [List.filterMap_map, ← List.filterMap_eq_map]
    rfl
  have hitems : ∀ spans : List Span, (spans.map (Span.item layout.names)).mapM (tracingItem repr) =
      some (spans.map Span.event) := by
    intro spans
    induction spans with
    | nil => rfl
    | cons span spans ih =>
        rw [List.map_cons, List.mapM_cons, tracingItem_item, ih]
        rfl
  rw [parseTracingJson, Option.bind_some, hlist]
  dsimp only
  rw [hdicts, hitems]

theorem candidate_of_mem {names : SpanNames durations} {n : String} (hn : n ∈ names.list)
    (h : (candidatesOf durations).flatten.Nodup) : n ∈ (candidatesOf durations).flatten :=
  mem_flatten_of_mem (names.names h).mem hn

section Csv

variable (names : SpanNames (durationNames ++ ["latency"])) {span : Span} {spans : List Span}

theorem tracingColumns_names : tracingColumns (names.list.map String.toList) =
    ⟨some 0, some 1, some 2, some 3, some 4⟩ := by
  have h := names.names (by decide)
  have hlower : (names.list.map String.toList).map (fun n => Python.lower (Python.strip n)) =
      names.list.map String.toList := by
    have hall : ∀ n ∈ (candidatesOf (durationNames ++ ["latency"])).flatten,
        Python.lower (Python.strip n.toList) = n.toList := by decide
    rw [List.map_map]
    exact List.map_congr_left fun n hn => hall n (candidate_of_mem hn h.nodup)
  have hcol : ∀ i keys, (candidatesOf (durationNames ++ ["latency"]))[i]? = some keys → i < 5 →
      findCol (names.list.map String.toList) keys = some i := fun _ _ hkeys hi => h.findCol hkeys hi
  rw [tracingColumns, hlower, hcol 0 ["timestamp", "ts", "time"] rfl (by decide),
    hcol 1 ["name", "operation", "span_name"] rfl (by decide),
    hcol 2 ["duration_ms", "duration", "latency_ms", "latency"] rfl (by decide),
    hcol 3 ["service", "service_name"] rfl (by decide),
    hcol 4 ["status", "state"] rfl (by decide)]

theorem tracingRow_row (span : Span) :
    tracingRow ⟨some 0, some 1, some 2, some 3, some 4⟩ span.row = some span.event := by
  have hdur : numberAt span.row (some 2) = some span.duration.value := span.duration.read
  have hts : numberAt span.row (some 0) = some span.timestamp.value := span.timestamp.read
  have hname : textAt span.row (some 1) = String.ofList span.name.chars :=
    congrArg String.ofList span.name.blanks
  have hsvc : textAt span.row (some 3) = String.ofList span.service.chars :=
    congrArg String.ofList span.service.blanks
  have hstatus : textAt span.row (some 4) = String.ofList span.status.chars :=
    congrArg String.ofList span.status.blanks
  have hlength : ¬span.row.length < 2 := by simp [Span.row]
  rw [tracingRow, if_neg hlength]
  dsimp only
  rw [hdur, hts, hname, hsvc, hstatus]
  rfl

theorem clear_row : ∀ field ∈ span.row, Csv.Clear field := by
  simp [Span.row, span.timestamp.clear, span.name.clear, span.duration.clear, span.service.clear,
    span.status.clear]

theorem storable_row_iff : (∀ field ∈ span.row, Csv.Storable field) ↔ span.Storable := by
  constructor
  · intro h
    exact ⟨h _ (by simp [Span.row]), h _ (by simp [Span.row]), h _ (by simp [Span.row])⟩
  · rintro ⟨hname, hservice, hstatus⟩
    simp [Span.row, span.timestamp.storable, hname, span.duration.storable, hservice, hstatus]

theorem clear_names : ∀ field ∈ names.list.map String.toList,
    Csv.Clear field ∧ Csv.Storable field := by
  have hall : ∀ n ∈ (candidatesOf (durationNames ++ ["latency"])).flatten,
      Csv.Clear n.toList ∧ Csv.Storable n.toList := by decide
  intro field hfield
  obtain ⟨n, hn, rfl⟩ := List.mem_map.mp hfield
  exact hall n (candidate_of_mem hn (by decide))

/-- The rows of the file, of which the first is the header. -/
theorem parseTracingCsv_text (layout : CsvLayout) (spans : List Span) :
    parseTracingCsv (layout.text spans) =
      (Csv.read (layout.text spans)).map fun rows =>
        match rows with
        | [] => []
        | header :: rows => rows.filterMap (tracingRow (tracingColumns header)) := by
  have hclear : ∀ row ∈ (layout.names.list.map String.toList) :: spans.map Span.row,
      ∀ field ∈ row, Csv.Clear field := by
    refine List.forall_mem_cons.mpr ⟨fun field hmem => (clear_names _ field hmem).1, fun row hrow => ?_⟩
    obtain ⟨span, -, rfl⟩ := List.mem_map.mp hrow
    exact clear_row
  have hlines : Csv.linesOf (layout.text spans) = _ :=
    Csv.linesOf_printRows layout.lineEnd_eq hclear
  have hheader := Csv.readLine_row layout.lineEnd_eq (by simp [SpanNames.list])
    fun field hmem => (clear_names layout.names field hmem).1
  rw [if_pos fun field hmem => (clear_names layout.names field hmem).2] at hheader
  rw [parseTracingCsv, hlines, List.map_cons]
  dsimp only
  rw [hheader]
  exact if_neg (by simp [SpanNames.list])

theorem read_text (layout : CsvLayout) (spans : List Span) : Csv.read (layout.text spans) =
    if ∀ row ∈ (layout.names.list.map String.toList) :: spans.map Span.row,
      ∀ field ∈ row, Csv.Storable field
    then some ((layout.names.list.map String.toList) :: spans.map Span.row) else none := by
  refine Csv.read_printRows layout.lineEnd_eq (List.forall_mem_cons.mpr ⟨⟨by simp [SpanNames.list],
    fun field hmem => (clear_names _ field hmem).1⟩, fun row hrow => ?_⟩)
  obtain ⟨span, -, rfl⟩ := List.mem_map.mp hrow
  exact ⟨by simp [Span.row], clear_row⟩

theorem storable_rows_iff (layout : CsvLayout) :
    (∀ row ∈ (layout.names.list.map String.toList) :: spans.map Span.row,
      ∀ field ∈ row, Csv.Storable field) ↔ ∀ span ∈ spans, span.Storable := by
  constructor
  · intro h span hspan
    exact storable_row_iff.mp (h span.row (List.mem_cons_of_mem _ (List.mem_map_of_mem hspan)))
  · intro h row hrow
    rcases List.mem_cons.mp hrow with rfl | hrow
    · exact fun field hmem => (clear_names _ field hmem).2
    · obtain ⟨span, hspan, rfl⟩ := List.mem_map.mp hrow
      exact storable_row_iff.mpr (h span hspan)

end Csv

end Formats

/-! ## Main theorem -/

theorem readsSpans_iff (repr : Json ℚ → String) (json : JsonLayout) (csv : CsvLayout)
    (spans : List Span) :
    ReadsSpans repr json csv spans ↔ UnitsApart spans ∧ ∀ span ∈ spans, span.Storable := by
  rw [← keepsOrder_iff, ← storable_rows_iff csv, ReadsSpans, parseTracingJson_data,
    parseTracingCsv_text, read_text]
  constructor
  · rintro ⟨events, hjson, hcsv, horder⟩
    obtain rfl := Option.some.inj hjson
    refine ⟨horder, ?_⟩
    by_contra hstorable
    rw [if_neg hstorable] at hcsv
    cases hcsv
  · rintro ⟨horder, hstorable⟩
    refine ⟨_, rfl, ?_, horder⟩
    rw [if_pos hstorable, Option.map_some]
    dsimp only
    rw [tracingColumns_names, List.filterMap_map, ← List.filterMap_eq_map]
    exact congrArg some (List.filterMap_congr fun span _ => tracingRow_row span)

/-- Ten seconds, in milliseconds. -/
def tenThousand : SpanNumber where
  json := .int 10000
  value := 10000
  text := "10000".toList
  json_eq := rfl
  read := by decide +kernel
  clear := by decide
  storable := by decide

def tenThousandOne : SpanNumber where
  json := .int 10001
  value := 10001
  text := "10001".toList
  json_eq := rfl
  read := by decide +kernel
  clear := by decide
  storable := by decide

def sampleText : SpanText where
  chars := "db".toList
  ne := by decide
  clear := by decide
  blanks := by decide

def sampleSpan (duration : SpanNumber) : Span :=
  ⟨tenThousand, sampleText, duration, sampleText, sampleText⟩

/-- The longer of two spans comes out a thousand times shorter. -/
theorem not_readsSpans : ¬∀ (repr : Json ℚ → String) (json : JsonLayout) (csv : CsvLayout)
    (spans : List Span), (∀ span ∈ spans, 0 ≤ span.duration.value) →
      ReadsSpans repr json csv spans := by
  intro h
  obtain ⟨events, hjson, -, horder⟩ := h (fun _ => "") ⟨{}, none, by simp⟩ ⟨{}, ['\n'], .inl rfl⟩
    [sampleSpan tenThousand, sampleSpan tenThousandOne]
    (by simp [sampleSpan, tenThousand, tenThousandOne])
  rw [parseTracingJson_data] at hjson
  obtain rfl := Option.some.inj hjson
  have hle : (10000 : ℚ) ≤ 10001 := by norm_num
  have hout := horder 0 1 _ _ _ _ rfl rfl rfl rfl hle
  have hlow : normalizedDuration 10000 = 10000 := normalizedDuration_of_le (by norm_num)
  have hhigh : normalizedDuration 10001 = 10001 / 1000 :=
    normalizedDuration_micro (by norm_num) (by norm_num)
  have hnumbers : normalizedDuration 10000 ≤ normalizedDuration 10001 := hout
  rw [hlow, hhigh] at hnumbers
  norm_num at hnumbers

end MiniDrop
