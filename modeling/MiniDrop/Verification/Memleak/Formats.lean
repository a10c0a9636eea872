import MiniDrop.Verification.Memleak.Sanitizer

/-! # The three formats

A document of a format has the records of a list of leaks. The analyzer reads it if the parser that
it chooses from the text is that of the format, and reads all of it. -/

namespace MiniDrop

/-! ## Valgrind -/

/-- The kinds of leaks in a Valgrind document. -/
inductive ValgrindKind where
  | definitelyLost
  | indirectlyLost
  | possiblyLost
deriving DecidableEq

namespace ValgrindKind

def chars : ValgrindKind → List Char
  | definitelyLost => "Leak_DefinitelyLost".toList
  | indirectlyLost => "Leak_IndirectlyLost".toList
  | possiblyLost => "Leak_PossiblyLost".toList

def leakType : ValgrindKind → LeakType
  | definitelyLost => .definite
  | indirectlyLost => .indirect
  | possiblyLost => .possible

end ValgrindKind

/-- An element without others in it. -/
def leaf (tag : String) (text : List Char) : Element := .mk tag.toList text []

structure ValgrindFrame where
  ip : List Char
  func : List Char
  named : func ≠ []

structure ValgrindLeak where
  unique : List Char
  tid : List Char
  kind : ValgrindKind
  message : List Char
  bytes : ℕ
  blocks : ℕ
  frames : List ValgrindFrame

def ValgrindFrame.element (f : ValgrindFrame) : Element :=
  .mk "frame".toList [] [leaf "ip" f.ip, leaf "fn" f.func]

namespace ValgrindLeak

def element (leak : ValgrindLeak) : Element :=
  .mk "error".toList [] [leaf "unique" leak.unique, leaf "tid" leak.tid,
    leaf "kind" leak.kind.chars,
    .mk "xwhat".toList [] [leaf "text" leak.message, leaf "leakedbytes" (Python.str leak.bytes),
      leaf "leakedblocks" (Python.str leak.blocks)],
    .mk "stack".toList [] (leak.frames.map ValgrindFrame.element)]

def record (leak : ValgrindLeak) : LeakRecord where
  leakType := leak.kind.leakType
  size := leak.bytes
  count := leak.blocks
  stack := leak.frames.map ValgrindFrame.func

/-- The kind and the numbers are read as they are. -/
structure Legible (leak : ValgrindLeak) : Prop where
  kind : leak.kind ≠ .possiblyLost
  bytes : FewDigits leak.bytes
  blocks : FewDigits leak.blocks

def read? (leak : ValgrindLeak) : Option LeakRecord :=
  if FewDigits leak.bytes ∧ FewDigits leak.blocks then
    some { leak.record with leakType := valgrindType leak.kind.chars }
  else none

end ValgrindLeak

section Valgrind

variable {leak : ValgrindLeak}

theorem valgrindFrame?_element (f : ValgrindFrame) : valgrindFrame? f.element = some f.func := by
  have hfn : f.element.findText "fn" "" = f.func := rfl
  have hfile : f.element.findText "file" "" = [] := rfl
  unfold valgrindFrame?
  rw [hfn, hfile]
  dsimp only
  rw [if_neg f.named, if_pos rfl]

theorem filter_descendantsOf_frames (tag : String) (hip : "ip".toList ≠ tag.toList)
    (hfn : "fn".toList ≠ tag.toList) (frames : List ValgrindFrame) :
    (Element.descendantsOf (frames.map ValgrindFrame.element)).filter
      (fun d => d.tag = tag.toList) =
        if "frame".toList = tag.toList then frames.map ValgrindFrame.element else [] := by
  induction frames with
  | nil => simp [Element.descendantsOf]
  | cons f frames ih =>
      have hcons : Element.descendantsOf ((f :: frames).map ValgrindFrame.element) =
          f.element :: leaf "ip" f.ip :: leaf "fn" f.func ::
            Element.descendantsOf (frames.map ValgrindFrame.element) := rfl
      have htag : (leaf "ip" f.ip).tag ≠ tag.toList := hip
      have htag' : (leaf "fn" f.func).tag ≠ tag.toList := hfn
      rw [hcons, List.filter_cons, List.filter_cons_of_neg (by simpa using htag),
        List.filter_cons_of_neg (by simpa using htag'), ih]
      by_cases hframe : "frame".toList = tag.toList
      · have helement : f.element.tag = tag.toList := hframe
        rw [if_pos hframe, if_pos hframe, if_pos (decide_eq_true helement), List.map_cons]
      · have helement : ¬f.element.tag = tag.toList := hframe
        rw [if_neg hframe, if_neg hframe, if_neg (by rw [decide_eq_true_eq]; exact helement)]

/-- The elements in an error; those in front of the frames are not named so. -/
theorem findAll_element (leak : ValgrindLeak) (tag : String)
    (htag : ∀ other ∈ ["unique", "tid", "kind", "xwhat", "text", "leakedbytes", "leakedblocks",
      "stack", "ip", "fn"], other.toList ≠ tag.toList) :
    leak.element.findAll tag =
      if "frame".toList = tag.toList then leak.frames.map ValgrindFrame.element else [] := by
  have hdescendants : leak.element.descendants =
      [leaf "unique" leak.unique, leaf "tid" leak.tid, leaf "kind" leak.kind.chars,
        .mk "xwhat".toList [] [leaf "text" leak.message,
          leaf "leakedbytes" (Python.str leak.bytes), leaf "leakedblocks" (Python.str leak.blocks)],
        leaf "text" leak.message, leaf "leakedbytes" (Python.str leak.bytes),
        leaf "leakedblocks" (Python.str leak.blocks),
        .mk "stack".toList [] (leak.frames.map ValgrindFrame.element)] ++
          (Element.descendantsOf (leak.frames.map ValgrindFrame.element) ++ []) := rfl
  have hfront : ∀ es : List Element, (∀ e ∈ es, e.tag ≠ tag.toList) →
      es.filter (fun d => d.tag = tag.toList) = [] := fun es h =>
    List.filter_eq_nil_iff.mpr fun e he => by simpa using h e he
  unfold Element.findAll
  rw [hdescendants, List.filter_append, hfront, List.nil_append, List.append_nil,
    filter_descendantsOf_frames tag (htag "ip" (by decide)) (htag "fn" (by decide))]
  simp only [List.forall_mem_cons, List.not_mem_nil, false_imp_iff, implies_true, and_true] at htag ⊢
  exact ⟨htag.1, htag.2.1, htag.2.2.1, htag.2.2.2.1, htag.2.2.2.2.1, htag.2.2.2.2.2.1,
    htag.2.2.2.2.2.2.1, htag.2.2.2.2.2.2.2.1⟩

theorem valgrindError_element (leak : ValgrindLeak) :
    valgrindError leak.element = leak.read?.map some := by
  have hkind : leak.element.findText "kind" "" = leak.kind.chars := rfl
  have hwhat : leak.element.find? "xwhat" = some (.mk "xwhat".toList [] [leaf "text" leak.message,
      leaf "leakedbytes" (Python.str leak.bytes),
      leaf "leakedblocks" (Python.str leak.blocks)]) := rfl
  have hleak : "Leak".toList <:+: leak.kind.chars := by cases leak.kind <;> decide +kernel
  have hstack : (leak.element.findAll "frame").filterMap valgrindFrame? =
      leak.frames.map ValgrindFrame.func := by
    rw [findAll_element leak "frame" (by decide), if_pos rfl, List.filterMap_map]
    have hframe : valgrindFrame? ∘ ValgrindFrame.element = some ∘ ValgrindFrame.func :=
      funext valgrindFrame?_element
    rw [hframe, List.filterMap_eq_map]
  unfold valgrindError
  rw [hkind, if_neg fun h => h.1 hleak, hwhat]
  dsimp only
  have hbytes : Element.findText (.mk "xwhat".toList [] [leaf "text" leak.message,
      leaf "leakedbytes" (Python.str leak.bytes),
      leaf "leakedblocks" (Python.str leak.blocks)]) "leakedbytes" "0" = Python.str leak.bytes := rfl
  have hblocks : Element.findText (.mk "xwhat".toList [] [leaf "text" leak.message,
      leaf "leakedbytes" (Python.str leak.bytes),
      leaf "leakedblocks" (Python.str leak.blocks)]) "leakedblocks" "0" =
        Python.str leak.blocks := rfl
  rw [hbytes, hblocks, int?_str_natCast, int?_str_natCast, hstack]
  unfold ValgrindLeak.read?
  by_cases hfew : FewDigits leak.bytes
  · by_cases hfew' : FewDigits leak.blocks
    · rw [if_pos hfew, if_pos hfew', if_pos ⟨hfew, hfew'⟩]
      rfl
    · simp [hfew, hfew']
  · simp [hfew]

theorem valgrindType_eq_iff (kind : ValgrindKind) :
    valgrindType kind.chars = kind.leakType ↔ kind ≠ .possiblyLost := by
  cases kind <;> decide +kernel

theorem ValgrindLeak.read?_eq_iff (leak : ValgrindLeak) :
    leak.read? = some leak.record ↔ leak.Legible := by
  have hrecord : { leak.record with leakType := valgrindType leak.kind.chars } = leak.record ↔
      leak.kind ≠ .possiblyLost := by
    rw [← valgrindType_eq_iff]
    unfold ValgrindLeak.record
    rw [LeakRecord.mk.injEq]
    simp
  unfold ValgrindLeak.read?
  constructor
  · intro h
    split at h
    · rename_i hfew
      exact ⟨hrecord.mp (Option.some.inj h), hfew.1, hfew.2⟩
    · cases h
  · intro h
    rw [if_pos ⟨h.bytes, h.blocks⟩, hrecord.mpr h.kind]

end Valgrind

section Documents

variable {N : Type} (parsers : LeakParsers N)

/-- A document that Valgrind writes. -/
structure ValgrindDocument where
  file : List Char
  /-- The elements in front of the leaks and behind them. -/
  front : List Element
  back : List Element
  leaks : List ValgrindLeak
  declared : "<?xml".toList <+: file
  errorless : ∀ e ∈ front ++ back, e.tag ≠ "error".toList ∧ e.findAll "error" = []
  parsed : parsers.fromstring (Python.universalNewlines file) =
    .ok (.mk "valgrindoutput".toList [] (front ++ leaks.map ValgrindLeak.element ++ back))

end Documents

section ValgrindDocument

variable {N : Type} {parsers : LeakParsers N} (d : ValgrindDocument parsers)

theorem descendantsOf_append (es es' : List Element) :
    Element.descendantsOf (es ++ es') = Element.descendantsOf es ++ Element.descendantsOf es' := by
  induction es with
  | nil => rfl
  | cons e es ih =>
      change e :: (e.descendants ++ Element.descendantsOf (es ++ es')) = _
      rw [ih, ← List.append_assoc]
      rfl

theorem filter_descendantsOf_errorless {es : List Element}
    (h : ∀ e ∈ es, e.tag ≠ "error".toList ∧ e.findAll "error" = []) :
    (Element.descendantsOf es).filter (fun d => d.tag = "error".toList) = [] := by
  induction es with
  | nil => rfl
  | cons e es ih =>
      obtain ⟨⟨htag, hbelow⟩, hes⟩ := List.forall_mem_cons.mp h
      change (e :: (e.descendants ++ Element.descendantsOf es)).filter _ = _
      rw [List.filter_cons_of_neg (by rw [decide_eq_true_eq]; exact htag), List.filter_append,
        ih hes, List.append_nil]
      exact hbelow

theorem filter_descendantsOf_leaks (leaks : List ValgrindLeak) :
    (Element.descendantsOf (leaks.map ValgrindLeak.element)).filter
      (fun d => d.tag = "error".toList) = leaks.map ValgrindLeak.element := by
  induction leaks with
  | nil => rfl
  | cons leak leaks ih =>
      have hbelow := findAll_element leak "error" (by decide)
      rw [if_neg (by decide)] at hbelow
      change (leak.element :: (leak.element.descendants ++ Element.descendantsOf
        (leaks.map ValgrindLeak.element))).filter _ = _
      have htag : leak.element.tag = "error".toList := rfl
      rw [List.filter_cons_of_pos (by rw [decide_eq_true_eq]; exact htag), List.filter_append, ih]
      unfold Element.findAll at hbelow
      rw [hbelow]
      rfl

theorem findAll_error {front back : List Element} (leaks : List ValgrindLeak)
    (herrorless : ∀ e ∈ front ++ back, e.tag ≠ "error".toList ∧ e.findAll "error" = []) :
    (Element.mk "valgrindoutput".toList [] (front ++ leaks.map ValgrindLeak.element ++ back)).findAll
      "error" = leaks.map ValgrindLeak.element := by
  obtain ⟨hfront, hback⟩ := List.forall_mem_append.mp herrorless
  unfold Element.findAll
  rw [Element.descendants, descendantsOf_append, descendantsOf_append, List.filter_append,
    List.filter_append, filter_descendantsOf_errorless hfront, filter_descendantsOf_errorless hback,
    filter_descendantsOf_leaks, List.nil_append, List.append_nil]

theorem mapM_valgrindError (leaks : List ValgrindLeak) :
    (leaks.map ValgrindLeak.element).mapM valgrindError =
      (leaks.mapM ValgrindLeak.read?).map fun records => records.map some := by
  induction leaks with
  | nil => rfl
  | cons leak leaks ih =>
      rw [List.map_cons, Text.mapM_cons_eq, ih, valgrindError_element, List.mapM_cons]
      cases leak.read? with
      | none => rfl
      | some record => cases leaks.mapM ValgrindLeak.read? <;> rfl

theorem parseValgrindXml_eq_iff :
    parseValgrindXml parsers (Python.universalNewlines d.file) =
      some (leakResult .valgrind (d.leaks.map ValgrindLeak.record)) ↔
        ∀ leak ∈ d.leaks, leak.Legible := by
  have hrecords : parseValgrindXml parsers (Python.universalNewlines d.file) =
      (d.leaks.mapM ValgrindLeak.read?).map (leakResult .valgrind) := by
    unfold parseValgrindXml
    rw [d.parsed]
    dsimp only
    rw [findAll_error d.leaks d.errorless, mapM_valgrindError, Option.map_map]
    exact congrArg (Option.map · _) (funext fun records =>
      congrArg (leakResult .valgrind) (Text.reduceOption_map_some records))
  rw [hrecords, Option.map_eq_some_iff]
  simp only [leakResult_inj, exists_eq_right]
  rw [Text.mapM_eq_some_map_iff]
  exact forall₂_congr fun leak _ => leak.read?_eq_iff

end ValgrindDocument

/-! ## memray -/

section Memray

variable {N : Type} (num : Numbers N) (repr : Json N → String) (parsers : LeakParsers N)

/-- A frame is a dictionary or a text. -/
inductive MemrayFrame where
  | entry (func : String)
  | text (func : String)

namespace MemrayFrame

def func : MemrayFrame → String
  | entry func => func
  | text func => func

def value : MemrayFrame → Json N
  | entry func => .dict [("function", .str func)]
  | text func => .str func

end MemrayFrame

structure MemrayLeak where
  bytes : ℕ
  blocks : ℕ
  frames : List MemrayFrame

namespace MemrayLeak

def value (leak : MemrayLeak) : Json N :=
  .dict [("size", .int leak.bytes), ("n_allocations", .int leak.blocks),
    ("stack", .list (leak.frames.map MemrayFrame.value))]

def record (leak : MemrayLeak) : LeakRecord where
  leakType := .definite
  size := leak.bytes
  count := leak.blocks
  stack := leak.frames.map fun f => f.func.toList

end MemrayLeak

/-- A document of memray: an array, or an object with its other entries. -/
structure MemrayDocument where
  file : List Char
  others : Option (List (String × Json N))
  leaks : List MemrayLeak
  parsed : parsers.loads (Python.universalNewlines file) = .ok
    (match others with
    | none => .list (leaks.map MemrayLeak.value)
    | some others => .dict (("records", .list (leaks.map MemrayLeak.value)) :: others))

variable {parsers}

theorem memrayFrame_value (f : MemrayFrame) :
    memrayFrame num repr f.value = some (some f.func.toList) := by
  cases f <;> rfl

theorem memrayRecord_value (leak : MemrayLeak) :
    memrayRecord num repr leak.value = some leak.record := by
  have hframes : (leak.frames.map MemrayFrame.value).mapM (memrayFrame num repr) =
      some (leak.frames.map fun f => some f.func.toList) := by
    rw [List.mapM_map]
    exact Text.mapM_eq_some_map_iff.mpr fun f _ => memrayFrame_value num repr f
  have hstack : (leak.frames.map fun f => some f.func.toList).reduceOption =
      leak.frames.map fun f => f.func.toList := by
    simpa only [List.map_map, Function.comp_def] using
      Text.reduceOption_map_some (leak.frames.map fun f => f.func.toList)
  change ((leak.frames.map MemrayFrame.value).mapM (memrayFrame num repr)).bind _ = _
  rw [hframes, Option.bind_some, hstack]
  rfl

theorem parseMemrayJson_document (d : MemrayDocument parsers) :
    parseMemrayJson num repr parsers (Python.universalNewlines d.file) =
      some (leakResult .memray (d.leaks.map MemrayLeak.record)) := by
  have hleaks : (d.leaks.map (MemrayLeak.value (N := N))).mapM (memrayRecord num repr) =
      some (d.leaks.map MemrayLeak.record) := by
    rw [List.mapM_map]
    exact Text.mapM_eq_some_map_iff.mpr fun leak _ => memrayRecord_value num repr leak
  unfold parseMemrayJson
  rw [d.parsed]
  cases d.others with
  | none =>
      change ((d.leaks.map MemrayLeak.value).mapM (memrayRecord num repr)).bind _ = _
      rw [hleaks]
      rfl
  | some others =>
      change ((d.leaks.map MemrayLeak.value).mapM (memrayRecord num repr)).bind _ = _
      rw [hleaks]
      rfl

end Memray

end MiniDrop
