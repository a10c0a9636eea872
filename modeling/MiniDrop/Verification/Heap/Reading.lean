import MiniDrop.Verification.Heap.Format

/-! # What the parser makes of a well-formed file -/

namespace MiniDrop

open Decoder

variable {idSize n pos : ℕ} {p : HPROFParser} {rest : List UInt8}

/-! ## Tags -/

theorem valueSize_code (type : BasicType) : valueSize idSize type.code = type.size idSize := by
  cases type with
  | object => rfl
  | prim type => cases type <;> rfl

theorem primTypeSizes_code (type : PrimType) : primTypeSizes type.code = type.size := by
  cases type <;> rfl

/-! ## Primitive readers -/

theorem accepts_readBytes (b : Bytes n) : Accepts (readBytes n) pos p b.list rest b.list p :=
  accepts_readFull b.length_list

theorem accepts_readByte (b : UInt8) : Accepts readByte pos p [b] rest b p :=
  (accepts_readBytes ⟨[b], rfl⟩).bind_last (.pure _ _ _ _)

theorem accepts_readUint16 (b : Bytes 2) : Accepts readUint16 pos p b.list rest b.value p :=
  (accepts_readBytes b).bind_last (.pure _ _ _ _)

theorem accepts_readUint32 (b : Bytes 4) : Accepts readUint32 pos p b.list rest b.value p :=
  (accepts_readBytes b).bind_last (.pure _ _ _ _)

theorem accepts_readID (hid : idSize = 4 ∨ idSize = 8) (b : Bytes idSize) :
    Accepts (readID idSize) pos p b.list rest b.value p := by
  refine (accepts_readBytes b).bind_last ?_
  rw [if_pos hid]
  exact .pure _ _ _ _

theorem accepts_readTypedValue (v : Value idSize) :
    Accepts (readTypedValue idSize) pos p v.bytes rest () p := by
  refine .bind (accepts_readByte v.type.code) ?_
  rw [valueSize_code]
  exact (accepts_readBytes v.content).bind_last (.pure _ _ _ _)

theorem accepts_readPoolEntry (e : Bytes 2 × Value idSize) :
    Accepts (readPoolEntry idSize) pos p (entryBytes e) rest () p :=
  .bind (accepts_readBytes e.1) (accepts_readTypedValue e.2)

/-! ## Sub-records -/

def ClassDump.apply (d : ClassDump idSize) (p : HPROFParser) : HPROFParser :=
  (p.registerClass d.head.id.value).setFields idSize d.head.id.value
    (d.fields.items.map fun f => f.2.code)

def InstanceDump.apply (d : InstanceDump idSize) (p : HPROFParser) : HPROFParser :=
  p.addInstance d.classID.value (d.dataLen.value + idSize + 4)

def ObjArrayDump.apply (d : ObjArrayDump idSize) (p : HPROFParser) : HPROFParser :=
  p.addArray { length := d.length.value, size := d.length.value * idSize + 16 }

def PrimArrayDump.apply (d : PrimArrayDump idSize) (p : HPROFParser) : HPROFParser :=
  p.addArray
    { elementType := d.type.code
      length := d.length.value
      size := d.length.value * d.type.size + 16 }

def SubRecord.apply (p : HPROFParser) : SubRecord idSize → HPROFParser
  | root _ _ _ => { p with gcRoots := p.gcRoots + 1 }
  | classDump dump => dump.apply p
  | instanceDump dump => dump.apply p
  | objArrayDump dump => dump.apply p
  | primArrayDump dump => dump.apply p

section SubRecords

variable (hid : idSize = 4 ∨ idSize = 8)

include hid

theorem accepts_readStaticField (e : Bytes idSize × Value idSize) :
    Accepts (readStaticField idSize) pos p (entryBytes e) rest () p :=
  .bind (accepts_readID hid e.1) (accepts_readTypedValue e.2)

theorem accepts_readInstanceField (f : Bytes idSize × BasicType) :
    Accepts (readInstanceField idSize) pos p (fieldBytes f) rest f.2.code p :=
  .bind (accepts_readID hid f.1) (accepts_readByte f.2.code)

theorem accepts_parseClassDump (d : ClassDump idSize) :
    Accepts (parseClassDump idSize) pos p d.bytes rest () (d.apply p) := by
  have hpool : ∀ pos p rest, Accepts (times (readPoolEntry idSize) d.pool.count.value) pos p
      (d.pool.items.flatMap entryBytes) rest (d.pool.items.map fun _ => ()) p := fun pos p rest =>
    accepts_times (fun e _ _ _ => accepts_readPoolEntry e) d.pool.count_eq
  have hstatics : ∀ pos p rest, Accepts (times (readStaticField idSize) d.statics.count.value) pos p
      (d.statics.items.flatMap entryBytes) rest (d.statics.items.map fun _ => ()) p :=
    fun pos p rest => accepts_times (fun e _ _ _ => accepts_readStaticField hid e)
      d.statics.count_eq
  have hfields : ∀ pos p rest, Accepts (times (readInstanceField idSize) d.fields.count.value) pos p
      (d.fields.items.flatMap fieldBytes) rest (d.fields.items.map fun f => f.2.code) p :=
    fun pos p rest => accepts_times (fun f _ _ _ => accepts_readInstanceField hid f)
      d.fields.count_eq
  have hbytes : d.bytes = d.head.id.list ++ (d.head.trace.list ++ (d.head.superID.list ++
      (d.head.others.list ++ (d.pool.count.list ++ (d.pool.items.flatMap entryBytes ++
        (d.statics.count.list ++ (d.statics.items.flatMap entryBytes ++
          (d.fields.count.list ++ d.fields.items.flatMap fieldBytes)))))))) := by
    simp only [ClassDump.bytes, ClassDumpHead.bytes, Counted.bytes, List.append_assoc]
  rw [hbytes]
  exact .bind (accepts_readID hid d.head.id) (.bind (accepts_readBytes d.head.trace)
    (.bind (accepts_readID hid d.head.superID) (.bind (accepts_readBytes d.head.others)
      (.bind (accepts_readUint16 d.pool.count) (.bind (hpool _ _ _) (.bind_nil (accepts_update _)
        (.bind (accepts_readUint16 d.statics.count) (.bind (hstatics _ _ _)
          (.bind (accepts_readUint16 d.fields.count) (.bind_nil (accepts_request _)
            ((hfields _ _ _).bind_last (accepts_update _))))))))))))

theorem accepts_parseInstanceDump (d : InstanceDump idSize) :
    Accepts (parseInstanceDump idSize) pos p d.bytes rest () (d.apply p) :=
  .bind (accepts_readID hid d.id) (.bind (accepts_readBytes d.trace)
    (.bind (accepts_readID hid d.classID) (.bind (accepts_readUint32 d.dataLen)
      (.bind_nil (accepts_update _) ((accepts_readBytes d.data).bind_last (.pure _ _ _ _))))))

theorem accepts_parseObjArrayDump (d : ObjArrayDump idSize) :
    Accepts (parseObjArrayDump idSize) pos p d.bytes rest () (d.apply p) :=
  .bind (accepts_readID hid d.id) (.bind (accepts_readBytes d.trace)
    (.bind (accepts_readUint32 d.length) (.bind (accepts_readID hid d.classID)
      (.bind_nil (accepts_update _) ((accepts_readBytes d.elements).bind_last (.pure _ _ _ _))))))

theorem accepts_parsePrimArrayDump (d : PrimArrayDump idSize) :
    Accepts (parsePrimArrayDump idSize) pos p d.bytes rest () (d.apply p) := by
  refine .bind (accepts_readID hid d.id) (.bind (accepts_readBytes d.trace)
    (.bind (accepts_readUint32 d.length) (.bind (accepts_readByte d.type.code) ?_)))
  rw [primTypeSizes_code]
  exact .bind_nil (accepts_update _) ((accepts_readBytes d.elements).bind_last (.pure _ _ _ _))

theorem accepts_readRootFields (kind : RootKind) (hkind : kind ≠ .unknown)
    (hthread : kind ≠ .threadObject) (extra : Bytes (kind.extra idSize)) :
    Accepts (readRootFields idSize kind.tag) pos p extra.list rest () p := by
  cases kind with
  | unknown => exact absurd rfl hkind
  | threadObject => exact absurd rfl hthread
  | jniGlobal => exact (accepts_readID hid extra).bind_last (.pure _ _ _ _)
  | jniLocal | javaFrame | nativeStack | threadBlock =>
      exact (accepts_readBytes extra).bind_last (.pure _ _ _ _)
  | stickyClass | monitorUsed =>
      have hnil : extra.list = [] := List.eq_nil_of_length_eq_zero extra.length_list
      rw [hnil]
      exact .pure _ _ _ _

theorem accepts_root (kind : RootKind) (object : Bytes idSize)
    (extra : Bytes (kind.extra idSize)) :
    Accepts (parseSubRecord idSize kind.tag) pos p (object.list ++ extra.list) rest ()
      { p with gcRoots := p.gcRoots + 1 } := by
  have hcount : ∀ pos p rest, Accepts countRoot pos p [] rest ()
      { p with gcRoots := p.gcRoots + 1 } := fun _ _ _ => accepts_update _
  by_cases hunknown : kind = .unknown
  · subst hunknown
    have hnil : extra.list = [] := List.eq_nil_of_length_eq_zero extra.length_list
    rw [hnil]
    exact .bind_nil (hcount _ _ _) (.bind (accepts_readID hid object) (.pure _ _ _ _))
  by_cases hthread : kind = .threadObject
  · subst hthread
    exact .bind_nil (hcount _ _ _) (.bind (accepts_readID hid object)
      ((accepts_readBytes extra).bind_last (.pure _ _ _ _)))
  have hroot : parseSubRecord idSize kind.tag =
      (do countRoot
          let _ ← readID idSize
          readRootFields idSize kind.tag) := by
    cases kind <;> first | rfl | contradiction
  rw [hroot]
  exact .bind_nil (hcount _ _ _) (.bind (accepts_readID hid object)
    (accepts_readRootFields hid kind hunknown hthread extra))

theorem accepts_parseSubRecord (sub : SubRecord idSize) :
    Accepts (parseSubRecord idSize sub.tag) pos p sub.body rest () (sub.apply p) := by
  cases sub with
  | root kind object extra => exact accepts_root hid kind object extra
  | classDump dump => exact accepts_parseClassDump hid dump
  | instanceDump dump => exact accepts_parseInstanceDump hid dump
  | objArrayDump dump => exact accepts_parseObjArrayDump hid dump
  | primArrayDump dump => exact accepts_parsePrimArrayDump hid dump

theorem accepts_parseHeapDump (subs : List (SubRecord idSize)) :
    Accepts (parseHeapDump idSize (subs.flatMap SubRecord.bytes).length) pos p
      (subs.flatMap SubRecord.bytes) rest () (subs.foldl SubRecord.apply p) := by
  refine .bind_nil accepts_position (.bind_nil accepts_remaining (accepts_loop ?_ ?_ ?_))
  · have hlength : subs.length ≤ (subs.flatMap SubRecord.bytes).length := by
      rw [List.length_flatMap, ← List.length_map (f := fun sub => sub.bytes.length)]
      exact List.length_le_sum_of_one_le _ (by simp [SubRecord.bytes])
    rw [List.length_append]
    omega
  · rintro done sub todo rfl p
    have hpos : ¬ pos + ((done ++ sub :: todo).flatMap SubRecord.bytes).length ≤
        pos + (done.flatMap SubRecord.bytes).length := by
      rw [List.flatMap_append, List.length_append, List.flatMap_cons, List.length_append,
        SubRecord.bytes, List.length_cons]
      omega
    refine .bind_nil accepts_position ?_
    rw [if_neg hpos]
    have htag : ∀ pos rest, Accepts (orEnd HPROFError.isEOF readByte) pos p [sub.tag] rest
        (some sub.tag) p := fun _ _ => (accepts_readByte sub.tag).orEnd
    exact (htag _ _).bind ((accepts_parseSubRecord hid sub).bind_last (.pure _ _ _ _))
  · intro p
    refine .bind_nil accepts_position ?_
    rw [if_pos le_rfl]
    exact .pure _ _ _ _

end SubRecords

/-! ## Records -/

def RecordBody.apply (p : HPROFParser) : RecordBody idSize → HPROFParser
  | string id text => { p with strings := p.strings.set id.value text }
  | loadClass _ id _ nameID => p.loadClass id.value nameID.value
  | heapDump _ subs => subs.foldl SubRecord.apply p
  | other _ _ _ => p

theorem Bytes.value_lt (b : Bytes n) : b.value < 256 ^ n := by
  have h := bigEndian_lt b.list
  rwa [b.length_list] at h

theorem subUint32_of_add {n m : ℕ} (h : m + n < 4294967296) : subUint32 (m + n) m = n := by
  rw [subUint32]
  omega

section Records

variable (hid : idSize = 4 ∨ idSize = 8)

include hid

theorem accepts_parseString (id : Bytes idSize) {text : List UInt8} {length : Bytes 4}
    (hlength : length.value = idSize + text.length) :
    Accepts (parseString idSize length.value) pos p (id.list ++ text) rest ()
      { p with strings := p.strings.set id.value text } := by
  have hlt : idSize + text.length < 4294967296 := by
    have h := length.value_lt
    rw [hlength] at h
    exact h.trans_eq (by norm_num)
  have htext : subUint32 length.value idSize = text.length := by
    rw [hlength, subUint32_of_add hlt]
  refine .bind (accepts_readID hid id) ?_
  rw [htext]
  exact (accepts_readBytes ⟨text, rfl⟩).bind_last (accepts_update _)

theorem accepts_parseRecord (r : HPROFRecord idSize) :
    Accepts (parseRecord idSize r.body.tag r.length.value) pos p r.body.bytes rest ()
      (r.body.apply p) := by
  obtain ⟨body, time, length, hlength⟩ := r
  cases body with
  | string id text =>
      have hsum : length.value = idSize + text.length := by
        rw [hlength, RecordBody.bytes, List.length_append, id.length_list]
      exact accepts_parseString hid id hsum
  | loadClass serial id trace nameID =>
      exact .bind (accepts_readBytes serial) (.bind (accepts_readID hid id)
        (.bind (accepts_readBytes trace)
          ((accepts_readID hid nameID).bind_last (accepts_update _))))
  | heapDump segment subs =>
      rw [hlength]
      cases segment <;> exact accepts_parseHeapDump hid subs
  | other tag hne content =>
      rw [List.mem_cons, List.mem_cons, List.mem_cons, List.mem_singleton, not_or, not_or,
        not_or] at hne
      have hstring : tag ≠ tagString := hne.1
      have hclass : tag ≠ tagLoadClass := hne.2.1
      have hdump : ¬ (tag = tagHeapDump ∨ tag = tagHeapDumpSeg) := not_or.mpr hne.2.2
      rw [parseRecord, hlength, RecordBody.tag, if_neg hstring, if_neg hclass, if_neg hdump]
      exact (accepts_readBytes ⟨content, rfl⟩).bind_last (.pure _ _ _ _)

theorem accepts_recordRound (r : HPROFRecord idSize) :
    Accepts (recordRound idSize) pos p r.bytes rest true (r.body.apply p) :=
  .bind (accepts_readByte r.body.tag).orEnd.mapError (.bind (accepts_readBytes r.time)
    (.bind (accepts_readUint32 r.length) ((accepts_parseRecord hid r).bind_last (.pure _ _ _ _))))

omit hid in
theorem accepts_recordRound_end : Accepts (recordRound idSize) pos p [] [] false p :=
  fun requests => ⟨requests ++ [1], rfl⟩

theorem accepts_records (records : List (HPROFRecord idSize)) {rounds : ℕ}
    (hrounds : (records.flatMap HPROFRecord.bytes).length < rounds) :
    Accepts (loop .diverges (recordRound idSize) rounds) pos p
      (records.flatMap HPROFRecord.bytes) [] ()
      (records.foldl (fun p r => r.body.apply p) p) := by
  have hlength : records.length ≤ (records.flatMap HPROFRecord.bytes).length := by
    rw [List.length_flatMap, ← List.length_map (f := fun r => r.bytes.length)]
    exact List.length_le_sum_of_one_le _ (by simp [HPROFRecord.bytes])
  exact accepts_loop (hlength.trans_lt hrounds) (fun _ r _ _ p => accepts_recordRound hid r)
    fun p => accepts_recordRound_end

end Records

/-! ## The file -/

theorem accepts_readVersion {version : List UInt8} {room : ℕ} (hne : 0 ∉ version)
    (hroom : version.length ≤ room) :
    Accepts (readVersion room) pos p (version ++ [0]) rest () p := by
  have hbyte : ∀ b pos rest, Accepts readHeaderByte pos p [b] rest b p :=
    fun b _ _ => (accepts_readByte b).mapError
  induction version generalizing room pos with
  | nil => cases room <;> exact (hbyte 0 _ _).bind_last (.pure _ _ _ _)
  | cons b version ih =>
      rw [List.mem_cons, not_or] at hne
      cases room with
      | zero => simp at hroom
      | succ room =>
          have hb : Accepts readHeaderByte pos p [b] (version ++ [0] ++ rest) b p := hbyte b _ _
          refine hb.bind ?_
          rw [if_neg (Ne.symm hne.1)]
          exact ih hne.2 (by simpa using hroom)

theorem accepts_readHeader (h : HPROFHeader) :
    Accepts readHeader pos p h.bytes rest h.idSize.value p := by
  refine .bind_nil (accepts_request 64)
    (.bind (accepts_readVersion h.version_ne h.version_length)
      (.bind (accepts_readUint32 h.idSize).mapError ?_))
  have hid : ¬ (h.idSize.value ≠ 4 ∧ h.idSize.value ≠ 8) := by
    have := h.idSize_eq
    omega
  rw [if_neg hid]
  exact (accepts_readBytes h.time).mapError.bind_last (.pure _ _ _ _)

/-- What the parser holds at the end of a file. -/
def HPROFFile.parsed (f : HPROFFile) : HPROFParser :=
  f.records.foldl (fun p r => r.body.apply p) {}

/-- Every well-formed file is read to its end. -/
theorem HPROFFile.analyzeHPROF_bytes (f : HPROFFile) (go : GoRuntime) :
    ∃ requests, analyzeHPROF go f.bytes =
      (.ok (f.parsed.buildStats go), ⟨[], f.bytes.length, requests⟩, f.parsed) := by
  have hparse : Accepts (HPROFParser.parse go) 0 {} f.bytes [] (f.parsed.buildStats go)
      f.parsed := by
    refine .bind (accepts_readHeader f.header) (.bind_nil accepts_remaining
      (Accepts.bind_last (accepts_records f.header.idSize_eq f.records ?_)
        (.bind_nil accepts_state (.pure _ _ _ _))))
    rw [List.append_nil]
    exact Nat.lt_succ_self _
  obtain ⟨requests, h⟩ := hparse []
  rw [List.append_nil, Nat.zero_add] at h
  exact ⟨requests, h⟩

end MiniDrop
