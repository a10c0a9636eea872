import MiniDrop.Verification.Heap.Framing
import MiniDrop.Verification.Heap.Reading

/-! # What the parser accepts

As long as nothing is misread, each reader accepts what the format allows, with buffers within the
size of the file. -/

namespace MiniDrop

open Decoder

variable {total idSize n : ℕ} {inp : Input} {p : HPROFParser}

/-! ## Primitive readers -/

theorem decodes_readBytes (h : n ≤ total) : Decodes total (readBytes n) inp p
    fun front buf _ => ∃ b : Bytes n, front = b.list ∧ buf = b.list := by
  refine (decodes_readFull h).mono ?_
  rintro front _ _ - ⟨rfl, hlength⟩
  exact ⟨⟨_, hlength⟩, rfl, rfl⟩

theorem decodes_readByte (h : 1 ≤ total) : Decodes total readByte inp p
    fun front b _ => front = [b] := by
  refine (decodes_readBytes h).bind ?_
  rintro _ _ _ _ - - ⟨⟨bytes, hlength⟩, rfl, rfl⟩
  obtain ⟨b, rfl⟩ := List.length_eq_one_iff.mp hlength
  exact .pure rfl

theorem decodes_readUint16 (h : 2 ≤ total) : Decodes total readUint16 inp p
    fun front count _ => ∃ b : Bytes 2, front = b.list ∧ count = b.value := by
  refine (decodes_readBytes h).bind ?_
  rintro _ _ _ _ - - ⟨b, rfl, rfl⟩
  exact .pure ⟨b, List.append_nil _, rfl⟩

theorem decodes_readUint32 (h : 4 ≤ total) : Decodes total readUint32 inp p
    fun front length _ => ∃ b : Bytes 4, front = b.list ∧ length = b.value := by
  refine (decodes_readBytes h).bind ?_
  rintro _ _ _ _ - - ⟨b, rfl, rfl⟩
  exact .pure ⟨b, List.append_nil _, rfl⟩

theorem decodes_readID (h : idSize ≤ total) : Decodes total (readID idSize) inp p
    fun front id _ => ∃ b : Bytes idSize, front = b.list ∧ id = b.value := by
  refine (decodes_readBytes h).bind ?_
  rintro _ _ _ _ - - ⟨b, rfl, rfl⟩
  split
  · exact .pure ⟨b, List.append_nil _, rfl⟩
  · exact .fail _

/-! ## Class dumps -/

section SubRecords

variable (htotal : 64 ≤ total) (hid : idSize = 4 ∨ idSize = 8)

include htotal hid

theorem decodes_readTypedValue
    (htype : ∀ type rest, inp.rest = type :: rest → ∃ t : BasicType, t.code = type) :
    Decodes total (readTypedValue idSize) inp p
      fun front _ _ => ∃ v : Value idSize, front = v.bytes := by
  refine (decodes_readByte (by omega)).bind ?_
  rintro _ type inp1 p1 h1 - rfl
  obtain ⟨t, rfl⟩ := htype type inp1.rest h1
  have hsize : t.size idSize ≤ total := by
    cases t with
    | object => rw [BasicType.size]; omega
    | prim type => cases type <;> simp only [BasicType.size, PrimType.size] <;> omega
  rw [valueSize_code]
  refine (decodes_readBytes hsize).bind ?_
  rintro _ _ _ _ - - ⟨content, rfl, rfl⟩
  exact .pure ⟨⟨t, content⟩, by rw [List.append_nil]; rfl⟩

theorem decodes_readPoolEntry (htype : ∀ (index : Bytes 2) type rest,
      inp.rest = index.list ++ type :: rest → ∃ t : BasicType, t.code = type) :
    Decodes total (readPoolEntry idSize) inp p
      fun front _ _ => ∃ e : Bytes 2 × Value idSize, front = entryBytes e ∧ () = () := by
  refine (decodes_readBytes (by omega)).bind ?_
  rintro _ _ inp1 p1 h1 - ⟨index, rfl, rfl⟩
  refine (decodes_readTypedValue htotal hid ?_).mono ?_
  · exact fun type rest hrest => htype index type rest (by rw [h1, hrest])
  · rintro _ _ _ - ⟨v, rfl⟩
    exact ⟨(index, v), rfl, rfl⟩

theorem decodes_readStaticField (htype : ∀ (name : Bytes idSize) type rest,
      inp.rest = name.list ++ type :: rest → ∃ t : BasicType, t.code = type) :
    Decodes total (readStaticField idSize) inp p
      fun front _ _ => ∃ e : Bytes idSize × Value idSize, front = entryBytes e ∧ () = () := by
  refine (decodes_readID (by omega)).bind ?_
  rintro _ _ inp1 p1 h1 - ⟨name, rfl, rfl⟩
  refine (decodes_readTypedValue htotal hid ?_).mono ?_
  · exact fun type rest hrest => htype name type rest (by rw [h1, hrest])
  · rintro _ _ _ - ⟨v, rfl⟩
    exact ⟨(name, v), rfl, rfl⟩

theorem decodes_readInstanceField (htype : ∀ (name : Bytes idSize) type rest,
      inp.rest = name.list ++ type :: rest → ∃ t : BasicType, t.code = type) :
    Decodes total (readInstanceField idSize) inp p
      fun front type _ => ∃ f : Bytes idSize × BasicType, front = fieldBytes f ∧
        type = f.2.code := by
  refine (decodes_readID (by omega)).bind ?_
  rintro _ _ inp1 p1 h1 - ⟨name, rfl, rfl⟩
  refine (decodes_readByte (by omega)).mono ?_
  rintro _ type inp2 h2 rfl
  obtain ⟨t, rfl⟩ := htype name type inp2.rest (by rw [h1, h2]; rfl)
  exact ⟨(name, t), rfl, rfl⟩

section Entries

variable {count : ℕ}

theorem decodes_pool (htype : ∀ (done : List (Bytes 2 × Value idSize)) (index : Bytes 2) type rest,
      done.length < count → inp.rest = done.flatMap entryBytes ++ (index.list ++ type :: rest) →
        ∃ t : BasicType, t.code = type) :
    Decodes total (times (readPoolEntry idSize) count) inp p fun front _ _ =>
      ∃ pool : List (Bytes 2 × Value idSize), count = pool.length ∧
        front = pool.flatMap entryBytes := by
  refine Decodes.mono (decodes_times entryBytes (fun _ => ()) fun done inp' p' hdone hrest =>
    decodes_readPoolEntry htotal hid fun index type rest hentry =>
      htype done index type rest hdone (by rw [hrest, hentry])) ?_
  rintro _ _ _ - ⟨pool, hlength, rfl, -⟩
  exact ⟨pool, hlength.symm, rfl⟩

theorem decodes_statics
    (htype : ∀ (done : List (Bytes idSize × Value idSize)) (name : Bytes idSize) type rest,
      done.length < count → inp.rest = done.flatMap entryBytes ++ (name.list ++ type :: rest) →
        ∃ t : BasicType, t.code = type) :
    Decodes total (times (readStaticField idSize) count) inp p fun front _ _ =>
      ∃ statics : List (Bytes idSize × Value idSize), count = statics.length ∧
        front = statics.flatMap entryBytes := by
  refine Decodes.mono (decodes_times entryBytes (fun _ => ()) fun done inp' p' hdone hrest =>
    decodes_readStaticField htotal hid fun name type rest hentry =>
      htype done name type rest hdone (by rw [hrest, hentry])) ?_
  rintro _ _ _ - ⟨statics, hlength, rfl, -⟩
  exact ⟨statics, hlength.symm, rfl⟩

theorem decodes_fields
    (htype : ∀ (done : List (Bytes idSize × BasicType)) (name : Bytes idSize) type rest,
      done.length < count → inp.rest = done.flatMap fieldBytes ++ (name.list ++ type :: rest) →
        ∃ t : BasicType, t.code = type) :
    Decodes total (times (readInstanceField idSize) count) inp p fun front _ _ =>
      ∃ fields : List (Bytes idSize × BasicType), count = fields.length ∧
        front = fields.flatMap fieldBytes := by
  refine Decodes.mono (decodes_times fieldBytes (fun f => f.2.code) fun done inp' p' hdone hrest =>
    decodes_readInstanceField htotal hid fun name type rest hentry =>
      htype done name type rest hdone (by rw [hrest, hentry])) ?_
  rintro _ _ _ - ⟨fields, hlength, rfl, -⟩
  exact ⟨fields, hlength.symm, rfl⟩

end Entries

theorem decodes_parseClassDump (hread : ¬ MisreadBody total idSize 0x20 inp.rest) :
    Decodes total (parseClassDump idSize) inp p
      fun front _ _ => ∃ d : ClassDump idSize, front = d.bytes := by
  -- A type in this dump is known, or the dump would be misread there.
  have hknown : ∀ front type rest, BeforeType idSize front → inp.rest = front ++ type :: rest →
      ∃ t : BasicType, t.code = type := by
    intro front type rest hfront hrest
    by_contra hnone
    refine hread ?_
    rw [hrest]
    exact .classType front hfront type (fun t ht => hnone ⟨t, ht⟩) rest
  refine (decodes_readID (by omega)).bind ?_
  rintro _ _ inp1 p1 h1 - ⟨id, rfl, rfl⟩
  refine (decodes_readBytes (by omega)).bind ?_
  rintro _ _ inp2 p2 h2 - ⟨trace, rfl, rfl⟩
  refine (decodes_readID (by omega)).bind ?_
  rintro _ _ inp3 p3 h3 - ⟨superID, rfl, rfl⟩
  refine (decodes_readBytes (by omega)).bind ?_
  rintro _ _ inp4 p4 h4 - ⟨others, rfl, rfl⟩
  obtain ⟨head, hhead, hbytes⟩ : ∃ head : ClassDumpHead idSize, head = ⟨id, trace, superID, others⟩ ∧
      inp.rest = head.bytes ++ inp4.rest :=
    ⟨_, rfl, by simp only [ClassDumpHead.bytes, List.append_assoc, h1, h2, h3, h4]⟩
  refine (decodes_readUint16 (by omega)).bind ?_
  rintro _ _ inp5 p5 h5 - ⟨poolCount, rfl, rfl⟩
  refine (decodes_pool htotal hid fun done index type rest hdone hrest => ?_).bind ?_
  · refine hknown _ type rest (.pool head poolCount done hdone index) ?_
    simp only [hbytes, h5, hrest, List.append_assoc]
  rintro _ _ inp6 p6 h6 - ⟨pool, hpool, rfl⟩
  have hbytes6 : inp.rest = head.bytes ++
      ((Counted.mk poolCount pool hpool).bytes entryBytes ++ inp6.rest) := by
    simp only [hbytes, h5, h6, Counted.bytes, List.append_assoc]
  refine (decodes_update _).bind ?_
  rintro _ _ _ p7 - - ⟨rfl, rfl⟩
  refine (decodes_readUint16 (by omega)).bind ?_
  rintro _ _ inp8 p8 h8 - ⟨staticCount, rfl, rfl⟩
  refine (decodes_statics htotal hid fun done name type rest hdone hrest => ?_).bind ?_
  · refine hknown _ type rest (.statics head ⟨poolCount, pool, hpool⟩ staticCount done hdone name) ?_
    simp only [hbytes6, h8, hrest, List.append_assoc]
  rintro _ _ inp9 p9 h9 - ⟨statics, hstatics, rfl⟩
  have hbytes9 : inp.rest = head.bytes ++ ((Counted.mk poolCount pool hpool).bytes entryBytes ++
      ((Counted.mk staticCount statics hstatics).bytes entryBytes ++ inp9.rest)) := by
    simp only [hbytes6, h8, h9, Counted.bytes, List.append_assoc]
  refine (decodes_readUint16 (by omega)).bind ?_
  rintro _ _ inp10 p10 h10 - ⟨fieldCount, rfl, rfl⟩
  have hslice : 24 * fieldCount.value ≤ total := by
    by_contra hmore
    refine hread ?_
    rw [hbytes9, h10]
    exact .classFields head _ _ fieldCount (by omega) _
  refine (decodes_request hslice).bind ?_
  rintro _ _ inp11 p11 - - ⟨rfl, h11⟩
  refine (decodes_fields htotal hid fun done name type rest hdone hrest => ?_).bind ?_
  · refine hknown _ type rest (.fields head ⟨poolCount, pool, hpool⟩
      ⟨staticCount, statics, hstatics⟩ fieldCount done hdone name) ?_
    simp only [hbytes9, h10, ← h11, hrest, List.append_assoc]
  rintro _ _ inp12 p12 - - ⟨fields, hfields, rfl⟩
  refine (decodes_update _).mono ?_
  rintro _ _ _ - ⟨rfl, -⟩
  refine ⟨⟨head, ⟨poolCount, pool, hpool⟩, ⟨staticCount, statics, hstatics⟩,
    ⟨fieldCount, fields, hfields⟩⟩, ?_⟩
  subst hhead
  simp only [ClassDump.bytes, ClassDumpHead.bytes, Counted.bytes, List.append_assoc,
    List.nil_append, List.append_nil]

/-! ## Instances and arrays -/

theorem decodes_parseInstanceDump (hread : ¬ MisreadBody total idSize 0x21 inp.rest) :
    Decodes total (parseInstanceDump idSize) inp p
      fun front _ _ => ∃ d : InstanceDump idSize, front = d.bytes := by
  refine (decodes_readID (by omega)).bind ?_
  rintro _ _ inp1 p1 h1 - ⟨id, rfl, rfl⟩
  refine (decodes_readBytes (by omega)).bind ?_
  rintro _ _ inp2 p2 h2 - ⟨trace, rfl, rfl⟩
  refine (decodes_readID (by omega)).bind ?_
  rintro _ _ inp3 p3 h3 - ⟨classID, rfl, rfl⟩
  refine (decodes_readUint32 (by omega)).bind ?_
  rintro _ _ inp4 p4 h4 - ⟨dataLen, rfl, rfl⟩
  refine (decodes_update _).bind ?_
  rintro _ _ _ p5 - - ⟨rfl, rfl⟩
  have hlength : dataLen.value ≤ total := by
    by_contra hmore
    refine hread ?_
    rw [h1, h2, h3, h4]
    exact .instanceDump id trace classID dataLen (by omega) _
  refine (decodes_readBytes hlength).bind ?_
  rintro _ _ inp6 p6 - - ⟨data, rfl, rfl⟩
  exact .pure ⟨⟨id, trace, classID, dataLen, data⟩, by simp [InstanceDump.bytes]⟩

theorem decodes_parseObjArrayDump (hread : ¬ MisreadBody total idSize 0x22 inp.rest) :
    Decodes total (parseObjArrayDump idSize) inp p
      fun front _ _ => ∃ d : ObjArrayDump idSize, front = d.bytes := by
  refine (decodes_readID (by omega)).bind ?_
  rintro _ _ inp1 p1 h1 - ⟨id, rfl, rfl⟩
  refine (decodes_readBytes (by omega)).bind ?_
  rintro _ _ inp2 p2 h2 - ⟨trace, rfl, rfl⟩
  refine (decodes_readUint32 (by omega)).bind ?_
  rintro _ _ inp3 p3 h3 - ⟨length, rfl, rfl⟩
  refine (decodes_readID (by omega)).bind ?_
  rintro _ _ inp4 p4 h4 - ⟨classID, rfl, rfl⟩
  refine (decodes_update _).bind ?_
  rintro _ _ _ p5 - - ⟨rfl, rfl⟩
  have hlength : length.value * idSize ≤ total := by
    by_contra hmore
    refine hread ?_
    rw [h1, h2, h3, h4]
    exact .objArrayDump id trace length classID (not_le.mp hmore) _
  refine (decodes_readBytes hlength).bind ?_
  rintro _ _ inp6 p6 - - ⟨elements, rfl, rfl⟩
  exact .pure ⟨⟨id, trace, length, classID, elements⟩, by simp [ObjArrayDump.bytes]⟩

theorem decodes_parsePrimArrayDump (hread : ¬ MisreadBody total idSize 0x23 inp.rest) :
    Decodes total (parsePrimArrayDump idSize) inp p
      fun front _ _ => ∃ d : PrimArrayDump idSize, front = d.bytes := by
  refine (decodes_readID (by omega)).bind ?_
  rintro _ _ inp1 p1 h1 - ⟨id, rfl, rfl⟩
  refine (decodes_readBytes (by omega)).bind ?_
  rintro _ _ inp2 p2 h2 - ⟨trace, rfl, rfl⟩
  refine (decodes_readUint32 (by omega)).bind ?_
  rintro _ _ inp3 p3 h3 - ⟨length, rfl, rfl⟩
  refine (decodes_readByte (by omega)).bind ?_
  rintro _ elemType inp4 p4 h4 - rfl
  obtain ⟨type, rfl⟩ : ∃ type : PrimType, type.code = elemType := by
    by_contra hnone
    refine hread ?_
    rw [h1, h2, h3, h4]
    exact .primArrayType id trace length elemType (fun t ht => hnone ⟨t, ht⟩) _
  have hlength : length.value * type.size ≤ total := by
    by_contra hmore
    refine hread ?_
    rw [h1, h2, h3, h4]
    exact .primArrayDump id trace length type (not_le.mp hmore) _
  rw [primTypeSizes_code]
  refine (decodes_update _).bind ?_
  rintro _ _ _ p5 - - ⟨rfl, rfl⟩
  refine (decodes_readBytes hlength).bind ?_
  rintro _ _ inp6 p6 - - ⟨elements, rfl, rfl⟩
  exact .pure ⟨⟨id, trace, length, type, elements⟩, by simp [PrimArrayDump.bytes]⟩

/-! ## Sub-records -/

theorem decodes_readRootFields (kind : RootKind) (hkind : kind ≠ .unknown)
    (hthread : kind ≠ .threadObject) :
    Decodes total (readRootFields idSize kind.tag) inp p
      fun front _ _ => ∃ extra : Bytes (kind.extra idSize), front = extra.list := by
  have hbytes : ∀ n ≤ 8, Decodes total (do let _ ← readBytes n; pure ()) inp p
      fun front _ _ => ∃ extra : Bytes n, front = extra.list := by
    intro n hn
    refine (decodes_readBytes (by omega)).bind ?_
    rintro _ _ _ _ - - ⟨extra, rfl, rfl⟩
    exact .pure ⟨extra, List.append_nil _⟩
  cases kind with
  | unknown => exact absurd rfl hkind
  | threadObject => exact absurd rfl hthread
  | jniGlobal =>
      show Decodes total (do let _ ← readID idSize; pure ()) inp p _
      refine (decodes_readID (by omega)).bind ?_
      rintro _ _ _ _ - - ⟨extra, rfl, rfl⟩
      exact .pure ⟨extra, List.append_nil _⟩
  | jniLocal | javaFrame => exact hbytes 8 le_rfl
  | nativeStack | threadBlock => exact hbytes 4 (by decide)
  | stickyClass | monitorUsed => exact .pure ⟨⟨[], rfl⟩, rfl⟩

theorem decodes_parseSubRecord {subTag : UInt8}
    (hread : ¬ MisreadBody total idSize subTag inp.rest) :
    Decodes total (parseSubRecord idSize subTag) inp p
      fun front _ _ => ∃ sub : SubRecord idSize, sub.tag = subTag ∧ front = sub.body := by
  have hobject : ∀ (k : Parsing Unit) (kind : RootKind), kind.tag = subTag →
      (∀ inp p, Decodes total k inp p
        fun front _ _ => ∃ extra : Bytes (kind.extra idSize), front = extra.list) →
      Decodes total (do countRoot; let _ ← readID idSize; k) inp p
        fun front _ _ => ∃ sub : SubRecord idSize, sub.tag = subTag ∧ front = sub.body := by
    intro k kind hkind hk
    refine (decodes_update _).bind ?_
    rintro _ _ _ p1 - - ⟨rfl, rfl⟩
    refine (decodes_readID (by omega)).bind ?_
    rintro _ _ inp2 p2 - - ⟨object, rfl, rfl⟩
    refine (hk inp2 p2).mono ?_
    rintro _ _ _ - ⟨extra, rfl⟩
    exact ⟨.root kind object extra, hkind, rfl⟩
  rw [parseSubRecord]
  split
  · next heq =>
    exact hobject _ .unknown heq.symm fun _ _ => .pure ⟨⟨[], rfl⟩, rfl⟩
  split
  · next hmem =>
    obtain ⟨kind, rfl, hunknown, hthread⟩ : ∃ kind : RootKind, kind.tag = subTag ∧
        kind ≠ .unknown ∧ kind ≠ .threadObject := by
      simp only [List.mem_cons, List.not_mem_nil, or_false] at hmem
      rcases hmem with rfl | rfl | rfl | rfl | rfl | rfl | rfl
      · exact ⟨.jniGlobal, rfl, by decide, by decide⟩
      · exact ⟨.jniLocal, rfl, by decide, by decide⟩
      · exact ⟨.javaFrame, rfl, by decide, by decide⟩
      · exact ⟨.nativeStack, rfl, by decide, by decide⟩
      · exact ⟨.stickyClass, rfl, by decide, by decide⟩
      · exact ⟨.threadBlock, rfl, by decide, by decide⟩
      · exact ⟨.monitorUsed, rfl, by decide, by decide⟩
    exact hobject _ kind rfl fun _ _ => decodes_readRootFields htotal hid kind hunknown hthread
  split
  · next heq =>
    refine hobject _ .threadObject heq.symm fun _ _ => (decodes_readBytes (by omega)).bind ?_
    rintro _ _ _ _ - - ⟨extra, rfl, rfl⟩
    exact .pure ⟨extra, List.append_nil _⟩
  split
  · next heq =>
    subst heq
    refine (decodes_parseClassDump htotal hid hread).mono ?_
    rintro _ _ _ - ⟨dump, rfl⟩
    exact ⟨.classDump dump, rfl, rfl⟩
  split
  · next heq =>
    subst heq
    refine (decodes_parseInstanceDump htotal hid hread).mono ?_
    rintro _ _ _ - ⟨dump, rfl⟩
    exact ⟨.instanceDump dump, rfl, rfl⟩
  split
  · next heq =>
    subst heq
    refine (decodes_parseObjArrayDump htotal hid hread).mono ?_
    rintro _ _ _ - ⟨dump, rfl⟩
    exact ⟨.objArrayDump dump, rfl, rfl⟩
  split
  · next heq =>
    subst heq
    refine (decodes_parsePrimArrayDump htotal hid hread).mono ?_
    rintro _ _ _ - ⟨dump, rfl⟩
    exact ⟨.primArrayDump dump, rfl, rfl⟩
  exact .fail _

omit htotal hid in
/-- The next byte, or the end of the file. -/
theorem decodes_nextByte (h : 1 ≤ total) : Decodes total (orEnd HPROFError.isEOF readByte) inp p
    fun front result inp' => (∃ tag, result = some tag ∧ front = [tag]) ∨
      result = none ∧ front = [] ∧ inp'.rest = [] := by
  refine decodes_orEnd (decodes_readByte h) fun e he _ => ?_
  rw [readByte, bind_apply, readBytes, readFull] at he ⊢
  cases hrest : inp.rest with
  | nil => simp
  | cons b rest => simp [hrest] at he

/-- Before the end of the segment, the next sub-record is read whole. -/
theorem decodes_heapDumpRound {left : ℕ} (hleft : 0 < left)
    (hread : ¬ MisreadSub total idSize left inp.rest) :
    Decodes total (heapDumpRound idSize (inp.pos + left)) inp p
      fun front again _ => again = true ∧ ∃ sub : SubRecord idSize, front = sub.bytes ∧
        sub.bytes.length ≤ left := by
  refine decodes_position.bind ?_
  rintro _ _ _ p1 - - ⟨rfl, rfl, rfl⟩
  rw [if_neg (by omega)]
  refine (decodes_nextByte (by omega)).bind ?_
  rintro _ _ inp2 p2 h2 - (⟨tag, rfl, rfl⟩ | ⟨rfl, rfl, hnil⟩)
  · have hbody : ¬ MisreadBody total idSize tag inp2.rest := by
      intro hmis
      refine hread ?_
      rw [h2]
      exact .body tag inp2.rest hmis
    refine (decodes_parseSubRecord htotal hid hbody).bind ?_
    rintro _ _ inp3 p3 h3 - ⟨sub, rfl, rfl⟩
    have hfits : sub.bytes.length ≤ left := by
      by_contra hover
      refine hread ?_
      rw [h2, h3]
      exact .overrun sub (not_le.mp hover) inp3.rest
    exact .pure ⟨rfl, sub, by rw [List.append_nil]; rfl, hfits⟩
  · refine absurd ?_ hread
    rw [h2, hnil]
    exact .cut

theorem decodes_parseHeapDump {length : ℕ} (hread : ∀ (done : List (SubRecord idSize)) rest,
      (done.flatMap SubRecord.bytes).length < length →
        inp.rest = done.flatMap SubRecord.bytes ++ rest →
          ¬ MisreadSub total idSize (length - (done.flatMap SubRecord.bytes).length) rest) :
    Decodes total (parseHeapDump idSize length) inp p fun front _ _ =>
      ∃ subs : List (SubRecord idSize), front = subs.flatMap SubRecord.bytes ∧
        (subs.flatMap SubRecord.bytes).length = length := by
  refine decodes_position.bind ?_
  rintro _ _ _ p1 - - ⟨rfl, rfl, rfl⟩
  refine decodes_remaining.bind ?_
  rintro _ _ inp p2 - - ⟨rfl, rfl⟩
  -- The sub-records so far fit into the segment, and the loop ends when they fill it.
  refine decodes_loop (I := fun done => (done.flatMap SubRecord.bytes).length ≤ length)
    (Nat.zero_le _) fun done inp' p' hdone hrest hpos => ?_
  rcases hdone.lt_or_eq with hlt | heq
  · have hend : inp.pos + length =
        inp'.pos + (length - (done.flatMap SubRecord.bytes).length) := by omega
    rw [hend]
    refine (decodes_heapDumpRound htotal hid (by omega) (hread done inp'.rest hlt hrest)).mono ?_
    rintro _ _ _ - ⟨rfl, sub, rfl, hfits⟩
    refine .inl ⟨rfl, sub, rfl, ?_⟩
    rw [List.flatMap_append, List.length_append, List.flatMap_singleton]
    omega
  · refine decodes_position.bind ?_
    rintro _ _ _ p3 - - ⟨rfl, rfl, rfl⟩
    rw [if_pos (by omega)]
    exact .pure (.inr ⟨rfl, rfl, heq⟩)

/-! ## Records -/

theorem decodes_parseString {length : Bytes 4} (hlength : ∀ (id : Bytes idSize) rest,
      inp.rest = id.list ++ rest → idSize ≤ length.value ∧ length.value ≤ total + idSize) :
    Decodes total (parseString idSize length.value) inp p fun front _ _ =>
      ∃ (id : Bytes idSize) (text : List UInt8), front = id.list ++ text ∧
        length.value = idSize + text.length := by
  refine (decodes_readID (by omega)).bind ?_
  rintro _ _ inp1 p1 h1 - ⟨id, rfl, rfl⟩
  obtain ⟨hleast, hmost⟩ := hlength id inp1.rest h1
  obtain ⟨n, hn⟩ := Nat.exists_eq_add_of_le hleast
  have htext : subUint32 length.value idSize = n := by
    have hlt := length.value_lt
    rw [hn] at hlt ⊢
    exact subUint32_of_add (hlt.trans_eq (by norm_num))
  rw [htext]
  refine (decodes_readBytes (by omega)).bind ?_
  rintro _ _ inp2 p2 - - ⟨text, rfl, rfl⟩
  refine (decodes_update _).mono ?_
  rintro _ _ _ - ⟨rfl, -⟩
  exact ⟨id, text.list, by rw [List.append_nil], by rw [text.length_list, hn]⟩

theorem decodes_parseLoadClass : Decodes total (parseLoadClass idSize) inp p
    fun front _ _ => ∃ (serial : Bytes 4) (id : Bytes idSize) (trace : Bytes 4)
      (nameID : Bytes idSize), front = (RecordBody.loadClass serial id trace nameID).bytes := by
  refine (decodes_readBytes (by omega)).bind ?_
  rintro _ _ inp1 p1 - - ⟨serial, rfl, rfl⟩
  refine (decodes_readID (by omega)).bind ?_
  rintro _ _ inp2 p2 - - ⟨id, rfl, rfl⟩
  refine (decodes_readBytes (by omega)).bind ?_
  rintro _ _ inp3 p3 - - ⟨trace, rfl, rfl⟩
  refine (decodes_readID (by omega)).bind ?_
  rintro _ _ inp4 p4 - - ⟨nameID, rfl, rfl⟩
  refine (decodes_update _).mono ?_
  rintro _ _ _ - ⟨rfl, -⟩
  exact ⟨serial, id, trace, nameID, by rw [List.append_nil]; rfl⟩

theorem decodes_parseRecord {tag : UInt8} {time length : Bytes 4}
    (hread : ¬ MisreadRecord total idSize ([tag] ++ (time.list ++ (length.list ++ inp.rest)))) :
    Decodes total (parseRecord idSize tag length.value) inp p fun front _ _ =>
      ∃ body : RecordBody idSize, body.tag = tag ∧ front = body.bytes ∧
        length.value = body.bytes.length := by
  rw [parseRecord]
  split
  · next heq =>
    subst heq
    refine (decodes_parseString htotal hid fun id rest hrest => ?_).mono ?_
    · by_contra hbad
      refine hread ?_
      rw [hrest]
      exact .string time length id rest (by omega)
    · rintro _ _ _ - ⟨id, text, rfl, hlength⟩
      refine ⟨.string id text, rfl, rfl, ?_⟩
      rw [hlength, RecordBody.bytes, List.length_append, id.length_list]
  split
  · next heq =>
    subst heq
    refine (decodes_parseLoadClass htotal hid).mono ?_
    rintro _ _ inp1 h1 ⟨serial, id, trace, nameID, rfl⟩
    refine ⟨.loadClass serial id trace nameID, rfl, rfl, ?_⟩
    have hbody : (RecordBody.loadClass serial id trace nameID).bytes.length = 8 + 2 * idSize := by
      simp only [RecordBody.bytes, List.length_append, Bytes.length_list]
      omega
    by_contra hne
    refine hread ?_
    rw [h1]
    exact .loadClass time length serial id trace nameID (fun h => hne (h.trans hbody.symm)) _
  split
  · next heq =>
    obtain ⟨segment, rfl⟩ : ∃ segment : Bool, (if segment then 0x1C else 0x0C) = tag := by
      rcases heq with rfl | rfl
      · exact ⟨false, rfl⟩
      · exact ⟨true, rfl⟩
    refine (decodes_parseHeapDump htotal hid fun done rest hlt hrest hmis => hread ?_).mono ?_
    · rw [hrest]
      exact .heapDump segment time length done rest hlt hmis
    · rintro _ _ _ - ⟨subs, rfl, hlength⟩
      exact ⟨.heapDump segment subs, rfl, rfl, hlength.symm⟩
  · next hstring hclass hdump =>
    have htag : tag ∉ [0x01, 0x02, 0x0C, 0x1C] := by
      simp only [List.mem_cons, List.not_mem_nil, or_false, not_or]
      exact ⟨hstring, hclass, not_or.mp hdump⟩
    have hlength : length.value ≤ total := by
      by_contra hmore
      exact hread (.other tag htag time length (not_le.mp hmore) _)
    refine (decodes_readBytes hlength).bind ?_
    rintro _ _ inp1 p1 - - ⟨content, rfl, rfl⟩
    exact .pure ⟨.other tag htag content.list, rfl, List.append_nil _, content.length_list.symm⟩

theorem decodes_recordRound (hread : ¬ MisreadRecord total idSize inp.rest) :
    Decodes total (recordRound idSize) inp p fun front again inp' =>
      (again = true ∧ ∃ r : HPROFRecord idSize, front = r.bytes) ∨
        again = false ∧ front = [] ∧ inp'.rest = [] := by
  refine (decodes_nextByte (by omega)).mapError.bind ?_
  rintro _ _ inp1 p1 h1 - (⟨tag, rfl, rfl⟩ | ⟨rfl, rfl, hnil⟩)
  · refine (decodes_readBytes (by omega)).bind ?_
    rintro _ _ inp2 p2 h2 - ⟨time, rfl, rfl⟩
    refine (decodes_readUint32 (by omega)).bind ?_
    rintro _ _ inp3 p3 h3 - ⟨length, rfl, rfl⟩
    rw [h1, h2, h3] at hread
    refine (decodes_parseRecord htotal hid hread).bind ?_
    rintro _ _ inp4 p4 - - ⟨body, rfl, rfl, hlength⟩
    exact .pure (.inl ⟨rfl, ⟨body, time, length, hlength⟩, by rw [List.append_nil]; rfl⟩)
  · exact .pure (.inr ⟨rfl, rfl, hnil⟩)

theorem decodes_records {rounds : ℕ} (hread : ∀ (front : List (HPROFRecord idSize)) rest,
      inp.rest = front.flatMap HPROFRecord.bytes ++ rest → ¬ MisreadRecord total idSize rest) :
    Decodes total (loop .diverges (recordRound idSize) rounds) inp p fun front _ inp' =>
      ∃ records : List (HPROFRecord idSize), front = records.flatMap HPROFRecord.bytes ∧
        inp'.rest = [] := by
  refine decodes_loop (I := fun _ => True) trivial fun done inp' p' _ hrest _ => ?_
  refine (decodes_recordRound htotal hid (hread done inp'.rest hrest)).mono ?_
  rintro _ _ _ - (⟨rfl, r, rfl⟩ | hend)
  · exact .inl ⟨rfl, r, rfl, trivial⟩
  · exact .inr hend

end SubRecords

/-! ## The file -/

theorem decodes_readVersion (h : 1 ≤ total) {room : ℕ} :
    Decodes total (readVersion room) inp p fun front _ _ =>
      ∃ version : List UInt8, front = version ++ [0] ∧ 0 ∉ version ∧ version.length ≤ room := by
  have hbyte : ∀ inp p, Decodes total readHeaderByte inp p fun front b _ => front = [b] :=
    fun _ _ => (decodes_readByte h).mapError
  induction room generalizing inp p with
  | zero =>
      refine (hbyte inp p).bind ?_
      rintro _ b inp1 p1 - - rfl
      split
      · next hzero =>
        subst hzero
        exact .pure ⟨[], rfl, List.not_mem_nil, le_rfl⟩
      · exact .fail _
  | succ room ih =>
      refine (hbyte inp p).bind ?_
      rintro _ b inp1 p1 - - rfl
      split
      · next hzero =>
        subst hzero
        exact .pure ⟨[], rfl, List.not_mem_nil, Nat.zero_le _⟩
      · next hne =>
        refine ih.mono ?_
        rintro _ _ _ - ⟨version, rfl, hnot, hlength⟩
        refine ⟨b :: version, rfl, ?_, by simpa using hlength⟩
        rw [List.mem_cons, not_or]
        exact ⟨Ne.symm hne, hnot⟩

theorem decodes_readHeader (h : 64 ≤ total) : Decodes total readHeader inp p
    fun front idSize _ => ∃ header : HPROFHeader, front = header.bytes ∧
      idSize = header.idSize.value := by
  refine (decodes_request h).bind ?_
  rintro _ _ inp1 p1 - - ⟨rfl, -⟩
  refine (decodes_readVersion (by omega)).bind ?_
  rintro _ _ inp2 p2 - - ⟨version, rfl, hne, hlength⟩
  refine (decodes_readUint32 (by omega)).mapError.bind ?_
  rintro _ _ inp3 p3 - - ⟨idSize, rfl, rfl⟩
  split
  · exact .fail _
  · next hid =>
    refine (decodes_readBytes (by omega)).mapError.bind ?_
    rintro _ _ inp4 p4 - - ⟨time, rfl, rfl⟩
    exact .pure ⟨⟨version, hne, hlength, idSize, by omega, time⟩, by simp [HPROFHeader.bytes], rfl⟩

theorem decodes_parse {go : GoRuntime} (h : 64 ≤ total)
    (hread : ∀ (header : HPROFHeader) (front : List (HPROFRecord header.idSize.value)) rest,
      inp.rest = header.bytes ++ (front.flatMap HPROFRecord.bytes ++ rest) →
        ¬ MisreadRecord total header.idSize.value rest) :
    Decodes total (HPROFParser.parse go) inp p fun front _ inp' =>
      (∃ f : HPROFFile, front = f.bytes) ∧ inp'.rest = [] := by
  refine (decodes_readHeader h).bind ?_
  rintro _ _ inp1 p1 h1 - ⟨header, rfl, rfl⟩
  refine decodes_remaining.bind ?_
  rintro _ _ inp1 p2 - - ⟨rfl, rfl⟩
  refine (decodes_records h header.idSize_eq fun front rest hrest => ?_).bind ?_
  · exact hread header front rest (by rw [h1, hrest])
  rintro _ _ inp3 p3 - - ⟨records, rfl, hnil⟩
  refine decodes_state.bind ?_
  rintro _ _ _ p4 - - ⟨rfl, rfl⟩
  exact .pure ⟨⟨⟨header, records⟩, by simp [HPROFFile.bytes]⟩, hnil⟩

end MiniDrop
