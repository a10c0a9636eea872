import MiniDrop.Verification.Heap.Soundness

/-! # What the parser refuses

A file is cut into records in one way only, so that a file with a broken record is not made of whole
ones. -/

namespace MiniDrop

open Decoder

/-! ## Unique reading -/

section Unique

variable {idSize : ℕ} {rest back : List UInt8}

theorem Bytes.append_inj {n : ℕ} {b b' : Bytes n} (h : b.list ++ rest = b'.list ++ back) :
    b = b' ∧ rest = back := by
  obtain ⟨hb, hrest⟩ := List.append_inj h (b.length_list.trans b'.length_list.symm)
  exact ⟨Subtype.ext hb, hrest⟩

/-- What stands at the place of the parts of a record are its parts. -/
theorem HPROFRecord.bytes_inj {r : HPROFRecord idSize} {tag : UInt8} {time length : Bytes 4}
    (h : [tag] ++ (time.list ++ (length.list ++ rest)) = r.bytes ++ back) :
    r.body.tag = tag ∧ r.length = length ∧ rest = r.body.bytes ++ back := by
  rw [HPROFRecord.bytes, List.append_assoc, List.append_assoc, List.append_assoc] at h
  obtain ⟨htag, h⟩ := List.cons.inj h
  obtain ⟨-, h⟩ := Bytes.append_inj h
  obtain ⟨hlength, hrest⟩ := Bytes.append_inj h
  exact ⟨htag.symm, hlength.symm, hrest⟩

theorem HPROFRecord.append_inj {r r' : HPROFRecord idSize}
    (h : r.bytes ++ rest = r'.bytes ++ back) : rest = back := by
  have hparts : [r.body.tag] ++ (r.time.list ++ (r.length.list ++ (r.body.bytes ++ rest))) =
      r'.bytes ++ back := by
    rw [← h, HPROFRecord.bytes, List.append_assoc, List.append_assoc, List.append_assoc]
  obtain ⟨-, hlength, hbody⟩ := HPROFRecord.bytes_inj hparts
  refine (List.append_inj hbody ?_).2
  rw [← r.length_eq, ← r'.length_eq, hlength]

/-- Whole records before the rest of a file are among those of the file. -/
theorem exists_back {front records : List (HPROFRecord idSize)}
    (h : front.flatMap HPROFRecord.bytes ++ rest = records.flatMap HPROFRecord.bytes) :
    ∃ back : List (HPROFRecord idSize), back <:+ records ∧
      rest = back.flatMap HPROFRecord.bytes := by
  induction front generalizing records with
  | nil => exact ⟨records, List.suffix_rfl, h⟩
  | cons r front ih =>
      cases records with
      | nil => simp [HPROFRecord.bytes] at h
      | cons r' records =>
          rw [List.flatMap_cons, List.flatMap_cons, List.append_assoc] at h
          obtain ⟨back, hback, hrest⟩ := ih (HPROFRecord.append_inj h)
          exact ⟨back, hback.trans (List.suffix_cons r' records), hrest⟩

/-- A terminator is found at one place only. -/
theorem terminated_inj {α : Type} {a : α} {front front' rest back : List α} (hne : a ∉ front)
    (hne' : a ∉ front') (h : front ++ a :: rest = front' ++ a :: back) :
    front = front' ∧ rest = back := by
  induction front generalizing front' with
  | nil =>
      cases front' with
      | nil => exact ⟨rfl, (List.cons.inj h).2⟩
      | cons b front' =>
          obtain ⟨rfl, -⟩ := List.cons.inj h
          exact absurd List.mem_cons_self hne'
  | cons b front ih =>
      cases front' with
      | nil =>
          obtain ⟨rfl, -⟩ := List.cons.inj h
          exact absurd List.mem_cons_self hne
      | cons b' front' =>
          obtain ⟨rfl, htail⟩ := List.cons.inj h
          obtain ⟨rfl, hrest⟩ := ih (fun hmem => hne (List.mem_cons_of_mem _ hmem))
            (fun hmem => hne' (List.mem_cons_of_mem _ hmem)) htail
          exact ⟨rfl, hrest⟩

theorem HPROFHeader.append_inj {h h' : HPROFHeader} (heq : h.bytes ++ rest = h'.bytes ++ back) :
    h = h' ∧ rest = back := by
  obtain ⟨version, hne, hversion, idSize, hid, time⟩ := h
  obtain ⟨version', hne', hversion', idSize', hid', time'⟩ := h'
  simp only [HPROFHeader.bytes, List.append_assoc, List.cons_append, List.nil_append] at heq
  obtain ⟨rfl, hsize⟩ := terminated_inj hne hne' heq
  obtain ⟨rfl, htime⟩ := Bytes.append_inj hsize
  obtain ⟨rfl, hrest⟩ := Bytes.append_inj htime
  exact ⟨rfl, hrest⟩

end Unique

/-! ## Broken records -/

section Broken

variable {idSize : ℕ}

theorem not_brokenRecord (records : List (HPROFRecord idSize)) :
    ¬ BrokenRecord idSize (records.flatMap HPROFRecord.bytes) := by
  generalize hbytes : records.flatMap HPROFRecord.bytes = bytes
  intro hbroken
  cases records with
  | nil => cases hbroken <;> simp at hbytes
  | cons r records =>
      rw [List.flatMap_cons] at hbytes
      obtain ⟨body, time', length', hlength'⟩ := r
      cases hbroken with
      | string time length rest h =>
          obtain ⟨htag, rfl, -⟩ := HPROFRecord.bytes_inj hbytes.symm
          cases body with
          | string id text =>
              rw [hlength', RecordBody.bytes, List.length_append, id.length_list] at h
              omega
          | loadClass serial id trace nameID => cases htag
          | heapDump segment subs => cases segment <;> cases htag
          | other tag hne content => exact hne (by rw [← htag]; simp [RecordBody.tag])
      | loadClass time length rest h =>
          obtain ⟨htag, rfl, -⟩ := HPROFRecord.bytes_inj hbytes.symm
          cases body with
          | string id text => cases htag
          | loadClass serial id trace nameID =>
              refine h (hlength'.trans ?_)
              simp only [RecordBody.bytes, List.length_append, Bytes.length_list]
              omega
          | heapDump segment subs => cases segment <;> cases htag
          | other tag hne content => exact hne (by rw [← htag]; simp [RecordBody.tag])
      | heapDump segment time length rest h =>
          obtain ⟨htag, rfl, hrest⟩ := HPROFRecord.bytes_inj hbytes.symm
          cases body with
          | string id text => cases segment <;> cases htag
          | loadClass serial id trace nameID => cases segment <;> cases htag
          | heapDump segment' subs => exact h ⟨subs, _, hrest, hlength'.symm⟩
          | other tag hne content =>
              refine hne ?_
              change tag = _ at htag
              cases segment <;> simp [htag]

theorem not_hasBrokenRecord (f : HPROFFile) : ¬ HasBrokenRecord f.bytes := by
  rintro ⟨header, front, rest, hbytes, hbroken⟩
  obtain ⟨rfl, hrecords⟩ := HPROFHeader.append_inj hbytes
  obtain ⟨back, -, rfl⟩ := exists_back hrecords.symm
  exact not_brokenRecord back hbroken

end Broken

/-! ## Termination -/

section Termination

variable {idSize : ℕ}

theorem ends_readBytes (n : ℕ) : Ends .diverges (readBytes n) :=
  ends_readFull (fun x => by cases x <;> nofun) n

theorem ends_wrap {α : Type} {m : Parsing α} (h : Ends .diverges m) (text : String) :
    Ends .diverges (mapError (.wrap text) m) := h.mapError fun _ => nofun

theorem ends_readByte : Ends .diverges readByte := (ends_readBytes 1).bind fun _ => .pure _

theorem ends_readUint16 : Ends .diverges readUint16 := (ends_readBytes 2).bind fun _ => .pure _

theorem ends_readUint32 : Ends .diverges readUint32 := (ends_readBytes 4).bind fun _ => .pure _

theorem ends_readID : Ends .diverges (readID idSize) := by
  refine (ends_readBytes idSize).bind fun buf => ?_
  split
  · exact .pure _
  · exact ends_fail nofun

theorem ends_readTypedValue : Ends .diverges (readTypedValue idSize) :=
  ends_readByte.bind fun _ => (ends_readBytes _).bind fun _ => .pure _

theorem ends_parseClassDump : Ends .diverges (parseClassDump idSize) := by
  have hpool : Ends .diverges (readPoolEntry idSize) :=
    (ends_readBytes 2).bind fun _ => ends_readTypedValue
  have hstatic : Ends .diverges (readStaticField idSize) :=
    ends_readID.bind fun _ => ends_readTypedValue
  have hfield : Ends .diverges (readInstanceField idSize) := ends_readID.bind fun _ => ends_readByte
  exact ends_readID.bind fun _ => (ends_readBytes _).bind fun _ => ends_readID.bind fun _ =>
    (ends_readBytes _).bind fun _ => ends_readUint16.bind fun _ => (hpool.times _).bind fun _ =>
      (ends_update _).bind fun _ => ends_readUint16.bind fun _ => (hstatic.times _).bind fun _ =>
        ends_readUint16.bind fun _ => (ends_request _).bind fun _ => (hfield.times _).bind fun _ =>
          ends_update _

theorem ends_parseInstanceDump : Ends .diverges (parseInstanceDump idSize) :=
  ends_readID.bind fun _ => (ends_readBytes _).bind fun _ => ends_readID.bind fun _ =>
    ends_readUint32.bind fun _ => (ends_update _).bind fun _ => (ends_readBytes _).bind fun _ =>
      .pure _

theorem ends_parseObjArrayDump : Ends .diverges (parseObjArrayDump idSize) :=
  ends_readID.bind fun _ => (ends_readBytes _).bind fun _ => ends_readUint32.bind fun _ =>
    ends_readID.bind fun _ => (ends_update _).bind fun _ => (ends_readBytes _).bind fun _ => .pure _

theorem ends_parsePrimArrayDump : Ends .diverges (parsePrimArrayDump idSize) :=
  ends_readID.bind fun _ => (ends_readBytes _).bind fun _ => ends_readUint32.bind fun _ =>
    ends_readByte.bind fun _ => (ends_update _).bind fun _ => (ends_readBytes _).bind fun _ =>
      .pure _

theorem ends_readRootFields (subTag : UInt8) : Ends .diverges (readRootFields idSize subTag) := by
  rw [readRootFields]
  split_ifs
  · exact ends_readID.bind fun _ => .pure _
  · exact (ends_readBytes 8).bind fun _ => .pure _
  · exact (ends_readBytes 4).bind fun _ => .pure _
  · exact .pure _

theorem ends_parseSubRecord (subTag : UInt8) : Ends .diverges (parseSubRecord idSize subTag) := by
  rw [parseSubRecord]
  split_ifs
  · exact (ends_update _).bind fun _ => ends_readID.bind fun _ => .pure _
  · exact (ends_update _).bind fun _ => ends_readID.bind fun _ => ends_readRootFields subTag
  · exact (ends_update _).bind fun _ => ends_readID.bind fun _ => (ends_readBytes 8).bind fun _ =>
      .pure _
  · exact ends_parseClassDump
  · exact ends_parseInstanceDump
  · exact ends_parseObjArrayDump
  · exact ends_parsePrimArrayDump
  · exact ends_fail fun h => HPROFError.noConfusion h

theorem ends_nextByte : Ends .diverges (orEnd HPROFError.isEOF readByte) := ends_readByte.orEnd

theorem nextByte_reads {inp : Input} {p : HPROFParser} {tag : UInt8}
    (h : (orEnd HPROFError.isEOF readByte inp p).1 = .ok (some tag)) :
    (orEnd HPROFError.isEOF readByte inp p).2.1.rest.length < inp.rest.length := by
  rw [orEnd, readByte, bind_apply, readBytes, readFull] at h ⊢
  cases hrest : inp.rest with
  | nil => simp [hrest, HPROFError.ofShort, HPROFError.isEOF] at h
  | cons b rest =>
      rw [if_pos (by simp)]
      exact Nat.lt_succ_self _

theorem ends_parseHeapDump (length : ℕ) : Ends .diverges (parseHeapDump idSize length) := by
  have hround : ∀ subTag, Ends .diverges (do parseSubRecord idSize subTag; pure true) :=
    fun subTag => (ends_parseSubRecord subTag).bind fun _ => .pure _
  refine ends_position.bind fun start => ends_loop (ends_position.bind fun pos => ?_) ?_
  · split
    · exact .pure _
    · refine ends_nextByte.bind fun subTag => ?_
      cases subTag with
      | none => exact .pure _
      | some subTag => exact hround subTag
  · intro inp p h
    have hrun : heapDumpRound idSize (start + length) inp p =
        if start + length ≤ inp.pos then (.ok false, inp, p)
        else (orEnd HPROFError.isEOF readByte >>= fun subTag =>
          subTag.elim (pure false) fun subTag => do
            parseSubRecord idSize subTag
            pure true) inp p := by
      rw [heapDumpRound, bind_apply]
      show (if start + length ≤ inp.pos then _ else _ : Parsing Bool) inp p = _
      split
      · rfl
      · refine congrArg (fun next => (orEnd HPROFError.isEOF readByte >>= next) inp p) ?_
        funext subTag
        cases subTag <;> rfl
    rw [hrun] at h ⊢
    split at h
    · cases h
    · next hgo =>
      rw [if_neg hgo]
      refine Ends.reads .diverges (fun subTag => ?_) (fun subTag hnext => ?_) h
      · cases subTag with
        | none => exact .pure _
        | some subTag => exact hround subTag
      · cases subTag with
        | none => exact .inr fun _ _ h => absurd (Except.ok.inj h) Bool.false_ne_true
        | some subTag => exact .inl (nextByte_reads hnext)

theorem ends_parseRecord (tag : UInt8) (length : ℕ) :
    Ends .diverges (parseRecord idSize tag length) := by
  rw [parseRecord]
  split_ifs
  · exact ends_readID.bind fun _ => (ends_readBytes _).bind fun _ => ends_update _
  · exact (ends_readBytes 4).bind fun _ => ends_readID.bind fun _ => (ends_readBytes 4).bind fun _ =>
      ends_readID.bind fun _ => ends_update _
  · exact ends_parseHeapDump length
  · exact (ends_readBytes length).bind fun _ => .pure _

theorem ends_records : Ends .diverges (do
    let left ← remaining
    loop .diverges (recordRound idSize) (left + 1)) := by
  have hround : ∀ tag, Ends .diverges (do
      let _ ← readBytes 4
      let length ← readUint32
      parseRecord idSize tag length
      pure true) := fun tag =>
    (ends_readBytes 4).bind fun _ => ends_readUint32.bind fun length =>
      (ends_parseRecord tag length).bind fun _ => .pure _
  have hnext : Ends .diverges (mapError (.wrap "读取记录标签失败: ")
      (orEnd HPROFError.isEOF readByte)) := ends_wrap ends_nextByte _
  refine ends_loop (hnext.bind fun tag => ?_) fun inp p h => ?_
  · cases tag with
    | none => exact .pure _
    | some tag => exact hround tag
  · refine Ends.reads .diverges (fun tag => ?_) (fun tag htag => ?_) h
    · cases tag with
      | none => exact .pure _
      | some tag => exact hround tag
    · cases tag with
      | none => exact .inr fun _ _ => nofun
      | some tag =>
          refine .inl ?_
          have hreads : (orEnd HPROFError.isEOF readByte inp p).1 = .ok (some tag) →
              (orEnd HPROFError.isEOF readByte inp p).2.1.rest.length < inp.rest.length :=
            nextByte_reads
          rw [mapError] at htag ⊢
          revert htag hreads
          obtain ⟨result, inp', p'⟩ := orEnd HPROFError.isEOF readByte inp p
          intro htag hreads
          cases result with
          | error e => cases htag
          | ok a => exact hreads htag

theorem ends_readVersion (room : ℕ) : Ends .diverges (readVersion room) := by
  have hbyte : Ends .diverges readHeaderByte := ends_wrap ends_readByte _
  induction room with
  | zero =>
      refine hbyte.bind fun b => ?_
      split
      · exact .pure _
      · exact ends_fail nofun
  | succ room ih =>
      refine hbyte.bind fun b => ?_
      split
      · exact .pure _
      · exact ih

theorem ends_readHeader : Ends .diverges readHeader := by
  refine (ends_request 64).bind fun _ => (ends_readVersion 64).bind fun _ =>
    (ends_wrap ends_readUint32 _).bind fun idSize => ?_
  split
  · exact ends_fail nofun
  · exact (ends_wrap (ends_readBytes 8) _).bind fun _ => .pure _

theorem ends_parse (go : GoRuntime) : Ends .diverges (HPROFParser.parse go) := by
  have hrest : ∀ idSize, Ends .diverges (do
      let left ← remaining
      loop .diverges (recordRound idSize) (left + 1)
      let p ← state
      pure (p.buildStats go)) := fun idSize =>
    (@ends_records idSize).bind fun _ => ends_state.bind fun _ => .pure _
  exact ends_readHeader.bind hrest

end Termination

/-! ## The contract -/

/-- A header and a stack trace. -/
def oneStackTrace : HPROFFile where
  header := quadHeader
  records := [⟨.other 0x05 (by decide) (List.replicate 24 0), .quad 0 0 0 0, .quad 0 0 0 24, rfl⟩]

theorem not_misreadRecord_nil {total idSize : ℕ} : ¬ MisreadRecord total idSize [] := by
  generalize hbytes : ([] : List UInt8) = bytes
  intro hmis
  cases hmis <;> simp at hbytes

/-- Of the records that are skipped, only those of too great a length are misread. -/
theorem MisreadRecord.lt_length {total idSize : ℕ} {r : HPROFRecord idSize} {rest : List UInt8}
    (h : MisreadRecord total idSize (r.bytes ++ rest))
    (htag : r.body.tag ∉ [0x01, 0x02, 0x0C, 0x1C]) : total < r.length.value := by
  generalize hbytes : r.bytes ++ rest = bytes at h
  cases h with
  | string time length id rest h =>
      obtain ⟨htag', -⟩ := HPROFRecord.bytes_inj hbytes.symm
      exact absurd (by simp [htag']) htag
  | loadClass time length serial id trace nameID h rest =>
      obtain ⟨htag', -⟩ := HPROFRecord.bytes_inj hbytes.symm
      exact absurd (by simp [htag']) htag
  | heapDump segment time length done rest hdone h =>
      obtain ⟨htag', -⟩ := HPROFRecord.bytes_inj hbytes.symm
      exact absurd (by cases segment <;> simp [htag']) htag
  | other tag hne time length h rest =>
      obtain ⟨-, rfl, -⟩ := HPROFRecord.bytes_inj hbytes.symm
      exact h

theorem readAsWritten_oneStackTrace : ReadAsWritten oneStackTrace.bytes := by
  refine ⟨by decide, fun header front rest hbytes hmis => ?_⟩
  obtain ⟨rfl, hrecords⟩ := HPROFHeader.append_inj hbytes
  obtain ⟨back, hback, rfl⟩ := exists_back hrecords.symm
  rcases List.suffix_cons_iff.mp hback with rfl | hnil
  · exact absurd (hmis.lt_length (by decide)) (by decide)
  · rw [List.suffix_nil.mp hnil] at hmis
    exact not_misreadRecord_nil hmis

end MiniDrop
