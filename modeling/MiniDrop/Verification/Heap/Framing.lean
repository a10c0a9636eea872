import MiniDrop.Verification.Heap.Format

/-! # Framing

Which files the parser is promised to refuse, and at which places it misreads a file without an
error. -/

namespace MiniDrop

/-! ## Broken records -/

/-- The record at the front does not have the length that it announces: a string is shorter than
its id, the body of a class differs from its length, or no whole sub-records fill a segment. -/
inductive BrokenRecord (idSize : ℕ) : List UInt8 → Prop where
  | string (time length : Bytes 4) (rest : List UInt8) (h : length.value < idSize) :
    BrokenRecord idSize ([0x01] ++ (time.list ++ (length.list ++ rest)))
  | loadClass (time length : Bytes 4) (rest : List UInt8) (h : length.value ≠ 8 + 2 * idSize) :
    BrokenRecord idSize ([0x02] ++ (time.list ++ (length.list ++ rest)))
  | heapDump (segment : Bool) (time length : Bytes 4) (rest : List UInt8)
    (h : ¬ ∃ (subs : List (SubRecord idSize)) (back : List UInt8),
      rest = subs.flatMap SubRecord.bytes ++ back ∧
        (subs.flatMap SubRecord.bytes).length = length.value) :
    BrokenRecord idSize
      ([if segment then 0x1C else 0x0C] ++ (time.list ++ (length.list ++ rest)))

/-- Behind whole records comes a broken one. -/
def HasBrokenRecord (bytes : List UInt8) : Prop :=
  ∃ (header : HPROFHeader) (front : List (HPROFRecord header.idSize.value)) (rest : List UInt8),
    bytes = header.bytes ++ (front.flatMap HPROFRecord.bytes ++ rest) ∧
      BrokenRecord header.idSize.value rest

/-- The parser ends, asks for no more than the file has, and accepts whole records only. -/
structure RespectsFraming (go : GoRuntime) (bytes : List UInt8) : Prop where
  ends : (analyzeHPROF go bytes).1 ≠ .error .diverges
  requests : ∀ n ∈ (analyzeHPROF go bytes).2.1.requests, n ≤ bytes.length
  framed : ∀ stats, (analyzeHPROF go bytes).1 = .ok stats → ∃ f : HPROFFile, bytes = f.bytes
  refuses : HasBrokenRecord bytes → ∃ e, (analyzeHPROF go bytes).1 = .error e

/-! ## Misread places -/

/-- A class dump up to where the type of a value or field comes next. -/
inductive BeforeType (idSize : ℕ) : List UInt8 → Prop where
  | pool (head : ClassDumpHead idSize) (count : Bytes 2) (done : List (Bytes 2 × Value idSize))
    (h : done.length < count.value) (index : Bytes 2) :
    BeforeType idSize
      (head.bytes ++ (count.list ++ (done.flatMap entryBytes ++ index.list)))
  | statics (head : ClassDumpHead idSize) (pool : Counted (Bytes 2 × Value idSize))
    (count : Bytes 2) (done : List (Bytes idSize × Value idSize)) (h : done.length < count.value)
    (name : Bytes idSize) :
    BeforeType idSize
      (head.bytes ++ (pool.bytes entryBytes ++
        (count.list ++ (done.flatMap entryBytes ++ name.list))))
  | fields (head : ClassDumpHead idSize) (pool : Counted (Bytes 2 × Value idSize))
    (statics : Counted (Bytes idSize × Value idSize)) (count : Bytes 2)
    (done : List (Bytes idSize × BasicType)) (h : done.length < count.value)
    (name : Bytes idSize) :
    BeforeType idSize
      (head.bytes ++ (pool.bytes entryBytes ++ (statics.bytes entryBytes ++
        (count.list ++ (done.flatMap fieldBytes ++ name.list)))))

/-- The parser goes on past a fault in the body of the sub-record at the front, or asks for more
bytes than the file has. -/
inductive MisreadBody (total idSize : ℕ) : UInt8 → List UInt8 → Prop where
  | classType (front : List UInt8) (hfront : BeforeType idSize front) (type : UInt8)
    (htype : ∀ t : BasicType, t.code ≠ type) (rest : List UInt8) :
    MisreadBody total idSize 0x20 (front ++ type :: rest)
  | classFields (head : ClassDumpHead idSize) (pool : Counted (Bytes 2 × Value idSize))
    (statics : Counted (Bytes idSize × Value idSize)) (count : Bytes 2)
    (hcount : total < 24 * count.value) (rest : List UInt8) :
    MisreadBody total idSize 0x20
      (head.bytes ++ (pool.bytes entryBytes ++ (statics.bytes entryBytes ++ (count.list ++ rest))))
  | instanceDump (id : Bytes idSize) (trace : Bytes 4) (classID : Bytes idSize)
    (dataLen : Bytes 4) (hlength : total < dataLen.value) (rest : List UInt8) :
    MisreadBody total idSize 0x21
      (id.list ++ (trace.list ++ (classID.list ++ (dataLen.list ++ rest))))
  | objArrayDump (id : Bytes idSize) (trace length : Bytes 4) (classID : Bytes idSize)
    (hlength : total < length.value * idSize) (rest : List UInt8) :
    MisreadBody total idSize 0x22
      (id.list ++ (trace.list ++ (length.list ++ (classID.list ++ rest))))
  | primArrayType (id : Bytes idSize) (trace length : Bytes 4) (type : UInt8)
    (htype : ∀ t : PrimType, t.code ≠ type) (rest : List UInt8) :
    MisreadBody total idSize 0x23
      (id.list ++ (trace.list ++ (length.list ++ ([type] ++ rest))))
  | primArrayDump (id : Bytes idSize) (trace length : Bytes 4) (type : PrimType)
    (hlength : total < length.value * type.size) (rest : List UInt8) :
    MisreadBody total idSize 0x23
      (id.list ++ (trace.list ++ (length.list ++ ([type.code] ++ rest))))

/-- With so many bytes of the segment left, the file ends, or the sub-record at the front is
misread or crosses the end of the segment. -/
inductive MisreadSub (total idSize left : ℕ) : List UInt8 → Prop where
  | cut : MisreadSub total idSize left []
  | overrun (sub : SubRecord idSize) (h : left < sub.bytes.length) (rest : List UInt8) :
    MisreadSub total idSize left (sub.bytes ++ rest)
  | body (tag : UInt8) (rest : List UInt8) (h : MisreadBody total idSize tag rest) :
    MisreadSub total idSize left (tag :: rest)

/-- The parser goes on past a fault in the record at the front, or asks for more bytes than the
file has. -/
inductive MisreadRecord (total idSize : ℕ) : List UInt8 → Prop where
  | string (time length : Bytes 4) (id : Bytes idSize) (rest : List UInt8)
    (h : length.value < idSize ∨ total + idSize < length.value) :
    MisreadRecord total idSize ([0x01] ++ (time.list ++ (length.list ++ (id.list ++ rest))))
  | loadClass (time length serial : Bytes 4) (id : Bytes idSize) (trace : Bytes 4)
    (nameID : Bytes idSize) (h : length.value ≠ 8 + 2 * idSize) (rest : List UInt8) :
    MisreadRecord total idSize
      ([0x02] ++ (time.list ++ (length.list ++
        ((RecordBody.loadClass serial id trace nameID).bytes ++ rest))))
  | heapDump (segment : Bool) (time length : Bytes 4) (done : List (SubRecord idSize))
    (rest : List UInt8) (hdone : (done.flatMap SubRecord.bytes).length < length.value)
    (h : MisreadSub total idSize (length.value - (done.flatMap SubRecord.bytes).length) rest) :
    MisreadRecord total idSize
      ([if segment then 0x1C else 0x0C] ++
        (time.list ++ (length.list ++ (done.flatMap SubRecord.bytes ++ rest))))
  | other (tag : UInt8) (htag : tag ∉ [0x01, 0x02, 0x0C, 0x1C]) (time length : Bytes 4)
    (h : total < length.value) (rest : List UInt8) :
    MisreadRecord total idSize ([tag] ++ (time.list ++ (length.list ++ rest)))

/-- The file has room for the buffer of the header, and behind whole records never comes one that
is misread. -/
structure ReadAsWritten (bytes : List UInt8) : Prop where
  room : 64 ≤ bytes.length
  records : ∀ (header : HPROFHeader) (front : List (HPROFRecord header.idSize.value))
    (rest : List UInt8), bytes = header.bytes ++ (front.flatMap HPROFRecord.bytes ++ rest) →
      ¬ MisreadRecord bytes.length header.idSize.value rest

end MiniDrop
