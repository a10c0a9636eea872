import MiniDrop.Model.HeapAnalyzer
import Mathlib.Data.Finset.Card

/-! # The HPROF format

A file is a header and whole records. Each part is kept as its bytes, with what the format demands
of them. -/

namespace MiniDrop

/-! ## Parts -/

def Bytes (n : ℕ) : Type := {bytes : List UInt8 // bytes.length = n}

namespace Bytes

variable {n : ℕ}

def list (b : Bytes n) : List UInt8 := b.1

def value (b : Bytes n) : ℕ := bigEndian b.list

def quad (a b c d : UInt8) : Bytes 4 := ⟨[a, b, c, d], rfl⟩

@[simp] theorem length_list (b : Bytes n) : b.list.length = n := b.2

end Bytes

inductive PrimType where
  | boolean | char | float | double | byte | short | int | long
deriving DecidableEq

namespace PrimType

def code : PrimType → UInt8
  | boolean => 4
  | char => 5
  | float => 6
  | double => 7
  | byte => 8
  | short => 9
  | int => 10
  | long => 11

def size : PrimType → ℕ
  | boolean | byte => 1
  | char | short => 2
  | float | int => 4
  | double | long => 8

end PrimType

inductive BasicType where
  | object
  | prim (type : PrimType)
deriving DecidableEq

namespace BasicType

def code : BasicType → UInt8
  | object => 2
  | prim type => type.code

def size (idSize : ℕ) : BasicType → ℕ
  | object => idSize
  | prim type => type.size

end BasicType

/-! ## Sub-records -/

inductive RootKind where
  | unknown | jniGlobal | jniLocal | javaFrame | nativeStack | stickyClass | threadBlock
  | monitorUsed | threadObject
deriving DecidableEq

namespace RootKind

def tag : RootKind → UInt8
  | unknown => 0xFF
  | jniGlobal => 0x01
  | jniLocal => 0x02
  | javaFrame => 0x03
  | nativeStack => 0x04
  | stickyClass => 0x05
  | threadBlock => 0x06
  | monitorUsed => 0x07
  | threadObject => 0x08

/-- The size of what follows the object. -/
def extra (idSize : ℕ) : RootKind → ℕ
  | unknown | stickyClass | monitorUsed => 0
  | jniGlobal => idSize
  | jniLocal | javaFrame | threadObject => 8
  | nativeStack | threadBlock => 4

end RootKind

structure Value (idSize : ℕ) where
  type : BasicType
  content : Bytes (type.size idSize)

def Value.bytes {idSize : ℕ} (v : Value idSize) : List UInt8 := v.type.code :: v.content.list

/-- A list with its length in front. -/
structure Counted (α : Type) where
  count : Bytes 2
  items : List α
  count_eq : count.value = items.length

def Counted.bytes {α : Type} (enc : α → List UInt8) (c : Counted α) : List UInt8 :=
  c.count.list ++ c.items.flatMap enc

structure ClassDumpHead (idSize : ℕ) where
  id : Bytes idSize
  trace : Bytes 4
  superID : Bytes idSize
  /-- The loader, the signers, the domain, two reserved ids, and the size of an instance. -/
  others : Bytes (idSize * 5 + 4)

structure ClassDump (idSize : ℕ) where
  head : ClassDumpHead idSize
  pool : Counted (Bytes 2 × Value idSize)
  statics : Counted (Bytes idSize × Value idSize)
  fields : Counted (Bytes idSize × BasicType)

structure InstanceDump (idSize : ℕ) where
  id : Bytes idSize
  trace : Bytes 4
  classID : Bytes idSize
  dataLen : Bytes 4
  data : Bytes dataLen.value

structure ObjArrayDump (idSize : ℕ) where
  id : Bytes idSize
  trace : Bytes 4
  length : Bytes 4
  classID : Bytes idSize
  elements : Bytes (length.value * idSize)

structure PrimArrayDump (idSize : ℕ) where
  id : Bytes idSize
  trace : Bytes 4
  length : Bytes 4
  type : PrimType
  elements : Bytes (length.value * type.size)

inductive SubRecord (idSize : ℕ) where
  | root (kind : RootKind) (object : Bytes idSize) (extra : Bytes (kind.extra idSize))
  | classDump (dump : ClassDump idSize)
  | instanceDump (dump : InstanceDump idSize)
  | objArrayDump (dump : ObjArrayDump idSize)
  | primArrayDump (dump : PrimArrayDump idSize)

section Encoding

variable {idSize : ℕ}

/-- An entry with a typed value. -/
def entryBytes {n : ℕ} (e : Bytes n × Value idSize) : List UInt8 := e.1.list ++ e.2.bytes

def fieldBytes (f : Bytes idSize × BasicType) : List UInt8 := f.1.list ++ [f.2.code]

def ClassDumpHead.bytes (h : ClassDumpHead idSize) : List UInt8 :=
  h.id.list ++ (h.trace.list ++ (h.superID.list ++ h.others.list))

def ClassDump.bytes (d : ClassDump idSize) : List UInt8 :=
  d.head.bytes ++
    (d.pool.bytes entryBytes ++ (d.statics.bytes entryBytes ++ d.fields.bytes fieldBytes))

def InstanceDump.bytes (d : InstanceDump idSize) : List UInt8 :=
  d.id.list ++ (d.trace.list ++ (d.classID.list ++ (d.dataLen.list ++ d.data.list)))

def ObjArrayDump.bytes (d : ObjArrayDump idSize) : List UInt8 :=
  d.id.list ++ (d.trace.list ++ (d.length.list ++ (d.classID.list ++ d.elements.list)))

def PrimArrayDump.bytes (d : PrimArrayDump idSize) : List UInt8 :=
  d.id.list ++ (d.trace.list ++ (d.length.list ++ ([d.type.code] ++ d.elements.list)))

namespace SubRecord

def tag : SubRecord idSize → UInt8
  | root kind _ _ => kind.tag
  | classDump _ => 0x20
  | instanceDump _ => 0x21
  | objArrayDump _ => 0x22
  | primArrayDump _ => 0x23

/-- The bytes after the tag. -/
def body : SubRecord idSize → List UInt8
  | root _ object extra => object.list ++ extra.list
  | classDump dump => dump.bytes
  | instanceDump dump => dump.bytes
  | objArrayDump dump => dump.bytes
  | primArrayDump dump => dump.bytes

def bytes (sub : SubRecord idSize) : List UInt8 := sub.tag :: sub.body

end SubRecord

end Encoding

/-! ## Records -/

inductive RecordBody (idSize : ℕ) where
  | string (id : Bytes idSize) (text : List UInt8)
  | loadClass (serial : Bytes 4) (id : Bytes idSize) (trace : Bytes 4) (nameID : Bytes idSize)
  | heapDump (segment : Bool) (subs : List (SubRecord idSize))
  | other (tag : UInt8) (tag_notMem : tag ∉ [0x01, 0x02, 0x0C, 0x1C]) (content : List UInt8)

namespace RecordBody

variable {idSize : ℕ}

def tag : RecordBody idSize → UInt8
  | string _ _ => 0x01
  | loadClass _ _ _ _ => 0x02
  | heapDump segment _ => if segment then 0x1C else 0x0C
  | other tag _ _ => tag

def bytes : RecordBody idSize → List UInt8
  | string id text => id.list ++ text
  | loadClass serial id trace nameID => serial.list ++ (id.list ++ (trace.list ++ nameID.list))
  | heapDump _ subs => subs.flatMap SubRecord.bytes
  | other _ _ content => content

end RecordBody

/-- A record announces the length of its body. -/
structure HPROFRecord (idSize : ℕ) where
  body : RecordBody idSize
  time : Bytes 4
  length : Bytes 4
  length_eq : length.value = body.bytes.length

def HPROFRecord.bytes {idSize : ℕ} (r : HPROFRecord idSize) : List UInt8 :=
  [r.body.tag] ++ (r.time.list ++ (r.length.list ++ r.body.bytes))

/-! ## Files -/

structure HPROFHeader where
  version : List UInt8
  version_ne : 0 ∉ version
  version_length : version.length ≤ 64
  idSize : Bytes 4
  idSize_eq : idSize.value = 4 ∨ idSize.value = 8
  time : Bytes 8

def HPROFHeader.bytes (h : HPROFHeader) : List UInt8 :=
  (h.version ++ [0]) ++ (h.idSize.list ++ h.time.list)

/-- A header with identifiers of four bytes. -/
def quadHeader : HPROFHeader where
  version := "JAVA PROFILE 1.0.1".toList.map fun c => UInt8.ofNat c.toNat
  version_ne := by decide
  version_length := by decide
  idSize := .quad 0 0 0 4
  idSize_eq := .inl rfl
  time := ⟨[0, 0, 0, 0, 0, 0, 0, 0], rfl⟩

structure HPROFFile where
  header : HPROFHeader
  records : List (HPROFRecord header.idSize.value)

def HPROFFile.bytes (f : HPROFFile) : List UInt8 :=
  f.header.bytes ++ f.records.flatMap HPROFRecord.bytes

end MiniDrop
