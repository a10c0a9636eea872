import MiniDrop.Library.Decoder
import MiniDrop.Model.FoldedStacks

/-! # The analyzer of Java heap dumps

It reads an HPROF file record by record and counts what the file holds. -/

namespace MiniDrop

open Decoder

/-! ## Tags -/

def tagString : UInt8 := 0x01
def tagLoadClass : UInt8 := 0x02
def tagHeapDump : UInt8 := 0x0C
def tagHeapDumpSeg : UInt8 := 0x1C

def subRootUnknown : UInt8 := 0xFF
def subRootJNIglobal : UInt8 := 0x01
def subRootJNIlocal : UInt8 := 0x02
def subRootJavaFrame : UInt8 := 0x03
def subRootNativeStack : UInt8 := 0x04
def subRootStickyClass : UInt8 := 0x05
def subRootThreadBlock : UInt8 := 0x06
def subRootMonitorUsed : UInt8 := 0x07
def subThreadObject : UInt8 := 0x08
def subClassDump : UInt8 := 0x20
def subInstanceDump : UInt8 := 0x21
def subObjArrayDump : UInt8 := 0x22
def subPrimArrayDump : UInt8 := 0x23

/-- A type that is not in the map has size 0. -/
def primTypeSizes (type : UInt8) : ℕ :=
  match type.toNat with
  | 4 => 1
  | 5 => 2
  | 6 => 4
  | 7 => 8
  | 8 => 1
  | 9 => 2
  | 10 => 4
  | 11 => 8
  | _ => 0

/-! ## The parser -/

/-- The names of fields are not read. -/
structure FieldInfo where
  name : List UInt8 := []
  type : UInt8

structure ClassInfo where
  id : ℕ
  name : List UInt8 := []
  fields : List FieldInfo := []
  instanceSize : ℕ := 0
  instanceCount : ℕ := 0
  totalSize : ℤ := 0

structure InstanceInfo where
  classID : ℕ
  size : ℕ

structure ArrayInfo where
  elementType : UInt8 := 0
  length : ℕ
  size : ℕ

/-- The size of an id, which does not change after the header, is an argument of the readers. -/
structure HPROFParser where
  strings : Dict ℕ (List UInt8) := {}
  classes : Dict ℕ ClassInfo := {}
  instances : List InstanceInfo := []
  arrays : List ArrayInfo := []
  gcRoots : ℕ := 0

inductive HPROFError where
  | eof
  | unexpectedEOF
  | errorf (text : String) (cause : Option HPROFError)
  /-- A loop did not end within its rounds. -/
  | diverges

namespace HPROFError

def ofShort : Short → HPROFError
  | .nothing => eof
  | .cut => unexpectedEOF

def isEOF : HPROFError → Bool
  | eof => true
  | _ => false

def wrap (text : String) (cause : HPROFError) : HPROFError := errorf text (some cause)

end HPROFError

abbrev Parsing (α : Type) := Decoder HPROFError HPROFParser α

/-! ## Reading -/

def readBytes (n : ℕ) : Parsing (List UInt8) := readFull HPROFError.ofShort n

def readByte : Parsing UInt8 := do
  let buf ← readBytes 1
  pure (buf.headD 0)

def readUint16 : Parsing ℕ := do
  let buf ← readBytes 2
  pure (bigEndian buf)

def readUint32 : Parsing ℕ := do
  let buf ← readBytes 4
  pure (bigEndian buf)

def readID (size : ℕ) : Parsing ℕ := do
  let buf ← readBytes size
  if size = 4 ∨ size = 8 then pure (bigEndian buf)
  else fail (.errorf ("invalid id size: " ++ toString size) none)

/-! ## Sub-records of a heap dump -/

def valueSize (idSize : ℕ) (valueType : UInt8) : ℕ :=
  if valueType = 2 then idSize else primTypeSizes valueType

/-- A value with its type in front. -/
def readTypedValue (idSize : ℕ) : Parsing Unit := do
  let valueType ← readByte
  let _ ← readBytes (valueSize idSize valueType)
  pure ()

def readPoolEntry (idSize : ℕ) : Parsing Unit := do
  let _ ← readBytes 2
  readTypedValue idSize

def readStaticField (idSize : ℕ) : Parsing Unit := do
  let _ ← readID idSize
  readTypedValue idSize

def readInstanceField (idSize : ℕ) : Parsing UInt8 := do
  let _ ← readID idSize
  readByte

/-- The class of this id is in the map from here on. -/
def HPROFParser.registerClass (p : HPROFParser) (classID : ℕ) : HPROFParser :=
  match p.classes.get? classID with
  | some _ => p
  | none => { p with classes := p.classes.set classID { id := classID } }

def HPROFParser.setFields (p : HPROFParser) (idSize classID : ℕ) (types : List UInt8) :
    HPROFParser :=
  match p.classes.get? classID with
  | none => p
  | some info =>
    { p with
      classes := p.classes.set classID
        { info with
          fields := types.map fun type => { type := type }
          instanceSize := (types.map (valueSize idSize)).sum } }

def parseClassDump (idSize : ℕ) : Parsing Unit := do
  let classID ← readID idSize
  let _ ← readBytes 4
  let _superClassID ← readID idSize
  let _ ← readBytes (idSize * 5 + 4)
  let constantPoolCount ← readUint16
  let _ ← times (readPoolEntry idSize) constantPoolCount
  update fun p => p.registerClass classID
  let staticFieldCount ← readUint16
  let _ ← times (readStaticField idSize) staticFieldCount
  let instanceFieldCount ← readUint16
  -- A `FieldInfo` is a string of two words and a byte in a third.
  request (24 * instanceFieldCount)
  let types ← times (readInstanceField idSize) instanceFieldCount
  update fun p => p.setFields idSize classID types

/-- The class counts the instance if it is in the map. -/
def HPROFParser.addInstance (p : HPROFParser) (classID size : ℕ) : HPROFParser :=
  { p with
    instances := p.instances ++ [{ classID := classID, size := size }]
    classes :=
      match p.classes.get? classID with
      | none => p.classes
      | some info => p.classes.set classID
        { info with
          instanceCount := info.instanceCount + 1
          totalSize := int64 (info.totalSize + size) } }

def parseInstanceDump (idSize : ℕ) : Parsing Unit := do
  let _ ← readID idSize
  let _ ← readBytes 4
  let classID ← readID idSize
  let dataLen ← readUint32
  update fun p => p.addInstance classID (dataLen + idSize + 4)
  let _ ← readBytes dataLen
  pure ()

def HPROFParser.addArray (p : HPROFParser) (array : ArrayInfo) : HPROFParser :=
  { p with arrays := p.arrays ++ [array] }

def parseObjArrayDump (idSize : ℕ) : Parsing Unit := do
  let _ ← readID idSize
  let _ ← readBytes 4
  let length ← readUint32
  let _ ← readID idSize
  update fun p => p.addArray { length := length, size := length * idSize + 16 }
  let _ ← readBytes (length * idSize)
  pure ()

def parsePrimArrayDump (idSize : ℕ) : Parsing Unit := do
  let _ ← readID idSize
  let _ ← readBytes 4
  let length ← readUint32
  let elemType ← readByte
  let arraySize := length * primTypeSizes elemType
  update fun p => p.addArray { elementType := elemType, length := length, size := arraySize + 16 }
  let _ ← readBytes arraySize
  pure ()

def countRoot : Parsing Unit := update fun p => { p with gcRoots := p.gcRoots + 1 }

/-- What follows the object of a root, besides that of an unknown one. -/
def readRootFields (idSize : ℕ) (subTag : UInt8) : Parsing Unit :=
  if subTag = subRootJNIglobal then do
    let _ ← readID idSize
    pure ()
  else if subTag = subRootJNIlocal ∨ subTag = subRootJavaFrame then do
    let _ ← readBytes 8
    pure ()
  else if subTag = subRootNativeStack ∨ subTag = subRootThreadBlock then do
    let _ ← readBytes 4
    pure ()
  else pure ()

/-- Two digits of `%02x`. -/
def hexByte (b : UInt8) : String :=
  String.ofList [Nat.digitChar (b.toNat / 16), Nat.digitChar (b.toNat % 16)]

def parseSubRecord (idSize : ℕ) (subTag : UInt8) : Parsing Unit :=
  if subTag = subRootUnknown then do
    countRoot
    let _ ← readID idSize
    pure ()
  else if subTag ∈ [subRootJNIglobal, subRootJNIlocal, subRootJavaFrame, subRootNativeStack,
      subRootStickyClass, subRootThreadBlock, subRootMonitorUsed] then do
    countRoot
    let _ ← readID idSize
    readRootFields idSize subTag
  else if subTag = subThreadObject then do
    countRoot
    let _ ← readID idSize
    let _ ← readBytes 8
    pure ()
  else if subTag = subClassDump then parseClassDump idSize
  else if subTag = subInstanceDump then parseInstanceDump idSize
  else if subTag = subObjArrayDump then parseObjArrayDump idSize
  else if subTag = subPrimArrayDump then parsePrimArrayDump idSize
  else fail (.errorf ("未知的堆转储子记录类型: 0x" ++ hexByte subTag) none)

/-- One round of the loop over the sub-records, which ends with the segment or the file. -/
def heapDumpRound (idSize endPos : ℕ) : Parsing Bool := do
  let pos ← position
  if endPos ≤ pos then pure false
  else do
    let subTag ← orEnd HPROFError.isEOF readByte
    match subTag with
    | none => pure false
    | some subTag => do
      parseSubRecord idSize subTag
      pure true

def parseHeapDump (idSize length : ℕ) : Parsing Unit := do
  let start ← position
  let left ← remaining
  loop .diverges (heapDumpRound idSize (start + length)) (left + 1)

/-! ## Records -/

/-- The difference of two `uint32`. -/
def subUint32 (n m : ℕ) : ℕ := (n + 4294967296 - m) % 4294967296

def parseString (idSize length : ℕ) : Parsing Unit := do
  let id ← readID idSize
  let strBytes ← readBytes (subUint32 length idSize)
  update fun p => { p with strings := p.strings.set id strBytes }

/-- A class is named after its string, in which each `/` becomes a `.`. -/
def HPROFParser.loadClass (p : HPROFParser) (classID classNameID : ℕ) : HPROFParser :=
  let name := ((p.strings.get? classNameID).getD []).map fun b => if b = 0x2F then 0x2E else b
  let info := (p.classes.get? classID).getD { id := classID }
  { p with classes := p.classes.set classID { info with name := name } }

def parseLoadClass (idSize : ℕ) : Parsing Unit := do
  let _ ← readBytes 4
  let classID ← readID idSize
  let _ ← readBytes 4
  let classNameID ← readID idSize
  update fun p => p.loadClass classID classNameID

def parseRecord (idSize : ℕ) (tag : UInt8) (length : ℕ) : Parsing Unit :=
  if tag = tagString then parseString idSize length
  else if tag = tagLoadClass then parseLoadClass idSize
  else if tag = tagHeapDump ∨ tag = tagHeapDumpSeg then parseHeapDump idSize length
  else do
    let _ ← readBytes length
    pure ()

/-- One round of the loop over the records, which ends with the file. -/
def recordRound (idSize : ℕ) : Parsing Bool := do
  let tag ← mapError (.wrap "读取记录标签失败: ") (orEnd HPROFError.isEOF readByte)
  match tag with
  | none => pure false
  | some tag => do
    let _ ← readBytes 4
    let length ← readUint32
    parseRecord idSize tag length
    pure true

/-! ## Statistics -/

structure ClassStats where
  name : List UInt8
  instanceCount : ℕ
  totalSize : ℤ
  avgSize : ℤ

structure HeapStats where
  totalObjects : ℕ
  totalSize : ℤ
  gcRoots : ℕ
  classCount : ℕ
  instanceCount : ℕ
  arrayCount : ℕ
  topClasses : List ClassStats
  topSizes : List ClassStats
  summary : String

/-- What the program leaves open: the order in which Go iterates over a map, and how a size is
printed in megabytes. -/
structure GoRuntime where
  order : Dict ℕ ClassInfo → List (ℕ × ClassInfo)
  perm : ∀ classes, (order classes).Perm classes.entries
  megabytes : ℤ → String

/-- Moves one entry to the front of those that it precedes; the list is reversed. -/
def sinkClassStats (less : ClassStats → ClassStats → Bool) (x : ClassStats) :
    List ClassStats → List ClassStats
  | [] => [x]
  | y :: ys => if less x y then y :: sinkClassStats less x ys else x :: y :: ys

def sortClassStats (list : List ClassStats) (less : ClassStats → ClassStats → Bool) :
    List ClassStats :=
  (list.foldl (fun sorted x => sinkClassStats less x sorted) []).reverse

/-- The counters stay below the length of the file; the sizes are added in `int64`. -/
def HPROFParser.buildStats (p : HPROFParser) (go : GoRuntime) : HeapStats :=
  let counted := ((go.order p.classes).map Prod.snd).filter fun info => 0 < info.instanceCount
  let instanceCount := (counted.map ClassInfo.instanceCount).sum
  let totalObjects := instanceCount + p.arrays.length
  let totalSize := (counted.map ClassInfo.totalSize ++ p.arrays.map fun arr => (arr.size : ℤ)).foldl
    (fun total size => int64 (total + size)) 0
  let classList := counted.map fun info =>
    { name := info.name, instanceCount := info.instanceCount, totalSize := info.totalSize
      avgSize := info.totalSize.tdiv info.instanceCount : ClassStats }
  let topClasses := (sortClassStats classList fun a b => b.instanceCount < a.instanceCount).take 20
  { totalObjects := totalObjects
    totalSize := totalSize
    gcRoots := p.gcRoots
    classCount := p.classes.entries.length
    instanceCount := instanceCount
    arrayCount := p.arrays.length
    topClasses := topClasses
    topSizes := (sortClassStats topClasses fun a b => b.totalSize < a.totalSize).take 20
    summary := "共 " ++ toString totalObjects ++ " 个对象 (" ++ toString instanceCount ++ " 个实例, " ++
      toString p.arrays.length ++ " 个数组), " ++ toString p.classes.entries.length ++
      " 个类, GC Roots: " ++ toString p.gcRoots ++ ", 总大小: " ++ go.megabytes totalSize ++ " MB" }

/-! ## Parse -/

def readHeaderByte : Parsing UInt8 := mapError (.wrap "读取头部失败: ") readByte

/-- Reads up to the NUL that ends the version; `room` more bytes may follow this one. -/
def readVersion : ℕ → Parsing Unit
  | 0 => do
    let b ← readHeaderByte
    if b = 0 then pure () else fail (.errorf "头部过长" none)
  | room + 1 => do
    let b ← readHeaderByte
    if b = 0 then pure () else readVersion room

def readHeader : Parsing ℕ := do
  request 64
  readVersion 64
  let idSize ← mapError (.wrap "读取 ID 大小失败: ") readUint32
  if idSize ≠ 4 ∧ idSize ≠ 8 then fail (.errorf ("不支持的 ID 大小: " ++ toString idSize) none)
  else do
    let _ ← mapError (.wrap "跳过时间戳失败: ") (readBytes 8)
    pure idSize

def HPROFParser.parse (go : GoRuntime) : Parsing HeapStats := do
  let idSize ← readHeader
  let left ← remaining
  loop .diverges (recordRound idSize) (left + 1)
  let p ← state
  pure (p.buildStats go)

/-- What `AnalyzeHPROF` makes of the bytes of a file, with what is left of its input. -/
def analyzeHPROF (go : GoRuntime) (bytes : List UInt8) :
    Except HPROFError HeapStats × Input × HPROFParser :=
  HPROFParser.parse go { rest := bytes } {}

end MiniDrop
