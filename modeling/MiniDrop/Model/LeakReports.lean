import MiniDrop.Library.Json
import MiniDrop.Library.Words
import MiniDrop.Model.Memleak
import MiniDrop.Model.PerfScript

/-! # Reports of memory leaks

The three formats that the analyzer reads, and how it tells them apart. The parsers of XML and of
JSON are parameters, as is the text of a value that is no string. -/

namespace MiniDrop

/-! ## XML -/

/-- An element of `xml.etree`; the text is empty where there is none. -/
inductive Element where
  | mk (tag : List Char) (text : List Char) (children : List Element)

namespace Element

def tag : Element → List Char
  | mk tag _ _ => tag

def text : Element → List Char
  | mk _ text _ => text

def children : Element → List Element
  | mk _ _ children => children

mutual

/-- All elements below one, in the order of the document. -/
def descendants : Element → List Element
  | mk _ _ children => descendantsOf children

def descendantsOf : List Element → List Element
  | [] => []
  | e :: es => e :: (e.descendants ++ descendantsOf es)

end

/-- `findall(".//tag")`. -/
def findAll (e : Element) (tag : String) : List Element :=
  e.descendants.filter fun d => d.tag = tag.toList

/-- `find`. -/
def find? (e : Element) (tag : String) : Option Element :=
  e.children.find? fun d => d.tag = tag.toList

/-- `findtext`. -/
def findText (e : Element) (tag : String) (default : String) : List Char :=
  match e.find? tag with
  | some d => d.text
  | none => default.toList

end Element

/-- The place of a function, behind its name. -/
def frameLocation (file line : List Char) : List Char :=
  if line = [] then " (".toList ++ file ++ [')']
  else " (".toList ++ file ++ ':' :: (line ++ [')'])

/-- The function of a frame, if it has one. -/
def valgrindFrame? (frame : Element) : Option (List Char) :=
  let func := frame.findText "fn" ""
  let file := frame.findText "file" ""
  if func = [] then none
  else if file = [] then some func
  else some (func ++ frameLocation file (frame.findText "line" ""))

def valgrindType (kind : List Char) : LeakType :=
  if "Indirect".toList <:+: kind then .indirect
  else if "Possible".toList <:+: kind then .possible
  else if "Unreachable".toList <:+: kind then .unreachable
  else .definite

/-- Body of the loop of _parse_valgrind_xml, which skips errors that are no leaks; `none` where it
raises. -/
def valgrindError (error : Element) : Option (Option LeakRecord) :=
  let kind := error.findText "kind" ""
  if ¬"Leak".toList <:+: kind ∧ ¬"leak".toList <:+: Python.lower kind then some none
  else do
    let (size, count) ←
      match error.find? "xwhat" with
      | some xwhat => do
        let size ← Python.int? (xwhat.findText "leakedbytes" "0")
        let count ← Python.int? (xwhat.findText "leakedblocks" "0")
        some (size, count)
      | none => do
        let size ← Python.int? (error.findText "leakedbytes" "0")
        let count ← Python.int? (error.findText "leakedblocks" "1")
        some (size, count)
    some (some
      { leakType := valgrindType kind
        size := size
        count := count
        stack := (error.findAll "frame").filterMap valgrindFrame? })

section Parsers

variable {N : Type} (num : Numbers N) (repr : Json N → String)

/-- The parsers of the standard library, with the text of the error that is caught. -/
structure LeakParsers (N : Type) where
  /-- `ET.fromstring`. -/
  fromstring : List Char → Except (List Char) Element
  /-- `json.loads`. -/
  loads : List Char → Except (List Char) (Json N)

/-- _parse_valgrind_xml; `none` where it raises. -/
def parseValgrindXml (parsers : LeakParsers N) (content : List Char) : Option MemleakResult :=
  match parsers.fromstring content with
  | .error e => some { error := "XML 解析失败: ".toList ++ e }
  | .ok root => ((root.findAll "error").mapM valgrindError).map fun leaks =>
      leakResult .valgrind leaks.reduceOption

/-! ## Text -/

/-- `(Direct|Indirect|Potential)\s+leak\s+of\s+(\d+)\s+byte\(s\)\s+in\s+(\d+)\s+object\(s\)`. -/
def leakPattern : Regex := .cat
  [.group (.alt (.text "Direct".toList) (.alt (.text "Indirect".toList) (.text "Potential".toList))),
    .plus Python.isSpace, .text "leak".toList, .plus Python.isSpace, .text "of".toList,
    .plus Python.isSpace, .group (.plus Python.isDecimal), .plus Python.isSpace,
    .text "byte(s)".toList, .plus Python.isSpace, .text "in".toList, .plus Python.isSpace,
    .group (.plus Python.isDecimal), .plus Python.isSpace, .text "object(s)".toList]

/-- `(?:\s+\((.+?):(\d+)\))?$`, whose groups are not used. -/
def locationPattern : Regex := .cat
  [.opt (.cat [.plus Python.isSpace, .char '(', .plusFew Regex.dot, .char ':',
    .plus Python.isDecimal, .char ')']), .atEnd]

/-- `#\d+\s+0x[0-9a-f]+\s+in\s+(.+?)(?:\s+\((.+?):(\d+)\))?$`. -/
def leakFramePattern : Regex := .cat
  [.char '#', .plus Python.isDecimal, .plus Python.isSpace, .char '0', .char 'x', .plus isLowerHex,
    .plus Python.isSpace, .text "in".toList, .plus Python.isSpace,
    .cat [.group (.plusFew Regex.dot), locationPattern]]

/-- The function of a line, if it is that of a frame. -/
def asanFrame? (line : List Char) : Option (List Char) :=
  (leakFramePattern.searchGroups? (Python.strip line)).bind fun groups =>
    groups.head?.map Python.strip

def asanType (kind : List Char) : LeakType :=
  if Python.lower kind = "indirect".toList then .indirect
  else if Python.lower kind = "potential".toList then .possible
  else .definite

/-- Body of the loop of _parse_asan_text; `none` where it raises. -/
def asanBlock (block : List Char) : Option (Option LeakRecord) :=
  match leakPattern.searchGroups? block with
  | some [kind, bytes, blocks] => do
    let size ← Python.int? bytes
    let count ← Python.int? blocks
    some (some
      { leakType := asanType kind
        size := size
        count := count
        stack := (block.splitOn '\n').filterMap asanFrame? })
  | _ => some none

/-- _parse_asan_text; `none` where it raises. -/
def parseAsanText (content : List Char) : Option MemleakResult :=
  ((Text.cut ['\n', '\n'] content).mapM asanBlock).map fun leaks =>
    leakResult .asan leaks.reduceOption

/-! ## JSON -/

/-- `rec.get(key, rec.get(other, default))`. -/
def memrayGet (entries : List (String × Json N)) (key other : String) (default : Json N) : Json N :=
  ((Dict.lookup key entries).or (Dict.lookup other entries)).getD default

/-- What a loop over a value runs through; `none` where it raises. -/
def memrayItems : Json N → Option (List (Json N))
  | .list items => some items
  | .dict entries => some (entries.map fun entry => .str entry.1)
  | .str s => some (s.toList.map fun c => .str (String.singleton c))
  | _ => none

def wholeNumber? : Json N → Option ℤ
  | .int n => some n
  | _ => none

/-- Body of the loop over the frames, which skips those that are no text and no dictionary; `none`
where it raises. -/
def memrayFrame : Json N → Option (Option (List Char))
  | .dict entries => do
    let func ← match memrayGet entries "function" "name" (.str "") with
      | .str s => some s.toList
      | _ => none
    let file := memrayGet entries "file" "filename" (.str "")
    let line := memrayGet entries "line" "lineno" (.str "")
    if file.truthy num then
      some (some (func ++ frameLocation (file.text repr).toList
        (if line.truthy num then (line.text repr).toList else [])))
    else some (some func)
  | .str s => some (some s.toList)
  | _ => some none

/-- Body of the loop of _parse_memray_json; `none` where it raises, or where a number is not whole
or a function is no text. -/
def memrayRecord (item : Json N) : Option LeakRecord := do
  let entries ← item.dict?
  let size ← wholeNumber? (memrayGet entries "size" "bytes" (.int 0))
  let count ← wholeNumber? (memrayGet entries "n_allocations" "count" (.int 1))
  let frames ← memrayItems (memrayGet entries "stack" "traceback" (.list []))
  let stack ← frames.mapM (memrayFrame num repr)
  some { leakType := .definite, size := size, count := count, stack := stack.reduceOption }

/-- _parse_memray_json; `none` where it raises. -/
def parseMemrayJson (parsers : LeakParsers N) (content : List Char) : Option MemleakResult :=
  match parsers.loads content with
  | .error e => some { error := "JSON 解析失败: ".toList ++ e }
  | .ok data => do
    let records ← match data with
      | .list items => some (.list items)
      | .dict entries => some (memrayGet entries "records" "leaks" (.list []))
      | _ => none
    let items ← memrayItems records
    let leaks ← items.mapM (memrayRecord num repr)
    some (leakResult .memray leaks)

/-! ## The format -/

/-- The file that is analyzed. -/
inductive LeakFile where
  | missing
  | unreadable (e : List Char)
  | text (chars : List Char)

/-- How analyze_memleak goes on with the text of the file. -/
def analyzeLeakText (parsers : LeakParsers N) (content : List Char) : Option MemleakResult :=
  let front := content.dropWhile Python.isSpace
  if "<?xml".toList <+: front ∨ "<valgrindoutput".toList <:+: content.take 500 then
    parseValgrindXml parsers content
  else if "ERROR: LeakSanitizer".toList <:+: content ∨ "Direct leak".toList <:+: content then
    parseAsanText content
  else if ['{'] <+: front ∨ ['['] <+: front then parseMemrayJson num repr parsers content
  else
    match parseValgrindXml parsers content with
    | some result => some result
    | none =>
      if "leak".toList <:+: Python.lower content ∨ "allocated".toList <:+: Python.lower content then
        parseAsanText content
      else
        match parseMemrayJson num repr parsers content with
        | some result => some result
        | none => some
            { error := "无法识别的内存泄漏数据格式".toList
              detail := "支持 Valgrind XML、ASan/LSan 文本、memray JSON 格式".toList }

/-- analyze_memleak; `none` where it raises. -/
def analyzeMemleak (parsers : LeakParsers N) (dataPath : List Char) :
    LeakFile → Option MemleakResult
  | .missing => some { error := "文件不存在: ".toList ++ dataPath }
  | .unreadable e => some { error := "读取文件失败: ".toList ++ e }
  | .text chars => analyzeLeakText num repr parsers (Python.universalNewlines chars)

end Parsers

end MiniDrop
