import MiniDrop.Library.Regex
import MiniDrop.Library.Words
import MiniDrop.Model.Memleak

/-! # Suggestions in Markdown

Suggestions are written to a file, by the rules for hot functions and by the analyzer of memory
leaks, and one reader takes them out of both. -/

namespace MiniDrop

/-! ## The writers -/

/-- A suggestion of match_rules. -/
structure RuleAdvice where
  func : List Char
  self : ℤ
  total : ℤ
  advice : List Char

/-- The lines for a suggestion and its number. -/
def adviceLines (s : RuleAdvice) (i : ℕ) : List (List Char) :=
  ["## ".toList ++ Python.str i ++ ". `".toList ++ s.func ++ ['`'],
    "- Self 采样: ".toList ++ Python.str s.self,
    "- Inclusive 采样: ".toList ++ Python.str s.total,
    "- 建议: ".toList ++ s.advice,
    []]

/-- suggestions_to_markdown. -/
def suggestionsToMarkdown (suggestions : List RuleAdvice) (tid : List Char) : List Char :=
  let title := if tid = [] then "# 分析建议".toList else "# 分析建议 [".toList ++ tid ++ [']']
  ['\n'].intercalate
    (if suggestions = [] then [title, [], "未发现需要优化的热点函数。".toList]
    else title :: [] :: (suggestions.zipIdx 1).flatMap fun (s, i) => adviceLines s i)

/-- What run_memleak writes for a suggestion and its index. -/
def leakSection (s : LeakSuggestion) (i : ℕ) : List Char :=
  "### ".toList ++ Python.str (i + 1) ++ ". ".toList ++ s.func ++ " (".toList ++
    s.leakType.chars ++ ", ".toList ++ Python.str s.size ++ " bytes)\n".toList ++
  "**建议**: ".toList ++ s.suggestion ++ "\n\n".toList

/-- The suggestions.md of run_memleak. -/
def memleakMarkdown (result : MemleakResult) (tid : List Char) : List Char :=
  "# 内存泄漏分析 - ".toList ++ tid ++ "\n\n".toList ++
    "## ".toList ++ result.summary ++ "\n\n".toList ++
    ((result.suggestions.take 20).zipIdx.map fun (s, i) => leakSection s i).flatten

/-! ## The reader -/

/-- `` `?(?:\s+\(|$) ``. -/
def titleEndPattern : Regex := .cat
  [.opt (.char '`'), .alt (.cat [.plus Python.isSpace, .char '(']) .atEnd]

/-- `` ^#{2,3}\s+\d+\.\s+`?(.+?)`?(?:\s+\(|$) ``. -/
def headingPattern : Regex := .cat
  [.char '#', .char '#', .opt (.char '#'), .plus Python.isSpace, .plus Python.isDecimal, .char '.',
    .plus Python.isSpace, .opt (.char '`'), .cat [.group (.plusFew Regex.dot), titleEndPattern]]

/-- `^(?:-\s+)?(?:\*\*)?建议(?:\*\*)?\s*[:：]\s*(.+)$`. -/
def advicePattern : Regex := .cat
  [.opt (.cat [.char '-', .plus Python.isSpace]), .opt (.text ['*', '*']), .text ['建', '议'],
    .opt (.text ['*', '*']), .many Python.isSpace, .one fun c => c = ':' || c = '：',
    .many Python.isSpace, .group (.plus Regex.dot), .atEnd]

/-- A function with its suggestion. -/
@[ext] structure FuncAdvice where
  func : List Char
  suggestion : List Char
deriving DecidableEq

/-- The variables of the loop. -/
structure AdviceFold where
  suggestions : List FuncAdvice := []
  currentFunc : List Char := []

/-- The function of a heading. -/
def headingFunc? (line : List Char) : Option (List Char) :=
  (headingPattern.groups? (Python.strip line)).bind fun groups => groups.head?.map Python.strip

/-- The text of a suggestion. -/
def adviceText? (line : List Char) : Option (List Char) :=
  (advicePattern.groups? (Python.strip line)).bind fun groups => groups.head?.map Python.strip

/-- Body of the loop of parse_suggestions_markdown. -/
def adviceLine (s : AdviceFold) (line : List Char) : AdviceFold :=
  match headingFunc? line with
  | some func => { s with currentFunc := func }
  | none =>
    match adviceText? line with
    | none => s
    | some text =>
      if s.currentFunc = [] then s
      else { s with suggestions := s.suggestions ++ [{ func := s.currentFunc, suggestion := text }] }

def parseSuggestionsMarkdown (content : List Char) : List FuncAdvice :=
  ((Python.splitlines content).foldl adviceLine {}).suggestions

end MiniDrop
