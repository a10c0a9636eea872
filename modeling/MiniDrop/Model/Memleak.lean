import MiniDrop.Library.Numerals

/-! # Memory leaks

The records of a leak report, and the suggestions that are made for them. -/

namespace MiniDrop

/-- The values of `leak_type`. -/
inductive LeakType where
  | definite
  | possible
  | indirect
  | unreachable
deriving DecidableEq

def LeakType.chars : LeakType → List Char
  | definite => "definite".toList
  | possible => "possible".toList
  | indirect => "indirect".toList
  | unreachable => "unreachable".toList

structure LeakRecord where
  leakType : LeakType
  size : ℤ := 0
  count : ℤ := 0
  stack : List (List Char) := []
deriving DecidableEq

structure LeakSuggestion where
  func : List Char
  leakType : LeakType
  size : ℤ
  count : ℤ
  suggestion : List Char
  stackDepth : ℕ

structure MemleakResult where
  success : Bool := false
  error : List Char := []
  detail : List Char := []
  totalLeakedBytes : ℤ := 0
  totalLeakedBlocks : ℤ := 0
  leaks : List LeakRecord := []
  suggestions : List LeakSuggestion := []
  summary : List Char := []

/-- _suggest_for_leak. -/
def suggestForLeak (leak : LeakRecord) : List Char :=
  let func := leak.stack.head?.getD []
  let lower := Python.lower func
  let size := Python.str leak.size
  if "malloc".toList <:+: func ∨ "calloc".toList <:+: func ∨ "realloc".toList <:+: func then
    "C 内存分配未释放：检查是否有对应的 free() 调用，建议使用 goto cleanup 模式统一释放".toList
  else if "new".toList <:+: lower then
    "C++ 对象未释放：检查是否有对应的 delete 调用，建议使用智能指针 (unique_ptr/shared_ptr)".toList
  else if "strdup".toList <:+: func ∨ "strndup".toList <:+: func then
    "字符串复制未释放：strdup 分配的内存需要手动 free".toList
  else if "mmap".toList <:+: func then
    "内存映射未释放：检查是否有对应的 munmap 调用".toList
  else if "Py".toList <:+: func ∨ "python".toList <:+: lower then
    "Python 扩展内存泄漏：检查 PyObject 引用计数是否正确，确保 Py_DECREF 调用".toList
  else if "java".toList <:+: lower ∨ "JNI".toList <:+: func then
    "JNI 内存泄漏：检查是否正确释放 JNI 局部/全局引用 (DeleteLocalRef/DeleteGlobalRef)".toList
  else if "pthread".toList <:+: func then
    "线程资源未释放：检查 pthread_join 或 pthread_detach 是否被调用".toList
  else if "socket".toList <:+: lower ∨ "connect".toList <:+: lower then
    "网络资源泄漏：检查 socket/fd 是否正确关闭".toList
  else if "open".toList <:+: lower ∨ "fopen".toList <:+: func then
    "文件描述符泄漏：检查 close/fclose 是否在所有路径上被调用".toList
  else
    match leak.leakType with
    | .definite => "确定泄漏 (".toList ++ size ++ " 字节)：在 ".toList ++ func ++
        " 中分配的内存未释放，检查所有代码路径是否正确释放".toList
    | .indirect => "间接泄漏 (".toList ++ size ++
        " 字节)：通过持有泄漏内存的指针间接泄漏，需先修复直接泄漏".toList
    | .possible => "可能泄漏 (".toList ++ size ++ " 字节)：可能是误报，但建议检查相关代码路径".toList
    | .unreachable => "泄漏 (".toList ++ size ++ " 字节)：检查 ".toList ++ func ++
        " 中的内存管理".toList

/-- The function that is named for a leak. -/
def LeakRecord.leakFunc (leak : LeakRecord) : List Char :=
  leak.stack.head?.getD "unknown".toList

/-- The suggestion for a leak. -/
def LeakRecord.leakSuggestion (leak : LeakRecord) : LeakSuggestion where
  func := leak.leakFunc
  leakType := leak.leakType
  size := leak.size
  count := leak.count
  suggestion := suggestForLeak leak
  stackDepth := leak.stack.length

def generateSuggestions (leaks : List LeakRecord) : List LeakSuggestion :=
  (leaks.take 50).map LeakRecord.leakSuggestion

/-- The formats of a leak report. -/
inductive LeakFormat where
  | valgrind
  | asan
  | memray

/-- What the parsers return for the records that they have read. -/
def leakResult (format : LeakFormat) (leaks : List LeakRecord) : MemleakResult :=
  let totalBytes := (leaks.map LeakRecord.size).sum
  let totalBlocks := (leaks.map LeakRecord.count).sum
  { success := true
    totalLeakedBytes := totalBytes
    totalLeakedBlocks := totalBlocks
    leaks := leaks
    suggestions := generateSuggestions leaks
    summary := "发现 ".toList ++ Python.str leaks.length ++
      match format with
      | .valgrind | .asan => " 处泄漏，共 ".toList ++ Python.str totalBlocks ++ " 块 ".toList ++
          Python.str totalBytes ++ " 字节".toList
      | .memray => " 处未释放分配，共 ".toList ++ Python.str totalBytes ++ " 字节".toList }

end MiniDrop
