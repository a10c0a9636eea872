import MiniDrop.Model.Artifacts
import MiniDrop.Model.Descriptions

/-! # Where the flame graph of a task is

GetFlameData presigns the first object of a task that a flame graph can be drawn from, and FlameDiff
reads folded stacks from the same places. -/

namespace MiniDrop

/-! ## The object store -/

/-- What the handlers ask of the object store; `IsExist` and `PreSign` fail with a text. -/
structure FlameStorage where
  isExist : String → Except String Bool
  /-- `Get` and `io.ReadAll`. -/
  read : String → Option ByteArray
  preSign : String → Except String String

namespace FlameStorage

/-- firstExistingStorageKey. -/
def firstExisting (storage : FlameStorage) : List String → Except String String
  | [] => .ok ""
  | key :: keys =>
    if key = "" then firstExisting storage keys
    else
      match storage.isExist key with
      | .error e => .error e
      | .ok true => .ok key
      | .ok false => firstExisting storage keys

end FlameStorage

/-! ## Keys -/

def isCollapsedObjectKey (key : String) : Bool :=
  let name := key.toList.map Go.lowerRune
  "/collapsed.txt".toList.isSuffixOf name || ".collapsed".toList.isSuffixOf name

def dedupeStrings (values : List String) : List String :=
  values.foldl (fun out value => if value = "" ∨ value ∈ out then out else out ++ [value]) []

def flameCollapsedCandidateKeys (tid cosKey : String) : List String :=
  let keys := [tid ++ "/collapsed.txt", "profiler/" ++ tid ++ "/" ++ tid ++ ".collapsed",
    "profiler/" ++ tid ++ "/collapsed.txt"]
  dedupeStrings (if isCollapsedObjectKey cosKey then cosKey :: keys else keys)

/-- The group of `^(.+)_w\d+$`. -/
def windowParent (tid : String) : Option String :=
  let name := tid.toList.rdropWhile Char.isDigit
  let parent := name.take (name.length - 2)
  if name ≠ tid.toList ∧ "_w".toList <:+ name ∧ parent ≠ [] ∧ '\n' ∉ parent then
    some (String.ofList parent)
  else none

/-! ## Handlers -/

inductive FlameAnswer where
  | refused (answer : Answer)
  | data (type key url : String)
deriving DecidableEq

namespace FlameStorage

def failed (error : String) : FlameAnswer := .refused ⟨500, 5000001, "storage error: " ++ error⟩

/-- The answer for an object that is there. -/
def serve (storage : FlameStorage) (type key : String) : FlameAnswer :=
  match storage.preSign key with
  | .error e => .refused ⟨500, 5000001, "presign error: " ++ e⟩
  | .ok url => .data type key url

/-- An object that is served if it is there. -/
def serveIf (storage : FlameStorage) (type key : String) (otherwise : FlameAnswer) : FlameAnswer :=
  match storage.isExist key with
  | .error e => failed e
  | .ok true => storage.serve type key
  | .ok false => otherwise

/-- GetFlameData, behind the check of access. -/
def flameData (storage : FlameStorage) (tid cosKey : String) : FlameAnswer :=
  match storage.firstExisting (flameCollapsedCandidateKeys tid cosKey) with
  | .error e => failed e
  | .ok key =>
    if key ≠ "" then storage.serve "collapsed" key
    else
      storage.serveIf "json" (tid ++ "/top.json") <|
        storage.serveIf "svg" (tid ++ "/flamegraph.svg") <|
          .refused ⟨404, 4040001, "no flame data found for this task"⟩

/-- What loadCollapsed answers; an error is an empty text. -/
def loadCollapsed (storage : FlameStorage) (tid : String) : ByteArray :=
  match storage.firstExisting (flameCollapsedCandidateKeys tid "") with
  | .error _ => .empty
  | .ok key => if key = "" then .empty else (storage.read key).getD .empty

end FlameStorage

def getFlameData (storage : FlameStorage) (uid tid : String) : Statements FlameAnswer := do
  match windowParent tid with
  | some parentTid =>
    match ← Program.query { tid } fun db => db.windows[tid]? with
    | some (some window) =>
      match ← checkTaskAccess uid parentTid false with
      | none => pure (.refused taskNotFound)
      | some _ => pure (storage.flameData tid window.cosKey)
    | _ => pure (.refused ⟨404, 4040001, "window not found"⟩)
  | none =>
    match ← checkTaskAccess uid tid false with
    | none => pure (.refused taskNotFound)
    | some task => pure (storage.flameData tid (extractCollectorResultKey task.statusInfo))

end MiniDrop
