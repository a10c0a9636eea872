import MiniDrop.Library.Pool
import MiniDrop.Model.Database

/-! # Suggestions of the analysis

CreateSuggestion looks for the row of a function and then updates it or inserts one. Nothing but
the primary key is unique in the table. -/

namespace MiniDrop

/-- A row of `analysis_suggestion`, without its times. -/
structure AnalysisSuggestion where
  id : ℕ
  tid : String
  func : String
  suggestion : String
  aiSuggestion : String
  status : ℤ
deriving DecidableEq

/-- The task and the function that the row is about. -/
def AnalysisSuggestion.pair (row : AnalysisSuggestion) : String × String := (row.tid, row.func)

/-- The tables that CreateSuggestion uses; suggestions are in the order of their ids. -/
structure SuggestionStore where
  db : Database := {}
  suggestions : List AnalysisSuggestion := []
  /-- The id that the table assigned last. -/
  lastId : ℕ := 0

namespace SuggestionStore

/-- `First` for a task and a function. -/
def first (s : SuggestionStore) (tid func : String) : Option AnalysisSuggestion :=
  s.suggestions.find? fun row => row.pair = (tid, func)

/-- `Save` of a row that has an id: all columns are updated. -/
def save (s : SuggestionStore) (suggestion : AnalysisSuggestion) : SuggestionStore :=
  { s with suggestions := s.suggestions.map fun row =>
      if row.id = suggestion.id then suggestion else row }

/-- `Create`: INSERT under the next id. The column for the function has 512 characters. -/
def create (s : SuggestionStore) (suggestion : AnalysisSuggestion) : Option SuggestionStore :=
  if suggestion.func.length > 512 then none
  else some { s with
    suggestions := s.suggestions ++ [{ suggestion with id := s.lastId + 1 }]
    lastId := s.lastId + 1 }

end SuggestionStore

/-- Marks the INSERT for a task and a function. -/
structure SuggestionMark where
  inserts : Option (String × String) := none
deriving DecidableEq

abbrev SuggestionProgram := Program SuggestionMark SuggestionStore

/-- A request for CreateSuggestion. -/
structure CreateSuggestionReq where
  uid : String
  tid : String
  func : String
  suggestion : String := ""
  aiSuggestion : String := ""
deriving DecidableEq

def CreateSuggestionReq.pair (req : CreateSuggestionReq) : String × String := (req.tid, req.func)

/-- CreateSuggestion; answers with HTTP status and code. -/
def createSuggestion (req : CreateSuggestionReq) : SuggestionProgram (ℤ × ℤ) := do
  match ← (checkTaskAccess req.uid req.tid false).lift SuggestionStore.db
      (fun db s => { s with db }) fun _ _ => {} with
  | none => pure (404, 4040001)
  | some _ =>
    if req.func = "" then pure (400, 4000001)
    else
      match ← Program.query {} fun s => s.first req.tid req.func with
      | none => pure (500, 5000001)
      | some (some suggestion) =>
        let saved := { suggestion with
          suggestion := req.suggestion
          aiSuggestion := req.aiSuggestion
          status := analysisStatusSuccess }
        if ← Program.update {} fun s => some (s.save saved) then pure (200, 0)
        else pure (500, 5000001)
      | some none =>
        let suggestion : AnalysisSuggestion :=
          { id := 0
            tid := req.tid
            func := req.func
            suggestion := req.suggestion
            aiSuggestion := req.aiSuggestion
            status := analysisStatusSuccess }
        if ← Program.update { inserts := some req.pair } fun s => s.create suggestion then
          pure (200, 0)
        else pure (500, 5000001)

/-- Any number of requests against one store. -/
abbrev SuggestionPool := Pool CreateSuggestionReq SuggestionMark SuggestionStore

def SuggestionPool.step : SuggestionPool → Pool.Event CreateSuggestionReq → Option SuggestionPool :=
  Pool.step fun req => do
    let _ ← createSuggestion req

end MiniDrop
