import MiniDrop.Library.Pool
import MiniDrop.Model.Artifacts
import MiniDrop.Model.Requests

/-! # Deleting a task that is being waited for

DeleteTask and the loop of waitTaskResult for one task, with what they do to the object store. -/

namespace MiniDrop

/-- The tables and the object store, with the analyses started so far. -/
structure TaskServer where
  db : Database
  objects : List String := []
  /-- The task type of each analysis. -/
  analyses : List ℤ := []
  /-- A DeleteTask has answered with success. -/
  deleted : Bool := false

/-- What a statement means beside what it does to the tables. -/
structure TaskMark where
  table : Mark := {}
  /-- The task is read to start its analysis. -/
  concludes : Bool := false
  stores : Bool := false
  deletes : Bool := false
deriving DecidableEq

abbrev TaskProgram := Program TaskMark TaskServer

/-- Statements on the tables. -/
def onTables {α : Type} (mark : TaskMark) (p : Statements α) : TaskProgram α :=
  p.lift TaskServer.db (fun db s => { s with db }) fun table _ => { mark with table }

namespace TaskServer

/-! ## waitTaskResult -/

/-- The Put of persistFetchedResultFile; a failure answers like the object store does. -/
def storeResultFile (tid : String) (resp : FetchDataResponse) (storage : StorageReply) :
    TaskProgram StorageReply := do
  match storage, persistFetchedResultFile storage tid resp with
  | .stored, .ok key =>
    if resp.cosKey ≠ "" then pure storage
    else if ← Program.update { stores := true } fun s =>
        some { s with objects := appendUnique s.objects key } then pure storage
    else pure (.failed "")
  | _, _ => pure storage

/-- The part for `code == 0`. -/
def settleResult (now : ℤ) (tid : String) (resp : FetchDataResponse) (storage : StorageReply) :
    TaskProgram PollResult := do
  let storage ← storeResultFile tid resp storage
  match persistFetchedResultFile storage tid resp with
  | .error storeErr =>
    onTables {} (ensureTaskReached now tid taskStatusRunning
      "collector ran before result was fetched")
    onTables {} (transitionTaskStatus now tid taskStatusFailed storeErr (some now))
    pure (.ended none none)
  | .ok cosKey =>
    onTables {} (ensureTaskReached now tid taskStatusRunning
      "collector ran before result was fetched")
    onTables {} (ensureTaskReached now tid taskStatusUploading "collector uploaded result")
    onTables {} (transitionTaskStatus now tid taskStatusSuccess (readyReason cosKey) (some now))
    match ← onTables { concludes := true } (firstTask tid false) with
    | .ok task =>
      let _ ← Program.update {} fun s => some { s with analyses := s.analyses ++ [task.type] }
      pure (.ended (some cosKey) (some task.type))
    | .error _ => pure (.ended (some cosKey) none)

/-- The body of the loop. -/
def pollOnce (tid : String) : Poll → TaskProgram PollResult
  | .fetched now resp storage => do
    match parseDropStatusMessage resp.message with
    | some (status, reason) =>
      onTables {} (syncDropTaskStatus now tid status reason)
      if status = taskStatusSuccess ∨ status = taskStatusFailed then pure (.ended none none)
      else if resp.code = 0 then settleResult now tid resp storage
      else pure .again
    | none =>
      if resp.code = 0 then settleResult now tid resp storage
      else onTables {} (MiniDrop.pollOnce tid (.fetched now resp storage))
  | poll => onTables {} (MiniDrop.pollOnce tid poll)

/-- The loop over the passes that take place. -/
def waitTaskResult (tid : String) : List Poll → TaskProgram PollResult
  | [] => pure .again
  | poll :: polls => do
    match ← pollOnce tid poll with
    | .again => waitTaskResult tid polls
    | ended => pure ended

/-! ## DeleteTask -/

def deleteKeys : List String → TaskProgram Unit
  | [] => pure ()
  | key :: keys => do
    let _ ← Program.update {} fun s => some { s with objects := s.objects.filter (· ≠ key) }
    deleteKeys keys

/-- The objects with these prefixes are deleted, as far as they can be listed. -/
def deleteObjects : List String → TaskProgram Unit
  | [] => pure ()
  | start :: starts => do
    match ← Program.query {} fun s : TaskServer =>
        s.objects.filter fun key => hasPrefix key start with
    | some keys => deleteKeys keys
    | none => pure ()
    deleteObjects starts

/-- DeleteTask, without the rows of other tables that it deletes as well; `none` stands for the
message of the database. -/
def deleteTask (storageConfigured : Bool) (uid tid : String) : TaskProgram (Option Answer) := do
  match ← onTables {} (checkTaskAccess uid tid false) with
  | none => pure (some taskNotFound)
  | some _ =>
    match ← onTables { deletes := true }
        (Program.transact { tid } (softDelete tid fun _ => true)) with
    | none => pure none
    | some false => pure (some taskNotFound)
    | some true =>
      if storageConfigured then deleteObjects ["profiler/" ++ tid ++ "/", tid ++ "/"]
      -- the answer is sent
      let _ ← Program.update {} fun s => some { s with deleted := true }
      pure (some ⟨200, 0, "deleted"⟩)

end TaskServer

/-- What happens to one task. -/
inductive TaskRequest where
  | waitTaskResult (polls : List Poll)
  | deleteTask (storageConfigured : Bool) (uid : String)
deriving DecidableEq

def TaskRequest.program (tid : String) : TaskRequest → TaskProgram Unit
  | waitTaskResult polls => do
    let _ ← TaskServer.waitTaskResult tid polls
  | deleteTask storageConfigured uid => do
    let _ ← TaskServer.deleteTask storageConfigured uid tid

abbrev TaskPool := Pool TaskRequest TaskMark TaskServer

end MiniDrop
