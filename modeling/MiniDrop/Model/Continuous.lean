import MiniDrop.Model.TaskState

/-! # Continuous tasks in the API server -/

namespace MiniDrop

/-- A window as ListWindows reports it; times are Unix seconds. -/
structure ContinuousWindowInfo where
  windowTid : String
  seq : ℤ
  startTime : ℤ
  endTime : ℤ
  status : ℤ
  cosKey : String
deriving DecidableEq

/-- HTTP status, code and message of a response. -/
structure Answer where
  httpStatus : ℤ
  code : ℤ
  message : String
deriving DecidableEq

def taskNotFound : Answer := ⟨404, 4040001, "task not found"⟩

/-- StopContinuousTask; `reply` is what StopContinuous of drop_server comes to. -/
def stopContinuousTask (now : ℤ) (uid tid : String) (reply : RpcReply) : Statements Answer := do
  match ← checkTaskAccess uid tid reply.rejection.isNone with
  | none => pure taskNotFound
  | some task =>
    match reply with
    | .notConnected => pure ⟨503, 5000002, "drop_server unavailable"⟩
    | .failed error => pure ⟨500, 5000002, error⟩
    | .answered code message =>
      if code ≠ 0 then pure ⟨500, 5000002, message⟩
      else
        let changes : Bool := task.status ≠ taskStatusSuccess
        let _ ← Program.update { tid, writes := true, holds := changes, unchecked := changes }
          fun db => some (db.updateTask tid fun row =>
            { row with
              status := taskStatusSuccess
              endTime := some now
              statusInfo := "用户停止" })
        if changes then
          recordStateChange tid task.status taskStatusSuccess "用户停止" changeTypeTask false
        pure ⟨200, 0, message⟩

/-- The parameters of the task that stands for a window. -/
def windowParams (parent : HotmethodTask) (w : ContinuousWindowInfo) : RequestParams :=
  let added : RequestParams :=
    [("continuous_window", .flag true), ("parent_tid", .text parent.tid),
      ("window_tid", .text w.windowTid), ("window_seq", .number w.seq)] ++
    (if w.cosKey ≠ "" then [("cos_key", .text w.cosKey)] else [])
  parent.requestParams.filter (fun param => !(added.map Prod.fst).contains param.1) ++ added

/-- Status and status text of the task that stands for a finished window. -/
def windowOutcome (w : ContinuousWindowInfo) : ℤ × String :=
  if w.status = 2 then (taskStatusFailed, "continuous window failed")
  else (taskStatusSuccess, "continuous window completed")

/-- The row for a window that has no task yet. -/
def windowTask (parent : HotmethodTask) (w : ContinuousWindowInfo) : HotmethodTask :=
  { tid := w.windowTid
    name := if parent.name = "" then w.windowTid else parent.name ++ " #" ++ toString (w.seq + 1)
    type := 0
    profilerType := parent.profilerType
    targetIp := parent.targetIp
    requestParams := windowParams parent w
    status := (windowOutcome w).1
    analysisStatus := analysisStatusPending
    statusInfo := (windowOutcome w).2
    uid := parent.uid
    userName := parent.userName
    createTime := w.startTime
    beginTime := some w.startTime
    endTime := some w.endTime
    masterTaskTid := parent.tid }

/-- The update of the task of a window, which was read as `existing`. -/
def updateWindowTask (parent : HotmethodTask) (w : ContinuousWindowInfo)
    (existing row : HotmethodTask) : HotmethodTask :=
  { row with
    profilerType := parent.profilerType
    targetIp := parent.targetIp
    requestParams := windowParams parent w
    status := (windowOutcome w).1
    statusInfo := (windowOutcome w).2
    masterTaskTid := parent.tid
    uid := if existing.uid = "" then parent.uid else row.uid
    userName := if existing.userName = "" then parent.userName else row.userName
    beginTime := if existing.beginTime = none then some w.startTime else row.beginTime
    endTime := if w.endTime > 0 ∨ existing.endTime = none then some w.endTime else row.endTime }

/-- The task that stands for a window, and whether it is new. `assigns` tells whether the ORM,
when it updates a row, also assigns the new values to the record in memory. -/
def ensureContinuousWindowTask (assigns : Bool) (parent : HotmethodTask)
    (w : ContinuousWindowInfo) : Statements (Option (HotmethodTask × Bool)) := do
  if w.windowTid = "" then pure none
  else if w.status ≠ 1 ∧ w.status ≠ 2 then pure none
  else
    let (taskStatus, statusInfo) := windowOutcome w
    match ← firstTask w.windowTid true with
    | .error .failure => pure none
    | .error .recordNotFound =>
      let child := windowTask parent w
      if !(← Program.update { tid := w.windowTid, writes := true, holds := true }
          fun db => db.createTask child) then
        pure none
      else
        recordStateChange w.windowTid (-1) taskStatus statusInfo changeTypeTask false
        pure (some (child, true))
    | .ok existing =>
      -- the comparison below reads the record after the update
      let updated := if assigns then updateWindowTask parent w existing existing else existing
      let recorded : Bool := updated.status ≠ taskStatus
      if !(← Program.update
          { tid := w.windowTid, writes := true, holds := recorded
            unrecorded := !recorded && existing.status ≠ taskStatus }
          fun db => some (db.updateTask w.windowTid (updateWindowTask parent w existing))) then
        pure none
      else
        if recorded then
          recordStateChange w.windowTid updated.status taskStatus statusInfo changeTypeTask false
        pure (some ({ updateWindowTask parent w existing existing with
          beginTime := updated.beginTime, endTime := updated.endTime }, false))

/-- The window is stored; answers whether it is new and which status it had, or `none` where
the loop goes on to the next window. -/
def storeWindow (tid : String) (w : ContinuousWindowInfo) : Statements (Option (Bool × ℤ)) := do
  match ← Program.query {} fun db => db.windows[w.windowTid]? with
  | none => pure none
  | some none =>
    -- a failure of the INSERT goes unnoticed
    let row : ContinuousWindow :=
      ⟨tid, w.windowTid, w.seq, w.startTime, w.endTime, w.status, w.cosKey⟩
    let _ ← Program.update {} fun db =>
      if row.windowTid ∈ db.windows then none
      else some { db with windows := db.windows.insert row.windowTid row }
    pure (some (true, -1))
  | some (some existing) =>
    let _ ← Program.update {} fun db =>
      some { db with windows := db.windows.modify w.windowTid fun row =>
        { row with
          status := w.status
          cosKey := if w.cosKey ≠ "" then w.cosKey else row.cosKey
          endTime := if w.endTime > 0 then w.endTime else row.endTime } }
    pure (some (false, existing.status))

/-- One turn of the loop in GetContinuousWindows; answers whether an analysis is started. -/
def syncWindow (assigns analysisConfigured : Bool) (parent : HotmethodTask)
    (w : ContinuousWindowInfo) : Statements Bool := do
  match ← storeWindow parent.tid w with
  | none => pure false
  | some (windowCreated, previousStatus) =>
    match ← ensureContinuousWindowTask assigns parent w with
    | none => pure false
    | some (childTask, childCreated) =>
      pure (decide (w.status = 1 ∧ w.cosKey ≠ "" ∧
        (childCreated ∨ windowCreated ∨ previousStatus ≠ 1) ∧
        childTask.analysisStatus = analysisStatusPending) && analysisConfigured)

def syncWindows (assigns analysisConfigured : Bool) (parent : HotmethodTask) :
    List ContinuousWindowInfo → Statements (List String)
  | [] => pure []
  | w :: windows => do
    let started ← syncWindow assigns analysisConfigured parent w
    let others ← syncWindows assigns analysisConfigured parent windows
    pure (if started then w.windowTid :: others else others)

/-- The response of GetContinuousWindows and the windows whose analysis it starts. -/
structure WindowList where
  windows : List ContinuousWindow
  analysed : List String

/-- GetContinuousWindows; `reply` holds the windows that ListWindows answers with code 0, and
`earliest` and `latest` are the bounds in the query. -/
def getContinuousWindows (assigns analysisConfigured : Bool) (uid tid : String)
    (reply : Option (List ContinuousWindowInfo)) (earliest latest : Option ℤ) :
    Statements (Option WindowList) := do
  match ← checkTaskAccess uid tid false with
  | none => pure none
  | some parentTask =>
    let analysed ← syncWindows assigns analysisConfigured parentTask (reply.getD [])
    let windows := (← Program.query {} fun db =>
      ((db.windows.toList.map Prod.snd).filter fun row =>
        row.parentTid = tid && earliest.all (· ≤ row.startTime) &&
          latest.all (row.endTime ≤ ·)).mergeSort fun a b => a.seq ≤ b.seq).getD []
    pure (some { windows, analysed })

end MiniDrop
