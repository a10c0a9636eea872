import MiniDrop.Library.Pool
import MiniDrop.Model.Continuous

/-! # Operations on task statuses in any interleaving -/

namespace MiniDrop

/-- The operations that write task statuses, with what they get from outside the database. -/
inductive StatusOperation where
  | createTask (now : ℤ) (tid uid userName : String) (req : CreateTaskReq) (dispatch : RpcReply)
  | waitTaskResult (tid : String) (polls : List Poll)
  | stopContinuousTask (now : ℤ) (uid tid : String) (reply : RpcReply)
  | getContinuousWindows (uid tid : String) (reply : Option (List ContinuousWindowInfo))
      (earliest latest : Option ℤ)
deriving DecidableEq

namespace StatusOperation

/-- `assigns` as in ensureContinuousWindowTask. -/
def program (assigns analysisConfigured : Bool) : StatusOperation → Statements Unit
  | createTask now tid uid userName req dispatch => do
    let _ ← createTaskInternal now tid uid userName req dispatch
  | waitTaskResult tid polls => do
    let _ ← MiniDrop.waitTaskResult tid polls
  | stopContinuousTask now uid tid reply => do
    let _ ← MiniDrop.stopContinuousTask now uid tid reply
  | getContinuousWindows uid tid reply earliest latest => do
    let _ ← MiniDrop.getContinuousWindows assigns analysisConfigured uid tid reply earliest latest

end StatusOperation

/-- The API server with its operations under way. -/
abbrev ApiPool := Pool StatusOperation Mark Database

end MiniDrop
