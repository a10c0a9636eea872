import MiniDrop.Model.ControlService
import MiniDrop.Model.ServiceRuns
import MiniDrop.Model.TaskState

/-! # The loop of waitTaskResult beside drop_server

One pass asks drop_server through FetchData and then acts on the response. Other calls of
drop_server may run between the deadline check, the two reads of FetchData and the return of
its response. -/

namespace MiniDrop

/-- How far the current pass is. -/
inductive FetchPhase where
  | idle
  | requested
  /-- GetResult found nothing. -/
  | missed
  | answered (resp : FetchDataResponse)
deriving DecidableEq

/-- The loop for one task: the database, the passes so far, and how the last one ended. -/
structure Watch where
  db : Database
  phase : FetchPhase := .idle
  polls : List Poll := []
  result : PollResult := .again

inductive WatchAction where
  /-- The deadline has not passed, so FetchData is called. -/
  | request
  | getResult
  | getTaskStatus
  /-- FetchData returns an error. -/
  | lose
  /-- FetchData returns, and the object store answers `storage`. -/
  | receive (storage : StorageReply)
  | expire
deriving DecidableEq

namespace Watch

/-- The pass ends. -/
def pass (w : Watch) (tid : String) (poll : Poll) : Watch :=
  let outcome := (pollOnce tid poll).run w.db
  { db := outcome.2, polls := w.polls ++ [poll], result := outcome.1 }

/-- One action of the loop for `tid` at clock reading `now`, where drop_server is in state
`s`. -/
def step (tid : String) (deadline : ℤ) (s : HotmethodService) (now : ℤ) (w : Watch)
    (action : WatchAction) : Option Watch :=
  if w.result ≠ .again then none
  else
    match action, w.phase with
    | .request, .idle => if now ≤ deadline then some { w with phase := .requested } else none
    | .getResult, .requested =>
      match s.fetchResult tid with
      | some resp => some { w with phase := .answered resp }
      | none => some { w with phase := .missed }
    | .getTaskStatus, .missed => some { w with phase := .answered (s.fetchStatus tid) }
    | .lose, .idle => none
    | .lose, _ => some (w.pass tid .unreachable)
    | .receive storage, .answered resp => some (w.pass tid (.fetched now resp storage))
    | .expire, .idle => if deadline < now then some (w.pass tid (.expired now)) else none
    | _, _ => none

end Watch

/-! ## The service with one loop -/

/-- drop_server and the loop that waits for `tid`. -/
structure Watched where
  service : HotmethodService := {}
  watch : Watch

inductive WatchedEvent where
  | service (event : Event)
  | watch (now : ℤ) (action : WatchAction)
deriving DecidableEq

def Watched.step (tid : String) (deadline : ℤ) (s : Watched) : WatchedEvent → Option Watched
  | .service event => (s.service.step event).map fun service => { s with service }
  | .watch now action =>
    (s.watch.step tid deadline s.service now action).map fun watch => { s with watch }

end MiniDrop
