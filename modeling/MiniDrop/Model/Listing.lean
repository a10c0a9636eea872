import MiniDrop.Library.Ranking
import MiniDrop.Model.Groups

/-! # Requests that list agents and tasks

The rows that a user sees. What SQL leaves open is an argument: the column `updated_at`, and how
the database compares a status and a pattern with a value. -/

namespace MiniDrop

/-! ## Agents -/

/-- Online agents first, and later updated ones before others. -/
def listedBefore (updatedAt : ℕ → ℤ) (a b : AgentInfo) : Bool :=
  (a.online && !b.online) || (a.online == b.online && decide (updatedAt b.id ≤ updatedAt a.id))

/-- GetAgents; `none` stands for the message of the database, and `updatedAt` for the column
`updated_at`, by id. -/
def getAgents (now : ℤ) (uid : String) (remotes : Option (List AgentStatus))
    (updatedAt : ℕ → ℤ) : Statements (Option (List AgentInfo)) := do
  syncAgentsFromDrop now uid remotes
  let gids := (← Program.query {} fun db => db.groupsOf uid).getD []
  -- without a group the last condition is left out
  Program.query {} fun db =>
    (db.agents.filter fun agent => agent.uid = uid || agent.gid = 0 ||
      db.members.any fun member => member.uid = agent.uid && gids.contains member.gid).mergeSort
        (listedBefore updatedAt)

/-- `fmt.Sscanf` with `%d`; what follows the number is not looked at. -/
def scanInt (s : List Char) : Option ℤ :=
  if '\n' ∈ s.takeWhile isSpace then none
  else
    match s.dropWhile isSpace with
    | '+' :: rest => atoi ('+' :: rest.takeWhile Char.isDigit)
    | '-' :: rest => atoi ('-' :: rest.takeWhile Char.isDigit)
    | rest => atoi (rest.takeWhile Char.isDigit)

/-- The number of audit rows that a request asks for. -/
def auditLimit (limit : Option String) : ℕ :=
  match scanInt (limit.getD "50").toList with
  | none => 50
  | some n => if n ≤ 0 then 50 else min n.toNat 200

/-- The newest rows of these addresses; a failed query finds none. -/
def auditRows (limit : ℕ) (ips : List String) : Statements (List AgentStateHistory) := do
  pure ((← Program.query {} fun db =>
    (db.agentHistory.reverse.filter fun row => ips.contains row.ipAddr).take limit).getD [])

/-- GetAgentAuditLog. -/
def getAgentAuditLog (now : ℤ) (uid : String) (remotes : Option (List AgentStatus)) (ip : String)
    (limit : Option String) : Statements (Except Answer (List AgentStateHistory)) := do
  syncAgentsFromDrop now uid remotes
  if ip ≠ "" then
    if !(← canAccessAgentIP uid ip) then pure (.error ⟨404, 4040001, "agent not found"⟩)
    else pure (.ok (← auditRows (auditLimit limit) [ip]))
  else
    let gids := (← Program.query {} fun db => db.groupsOf uid).getD []
    let agents := (← Program.query {} fun db =>
      db.agents.filter fun agent =>
        agent.uid = uid || agent.gid = 0 || gids.contains agent.gid).getD []
    let ips := agents.map AgentInfo.ipAddr
    if ips = [] then pure (.ok []) else pure (.ok (← auditRows (auditLimit limit) ips))

/-! ## Tasks -/

/-- `strconv.Atoi` with a default. -/
def parseIntDefault (s : String) (default : ℤ) : ℤ :=
  if s = "" then default else (atoi s.toList).getD default

/-- How the database compares the text of a status with a status, and a pattern with a text. -/
structure SqlComparison where
  status : String → ℤ → Bool
  like : String → String → Bool

/-- The query parameters of GetTasks. -/
structure TaskFilter where
  page : String := ""
  size : String := ""
  status : String := ""
  keyword : String := ""
  includeWindows : Bool := false
deriving DecidableEq

/-- The conditions of the query, for a user in the groups `gids`. -/
def TaskFilter.selects (filter : TaskFilter) (sql : SqlComparison) (members : List GroupMember)
    (uid : String) (gids : List ℕ) (task : HotmethodTask) : Bool :=
  !task.deleted &&
    (task.uid = uid || members.any fun member =>
      member.uid = task.uid && gids.contains member.gid) &&
    (filter.status = "" || sql.status filter.status task.status) &&
    (filter.keyword = "" || sql.like ("%" ++ filter.keyword ++ "%") task.name ||
      sql.like ("%" ++ filter.keyword ++ "%") task.targetIp) &&
    (filter.includeWindows || task.masterTaskTid = "")

/-- The tasks with their tids that the query selects. -/
def TaskFilter.rows (filter : TaskFilter) (sql : SqlComparison) (uid : String) (gids : List ℕ)
    (db : Database) : List (String × HotmethodTask) :=
  db.tasks.toList.filter fun row => filter.selects sql db.members uid gids row.2

/-- `Offset` and `Limit`; an offset that is not positive and a negative limit do not count. -/
def paginate {α : Type} (offset limit : ℤ) (rows : List α) : List α :=
  let rows := rows.drop offset.toNat
  if limit < 0 then rows else rows.take limit.toNat

structure TaskList where
  total : ℕ
  list : List (String × HotmethodTask)
  page : ℤ
  size : ℤ

/-- How a query sorts by `create_time DESC`; ties come in any order. -/
structure TaskOrder where
  sort : List (String × HotmethodTask) → List (String × HotmethodTask)
  sorts : ∀ rows, Ranking.Sorts (fun row : String × HotmethodTask => row.2.createTime) rows (sort rows)

/-- GetTasks, with the order of its second query; a failed query counts as one without rows. -/
def getTasksIn (order : TaskOrder) (sql : SqlComparison) (uid : String) (filter : TaskFilter) :
    Statements TaskList := do
  let page := parseIntDefault filter.page 1
  let size := parseIntDefault filter.size 20
  let gids := (← Program.query {} fun db => db.groupsOf uid).getD []
  let total := (← Program.query {} fun db => (filter.rows sql uid gids db).length).getD 0
  let list := (← Program.query {} fun db =>
    paginate (((page - 1) * size).bmod (2 ^ 64)) size
      (order.sort (filter.rows sql uid gids db))).getD []
  pure { total, list, page, size }

/-- GetTasks with ties in the order of the tids; a failed query counts as one without rows. -/
def getTasks (sql : SqlComparison) (uid : String) (filter : TaskFilter) : Statements TaskList := do
  let page := parseIntDefault filter.page 1
  let size := parseIntDefault filter.size 20
  let gids := (← Program.query {} fun db => db.groupsOf uid).getD []
  let total := (← Program.query {} fun db => (filter.rows sql uid gids db).length).getD 0
  let list := (← Program.query {} fun db =>
    paginate (((page - 1) * size).bmod (2 ^ 64)) size
      ((filter.rows sql uid gids db).mergeSort fun a b =>
        decide (b.2.createTime ≤ a.2.createTime))).getD []
  pure { total, list, page, size }

end MiniDrop
