import MiniDrop.Library.Characters
import MiniDrop.Library.Pool

/-! # Accounts and settings of users

Users register and log in, and the token that they get goes with each further request. The settings
for the language model are kept per user. -/

namespace MiniDrop

/-! ## Tables -/

/-- A row of `user_info`. -/
structure UserInfo where
  uid : String
  name : String
  passwordHash : String
  /-- The request that inserted the row, which the table does not hold. -/
  creator : ℕ
deriving DecidableEq

/-- A row of `user_config`, without its times. -/
structure UserConfig where
  id : ℕ
  uid : String
  key : String
  value : String
  /-- The request that wrote the value, which the table does not hold. -/
  writer : ℕ
deriving DecidableEq

def UserConfig.pair (row : UserConfig) : String × String := (row.uid, row.key)

def llmBaseURLKey : String := "llm.base_url"

def llmTokenKey : String := "llm.token"

def llmModelKey : String := "llm.model"

/-! ## Requests -/

/-- bcrypt and HMAC. -/
structure Crypto where
  /-- `GenerateFromPassword`, with the salt that it draws; `none` on an error. -/
  generateFromPassword : String → String → Option String
  compareHashAndPassword : String → String → Bool
  /-- ComputeHMAC of a uid and a secret. -/
  computeHMAC : String → String → String

/-- The headers that may carry a value, and the cookie that is read when they do not. -/
structure Credential where
  headers : List String := []
  cookie : String := ""
deriving DecidableEq

structure UpdateLLMSettingsReq where
  baseURL : String := ""
  token : String := ""
  model : String := ""
  clearToken : Bool := false
deriving DecidableEq

inductive UserCall where
  | register (username password salt : String)
  | login (username password : String)
  | authCheck
  | getUsers
  | getLLMSettings
  | updateLLMSettings (req : UpdateLLMSettingsReq)
deriving DecidableEq

structure UserReq where
  /-- Tells requests apart. -/
  id : ℕ
  /-- Who sends it. -/
  client : ℕ
  call : UserCall
  uid : Credential := {}
  token : Credential := {}
deriving DecidableEq

structure LLMConfig where
  baseURL : String
  token : String
  model : String
deriving DecidableEq

/-- What the settings page is shown; a masked token is cut between bytes. -/
structure LLMSettings where
  baseURL : String
  model : String
  tokenConfigured : Bool
  tokenMasked : List UInt8
deriving DecidableEq

/-- An answer with HTTP status and code; `token` is also set as a cookie. -/
structure UserReply where
  status : ℤ
  code : ℤ
  uid : String := ""
  userName : String := ""
  token : Option String := none
  settings : Option LLMSettings := none
deriving DecidableEq

/-! ## The store -/

/-- The tables, in the order of insertion, and the answers that were sent. -/
structure UserStore where
  users : List UserInfo := []
  configs : List UserConfig := []
  /-- The id that `user_config` assigned last. -/
  lastId : ℕ := 0
  sent : List (UserReq × UserReply) := []
deriving DecidableEq

namespace UserStore

/-- `First` by primary key. -/
def firstUser (s : UserStore) (uid : String) : Option UserInfo :=
  s.users.find? fun row => row.uid = uid

/-- `Create` of a user, unless the key is taken or a column too short. -/
def createUser (s : UserStore) (user : UserInfo) : Option UserStore :=
  if user.uid ∈ s.users.map UserInfo.uid then none
  else if user.uid.length > 64 ∨ user.name.length > 128 ∨ user.passwordHash.length > 128 then none
  else some { s with users := s.users ++ [user] }

/-- `First` for a user and a key. -/
def firstConfig (s : UserStore) (uid key : String) : Option UserConfig :=
  s.configs.find? fun row => row.pair = (uid, key)

/-- `Update` of the value in the row of this id. -/
def updateConfig (s : UserStore) (id : ℕ) (value : String) (writer : ℕ) : UserStore :=
  { s with configs := s.configs.map fun row => if row.id = id then { row with value, writer } else row }

/-- `Create` of a configuration; user and key are unique together. -/
def createConfig (s : UserStore) (uid key value : String) (writer : ℕ) : Option UserStore :=
  if (uid, key) ∈ s.configs.map UserConfig.pair then none
  else if uid.length > 64 ∨ key.length > 128 then none
  else some { s with
    configs := s.configs ++ [{ id := s.lastId + 1, uid, key, value, writer }]
    lastId := s.lastId + 1 }

def send (s : UserStore) (req : UserReq) (reply : UserReply) : UserStore :=
  { s with sent := s.sent ++ [(req, reply)] }

end UserStore

abbrev UserProgram := Program Unit UserStore

/-! ## Registration and login -/

section Handlers

variable (crypto : Crypto) (secret : String)

/-- The uid of a user name, which is trimmed. -/
def uidOf (username : String) : String := "user-" ++ username

def trimmed (s : String) : String := String.ofList (Go.trimSpace s.toList)

/-- The end of Register, for a name without a row. -/
def insertUser (id : ℕ) (username password salt : String) : UserProgram UserReply :=
  match crypto.generateFromPassword password salt with
  | none => pure { status := 500, code := 5000001 }
  | some hash => do
    let uid := uidOf username
    let user := { uid, name := username, passwordHash := hash, creator := id }
    if ← Program.update () fun s => s.createUser user then
      pure
        { status := 200
          code := 0
          uid
          userName := username
          token := some (crypto.computeHMAC uid secret) }
    else pure { status := 500, code := 5000001 }

/-- Register. -/
def register (id : ℕ) (username password salt : String) : UserProgram UserReply :=
  if username = "" ∨ password = "" then pure { status := 400, code := 4000001 }
  else
    let username := trimmed username
    if username.utf8ByteSize < 2 ∨ username.utf8ByteSize > 32 then
      pure { status := 400, code := 4000001 }
    else if password.utf8ByteSize < 4 then pure { status := 400, code := 4000001 }
    else do
      match ← Program.query () fun s => s.firstUser (uidOf username) with
      | some (some _) => pure { status := 409, code := 4090001 }
      -- a failing search counts as none
      | _ => insertUser crypto secret id username password salt

/-- Login. -/
def login (username password : String) : UserProgram UserReply :=
  if username = "" ∨ password = "" then pure { status := 400, code := 4000001 }
  else do
    let uid := uidOf (trimmed username)
    match ← Program.query () fun s => s.firstUser uid with
    | some (some user) =>
      if crypto.compareHashAndPassword user.passwordHash password then
        pure
          { status := 200
            code := 0
            uid
            userName := user.name
            token := some (crypto.computeHMAC uid secret) }
      else pure { status := 401, code := 4010004 }
    | _ => pure { status := 401, code := 4010004 }

/-! ## Authentication -/

def firstHeader (values : List String) : String := (values.find? (· ≠ "")).getD ""

def Credential.value (c : Credential) : String :=
  if firstHeader c.headers = "" then c.cookie else firstHeader c.headers

def verifyHMAC (uid token : String) : Bool := token ≠ "" ∧ token = crypto.computeHMAC uid secret

/-- CheckLogin: the answer to a request that goes no further. -/
def checkLogin (req : UserReq) : Option UserReply :=
  if req.uid.value = "" then some { status := 401, code := 4010001 }
  else if secret ≠ "" ∧ verifyHMAC crypto secret req.uid.value req.token.value = false then
    some { status := 401, code := 4010002 }
  else none

/-- AuthCheck. -/
def authCheck (uid : String) : UserProgram UserReply := do
  match ← Program.query () fun s => s.firstUser uid with
  | some (some user) => pure { status := 200, code := 0, uid := user.uid, userName := user.name }
  | _ => pure { status := 401, code := 4010003 }

/-- GetUsers. -/
def getUsers (uid : String) : UserProgram UserReply := do
  match ← Program.query () fun s => s.firstUser uid with
  | some (some user) => pure { status := 200, code := 0, uid := user.uid, userName := user.name }
  | some none => pure { status := 404, code := 4040001 }
  | none => pure { status := 500, code := 5000001 }

/-! ## Settings -/

def getUserConfig (uid key : String) : UserProgram String := do
  match ← Program.query () fun s => s.firstConfig uid key with
  | some (some cfg) => pure cfg.value
  | _ => pure ""

/-- setUserConfig; whether there was no error. -/
def setUserConfig (id : ℕ) (uid key value : String) : UserProgram Bool := do
  match ← Program.query () fun s => s.firstConfig uid key with
  | some (some cfg) => Program.update () fun s => some (s.updateConfig cfg.id value id)
  | some none => Program.update () fun s => s.createConfig uid key value id
  | none => pure false

def defaultModel (model : String) : String := if model = "" then "gpt-4o-mini" else model

def getLLMConfig (uid : String) : UserProgram LLMConfig := do
  let baseURL ← getUserConfig uid llmBaseURLKey
  let token ← getUserConfig uid llmTokenKey
  let model ← getUserConfig uid llmModelKey
  pure { baseURL, token, model := defaultModel model }

def maskToken (token : String) : List UInt8 :=
  let bytes := token.toUTF8.data.toList
  if bytes = [] then []
  else if bytes.length ≤ 8 then "********".toUTF8.data.toList
  else bytes.take 4 ++ "...".toUTF8.data.toList ++ bytes.drop (bytes.length - 4)

def LLMConfig.settings (cfg : LLMConfig) : LLMSettings where
  baseURL := cfg.baseURL
  model := cfg.model
  tokenConfigured := cfg.token ≠ ""
  tokenMasked := maskToken cfg.token

/-- GetLLMSettings. -/
def getLLMSettings (uid : String) : UserProgram UserReply := do
  let cfg ← getLLMConfig uid
  pure { status := 200, code := 0, settings := some cfg.settings }

/-- What a request does to the token: an empty one leaves it as it is. -/
def UpdateLLMSettingsReq.tokenWrite (req : UpdateLLMSettingsReq) : Option String :=
  if req.clearToken then some "" else if req.token ≠ "" then some (trimmed req.token) else none

def writeToken (id : ℕ) (uid : String) (req : UpdateLLMSettingsReq) : UserProgram Bool :=
  match req.tokenWrite with
  | some token => setUserConfig id uid llmTokenKey token
  | none => pure true

/-- UpdateLLMSettings. -/
def updateLLMSettings (id : ℕ) (uid : String) (req : UpdateLLMSettingsReq) :
    UserProgram UserReply :=
  let baseURL := trimmed req.baseURL
  let model := defaultModel (trimmed req.model)
  if baseURL ≠ "" ∧ ¬baseURL.startsWith "http://" ∧ ¬baseURL.startsWith "https://" then
    pure { status := 400, code := 4000001 }
  else do
    if ← setUserConfig id uid llmBaseURLKey baseURL then
      if ← setUserConfig id uid llmModelKey model then
        if ← writeToken id uid req then getLLMSettings uid
        else pure { status := 500, code := 5000001 }
      else pure { status := 500, code := 5000001 }
    else pure { status := 500, code := 5000001 }

/-! ## The API server -/

def UserReq.authenticated (req : UserReq) (handler : String → UserProgram UserReply) :
    UserProgram UserReply :=
  match checkLogin crypto secret req with
  | some reply => pure reply
  | none => handler req.uid.value

def UserReq.handle (req : UserReq) : UserProgram UserReply :=
  match req.call with
  | .register username password salt => register crypto secret req.id username password salt
  | .login username password => login crypto secret username password
  | .authCheck => req.authenticated crypto secret authCheck
  | .getUsers => req.authenticated crypto secret getUsers
  | .getLLMSettings => req.authenticated crypto secret getLLMSettings
  | .updateLLMSettings update =>
    req.authenticated crypto secret fun uid => updateLLMSettings req.id uid update

/-- The answer goes out, unless the connection is gone. -/
def UserReq.answer (req : UserReq) (reply : UserReply) : UserProgram Unit := do
  let _ ← Program.update () fun s => some (s.send req reply)

def UserReq.program (req : UserReq) : UserProgram Unit := do
  let reply ← req.handle crypto secret
  req.answer reply

/-- Any number of requests against one store. -/
abbrev UserPool := Pool UserReq Unit UserStore

def UserPool.step : UserPool → Pool.Event UserReq → Option UserPool :=
  Pool.step (UserReq.program crypto secret)

end Handlers

end MiniDrop
