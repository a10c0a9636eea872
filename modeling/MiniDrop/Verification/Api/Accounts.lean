import Mathlib.Data.List.Infix
import Mathlib.Data.List.Nodup
import MiniDrop.Library.Guarantee
import MiniDrop.Model.Accounts

/-! # Whose token it is

A row of a user is inserted once and never changes. A token goes to the request that inserted the
row of its user, or to one with a password that the row accepts. -/

namespace MiniDrop

/-! ## Statement -/

variable (crypto : Crypto) (secret : String)

/-- The row is what the request registers. -/
def UserReq.Creates (req : UserReq) (row : UserInfo) : Prop :=
  ∃ username password salt, req.call = .register username password salt ∧
    ¬(username = "" ∨ password = "") ∧ row.creator = req.id ∧
    row.uid = uidOf (trimmed username) ∧ row.name = trimmed username ∧
    crypto.generateFromPassword password salt = some row.passwordHash

/-- The request comes from somebody who knows the password of the row. -/
def UserReq.Proves (req : UserReq) (row : UserInfo) : Prop :=
  req.Creates crypto row ∨
    ∃ username password, req.call = .login username password ∧
      row.uid = uidOf (trimmed username) ∧
      crypto.compareHashAndPassword row.passwordHash password = true

/-- A token in the answer is that of a user whose row the request proves to know. -/
def UserStore.Answers (s : UserStore) (req : UserReq) (reply : UserReply) : Prop :=
  ∀ token ∈ reply.token, token = crypto.computeHMAC reply.uid secret ∧
    ∃ row ∈ s.users, row.uid = reply.uid ∧ row.name = reply.userName ∧ req.Proves crypto row

def UserReq.IsRegister (req : UserReq) : Prop :=
  ∃ username password salt, req.call = .register username password salt

structure Accounts (pool : UserPool) : Prop where
  single : (pool.store.users.map UserInfo.uid).Nodup
  created : ∀ row ∈ pool.store.users, ∃ req ∈ pool.started, req.Creates crypto row
  answers : ∀ entry ∈ pool.store.sent, entry.1 ∈ pool.started ∧
    pool.store.Answers crypto secret entry.1 entry.2
  /-- Of the requests that register a user, one gets a token. -/
  owner : ∀ entry ∈ pool.store.sent, ∀ other ∈ pool.store.sent,
    entry.1.IsRegister → other.1.IsRegister → entry.2.token.isSome → other.2.token.isSome →
      entry.2.uid = other.2.uid → entry.1.id = other.1.id
  lasting : ∀ pool' : UserPool,
    Transition.Reachable (UserPool.step crypto secret) (fun _ _ => True) pool pool' →
      pool.store.users <+: pool'.store.users

/-! ## The invariant -/

/-- What a request may write in the settings. -/
def UpdateLLMSettingsReq.writes (req : UpdateLLMSettingsReq) : List (String × String) :=
  [(llmBaseURLKey, trimmed req.baseURL), (llmModelKey, defaultModel (trimmed req.model))] ++
    req.tokenWrite.toList.map fun token => (llmTokenKey, token)

/-- The row has its value from the request, which was let in for the user of the row. -/
def UserReq.Writes (req : UserReq) (row : UserConfig) : Prop :=
  checkLogin crypto secret req = none ∧ req.uid.value = row.uid ∧ row.writer = req.id ∧
    ∃ update, req.call = .updateLLMSettings update ∧ (row.key, row.value) ∈ update.writes

namespace UserStore

/-- Under this id there is a row of the user and the key. -/
def Has (s : UserStore) (id : ℕ) (pair : String × String) : Prop :=
  ∃ row ∈ s.configs, row.id = id ∧ row.pair = pair

/-- The keys of `user_config` are unique. -/
structure Keyed (s : UserStore) : Prop where
  ids : (s.configs.map UserConfig.id).Nodup
  assigned : ∀ row ∈ s.configs, row.id ≤ s.lastId
  single : (s.configs.map UserConfig.pair).Nodup

structure Sound (requests : UserReq → Prop) (s : UserStore) : Prop where
  keyed : (s.users.map UserInfo.uid).Nodup
  created : ∀ row ∈ s.users, ∃ req, requests req ∧ req.Creates crypto row
  configs : s.Keyed
  written : ∀ row ∈ s.configs, ∃ req, requests req ∧ req.Writes crypto secret row
  answers : ∀ entry ∈ s.sent, requests entry.1 ∧ s.Answers crypto secret entry.1 entry.2

/-- Users and answers are only added, and rows of settings stay. -/
structure Extends (s t : UserStore) : Prop where
  users : s.users <+: t.users
  sent : s.sent <+: t.sent
  configs : ∀ id pair, s.Has id pair → t.Has id pair

theorem Extends.refl (s : UserStore) : s.Extends s :=
  ⟨List.prefix_rfl, List.prefix_rfl, fun _ _ h => h⟩

theorem Extends.trans {s t u : UserStore} (h : s.Extends t) (h' : t.Extends u) : s.Extends u :=
  ⟨h.users.trans h'.users, h.sent.trans h'.sent, fun id pair hid =>
    h'.configs id pair (h.configs id pair hid)⟩

variable {crypto secret} {requests : UserReq → Prop} {s t : UserStore}

theorem Answers.mono {req : UserReq} {reply : UserReply} (h : s.Answers crypto secret req reply)
    (hext : s.Extends t) : t.Answers crypto secret req reply := by
  intro token htoken
  obtain ⟨hmac, row, hrow, hproof⟩ := h token htoken
  exact ⟨hmac, row, hext.users.subset hrow, hproof⟩

theorem answers_of_none {req : UserReq} {reply : UserReply} (h : reply.token = none) :
    s.Answers crypto secret req reply := by
  intro token htoken
  rw [h] at htoken
  cases htoken

theorem mem_of_firstUser {uid : String} {row : UserInfo} (h : s.firstUser uid = some row) :
    row ∈ s.users ∧ row.uid = uid :=
  ⟨List.mem_of_find?_eq_some h, by simpa using List.find?_some h⟩

theorem mem_of_firstConfig {uid key : String} {row : UserConfig}
    (h : s.firstConfig uid key = some row) : row ∈ s.configs ∧ row.pair = (uid, key) :=
  ⟨List.mem_of_find?_eq_some h, by simpa using List.find?_some h⟩

/-! ## Writes -/

theorem extends_createUser {user : UserInfo} (h : s.createUser user = some t) :
    s.Extends t ∧ t.users = s.users ++ [user] ∧ user.uid ∉ s.users.map UserInfo.uid ∧
      t = { s with users := t.users } := by
  unfold createUser at h
  split_ifs at h with hused hlong
  obtain rfl := Option.some.inj h
  exact ⟨⟨List.prefix_append _ _, List.prefix_rfl, fun _ _ hid => hid⟩, rfl, hused, rfl⟩

theorem Sound.createUser (hs : s.Sound crypto secret requests) {user : UserInfo}
    (h : s.createUser user = some t) {req : UserReq} (hreq : requests req)
    (hcreates : req.Creates crypto user) : t.Sound crypto secret requests := by
  obtain ⟨hext, husers, hnew, ht⟩ := extends_createUser h
  refine ⟨?_, fun row hrow => ?_, ?_, ?_, fun entry hentry => ?_⟩
  · rw [husers, List.map_append, List.map_singleton]
    refine List.nodup_append.mpr ⟨hs.keyed, by simp, fun uid huid uid' huid' => ?_⟩
    rw [List.mem_singleton.mp huid']
    rintro rfl
    exact hnew huid
  · rw [husers] at hrow
    rcases List.mem_append.mp hrow with hrow | hrow
    · exact hs.created row hrow
    · rw [List.mem_singleton.mp hrow]
      exact ⟨req, hreq, hcreates⟩
  · rw [ht]
    exact ⟨hs.configs.ids, hs.configs.assigned, hs.configs.single⟩
  · rw [ht]
    exact hs.written
  · rw [ht] at hentry
    obtain ⟨hstarted, hanswers⟩ := hs.answers entry hentry
    exact ⟨hstarted, hanswers.mono hext⟩

theorem map_updateConfig {β : Type} (column : UserConfig → β)
    (hcolumn : ∀ row value writer, column { row with value, writer } = column row) (id : ℕ)
    (value : String) (writer : ℕ) :
    (s.updateConfig id value writer).configs.map column = s.configs.map column := by
  rw [updateConfig, List.map_map]
  refine List.map_congr_left fun row _ => ?_
  rw [Function.comp_apply]
  split
  · exact hcolumn row value writer
  · rfl

theorem extends_updateConfig (id : ℕ) (value : String) (writer : ℕ) :
    s.Extends (s.updateConfig id value writer) := by
  refine ⟨List.prefix_rfl, List.prefix_rfl, fun id' pair hhas => ?_⟩
  obtain ⟨row, hrow, rfl, rfl⟩ := hhas
  have hmem := List.mem_map_of_mem (f := fun row : UserConfig => (row.id, row.pair)) hrow
  rw [← map_updateConfig _ (fun _ _ _ => rfl) id value writer] at hmem
  obtain ⟨other, hother, heq⟩ := List.mem_map.mp hmem
  exact ⟨other, hother, congrArg Prod.fst heq, congrArg Prod.snd heq⟩

theorem Keyed.updateConfig (hs : s.Keyed) (id : ℕ) (value : String) (writer : ℕ) :
    (s.updateConfig id value writer).Keyed := by
  refine ⟨?_, fun row hrow => ?_, ?_⟩
  · rw [map_updateConfig _ fun _ _ _ => rfl]
    exact hs.ids
  · have hid := List.mem_map_of_mem (f := UserConfig.id) hrow
    rw [map_updateConfig _ fun _ _ _ => rfl] at hid
    obtain ⟨other, hother, heq⟩ := List.mem_map.mp hid
    exact heq ▸ hs.assigned other hother
  · rw [map_updateConfig _ fun _ _ _ => rfl]
    exact hs.single

theorem Sound.updateConfig (hs : s.Sound crypto secret requests) {id : ℕ} {uid key value : String}
    (hhas : s.Has id (uid, key)) {req : UserReq} (hreq : requests req)
    (hwrites : ∀ id', req.Writes crypto secret ⟨id', uid, key, value, req.id⟩) :
    (s.updateConfig id value req.id).Sound crypto secret requests := by
  refine ⟨hs.keyed, hs.created, hs.configs.updateConfig id value req.id, fun row hrow => ?_,
    fun entry hentry => ?_⟩
  · obtain ⟨found, hfound, hid, hpair⟩ := hhas
    obtain ⟨other, hother, rfl⟩ := List.mem_map.mp hrow
    split
    · next hsame =>
        -- ids are unique, so that this is the row of the key
        obtain rfl : other = found :=
          List.inj_on_of_nodup_map hs.configs.ids hother hfound (hsame.trans hid.symm)
        obtain ⟨huid, hkey⟩ := Prod.mk.inj hpair
        refine ⟨req, hreq, ?_⟩
        rw [← huid, ← hkey] at hwrites
        exact hwrites other.id
    · exact hs.written other hother
  · obtain ⟨hstarted, hanswers⟩ := hs.answers entry hentry
    exact ⟨hstarted, hanswers.mono (extends_updateConfig id value req.id)⟩

theorem extends_createConfig {uid key value : String} {writer : ℕ}
    (h : s.createConfig uid key value writer = some t) : s.Extends t := by
  unfold createConfig at h
  split_ifs at h with hused hlong
  obtain rfl := Option.some.inj h
  refine ⟨List.prefix_rfl, List.prefix_rfl, fun id pair hhas => ?_⟩
  obtain ⟨row, hrow, hsame⟩ := hhas
  exact ⟨row, List.mem_append_left _ hrow, hsame⟩

theorem Keyed.createConfig (hs : s.Keyed) {uid key value : String} {writer : ℕ}
    (h : s.createConfig uid key value writer = some t) : t.Keyed := by
  unfold UserStore.createConfig at h
  split_ifs at h with hused hlong
  obtain rfl := Option.some.inj h
  refine ⟨?_, fun row hrow => ?_, ?_⟩
  · rw [List.map_append, List.map_singleton]
    refine List.nodup_append.mpr ⟨hs.ids, by simp, fun id hid id' hid' => ?_⟩
    obtain ⟨other, hother, rfl⟩ := List.mem_map.mp hid
    rw [List.mem_singleton.mp hid']
    exact ((hs.assigned other hother).trans_lt (Nat.lt_succ_self _)).ne
  · rcases List.mem_append.mp hrow with hrow | hrow
    · exact (hs.assigned row hrow).trans (Nat.le_succ _)
    · rw [List.mem_singleton.mp hrow]
  · rw [List.map_append, List.map_singleton]
    refine List.nodup_append.mpr ⟨hs.single, by simp, fun pair hpair pair' hpair' => ?_⟩
    rw [List.mem_singleton.mp hpair']
    rintro rfl
    exact hused hpair

theorem Sound.createConfig (hs : s.Sound crypto secret requests) {uid key value : String}
    {req : UserReq} (h : s.createConfig uid key value req.id = some t) (hreq : requests req)
    (hwrites : ∀ id, req.Writes crypto secret ⟨id, uid, key, value, req.id⟩) :
    t.Sound crypto secret requests := by
  have hext := extends_createConfig h
  have hkeyed := hs.configs.createConfig h
  unfold UserStore.createConfig at h
  split_ifs at h with hused hlong
  obtain rfl := Option.some.inj h
  refine ⟨hs.keyed, hs.created, hkeyed, fun row hrow => ?_, fun entry hentry => ?_⟩
  · rcases List.mem_append.mp hrow with hrow | hrow
    · exact hs.written row hrow
    · rw [List.mem_singleton.mp hrow]
      exact ⟨req, hreq, hwrites _⟩
  · obtain ⟨hstarted, hanswers⟩ := hs.answers entry hentry
    exact ⟨hstarted, hanswers.mono hext⟩

theorem extends_send (req : UserReq) (reply : UserReply) : s.Extends (s.send req reply) :=
  ⟨List.prefix_rfl, List.prefix_append _ _, fun _ _ h => h⟩

theorem Sound.send (hs : s.Sound crypto secret requests) {req : UserReq} {reply : UserReply}
    (hreq : requests req) (hanswers : s.Answers crypto secret req reply) :
    (s.send req reply).Sound crypto secret requests := by
  refine ⟨hs.keyed, hs.created, ⟨hs.configs.ids, hs.configs.assigned, hs.configs.single⟩,
    hs.written, fun entry hentry => ?_⟩
  rcases List.mem_append.mp hentry with hentry | hentry
  · obtain ⟨hstarted, hsame⟩ := hs.answers entry hentry
    exact ⟨hstarted, hsame.mono (extends_send req reply)⟩
  · rw [List.mem_singleton.mp hentry]
    exact ⟨hreq, hanswers.mono (extends_send req reply)⟩

end UserStore

/-! ## Threads -/

variable {crypto secret}

/-- Statements keep the store sound and leave in it what was known. -/
def accounting (crypto : Crypto) (secret : String) (requests : UserReq → Prop) :
    Guarantee UserStore where
  inv := UserStore.Sound crypto secret requests
  rel := UserStore.Extends
  refl := UserStore.Extends.refl
  trans := UserStore.Extends.trans

variable {requests : UserReq → Prop}

def hasUser (row : UserInfo) : (accounting crypto secret requests).Fact where
  holds s := row ∈ s.users
  stable _ _ h hrel := hrel.users.subset h

def hasConfig (id : ℕ) (pair : String × String) : (accounting crypto secret requests).Fact where
  holds s := s.Has id pair
  stable _ _ h hrel := hrel.configs id pair h

def answersTo (req : UserReq) (reply : UserReply) : (accounting crypto secret requests).Fact where
  holds s := s.Answers crypto secret req reply
  stable _ _ h hrel := h.mono hrel

/-- The user that a search found. -/
def foundUser (uid : String) :
    Option (Option UserInfo) → (accounting crypto secret requests).Fact
  | some (some row) => .and (.pure (row.uid = uid)) (hasUser row)
  | _ => .top _

def foundConfig (pair : String × String) :
    Option (Option UserConfig) → (accounting crypto secret requests).Fact
  | some (some row) => hasConfig row.id pair
  | _ => .top _

theorem triple_firstUser (uid : String) : (accounting crypto secret requests).Triple (.top _)
    (Program.query () fun s : UserStore => s.firstUser uid) (foundUser uid) := by
  refine Guarantee.Triple.query (fun s _ _ => ?_) fun _ _ _ => trivial
  cases hfirst : s.firstUser uid with
  | none => trivial
  | some row =>
      obtain ⟨hmem, huid⟩ := UserStore.mem_of_firstUser hfirst
      exact ⟨huid, hmem⟩

theorem triple_firstConfig (uid key : String) :
    (accounting crypto secret requests).Triple (.top _)
      (Program.query () fun s : UserStore => s.firstConfig uid key) (foundConfig (uid, key)) := by
  refine Guarantee.Triple.query (fun s _ _ => ?_) fun _ _ _ => trivial
  cases hfirst : s.firstConfig uid key with
  | none => trivial
  | some row =>
      obtain ⟨hmem, hpair⟩ := UserStore.mem_of_firstConfig hfirst
      exact ⟨row, hmem, rfl, hpair⟩

/-- A write of a request that was let in for this user. -/
theorem triple_setUserConfig {req : UserReq} (hreq : requests req) {uid key value : String}
    (hwrites : ∀ id, req.Writes crypto secret ⟨id, uid, key, value, req.id⟩) :
    (accounting crypto secret requests).Triple (.top _) (setUserConfig req.id uid key value)
      fun _ => .top _ := by
  refine Guarantee.Triple.bind (triple_firstConfig uid key) ?_
  rintro (_ | _ | row)
  · exact Guarantee.Triple.pure fun _ _ _ => trivial
  · refine Guarantee.Triple.update (fun s t hs _ ht => ?_) fun _ _ _ => trivial
    exact ⟨UserStore.extends_createConfig ht, hs.createConfig ht hreq hwrites, trivial⟩
  · refine Guarantee.Triple.update (fun s t hs hhas ht => ?_) fun _ _ _ => trivial
    obtain rfl := Option.some.inj ht
    exact ⟨UserStore.extends_updateConfig row.id value req.id,
      hs.updateConfig hhas hreq hwrites, trivial⟩

/-- Programs that only read. -/
theorem triple_reads {α : Type} {P : (accounting crypto secret requests).Fact}
    {p : UserProgram α} (h : p.Preserves id) :
    (accounting crypto secret requests).Triple P p fun _ => P := by
  refine Guarantee.Triple.of_preserves (f := id) (fun s t heq hs => ?_) h
  obtain rfl : t = s := heq
  exact ⟨UserStore.Extends.refl t, hs⟩

theorem preserves_getUserConfig (uid key : String) : (getUserConfig uid key).Preserves id := by
  refine Program.Preserves.bind (Program.preserves_query () _) ?_
  rintro (_ | _ | cfg) <;> exact Program.Preserves.pure _

theorem preserves_getLLMConfig (uid : String) : (getLLMConfig uid).Preserves id :=
  Program.Preserves.bind (preserves_getUserConfig uid _) fun _ =>
    Program.Preserves.bind (preserves_getUserConfig uid _) fun _ =>
      Program.Preserves.bind (preserves_getUserConfig uid _) fun _ => Program.Preserves.pure _

/-- An answer without a token. -/
theorem triple_answer {P : (accounting crypto secret requests).Fact} (req : UserReq)
    {reply : UserReply} (h : reply.token = none) :
    (accounting crypto secret requests).Triple P (pure reply : UserProgram UserReply)
      (answersTo req) :=
  Guarantee.Triple.pure fun _ _ _ => UserStore.answers_of_none h

theorem triple_getLLMSettings (req : UserReq) (uid : String) :
    (accounting crypto secret requests).Triple (.top _) (getLLMSettings uid) (answersTo req) :=
  Guarantee.Triple.bind (triple_reads (preserves_getLLMConfig uid)) fun _ => triple_answer req rfl

theorem triple_updateLLMSettings {req : UserReq} (hreq : requests req)
    (hlogin : checkLogin crypto secret req = none) {update : UpdateLLMSettingsReq}
    (hcall : req.call = .updateLLMSettings update) :
    (accounting crypto secret requests).Triple (.top _)
      (updateLLMSettings req.id req.uid.value update) (answersTo req) := by
  have hwrites : ∀ {key value : String}, (key, value) ∈ update.writes → ∀ id,
      req.Writes crypto secret ⟨id, req.uid.value, key, value, req.id⟩ := fun hmem id =>
    ⟨hlogin, rfl, rfl, update, hcall, hmem⟩
  unfold updateLLMSettings
  dsimp only
  split
  · exact triple_answer req rfl
  refine Guarantee.Triple.bind
    (triple_setUserConfig hreq (hwrites (List.mem_append_left _ List.mem_cons_self))) fun ok => ?_
  cases ok
  · exact triple_answer req rfl
  refine Guarantee.Triple.bind (triple_setUserConfig hreq (hwrites (List.mem_append_left _
    (List.mem_cons_of_mem _ List.mem_cons_self)))) fun ok => ?_
  cases ok
  · exact triple_answer req rfl
  refine Guarantee.Triple.bind (Q := fun _ => .top _) ?_ fun ok => ?_
  · unfold writeToken
    cases htoken : update.tokenWrite with
    | none => exact Guarantee.Triple.pure fun _ _ _ => trivial
    | some token =>
        refine triple_setUserConfig hreq (hwrites (List.mem_append_right _ ?_))
        rw [htoken]
        exact List.mem_map_of_mem (List.mem_singleton_self token)
  · cases ok
    · exact triple_answer req rfl
    · exact triple_getLLMSettings req _

theorem triple_insertUser {req : UserReq} (hreq : requests req)
    {username password salt : String} (hcall : req.call = .register username password salt)
    (hgiven : ¬(username = "" ∨ password = "")) :
    (accounting crypto secret requests).Triple (.top _)
      (insertUser crypto secret req.id (trimmed username) password salt) (answersTo req) := by
  unfold insertUser
  cases hhash : crypto.generateFromPassword password salt with
  | none => exact triple_answer req rfl
  | some hash =>
      have hcreates : req.Creates crypto
          ⟨uidOf (trimmed username), trimmed username, hash, req.id⟩ :=
        ⟨username, password, salt, hcall, hgiven, rfl, rfl, rfl, hhash⟩
      refine Guarantee.Triple.bind (Q := fun ok => if ok then
        hasUser ⟨uidOf (trimmed username), trimmed username, hash, req.id⟩ else .top _)
        (Guarantee.Triple.update (fun s t hs _ ht => ?_) fun _ _ _ => trivial) fun ok => ?_
      · have hext := UserStore.extends_createUser ht
        refine ⟨hext.1, hs.createUser ht hreq hcreates, ?_⟩
        show _ ∈ t.users
        rw [hext.2.1]
        exact List.mem_append_right _ (List.mem_singleton_self _)
      · cases ok
        · exact triple_answer req rfl
        · refine Guarantee.Triple.pure fun s _ hmem token htoken => ?_
          obtain rfl := Option.some.inj htoken
          exact ⟨rfl, _, hmem, rfl, rfl, Or.inl hcreates⟩

theorem triple_register {req : UserReq} (hreq : requests req) {username password salt : String}
    (hcall : req.call = .register username password salt) :
    (accounting crypto secret requests).Triple (.top _)
      (register crypto secret req.id username password salt) (answersTo req) := by
  unfold register
  dsimp only
  split
  · exact triple_answer req rfl
  next hgiven =>
  split
  · exact triple_answer req rfl
  split
  · exact triple_answer req rfl
  refine Guarantee.Triple.bind (triple_firstUser (uidOf (trimmed username))) ?_
  rintro (_ | _ | row)
  · exact triple_insertUser hreq hcall hgiven
  · exact triple_insertUser hreq hcall hgiven
  · exact triple_answer req rfl

theorem triple_login {req : UserReq} {username password : String}
    (hcall : req.call = .login username password) :
    (accounting crypto secret requests).Triple (.top _)
      (login crypto secret username password) (answersTo req) := by
  unfold login
  split
  · exact triple_answer req rfl
  refine Guarantee.Triple.bind (triple_firstUser (uidOf (trimmed username))) ?_
  rintro (_ | _ | row)
  · exact triple_answer req rfl
  · exact triple_answer req rfl
  dsimp only
  split
  · next haccepted =>
      refine Guarantee.Triple.pure fun s _ hrow token htoken => ?_
      obtain rfl := Option.some.inj htoken
      obtain ⟨huid, hmem⟩ := hrow
      exact ⟨rfl, row, hmem, huid, rfl, Or.inr ⟨username, password, hcall, huid, haccepted⟩⟩
  · exact triple_answer req rfl

theorem triple_handle {req : UserReq} (hreq : requests req) :
    (accounting crypto secret requests).Triple (.top _) (req.handle crypto secret)
      (answersTo req) := by
  have hguarded : ∀ {handler : String → UserProgram UserReply},
      (checkLogin crypto secret req = none →
        (accounting crypto secret requests).Triple (.top _) (handler req.uid.value)
          (answersTo req)) →
      (accounting crypto secret requests).Triple (.top _)
        (req.authenticated crypto secret handler) (answersTo req) := by
    intro handler hhandler
    unfold UserReq.authenticated
    split
    · next reply hrefused =>
        refine triple_answer req ?_
        unfold checkLogin at hrefused
        split_ifs at hrefused
        · rw [← Option.some.inj hrefused]
        · rw [← Option.some.inj hrefused]
    · next hlogin => exact hhandler hlogin
  unfold UserReq.handle
  split
  · next hcall => exact triple_register hreq hcall
  · next hcall => exact triple_login hcall
  · refine hguarded fun _ => Guarantee.Triple.bind (triple_reads (Program.preserves_query () _)) ?_
    rintro (_ | _ | row) <;> exact triple_answer req rfl
  · refine hguarded fun _ => Guarantee.Triple.bind (triple_reads (Program.preserves_query () _)) ?_
    rintro (_ | _ | row) <;> exact triple_answer req rfl
  · exact hguarded fun _ => triple_getLLMSettings req _
  · next hcall => exact hguarded fun hlogin => triple_updateLLMSettings hreq hlogin hcall

theorem triple_program {req : UserReq} (hreq : requests req) :
    (accounting crypto secret requests).Triple (.top _) (req.program crypto secret)
      fun _ => .top _ := by
  refine Guarantee.Triple.bind (triple_handle hreq) fun reply => ?_
  refine Guarantee.Triple.bind (Q := fun _ => .top _)
    (Guarantee.Triple.update (fun s t hs hanswers ht => ?_) fun _ _ _ => trivial) fun _ =>
      Guarantee.Triple.pure fun _ _ _ => trivial
  obtain rfl := Option.some.inj ht
  exact ⟨UserStore.extends_send req reply, hs.send hreq hanswers, trivial⟩

/-! ## Runs -/

theorem moves_reads {α : Type} {p : UserProgram α} (h : p.Preserves id) :
    p.Moves UserStore.Extends :=
  h.moves fun s t heq => by
    obtain rfl : t = s := heq
    exact UserStore.Extends.refl t

theorem moves_setUserConfig (id : ℕ) (uid key value : String) :
    (setUserConfig id uid key value).Moves UserStore.Extends := by
  refine Program.Moves.bind (Program.moves_query UserStore.Extends.refl () _) ?_
  rintro (_ | _ | row)
  · exact Program.Moves.pure _
  · exact Program.moves_update UserStore.Extends.refl fun _ _ => UserStore.extends_createConfig
  · refine Program.moves_update UserStore.Extends.refl fun s t ht => ?_
    obtain rfl := Option.some.inj ht
    exact UserStore.extends_updateConfig row.id value id

theorem moves_getLLMSettings (uid : String) :
    (getLLMSettings uid).Moves UserStore.Extends :=
  Program.Moves.bind (moves_reads (preserves_getLLMConfig uid)) fun _ => Program.Moves.pure _

theorem moves_updateLLMSettings (id : ℕ) (uid : String) (update : UpdateLLMSettingsReq) :
    (updateLLMSettings id uid update).Moves UserStore.Extends := by
  unfold updateLLMSettings
  dsimp only
  split
  · exact Program.Moves.pure _
  refine Program.Moves.bind (moves_setUserConfig id uid _ _) fun ok => ?_
  cases ok
  · exact Program.Moves.pure _
  refine Program.Moves.bind (moves_setUserConfig id uid _ _) fun ok => ?_
  cases ok
  · exact Program.Moves.pure _
  refine Program.Moves.bind ?_ fun ok => ?_
  · unfold writeToken
    split
    · exact moves_setUserConfig id uid _ _
    · exact Program.Moves.pure _
  · cases ok
    · exact Program.Moves.pure _
    · exact moves_getLLMSettings uid

theorem moves_insertUser (id : ℕ) (username password salt : String) :
    (insertUser crypto secret id username password salt).Moves UserStore.Extends := by
  unfold insertUser
  split
  · exact Program.Moves.pure _
  · refine Program.Moves.bind (Program.moves_update UserStore.Extends.refl fun s t ht =>
      (UserStore.extends_createUser ht).1) fun ok => ?_
    cases ok <;> exact Program.Moves.pure _

theorem moves_register (id : ℕ) (username password salt : String) :
    (register crypto secret id username password salt).Moves UserStore.Extends := by
  unfold register
  dsimp only
  split_ifs
  · exact Program.Moves.pure _
  · exact Program.Moves.pure _
  · exact Program.Moves.pure _
  refine Program.Moves.bind (Program.moves_query UserStore.Extends.refl () _) ?_
  rintro (_ | _ | row)
  · exact moves_insertUser id _ password salt
  · exact moves_insertUser id _ password salt
  · exact Program.Moves.pure _

theorem moves_login (username password : String) :
    (login crypto secret username password).Moves UserStore.Extends := by
  unfold login
  split
  · exact Program.Moves.pure _
  refine Program.Moves.bind (Program.moves_query UserStore.Extends.refl () _) ?_
  rintro (_ | _ | row)
  · exact Program.Moves.pure _
  · exact Program.Moves.pure _
  · dsimp only
    split <;> exact Program.Moves.pure _

/-- Requests add rows and answers, and never take one away. -/
theorem moves_program (req : UserReq) : (req.program crypto secret).Moves UserStore.Extends := by
  have hguarded : ∀ {handler : String → UserProgram UserReply},
      (∀ uid, (handler uid).Moves UserStore.Extends) →
      (req.authenticated crypto secret handler).Moves UserStore.Extends := by
    intro handler hhandler
    unfold UserReq.authenticated
    split
    · exact Program.Moves.pure _
    · exact hhandler _
  refine Program.Moves.bind ?_ fun reply => Program.Moves.bind
    (Program.moves_update UserStore.Extends.refl fun s t ht => ?_) fun _ => Program.Moves.pure _
  · unfold UserReq.handle
    split
    · exact moves_register _ _ _ _
    · exact moves_login _ _
    · refine hguarded fun uid =>
        Program.Moves.bind (Program.moves_query UserStore.Extends.refl () _) ?_
      rintro (_ | _ | row) <;> exact Program.Moves.pure _
    · refine hguarded fun uid =>
        Program.Moves.bind (Program.moves_query UserStore.Extends.refl () _) ?_
      rintro (_ | _ | row) <;> exact Program.Moves.pure _
    · exact hguarded moves_getLLMSettings
    · exact hguarded fun uid => moves_updateLLMSettings _ uid _
  · obtain rfl := Option.some.inj ht
    exact UserStore.extends_send req reply

section Runs

variable {ok : UserPool → Pool.Event UserReq → Prop} {pool pool' : UserPool}

theorem extends_of_reachable
    (hreach : Transition.Reachable (UserPool.step crypto secret) ok { store := {} } pool)
    (hnext : Transition.Reachable (UserPool.step crypto secret) (fun _ _ => True) pool pool') :
    pool.store.Extends pool'.store := by
  have hthreads := Pool.moves_of_reachable UserStore.Extends.refl UserStore.Extends.trans
    moves_program (by simp) hreach
  exact (Pool.moves_of_reachable UserStore.Extends.refl UserStore.Extends.trans moves_program
    hthreads.2 hnext).1

theorem sound_of_reachable
    (hreach : Transition.Reachable (UserPool.step crypto secret) ok { store := {} } pool) :
    pool.store.Sound crypto secret (· ∈ pool.started) := by
  have hpermits : Transition.Reachable (UserPool.step crypto secret)
      (Pool.Permits (fun _ => True) (fun _ _ _ => True) fun _ => True) { store := {} } pool := by
    refine hreach.mono fun pool event _ => ?_
    cases event with
    | start req => trivial
    | advance i fails => exact fun _ _ _ _ => ⟨trivial, fun _ => trivial⟩
  have hstart : UserStore.Sound crypto secret (· ∈ pool.started) {} :=
    ⟨by simp, by simp, ⟨by simp, by simp, by simp⟩, by simp, by simp⟩
  exact (Guarantee.of_reachable (g := accounting crypto secret (· ∈ pool.started)) hstart
    (fun req hreq => triple_program hreq.2) (Pool.reachable_started hpermits)).1

end Runs

/-! ## Accounts -/

theorem UserReq.Proves.creates {req : UserReq} {row : UserInfo} (h : req.Proves crypto row)
    (hregister : req.IsRegister) : req.Creates crypto row := by
  rcases h with h | ⟨username, password, hcall, -, -⟩
  · exact h
  · obtain ⟨username', password', salt, hcall'⟩ := hregister
    exact absurd (hcall.symm.trans hcall') (by simp)

/-- In every interleaving of requests, with failing statements or without, a user belongs to one
registration, and tokens go to that request or to logins with an accepted password. -/
theorem accounts_of_reachable (crypto : Crypto) (secret : String) (pool : UserPool)
    (hreach : Transition.Reachable (UserPool.step crypto secret) (fun _ _ => True) { store := {} }
      pool) : Accounts crypto secret pool := by
  have hsound := sound_of_reachable hreach
  refine ⟨hsound.keyed, hsound.created, hsound.answers, ?_, fun pool' hnext =>
    (extends_of_reachable hreach hnext).users⟩
  intro entry hentry other hother hregister hregister' htoken htoken' huid
  obtain ⟨token, htoken⟩ := Option.isSome_iff_exists.mp htoken
  obtain ⟨token', htoken'⟩ := Option.isSome_iff_exists.mp htoken'
  obtain ⟨-, row, hrow, hrowuid, -, hproof⟩ := (hsound.answers entry hentry).2 token htoken
  obtain ⟨-, row', hrow', hrowuid', -, hproof'⟩ := (hsound.answers other hother).2 token' htoken'
  obtain rfl : row = row' := List.inj_on_of_nodup_map hsound.keyed hrow hrow'
    (hrowuid.trans (huid.trans hrowuid'.symm))
  obtain ⟨_, _, _, -, -, hcreator, -⟩ := hproof.creates hregister
  obtain ⟨_, _, _, -, -, hcreator', -⟩ := hproof'.creates hregister'
  exact hcreator.symm.trans hcreator'

/-- A hash that shows the password, and a code that shows the secret. -/
def openCrypto : Crypto where
  generateFromPassword password _ := some ("bcrypt:" ++ password)
  compareHashAndPassword hash password := hash = "bcrypt:" ++ password
  computeHMAC uid secret := uid ++ "/" ++ secret

def userPool (events : List (Pool.Event UserReq)) : UserPool :=
  Transition.after (UserPool.step openCrypto "s") { store := {} } events

/-- Two clients register one name, both before there is a row; the second one gets it. -/
def registerAtOnce : List (Pool.Event UserReq) :=
  [.start { id := 1, client := 1, call := .register "bob" "first" "x" },
    .start { id := 2, client := 2, call := .register " bob " "second" "y" },
    .advance 0 false, .advance 1 false, .advance 1 false, .advance 0 false, .advance 0 false,
    .advance 1 false]

theorem accounts_registerAtOnce : Accounts openCrypto "s" (userPool registerAtOnce) :=
  accounts_of_reachable openCrypto "s" _
    (Transition.Along.reachable (by decide +kernel) (by decide +kernel))

end MiniDrop
