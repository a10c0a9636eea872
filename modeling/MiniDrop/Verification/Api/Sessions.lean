import MiniDrop.Verification.Api.Accounts

/-! # Who acts for a user

CheckLogin asks for a token that only Register and Login give away, as long as there is a secret.
Without a secret everybody may act for everybody. -/

namespace MiniDrop

variable (crypto : Crypto) (secret : String)

/-! ## Statement -/

/-- Nobody presents a valid token who did not get it in an answer. -/
def NoForging (pool : UserPool) : Pool.Event UserReq → Prop
  | .start req => verifyHMAC crypto secret req.uid.value req.token.value = true →
      ∃ entry ∈ pool.store.sent, entry.1.client = req.client ∧
        entry.2.token = some req.token.value
  | .advance _ _ => True

instance (pool : UserPool) : ∀ event, Decidable (NoForging crypto secret pool event)
  | .start _ => inferInstanceAs (Decidable (_ = true → ∃ entry ∈ pool.store.sent, _))
  | .advance _ _ => .isTrue trivial

/-- The client was given a token of a user, having proved to know the password in their row. -/
def UserPool.Vouched (pool : UserPool) (client : ℕ) (uid : String) : Prop :=
  ∃ entry ∈ pool.store.sent, entry.1.client = client ∧ entry.2.uid = uid ∧
    entry.2.token.isSome ∧ ∃ row ∈ pool.store.users, row.uid = uid ∧ entry.1.Proves crypto row

structure Authentic (pool : UserPool) : Prop where
  letIn : ∀ req ∈ pool.started, checkLogin crypto secret req = none →
    pool.Vouched crypto req.client req.uid.value
  /-- Settings are written by those who act for their user. -/
  settings : ∀ row ∈ pool.store.configs, ∃ req ∈ pool.started, req.Writes crypto secret row ∧
    pool.Vouched crypto req.client row.uid

/-! ## With a secret -/

variable {crypto secret} {pool : UserPool}

/-- A token that somebody presents is still among the answers. -/
theorem presented_of_reachable
    (hreach : Transition.Reachable (UserPool.step crypto secret) (NoForging crypto secret)
      { store := {} } pool) :
    ∀ req ∈ pool.started, verifyHMAC crypto secret req.uid.value req.token.value = true →
      ∃ entry ∈ pool.store.sent, entry.1.client = req.client ∧
        entry.2.token = some req.token.value := by
  induction hreach with
  | start => simp
  | @next pool pool' event hreach hok hs ih =>
      have hext := extends_of_reachable hreach (.next event .start trivial hs)
      have hkept : ∀ {req : UserReq}, (∃ entry ∈ pool.store.sent, entry.1.client = req.client ∧
          entry.2.token = some req.token.value) → ∃ entry ∈ pool'.store.sent,
            entry.1.client = req.client ∧ entry.2.token = some req.token.value := by
        rintro req ⟨entry, hentry, hsame⟩
        exact ⟨entry, hext.sent.subset hentry, hsame⟩
      intro req hreq hvalid
      cases event with
      | start new =>
          have hstarted : pool'.started = pool.started ++ [new] := by
            rw [← Option.some.inj hs]
          rw [hstarted] at hreq
          rcases List.mem_append.mp hreq with hreq | hreq
          · exact hkept (ih req hreq hvalid)
          · obtain rfl := List.mem_singleton.mp hreq
            exact hkept (hok hvalid)
      | advance i fails =>
          have hstarted : pool'.started = pool.started := by
            simp only [UserPool.step, Pool.step, Option.bind_eq_bind,
              Option.bind_eq_some_iff] at hs
            obtain ⟨thread, _, ⟨thread', store⟩, _, hs⟩ := hs
            rw [← Option.some.inj hs]
          rw [hstarted] at hreq
          exact hkept (ih req hreq hvalid)

/-- What CheckLogin lets in under a secret carries the code of its user. -/
theorem verify_of_checkLogin (hsecret : secret ≠ "") {req : UserReq}
    (h : checkLogin crypto secret req = none) :
    verifyHMAC crypto secret req.uid.value req.token.value = true := by
  unfold checkLogin at h
  split_ifs at h with huid hinvalid
  by_contra hfalse
  exact hinvalid ⟨hsecret, Bool.not_eq_true _ ▸ hfalse⟩

theorem authentic_of_reachable
    (hsep : ∀ uid uid', crypto.computeHMAC uid secret = crypto.computeHMAC uid' secret → uid = uid')
    (hsecret : secret ≠ "")
    (hreach : Transition.Reachable (UserPool.step crypto secret) (NoForging crypto secret)
      { store := {} } pool) : Authentic crypto secret pool := by
  have hsound := sound_of_reachable hreach
  have hvouched : ∀ req ∈ pool.started, checkLogin crypto secret req = none →
      pool.Vouched crypto req.client req.uid.value := by
    intro req hreq hlogin
    have hverify := verify_of_checkLogin hsecret hlogin
    obtain ⟨entry, hentry, hclient, htoken⟩ := presented_of_reachable hreach req hreq hverify
    obtain ⟨hmac, row, hrow, huid, -, hproof⟩ := (hsound.answers entry hentry).2 _ htoken
    rw [verifyHMAC, decide_eq_true_iff] at hverify
    have hsame : entry.2.uid = req.uid.value := hsep _ _ (hmac.symm.trans hverify.2)
    exact ⟨entry, hentry, hclient, hsame, by rw [htoken]; rfl, row, hrow, huid.trans hsame, hproof⟩
  refine ⟨hvouched, fun row hrow => ?_⟩
  obtain ⟨req, hreq, hwrites⟩ := hsound.written row hrow
  exact ⟨req, hreq, hwrites, hwrites.2.1 ▸ hvouched req hreq hwrites.1⟩

theorem UserStore.Sound.firstUser {s : UserStore} {requests : UserReq → Prop}
    (hs : s.Sound crypto secret requests) {row : UserInfo} (hrow : row ∈ s.users) :
    s.firstUser row.uid = some row := by
  cases hfirst : s.firstUser row.uid with
  | none => exact absurd (List.find?_eq_none.mp hfirst row hrow) (by simp)
  | some found =>
      obtain ⟨hfound, huid⟩ := UserStore.mem_of_firstUser hfirst
      exact congrArg some (List.inj_on_of_nodup_map hs.keyed hfound hrow huid)

/-! ## Main theorems -/

/-- Sessions are authentic in every run if and only if there is a secret. -/
theorem authentic_iff
    (hsep : ∀ uid uid', crypto.computeHMAC uid secret = crypto.computeHMAC uid' secret →
      uid = uid') :
    (∀ pool : UserPool, Transition.Reachable (UserPool.step crypto secret)
      (NoForging crypto secret) { store := {} } pool → Authentic crypto secret pool) ↔
    secret ≠ "" := by
  constructor
  · rintro h rfl
    let stranger : UserReq := { id := 1, client := 1, call := .authCheck, uid := { cookie := "u" } }
    have hreach : Transition.Reachable (UserPool.step crypto "") (NoForging crypto "")
        { store := {} } { store := {}, threads := [⟨stranger.program crypto "", none⟩],
                          started := [stranger] } := by
      refine .next (.start stranger) .start (fun hvalid => ?_) rfl
      exact absurd hvalid (by simp [verifyHMAC, stranger, Credential.value, firstHeader])
    obtain ⟨entry, hentry, -⟩ := (h _ hreach).letIn stranger (List.mem_singleton_self _)
      (by simp [checkLogin, stranger, Credential.value, firstHeader])
    exact absurd hentry (by simp)
  · exact fun hsecret pool hreach => authentic_of_reachable hsep hsecret hreach

theorem authentic_iff_openCrypto : (∀ pool : UserPool,
    Transition.Reachable (UserPool.step openCrypto "s") (NoForging openCrypto "s") { store := {} }
      pool → Authentic openCrypto "s" pool) ↔ "s" ≠ "" := by
  refine authentic_iff fun uid uid' heq => ?_
  have hchars := congrArg String.toList heq
  rw [openCrypto, String.toList_append, String.toList_append, String.toList_append,
    String.toList_append] at hchars
  exact String.toList_inj.mp (List.append_cancel_right (List.append_cancel_right hchars))

/-- Whoever was told that they are registered can log in from then on. -/
theorem login_of_registered
    (hbcrypt : ∀ password salt hash, crypto.generateFromPassword password salt = some hash →
      crypto.compareHashAndPassword hash password = true)
    (hreach : Transition.Reachable (UserPool.step crypto secret) (fun _ _ => True) { store := {} }
      pool) {req : UserReq} {reply : UserReply} {username password salt : String}
    (hcall : req.call = .register username password salt) (hsent : (req, reply) ∈ pool.store.sent)
    (htoken : reply.token.isSome) :
    (login crypto secret username password).run pool.store =
      ({ status := 200
         code := 0
         uid := reply.uid
         userName := reply.userName
         token := some (crypto.computeHMAC reply.uid secret) }, pool.store) := by
  have hsound := sound_of_reachable hreach
  obtain ⟨token, htoken⟩ := Option.isSome_iff_exists.mp htoken
  obtain ⟨-, row, hrow, huid, hname, hproof⟩ := (hsound.answers _ hsent).2 token htoken
  obtain ⟨username', password', salt', hcall', hgiven, -, hrowuid, -, hhash⟩ :=
    hproof.creates ⟨username, password, salt, hcall⟩
  obtain ⟨rfl, rfl, rfl⟩ := UserCall.register.inj (hcall.symm.trans hcall')
  have hsame : uidOf (trimmed username) = reply.uid := hrowuid.symm.trans huid
  have hfound := hsound.firstUser hrow
  have haccepted := hbcrypt password salt row.passwordHash hhash
  rw [hrowuid] at hfound
  rw [login, if_neg hgiven]
  simp only [Program.run_bind, Program.run_query, hfound, haccepted, if_true, Program.run_pure]
  rw [hname, hsame]

/-- Bob logs in although another client tried to register his name. -/
theorem login_of_registered_bob :
    (login openCrypto "s" " bob " "second").run (userPool registerAtOnce).store =
      ({ status := 200
         code := 0
         uid := "user-bob"
         userName := "bob"
         token := some "user-bob/s" }, (userPool registerAtOnce).store) := by
  have hsent : (({ id := 2, client := 2, call := .register " bob " "second" "y" } : UserReq),
      (⟨200, 0, "user-bob", "bob", some "user-bob/s", none⟩ : UserReply)) ∈
        (userPool registerAtOnce).store.sent := by
    decide +kernel
  refine login_of_registered (fun _ _ _ h => ?_)
    (Transition.Along.reachable (by decide +kernel) (by decide +kernel)) rfl hsent rfl
  rw [← Option.some.inj h]
  exact decide_eq_true rfl

end MiniDrop
