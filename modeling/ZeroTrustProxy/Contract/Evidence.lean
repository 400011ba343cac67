import ZeroTrustProxy.Model.Proxy

/-!
What the history of one request shows.

A handler knows the rest of the system only through the replies it has had.
The definitions of this file read off a history, newest event first, what
those replies establish: that a login has checked a password, that a second
factor has been verified, that the gate has passed. They say nothing about
how the handlers are written; that every write a handler makes rests on such
evidence is shown in `Contract.Handlers`.
-/

namespace ZeroTrustProxy

open Concurrent JwtManager

variable (X : External) (srv : ProxyServer) (req : Request)

/-- The request carries a token that has been validated, with these claims. -/
def Bearer (h : List Event) (claims : Claims) : Prop :=
  ∃ token, extractTokenFromHeader ((req.header "authorization").getD "") = .ok token ∧
    .jwtDecode token (.ok claims) ∈ h

/-- The TOTP check has returned true for `code` against `secret`. -/
def CodeChecked (h : List Event) (secret code : String) : Prop :=
  ∃ bytes, X.decodeSecret secret = some bytes ∧
    .totpCheck (TotpManager.totpOf .default bytes) code (.ok true) ∈ h

/-- `handle_login` has authenticated `user`, with a second factor exactly when
the row asks for one. -/
structure LoginPassed (h : List Event) (body : LoginBody) (user : UserRow) (mfa : Bool) :
    Prop where
  route : req.route = .login
  parsed : ∃ bytes, req.body = some bytes ∧ X.parseLoginBody bytes = some body
  found : .findUserByUsername body.username (.ok (some user)) ∈ h
  active : user.isActive = true
  password : X.verifyPassword body.password user.passwordHash = .ok true
  mfa : mfa = user.mfaEnabled
  code : user.mfaEnabled = true → ∃ secret code,
    user.mfaSecret = some secret ∧ body.mfaToken = some code ∧ CodeChecked X h secret code

/-- `handle_mfa_verify` has checked a code against the secret in the row of the
token's subject. -/
structure MfaPassed (h : List Event) (claims : Claims) (user : UserRow) : Prop where
  route : req.route = .mfaVerify
  bearer : Bearer req h claims
  found : ∃ userId, X.parseUuid claims.sub = some userId ∧
    .findUserById userId (.ok (some user)) ∈ h
  code : ∃ secret body, user.mfaSecret = some secret ∧
    (∃ bytes, req.body = some bytes ∧ X.parseMfaVerifyBody bytes = some body) ∧
    CodeChecked X h secret body.mfaToken

variable {X srv req}

/-! Nothing that has been shown is lost when the history grows. -/

theorem Bearer.of_subset {h h' : List Event} {claims : Claims} (hb : Bearer req h claims)
    (hsub : h ⊆ h') : Bearer req h' claims := by
  obtain ⟨token, htoken, hmem⟩ := hb
  exact ⟨token, htoken, hsub hmem⟩

theorem Bearer.mono {h h' : List Event} {claims : Claims} (hb : Bearer req h claims)
    (hsub : h <:+ h') : Bearer req h' claims :=
  hb.of_subset hsub.subset

theorem CodeChecked.mono {h h' : List Event} {secret code : String}
    (hc : CodeChecked X h secret code) (hsub : h <:+ h') : CodeChecked X h' secret code := by
  obtain ⟨bytes, hbytes, hmem⟩ := hc
  exact ⟨bytes, hbytes, hsub.subset hmem⟩

theorem LoginPassed.mono {h h' : List Event} {body : LoginBody} {user : UserRow} {mfa : Bool}
    (hl : LoginPassed X req h body user mfa) (hsub : h <:+ h') :
    LoginPassed X req h' body user mfa :=
  { hl with
    found := hsub.subset hl.found
    code := fun henabled => by
      obtain ⟨secret, code, hsecret, htoken, hcode⟩ := hl.code henabled
      exact ⟨secret, code, hsecret, htoken, hcode.mono hsub⟩ }

theorem MfaPassed.mono {h h' : List Event} {claims : Claims} {user : UserRow}
    (hm : MfaPassed X req h claims user) (hsub : h <:+ h') : MfaPassed X req h' claims user where
  route := hm.route
  bearer := hm.bearer.mono hsub
  found := by
    obtain ⟨userId, hid, hfound⟩ := hm.found
    exact ⟨userId, hid, hsub.subset hfound⟩
  code := by
    obtain ⟨secret, body, hsecret, hbody, hcode⟩ := hm.code
    exact ⟨secret, body, hsecret, hbody, hcode.mono hsub⟩

variable (X srv req)

/-! ### Session records -/

/-- `Session::new` at the end of a login: its two calls and the record. -/
inductive SessionBuilt : List Event → UserRow → Bool → Session → Prop
  | intro {h : List Event} {body : LoginBody} {user : UserRow} {mfa : Bool} (now : Int)
      (id : Uuid) (deviceId userAgent : String) (login : LoginPassed X req h body user mfa)
      (bounds : Duration.inBounds (srv.config.sessionDurationMinutes * 60) = true) :
      SessionBuilt (.newUuid id :: .utcNow .sessionNew now :: h) user mfa
        (Session.build now id user.id.text deviceId req.remoteIp.text userAgent
          srv.config.sessionDurationMinutes)

variable {X srv req}

theorem SessionBuilt.mfaVerified {h : List Event} {user : UserRow} {mfa : Bool} {x : Session}
    (hb : SessionBuilt X srv req h user mfa x) : x.mfaVerified = false := by
  cases hb
  rfl

/-- A new session has the id that has just been drawn. -/
theorem SessionBuilt.drawn {h : List Event} {user : UserRow} {mfa : Bool} {x : Session}
    (hb : SessionBuilt X srv req h user mfa x) :
    ∃ id now l, h = .newUuid id :: .utcNow .sessionNew now :: l ∧ x.id = id.text ∧
      x.createdAt = now ∧
      x.expiresAt = now + Duration.minutes srv.config.sessionDurationMinutes := by
  cases hb
  exact ⟨_, _, _, rfl, rfl, rfl, rfl⟩

variable (X srv req)

/-- The first write of a session. -/
def createEvent (x : Session) (r : Except Fault Unit) : Event :=
  .redisSetEx (sessionKey x.id) (.session x) (asU64 (srv.config.sessionDurationMinutes * 60)) r

/-- What a login knows when it completes the record it has created. -/
def stamp (x : Session) (mfa : Bool) (risk : ℕ) : Session :=
  { x with mfaVerified := mfa, riskScore := risk }

def upgrade (x : Session) : Session := { x with mfaVerified := true }

/-- The writes of session records, with the history before the write, the
record and the expiry: a login creates the record and completes it, every
`get_session` writes back what it has read, and `handle_mfa_verify` sets the
flag on what `get_session` has returned. -/
inductive SessionWrite : List Event → Session → ℕ → Prop
  | created {h : List Event} {user : UserRow} {mfa : Bool} {x : Session}
      (built : SessionBuilt X srv req h user mfa x) :
      SessionWrite h x (asU64 (srv.config.sessionDurationMinutes * 60))
  | stamped {h : List Event} {user : UserRow} {mfa : Bool} {x : Session} (n : Int) (risk : ℕ)
      (built : SessionBuilt X srv req h user mfa x) (left : 0 < x.ttl n) :
      SessionWrite (.utcNow .sessionTtl n :: createEvent srv x (.ok ()) :: h) (stamp x mfa risk)
        (asU64 (x.ttl n))
  | touched {h : List Event} {claims : Claims} {x : Session} (n activity now : Int)
      (bearer : Bearer req h claims) (live : x.isExpired now = false) (left : 0 < x.ttl n) :
      SessionWrite
        (.utcNow .sessionTtl n :: .utcNow .updateActivity activity :: .utcNow .isExpired now ::
          .redisGet (sessionKey claims.sessionId) (.ok (some (.session x))) ::
          .getSessionCall claims.sessionId :: h)
        (x.updateActivity activity) (asU64 (x.ttl n))
  | upgraded {h : List Event} {claims : Claims} {user : UserRow} {x : Session} (n : Int)
      (passed : MfaPassed X req h claims user) (left : 0 < x.ttl n) :
      SessionWrite (.utcNow .sessionTtl n :: .getSessionReturn claims.sessionId (.ok x) :: h)
        (upgrade x) (asU64 (x.ttl n))

/-- The deletions of session records: `get_session` deletes what has expired,
`handle_logout` the session of its token, and `handle_logout_all` every live
session it has read of the token's subject. -/
inductive SessionDelete : List Event → String → Prop
  | expired {h : List Event} {claims : Claims} {x : Session} (now : Int)
      (bearer : Bearer req h claims) (expiry : x.isExpired now = true) :
      SessionDelete
        (.utcNow .isExpired now ::
          .redisGet (sessionKey claims.sessionId) (.ok (some (.session x))) ::
          .getSessionCall claims.sessionId :: h)
        (sessionKey claims.sessionId)
  | logout {h : List Event} {claims : Claims} (route : req.route = .logout)
      (bearer : Bearer req h claims) : SessionDelete h (sessionKey claims.sessionId)
  | logoutAll {h : List Event} {claims : Claims} {x : Session} (key : String)
      (route : req.route = .logoutAll) (bearer : Bearer req h claims)
      (read : .redisGet key (.ok (some (.session x))) ∈ h) (owner : x.userId = claims.sub) :
      SessionDelete h (sessionKey x.id)

/-- The events of `update_session`, and its result. -/
inductive UpdateRun (x : Session) : List Event → Except ProxyError Unit → Prop
  | skipped {n : Int} (none : x.ttl n ≤ 0) : UpdateRun x [.utcNow .sessionTtl n] (.ok ())
  | written {n : Int} (left : 0 < x.ttl n) :
      UpdateRun x
        [.redisSetEx (sessionKey x.id) (.session x) (asU64 (x.ttl n)) (.ok ()),
          .utcNow .sessionTtl n] (.ok ())
  | failed {n : Int} {f : Fault} (left : 0 < x.ttl n) :
      UpdateRun x
        [.redisSetEx (sessionKey x.id) (.session x) (asU64 (x.ttl n)) (.error f),
          .utcNow .sessionTtl n] (.error (.redisError f.text))

/-- The events of the body of `get_session`, and its result. -/
inductive FetchRun (id : String) : List Event → Except ProxyError Session → Prop
  | failed {f : Fault} :
      FetchRun id [.redisGet (sessionKey id) (.error f)] (.error (.redisError f.text))
  | missing :
      FetchRun id [.redisGet (sessionKey id) (.ok none)]
        (.error (.invalidSession "Session not found"))
  | unparsed {data : RedisValue} {e : String} (parse : data.parseSession X = .error e) :
      FetchRun id [.redisGet (sessionKey id) (.ok (some data))] (.error (.serializationError e))
  | expired {x : Session} {now : Int} {r : Except Fault Unit} (expiry : x.isExpired now = true) :
      FetchRun id
        [.redisDel (sessionKey id) r, .utcNow .isExpired now,
          .redisGet (sessionKey id) (.ok (some (.session x)))]
        (.error (match r with
          | .ok _ => .invalidSession "Session expired"
          | .error f => .redisError f.text))
  | live {x : Session} {now activity : Int} {update : List Event} {r : Except ProxyError Unit}
      (live : x.isExpired now = false) (run : UpdateRun (x.updateActivity activity) update r) :
      FetchRun id
        (update ++ [.utcNow .updateActivity activity, .utcNow .isExpired now,
          .redisGet (sessionKey id) (.ok (some (.session x)))])
        (r.map fun _ => x.updateActivity activity)

variable {X}

/-- What a `get_session` that returns a session has read, and when it found
the record unexpired. -/
theorem FetchRun.ok_inv {id : String} {body : List Event} {y : Session}
    (h : FetchRun X id body (.ok y)) :
    ∃ x now activity update, x.isExpired now = false ∧ y = x.updateActivity activity ∧
      UpdateRun y update (.ok ()) ∧
      body = update ++ [Event.utcNow .updateActivity activity, .utcNow .isExpired now,
        .redisGet (sessionKey id) (.ok (some (.session x)))] := by
  generalize hr : (Except.ok y : Except ProxyError Session) = r at h
  cases h with
  | @live x now activity update r live run =>
      cases r with
      | error e => simp [Except.map] at hr
      | ok u =>
          obtain rfl : y = x.updateActivity activity := by simpa [Except.map] using hr
          exact ⟨x, now, activity, update, live, rfl, run, rfl⟩
  | _ => simp at hr

variable (X)

/-! ### Revocation of all sessions -/

/-- The keys a SCAN has yielded. -/
def Yielded (h : List Event) (key : String) : Prop :=
  (∃ keys left, .redisScan (.ok (keys, left)) ∈ h ∧ key ∈ keys) ∨
    ∃ left keys, .redisScanNext left (.ok keys) ∈ h ∧ key ∈ keys

/-- The SCAN has come to its last page, or to a page that failed. -/
def ScanEnded (h : List Event) : Prop :=
  (∃ keys, .redisScan (.ok (keys, 0)) ∈ h) ∨ (∃ keys, .redisScanNext 1 (.ok keys) ∈ h) ∨
    ∃ left f, .redisScanNext left (.error f) ∈ h

theorem ScanEnded.mono {h h' : List Event} (hs : ScanEnded h) (hsub : h ⊆ h') : ScanEnded h' := by
  obtain ⟨keys, hmem⟩ | ⟨keys, hmem⟩ | ⟨left, f, hmem⟩ := hs
  · exact .inl ⟨keys, hsub hmem⟩
  · exact .inr (.inl ⟨keys, hsub hmem⟩)
  · exact .inr (.inr ⟨left, f, hsub hmem⟩)

/-- What the per-key loop of `get_user_sessions` has read and kept of the keys
it was given. -/
structure ReadsOf (userId : String) (keys : List String) (reads : List Event)
    (found : List Session) : Prop where
  quiet : ∀ e ∈ reads, (∃ key r, e = .redisGet key r) ∨ ∃ now, e = .utcNow .isExpired now
  visited : ∀ key ∈ keys, ∃ r, .redisGet key r ∈ reads
  owned : ∀ x ∈ found, x.userId = userId ∧ ∃ key, .redisGet key (.ok (some (.session x))) ∈ reads
  kept : ∀ key x, .redisGet key (.ok (some (.session x))) ∈ reads → x.userId = userId →
    (∃ now, .utcNow .isExpired now ∈ reads ∧ x.isExpired now = true) ∨ x ∈ found

theorem ReadsOf.nil (userId : String) : ReadsOf userId [] [] [] :=
  ⟨by simp, by simp, by simp, by simp⟩

theorem ReadsOf.append {userId : String} {keys keys' : List String} {reads reads' : List Event}
    {found found' : List Session} (h : ReadsOf userId keys reads found)
    (h' : ReadsOf userId keys' reads' found') :
    ReadsOf userId (keys ++ keys') (reads' ++ reads) (found ++ found') where
  quiet e he := (List.mem_append.mp he).elim (h'.quiet e) (h.quiet e)
  visited key hkey := by
    rcases List.mem_append.mp hkey with hkey | hkey
    · obtain ⟨r, hr⟩ := h.visited key hkey
      exact ⟨r, List.mem_append_right _ hr⟩
    · obtain ⟨r, hr⟩ := h'.visited key hkey
      exact ⟨r, List.mem_append_left _ hr⟩
  owned x hx := by
    rcases List.mem_append.mp hx with hx | hx
    · obtain ⟨hu, key, hread⟩ := h.owned x hx
      exact ⟨hu, key, List.mem_append_right _ hread⟩
    · obtain ⟨hu, key, hread⟩ := h'.owned x hx
      exact ⟨hu, key, List.mem_append_left _ hread⟩
  kept key x hread hu := by
    rcases List.mem_append.mp hread with hread | hread
    · rcases h'.kept key x hread hu with ⟨now, hnow, hover⟩ | hfound
      · exact .inl ⟨now, List.mem_append_left _ hnow, hover⟩
      · exact .inr (List.mem_append_right _ hfound)
    · rcases h.kept key x hread hu with ⟨now, hnow, hover⟩ | hfound
      · exact .inl ⟨now, List.mem_append_right _ hnow, hover⟩
      · exact .inr (List.mem_append_left _ hfound)

/-- What `revoke_user_sessions` has done when it returns a count. -/
structure RevokedAll (h : List Event) (userId : String) : Prop where
  scanned : ∃ l keys left token claims,
    h = l ++ [.redisScan (.ok (keys, left)), .jwtDecode token (.ok claims)]
  ended : ScanEnded h
  visited : ∀ key, Yielded h key → ∃ r, .redisGet key r ∈ h
  deleted : ∀ key x, .redisGet key (.ok (some (.session x))) ∈ h → x.userId = userId →
    (∃ now, .utcNow .isExpired now ∈ h ∧ x.isExpired now = true) ∨
      .redisDel (sessionKey x.id) (.ok ()) ∈ h

/-! ### Tokens, accounts and devices -/

/-- A token is signed at the end of a login, for the session that login has
created and completed. -/
structure TokenIssue (h : List Event) (claims : Claims) (h₀ update : List Event)
    (user : UserRow) (mfa : Bool) (x : Session) : Prop where
  built : SessionBuilt X srv req h₀ user mfa x
  created : ∃ risk, UpdateRun (stamp x mfa risk) update (.ok ()) ∧
    update ++ createEvent srv x (.ok ()) :: h₀ <:+ h ∧ claims.riskScore = risk
  sub : claims.sub = x.userId
  sessionId : claims.sessionId = x.id
  deviceId : claims.deviceId = x.deviceId
  mfa : claims.mfaVerified = mfa

/-- `handle_mfa_enroll` writes a fresh secret to the row of its token's
subject. -/
def SecretWrite (h : List Event) (userId : Uuid) (secret : String) : Prop :=
  req.route = .mfaEnroll ∧ .generateSecret secret ∈ h ∧
    ∃ claims, Bearer req h claims ∧ X.parseUuid claims.sub = some userId

/-- The device of a login, with the trust its stored row has. -/
def loginDevice (id : Uuid) (firstSeen lastSeen : Int) (user : UserRow)
    (existing : Option DeviceRow) : DeviceFingerprint :=
  (DeviceFingerprint.build X id firstSeen lastSeen user.id.text
    ((req.header "user-agent").getD "unknown") req.remoteIp.text .empty).restore existing

/-- The upserts of a login: a wrong password lowers the trust of its device, a
login that has passed raises that of a known one. -/
inductive DeviceWrite (h : List Event) : DeviceUpsert → Prop
  | refused {body : LoginBody} {user : UserRow} {id : Uuid} {firstSeen lastSeen : Int}
      {existing : Option DeviceRow} (route : req.route = .login)
      (found : .findUserByUsername body.username (.ok (some user)) ∈ h)
      (device : .findDeviceByFingerprint user.id
        (loginDevice X req id firstSeen lastSeen user none).fingerprintHash (.ok existing) ∈ h)
      (password : X.verifyPassword body.password user.passwordHash = .ok false) :
      DeviceWrite h (upsertOf req user
        ((loginDevice X req id firstSeen lastSeen user existing).decreaseTrust 15))
  | passed {body : LoginBody} {user : UserRow} {mfa : Bool} {id : Uuid}
      {firstSeen lastSeen : Int} {existing : Option DeviceRow}
      (login : LoginPassed X req h body user mfa)
      (device : .findDeviceByFingerprint user.id
        (loginDevice X req id firstSeen lastSeen user none).fingerprintHash (.ok existing) ∈ h) :
      DeviceWrite h (upsertOf req user
        (if existing.isSome then
          (loginDevice X req id firstSeen lastSeen user existing).increaseTrust 10
        else loginDevice X req id firstSeen lastSeen user existing))

/-! ### The gate -/

/-- The risk `evaluate_request_risk` has computed in this history. -/
def RequestRisk (h : List Event) (session : Session) (claims : Claims) (risk : RiskScore) : Prop :=
  ∃ id firstSeen lastSeen ageAt timestamp now,
    [.utcNow .deviceAge now, .utcNow .riskTimestamp timestamp, .utcNow .sessionAge ageAt,
      .utcNow .lastSeen lastSeen, .utcNow .firstSeen firstSeen, .newUuid id] <:+: h ∧
    risk = srv.riskEngine.calculateRisk now (requestContext X req session claims
      (DeviceFingerprint.build X id firstSeen lastSeen claims.sub session.userAgent
        req.remoteIp.text .empty) ageAt timestamp)

/-- `authorize` has let the request through. -/
structure GatePassed (h : List Event) (claims : Claims) (session : Session) (risk : RiskScore) :
    Prop where
  route : req.route = .proxied
  bearer : Bearer req h claims
  read : .getSessionReturn claims.sessionId (.ok session) ∈ h
  owner : session.userId = claims.sub
  policy : (srv.policyEngine.evaluate X.floats (policyContext req claims)).allowed = true
  mfa : srv.config.requireMfa = true → session.mfaVerified = true
  score : RequestRisk X srv req h session claims risk
  below : risk.totalScore < srv.config.blockThreshold
  stepUp : srv.config.stepUpThreshold ≤ risk.totalScore → session.mfaVerified = true

end ZeroTrustProxy
