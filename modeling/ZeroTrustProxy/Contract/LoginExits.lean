import ZeroTrustProxy.Contract.Exits

/-!
How `handle_login` ends.

A login passes its rate limit, finds its account and its device, and is then
decided: `LoginVerdict` lists the verdicts on a known device, and `LoginRun`
puts them behind the ways in which a login does not come that far.
-/

namespace ZeroTrustProxy

open Concurrent Program Handler SessionManager JwtManager TotpManager AuditLogger

variable {X : External} {srv : ProxyServer} {req : Request} {h : List Event}

/-! ### Rate limits and codes -/

/-- `check_rate_limit`. -/
inductive RateRun (key : String) (limit windowSecs : Int) :
    List Event → Except ProxyError Unit → Prop
  | failed {f : Fault} :
      RateRun key limit windowSecs [.redisIncr key (.error f)] (.error (.redisError f.text))
  | unset {f : Fault} :
      RateRun key limit windowSecs
        [.redisExpire key windowSecs (.error f), .redisIncr key (.ok 1)]
        (.error (.redisError f.text))
  | counted {n : Int} {window : List Event}
      (opened : (n = 1 ∧ window = [.redisExpire key windowSecs (.ok ())]) ∨ n ≠ 1 ∧ window = []) :
      RateRun key limit windowSecs (window ++ [.redisIncr key (.ok n)])
        (if n > limit then .error .rateLimitExceeded else .ok ())

theorem RateRun.error_cases {key : String} {limit windowSecs : Int} {e : ProxyError}
    (hr : RateRun key limit windowSecs h (.error e)) :
    (∃ s, e = .redisError s) ∨ e = .rateLimitExceeded := by
  generalize hx : (Except.error e : Except ProxyError Unit) = x at hr
  cases hr with
  | failed => exact .inl ⟨_, Except.error.inj hx⟩
  | unset => exact .inl ⟨_, Except.error.inj hx⟩
  | counted opened =>
      split at hx
      · exact .inr (Except.error.inj hx)
      · simp at hx

theorem checkRateLimit_ends {bucket : String} {limit windowSecs : Int}
    {r : Except ProxyError Unit}
    (hend : (checkRateLimit req.remoteIp bucket limit windowSecs).Ends h r) :
    RateRun (rateLimitKey bucket req.remoteIp) limit windowSecs h r := by
  have hcheck {n : Int} {h : List Event} {r : Except ProxyError Unit}
      (hend : (if n > limit then .throw .rateLimitExceeded else pure () : Handler Unit).Ends h r) :
      h = [] ∧ r = if n > limit then .error .rateLimitExceeded else .ok () := by
    by_cases hn : n > limit
    · simpa [hn] using hend
    · simpa [hn] using hend
  simp only [checkRateLimit, redisIncr, redisExpire, call_bind, ends_call, ends_unwrap_bind] at hend
  obtain ⟨x, h₁, rfl, ⟨n, rfl, hrest⟩ | ⟨f, rfl, rfl, rfl⟩⟩ := hend
  · by_cases hone : n = 1
    · subst hone
      simp only [if_true, ends_call, ends_unwrap_bind] at hrest
      obtain ⟨y, h₂, rfl, ⟨_, rfl, hlast⟩ | ⟨f, rfl, rfl, rfl⟩⟩ := hrest
      · obtain ⟨rfl, rfl⟩ := hcheck hlast
        exact .counted (n := 1) (.inl ⟨rfl, rfl⟩)
      · exact .unset
    · rw [if_neg hone] at hrest
      obtain ⟨rfl, rfl⟩ := hcheck hrest
      exact .counted (.inr ⟨hone, rfl⟩)
  · exact .failed

/-- `verify_token(..).unwrap_or(false)`; a secret that does not decode panics. -/
inductive CodeRun (X : External) (secret code : String) : List Event → Bool → Prop
  | unusable {bytes : List UInt8} {e : String} (decoded : X.decodeSecret secret = some bytes)
      (error : X.totpError (totpOf .default bytes) = some e) : CodeRun X secret code [] false
  | checked {bytes : List UInt8} {x : Except String Bool}
      (decoded : X.decodeSecret secret = some bytes)
      (usable : X.totpError (totpOf .default bytes) = none) :
      CodeRun X secret code [.totpCheck (totpOf .default bytes) code x] (decide (x = .ok true))

theorem verifyOrFalse_ends {secret code : String} {r : Except ProxyError Bool}
    (hend : (verifyOrFalse X secret code).Ends h r) :
    ∃ valid, r = .ok valid ∧ CodeRun X secret code h valid := by
  rcases ends_bind.mp hend with ⟨r', h₁, h₂, rfl, hattempt, hlast⟩ | ⟨e, -, hattempt⟩
  swap
  · obtain ⟨_, hok, -⟩ := ends_attempt.mp hattempt
    simp at hok
  obtain ⟨r'', heq, hverify⟩ := ends_attempt.mp hattempt
  obtain rfl := Except.ok.inj heq
  unfold verifyToken at hverify
  cases hbytes : X.decodeSecret secret with
  | none =>
      rw [hbytes] at hverify
      exact (ends_panic hverify).elim
  | some bytes =>
      simp only [hbytes] at hverify
      cases herror : X.totpError (totpOf .default bytes) with
      | some e =>
          simp only [herror, ends_throw] at hverify
          obtain ⟨rfl, rfl⟩ := hverify
          obtain ⟨rfl, rfl⟩ := ends_pure.mp hlast
          exact ⟨false, rfl, .unusable hbytes herror⟩
      | none =>
          simp only [herror, ends_call] at hverify
          obtain ⟨x, _, rfl, hx⟩ := hverify
          have hchecked : CodeRun X secret code [.totpCheck (totpOf .default bytes) code x]
              (decide (x = .ok true)) := .checked hbytes herror
          rcases x with e | _ | _
          · obtain ⟨rfl, rfl⟩ := ends_throw.mp hx
            obtain ⟨rfl, rfl⟩ := ends_pure.mp hlast
            exact ⟨false, rfl, hchecked⟩
          · obtain ⟨rfl, rfl⟩ := ends_throw.mp hx
            obtain ⟨rfl, rfl⟩ := ends_pure.mp hlast
            exact ⟨false, rfl, hchecked⟩
          · obtain ⟨rfl, rfl⟩ := ends_pure.mp hx
            obtain ⟨rfl, rfl⟩ := ends_pure.mp hlast
            exact ⟨true, rfl, hchecked⟩

/-- The MFA gate of a login. -/
inductive MfaRun (X : External) (user : UserRow) (body : LoginBody) :
    List Event → Except ProxyError Bool → Prop
  | notEnrolled (enabled : user.mfaEnabled = false) : MfaRun X user body [] (.ok false)
  | noSecret (enabled : user.mfaEnabled = true) (secret : user.mfaSecret = none) :
      MfaRun X user body [] (.error .mfaRequired)
  | noCode {secret : String} (enabled : user.mfaEnabled = true)
      (stored : user.mfaSecret = some secret) (code : body.mfaToken = none) :
      MfaRun X user body [] (.error .mfaRequired)
  | decided {secret code : String} {check : List Event} {valid : Bool}
      (enabled : user.mfaEnabled = true) (stored : user.mfaSecret = some secret)
      (given : body.mfaToken = some code) (checked : CodeRun X secret code check valid) :
      MfaRun X user body check (if valid then .ok true else .error .invalidMfaToken)

theorem MfaRun.error_cases {user : UserRow} {body : LoginBody} {e : ProxyError}
    (hm : MfaRun X user body h (.error e)) : e = .mfaRequired ∨ e = .invalidMfaToken := by
  generalize hx : (Except.error e : Except ProxyError Bool) = x at hm
  cases hm with
  | notEnrolled enabled => simp at hx
  | noSecret enabled secret => exact .inl (Except.error.inj hx)
  | noCode enabled stored code => exact .inl (Except.error.inj hx)
  | decided enabled stored given checked =>
      split at hx
      · simp at hx
      · exact .inr (Except.error.inj hx)

theorem loginMfa_ends {user : UserRow} {body : LoginBody} {r : Except ProxyError Bool}
    (hend : (loginMfa X user body).Ends h r) : MfaRun X user body h r := by
  cases henabled : user.mfaEnabled with
  | false =>
      simp only [loginMfa, henabled, Bool.false_eq_true, if_false, ends_pure] at hend
      obtain ⟨rfl, rfl⟩ := hend
      exact .notEnrolled henabled
  | true =>
      simp only [loginMfa, henabled, if_true, ends_okOr_bind] at hend
      obtain ⟨secret, hsecret, hcode⟩ | ⟨hnone, rfl, rfl⟩ := hend
      swap
      · exact .noSecret henabled hnone
      cases htoken : body.mfaToken with
      | none =>
          simp only [htoken, ends_throw] at hcode
          obtain ⟨rfl, rfl⟩ := hcode
          exact .noCode henabled hsecret htoken
      | some code =>
          simp only [htoken] at hcode
          rcases ends_bind.mp hcode with ⟨valid, h₁, h₂, rfl, hverify, hlast⟩ | ⟨e, -, hverify⟩
          swap
          · obtain ⟨_, hok, -⟩ := verifyOrFalse_ends hverify
            simp at hok
          obtain ⟨valid', heq, hchecked⟩ := verifyOrFalse_ends hverify
          obtain rfl := Except.ok.inj heq
          have hdecided := MfaRun.decided (X := X) henabled hsecret htoken hchecked
          cases valid with
          | false =>
              obtain ⟨rfl, rfl⟩ := ends_throw.mp hlast
              exact hdecided
          | true =>
              obtain ⟨rfl, rfl⟩ := ends_pure.mp hlast
              exact hdecided

/-! ### The device and its risk -/

/-- The upsert and the readings of `loginRisk`, and the score. -/
inductive LoginRiskRun (srv : ProxyServer) (req : Request) (user : UserRow)
    (device : DeviceFingerprint) (existing : Option DeviceRow) :
    List Event → Except ProxyError RiskScore → Prop
  | failed {lastSeen : Int} {f : Fault} :
      LoginRiskRun srv req user device existing
        [.upsertDevice (upsertOf req user
          (if existing.isSome then device.increaseTrust 10 else device)) (.error f),
          .utcNow .lastSeen lastSeen] (.error (.databaseError f.text))
  | scored (lastSeen timestamp now : Int) :
      LoginRiskRun srv req user device existing
        [.utcNow .deviceAge now, .utcNow .riskTimestamp timestamp,
          .upsertDevice (upsertOf req user
            (if existing.isSome then device.increaseTrust 10 else device)) (.ok ()),
          .utcNow .lastSeen lastSeen]
        (.ok (srv.riskEngine.calculateRisk now (loginContext user req
          { (if existing.isSome then device.increaseTrust 10 else device) with lastSeen := lastSeen }
          timestamp)))

theorem loginRisk_ends {user : UserRow} {device : DeviceFingerprint} {existing : Option DeviceRow}
    {r : Except ProxyError RiskScore}
    (hend : (loginRisk srv req user device existing).Ends h r) :
    LoginRiskRun srv req user device existing h r := by
  simp only [loginRisk, storeDevice, scoreRisk, upsertDevice, utcNow, call_bind, ret_bind,
    ends_call, ends_unwrap_bind, ends_pure] at hend
  obtain ⟨seen, _, rfl, x, _, rfl, hrest⟩ := hend
  obtain ⟨_, rfl, timestamp, _, rfl, now, _, rfl, rfl, rfl⟩ | ⟨f, rfl, rfl, rfl⟩ := hrest
  · exact .scored seen timestamp now
  · exact .failed

/-! ### Session and token -/

/-- `Session::new` and the first write. -/
inductive CreateRun (srv : ProxyServer) (req : Request) (user : UserRow)
    (deviceId userAgent : String) : List Event → Except ProxyError Session → Prop
  | intro (now : Int) (id : Uuid) (x : Except Fault Unit)
      (bounds : Duration.inBounds (srv.config.sessionDurationMinutes * 60) = true) :
      CreateRun srv req user deviceId userAgent
        [createEvent srv (Session.build now id user.id.text deviceId req.remoteIp.text userAgent
          srv.config.sessionDurationMinutes) x, .newUuid id, .utcNow .sessionNew now]
        ((x.mapError fun f => .redisError f.text).map fun _ => Session.build now id user.id.text
          deviceId req.remoteIp.text userAgent srv.config.sessionDurationMinutes)

theorem createSession_ends {user : UserRow} {deviceId userAgent : String}
    {r : Except ProxyError Session}
    (hend : (createSession srv.config.sessionDurationMinutes user.id.text deviceId
      req.remoteIp.text userAgent).Ends h r) : CreateRun srv req user deviceId userAgent h r := by
  simp only [createSession, newSession, utcNow, newUuid, redisSetEx, call_bind, ret_bind,
    ends_call] at hend
  obtain ⟨now, _, rfl, id, _, rfl, hrest⟩ := hend
  by_cases hbounds : Duration.inBounds (srv.config.sessionDurationMinutes * 60) = true
  · rw [if_pos hbounds] at hrest
    obtain ⟨x, _, rfl, hlast⟩ := hrest
    have hcreate : CreateRun srv req user deviceId userAgent _ _ := .intro now id x hbounds
    rcases ends_unwrap_bind.mp hlast with ⟨_, rfl, rfl, rfl⟩ | ⟨f, rfl, rfl, rfl⟩
    · exact hcreate
    · exact hcreate
  · rw [if_neg hbounds] at hrest
    obtain ⟨x, -⟩ := hrest
    exact x.elim

theorem CreateRun.error_cases {user : UserRow} {deviceId userAgent : String} {e : ProxyError}
    (hc : CreateRun srv req user deviceId userAgent h (.error e)) : ∃ s, e = .redisError s := by
  generalize hr : (Except.error e : Except ProxyError Session) = r at hc
  cases hc with
  | intro now id x bounds =>
      cases x with
      | ok u => simp [Except.map, Except.mapError] at hr
      | error f => exact ⟨_, Except.error.inj hr⟩

/-- The claims a login signs. -/
def loginClaims (srv : ProxyServer) (user : UserRow) (deviceId : String) (session : Session)
    (mfa : Bool) (now : Int) (jti : Uuid) : Claims where
  sub := user.id.text
  exp := timestamp (now + Duration.hours srv.config.jwtExpirationHours)
  iat := timestamp now
  jti := jti.text
  sessionId := session.id
  deviceId := deviceId
  riskScore := session.riskScore
  mfaVerified := mfa

/-- What a login is answered. -/
def loginAnswer (srv : ProxyServer) (user : UserRow) (mfa : Bool) (token : String) : Response :=
  ⟨200, .login
    { accessToken := token
      tokenType := "Bearer"
      expiresIn := srv.config.jwtExpirationHours * 3600
      mfaRequired := user.mfaEnabled && !mfa }⟩

/-- The session and the token of a login that has been let through. -/
inductive StartRun (X : External) (srv : ProxyServer) (req : Request) (user : UserRow)
    (deviceId userAgent : String) (mfa : Bool) (risk : RiskScore) :
    List Event → Except ProxyError Response → Prop
  | uncreated {create : List Event} {e : ProxyError}
      (created : CreateRun srv req user deviceId userAgent create (.error e)) :
      StartRun X srv req user deviceId userAgent mfa risk create (.error e)
  | unwritten {create update : List Event} {session : Session} {e : ProxyError}
      (created : CreateRun srv req user deviceId userAgent create (.ok session))
      (written : UpdateRun (stamp session mfa risk.totalScore) update (.error e)) :
      StartRun X srv req user deviceId userAgent mfa risk (update ++ create) (.error e)
  | signed {create update audit : List Event} {session : Session} (now : Int) (jti : Uuid)
      (x : Except String String)
      (created : CreateRun srv req user deviceId userAgent create (.ok session))
      (written : UpdateRun (stamp session mfa risk.totalScore) update (.ok ()))
      (audited : AuditRun X .authentication user.id.text .success audit)
      (bounds : Duration.inBounds (srv.config.jwtExpirationHours * 3600) = true) :
      StartRun X srv req user deviceId userAgent mfa risk
        (.jwtEncode (loginClaims srv user deviceId (stamp session mfa risk.totalScore) mfa now jti) x ::
          .newUuid jti :: .utcNow .tokenIssue now :: (audit ++ (update ++ create)))
        ((x.mapError .jwtError).map (loginAnswer srv user mfa))

theorem startSession_ends {user : UserRow} {deviceId userAgent : String} {mfa : Bool}
    {risk : RiskScore} {r : Except ProxyError Response}
    (hend : (startSession X srv req user deviceId userAgent mfa risk).Ends h r) :
    StartRun X srv req user deviceId userAgent mfa risk h r := by
  rcases ends_bind.mp hend with ⟨session, create, h₁, rfl, hcreate, hstamp⟩ | ⟨e, rfl, hcreate⟩
  swap
  · exact .uncreated (createSession_ends hcreate)
  have hcreated := createSession_ends hcreate
  rcases ends_bind.mp hstamp with ⟨_, update, h₂, rfl, hupdate, hafter⟩ | ⟨e, rfl, hupdate⟩
  swap
  · exact .unwritten hcreated (updateSession_ends hupdate)
  have hwritten := updateSession_ends hupdate
  rcases ends_bind.mp hafter with ⟨_, audit, h₃, rfl, hlog, htoken⟩ | ⟨e, -, hlog⟩
  swap
  · have hok := (logAuthentication_ends hlog).1
    simp at hok
  have haudit := (logAuthentication_ends hlog).2
  simp only [generateToken, jsonResponse, utcNow, newUuid, call_bind, ret_bind, ends_call] at htoken
  obtain ⟨now, _, rfl, hsign⟩ := htoken
  by_cases hbounds : Duration.inBounds (srv.config.jwtExpirationHours * 3600) = true
  · rw [if_pos hbounds] at hsign
    obtain ⟨jti, _, rfl, x, _, rfl, hlast⟩ := hsign
    have hsigned := StartRun.signed now jti x hcreated hwritten haudit hbounds
    rcases ends_mapErr_bind.mp hlast with ⟨token, rfl, hpure⟩ | ⟨e, rfl, rfl, rfl⟩
    · obtain ⟨rfl, rfl⟩ := ends_pure.mp hpure
      simp only [List.append_assoc]
      exact hsigned
    · simp only [List.append_assoc]
      exact hsigned
  · rw [if_neg hbounds] at hsign
    obtain ⟨x, -⟩ := hsign
    exact x.elim

/-- `openSession`, which draws a device id for a login that names none. -/
inductive OpenRun (X : External) (srv : ProxyServer) (req : Request) (body : LoginBody)
    (user : UserRow) (userAgent : String) (mfa : Bool) (risk : RiskScore) :
    List Event → Except ProxyError Response → Prop
  | named {deviceId : String} {session : List Event} {r : Except ProxyError Response}
      (given : body.deviceId = some deviceId)
      (started : StartRun X srv req user deviceId userAgent mfa risk session r) :
      OpenRun X srv req body user userAgent mfa risk session r
  | unnamed {id : Uuid} {session : List Event} {r : Except ProxyError Response}
      (given : body.deviceId = none)
      (started : StartRun X srv req user id.text userAgent mfa risk session r) :
      OpenRun X srv req body user userAgent mfa risk (session ++ [.newUuid id]) r

theorem StartRun.error_cases {user : UserRow} {deviceId userAgent : String} {mfa : Bool}
    {risk : RiskScore} {e : ProxyError}
    (hs : StartRun X srv req user deviceId userAgent mfa risk h (.error e)) :
    (∃ s, e = .redisError s) ∨ ∃ s, e = .jwtError s := by
  generalize hr : (Except.error e : Except ProxyError Response) = r at hs
  cases hs with
  | uncreated created =>
      obtain rfl := Except.error.inj hr
      exact .inl created.error_cases
  | unwritten created written =>
      obtain rfl := Except.error.inj hr
      exact .inl written.error_cases
  | signed now jti x created written audited bounds =>
      cases x with
      | ok token => simp [Except.map, Except.mapError] at hr
      | error e' => exact .inr ⟨_, Except.error.inj hr⟩

/-- A login is answered with the token it has signed. -/
theorem StartRun.answer {user : UserRow} {deviceId userAgent : String} {mfa : Bool}
    {risk : RiskScore} {o : Response}
    (hs : StartRun X srv req user deviceId userAgent mfa risk h (.ok o)) :
    ∃ token, o = loginAnswer srv user mfa token := by
  generalize hr : (Except.ok o : Except ProxyError Response) = r at hs
  cases hs with
  | uncreated created => simp at hr
  | unwritten created written => simp at hr
  | signed now jti x created written audited bounds =>
      cases x with
      | ok token => exact ⟨token, Except.ok.inj hr⟩
      | error e' => simp [Except.map, Except.mapError] at hr

theorem OpenRun.answer {body : LoginBody} {user : UserRow} {userAgent : String} {mfa : Bool}
    {risk : RiskScore} {o : Response}
    (ho : OpenRun X srv req body user userAgent mfa risk h (.ok o)) :
    ∃ token, o = loginAnswer srv user mfa token := by
  cases ho with
  | named given started => exact started.answer
  | unnamed given started => exact started.answer

theorem OpenRun.error_cases {body : LoginBody} {user : UserRow} {userAgent : String} {mfa : Bool}
    {risk : RiskScore} {e : ProxyError}
    (ho : OpenRun X srv req body user userAgent mfa risk h (.error e)) :
    (∃ s, e = .redisError s) ∨ ∃ s, e = .jwtError s := by
  cases ho with
  | named given started => exact started.error_cases
  | unnamed given started => exact started.error_cases

theorem openSession_ends {body : LoginBody} {user : UserRow} {userAgent : String} {mfa : Bool}
    {risk : RiskScore} {r : Except ProxyError Response}
    (hend : (openSession X srv req body user userAgent mfa risk).Ends h r) :
    OpenRun X srv req body user userAgent mfa risk h r := by
  cases hdevice : body.deviceId with
  | some deviceId =>
      simp only [openSession, hdevice] at hend
      exact .named hdevice (startSession_ends hend)
  | none =>
      simp only [openSession, hdevice, newUuid, call_bind, ret_bind, ends_call] at hend
      obtain ⟨id, session, rfl, hstart⟩ := hend
      exact .unnamed hdevice (startSession_ends hstart)

/-! ### The whole login -/

/-- The verdicts of a login on a known account and device. -/
inductive LoginVerdict (X : External) (srv : ProxyServer) (req : Request) (body : LoginBody)
    (user : UserRow) (device : DeviceFingerprint) (existing : Option DeviceRow) :
    List Event → Except ProxyError Response → Prop
  | unverifiable {e : String} (password : X.verifyPassword body.password user.passwordHash = .error e) :
      LoginVerdict X srv req body user device existing [] (.error (.authenticationFailed e))
  | refusalFailed {f : Fault}
      (password : X.verifyPassword body.password user.passwordHash = .ok false) :
      LoginVerdict X srv req body user device existing
        [.upsertDevice (upsertOf req user (device.decreaseTrust 15)) (.error f)]
        (.error (.databaseError f.text))
  | refused {audit : List Event}
      (password : X.verifyPassword body.password user.passwordHash = .ok false)
      (audited : AuditRun X .authentication user.id.text .failure audit) :
      LoginVerdict X srv req body user device existing
        (audit ++ [.upsertDevice (upsertOf req user (device.decreaseTrust 15)) (.ok ())])
        (.error (.authenticationFailed "invalid credentials"))
  | mfaRefused {check : List Event} {e : ProxyError}
      (password : X.verifyPassword body.password user.passwordHash = .ok true)
      (gate : MfaRun X user body check (.error e)) :
      LoginVerdict X srv req body user device existing check (.error e)
  | riskFailed {check scores : List Event} {mfa : Bool} {e : ProxyError}
      (password : X.verifyPassword body.password user.passwordHash = .ok true)
      (gate : MfaRun X user body check (.ok mfa))
      (scored : LoginRiskRun srv req user device existing scores (.error e)) :
      LoginVerdict X srv req body user device existing (scores ++ check) (.error e)
  | blocked {check scores audit : List Event} {mfa : Bool} {risk : RiskScore}
      (password : X.verifyPassword body.password user.passwordHash = .ok true)
      (gate : MfaRun X user body check (.ok mfa))
      (scored : LoginRiskRun srv req user device existing scores (.ok risk))
      (block : risk.recommendation = .block)
      (audited : AuditRun X .authentication user.id.text .failure audit) :
      LoginVerdict X srv req body user device existing (audit ++ (scores ++ check))
        (.error (.riskThresholdExceeded risk.totalScore srv.config.blockThreshold))
  | opened {check scores session : List Event} {mfa : Bool} {risk : RiskScore}
      {r : Except ProxyError Response}
      (password : X.verifyPassword body.password user.passwordHash = .ok true)
      (gate : MfaRun X user body check (.ok mfa))
      (scored : LoginRiskRun srv req user device existing scores (.ok risk))
      (block : risk.recommendation ≠ .block)
      (opened : OpenRun X srv req body user ((req.header "user-agent").getD "unknown") mfa risk
        session r) :
      LoginVerdict X srv req body user device existing (session ++ (scores ++ check)) r

/-- The events of a login up to its verdict. -/
def loginLookups (X : External) (req : Request) (body : LoginBody) (user : UserRow) (id : Uuid)
    (firstSeen lastSeen : Int) (found : Except Fault (Option DeviceRow)) (rate : List Event) :
    List Event :=
  .findDeviceByFingerprint user.id (loginDevice X req id firstSeen lastSeen user none).fingerprintHash
      found :: .utcNow .lastSeen lastSeen :: .utcNow .firstSeen firstSeen :: .newUuid id ::
    .findUserByUsername body.username (.ok (some user)) :: rate

/-- The body of the request is that of a login. -/
def ParsesLogin (X : External) (req : Request) (body : LoginBody) : Prop :=
  ∃ bytes, req.body = some bytes ∧ X.parseLoginBody bytes = some body

theorem ParsesLogin.unique {body body' : LoginBody} (h : ParsesLogin X req body)
    (h' : ParsesLogin X req body') : body = body' := by
  obtain ⟨bytes, hbytes, hparse⟩ := h
  obtain ⟨bytes', hbytes', hparse'⟩ := h'
  obtain rfl := Option.some.inj (hbytes.symm.trans hbytes')
  exact Option.some.inj (hparse.symm.trans hparse')

/-- Every way in which a login ends. -/
inductive LoginRun (X : External) (srv : ProxyServer) (req : Request) :
    List Event → Except ProxyError Response → Prop
  | limited {rate : List Event} {e : ProxyError}
      (rated : RateRun (rateLimitKey "login" req.remoteIp) 10 300 rate (.error e)) :
      LoginRun X srv req rate (.error e)
  | unread {rate : List Event}
      (rated : RateRun (rateLimitKey "login" req.remoteIp) 10 300 rate (.ok ()))
      (body : req.body = none) : LoginRun X srv req rate (.error .internalError)
  | malformed {rate : List Event} {bytes : String}
      (rated : RateRun (rateLimitKey "login" req.remoteIp) 10 300 rate (.ok ()))
      (body : req.body = some bytes) (parse : X.parseLoginBody bytes = none) :
      LoginRun X srv req rate (.error (.authenticationFailed "invalid request body"))
  | lookupFailed {rate : List Event} {body : LoginBody} {f : Fault}
      (rated : RateRun (rateLimitKey "login" req.remoteIp) 10 300 rate (.ok ()))
      (parsed : ParsesLogin X req body) :
      LoginRun X srv req (.findUserByUsername body.username (.error f) :: rate)
        (.error (.databaseError f.text))
  | unknown {rate : List Event} {body : LoginBody} {found : Option UserRow}
      (rated : RateRun (rateLimitKey "login" req.remoteIp) 10 300 rate (.ok ()))
      (parsed : ParsesLogin X req body) (inactive : found.filter (·.isActive) = none) :
      LoginRun X srv req (.findUserByUsername body.username (.ok found) :: rate)
        (.error (.authenticationFailed "invalid credentials"))
  | deviceFailed {rate : List Event} {body : LoginBody} {user : UserRow} {f : Fault} (id : Uuid)
      (firstSeen lastSeen : Int)
      (rated : RateRun (rateLimitKey "login" req.remoteIp) 10 300 rate (.ok ()))
      (parsed : ParsesLogin X req body) (active : user.isActive = true) :
      LoginRun X srv req (loginLookups X req body user id firstSeen lastSeen (.error f) rate)
        (.error (.databaseError f.text))
  | decided {rate verdict : List Event} {body : LoginBody} {user : UserRow}
      {existing : Option DeviceRow} {r : Except ProxyError Response} (id : Uuid)
      (firstSeen lastSeen : Int)
      (rated : RateRun (rateLimitKey "login" req.remoteIp) 10 300 rate (.ok ()))
      (parsed : ParsesLogin X req body) (active : user.isActive = true)
      (decision : LoginVerdict X srv req body user
        (loginDevice X req id firstSeen lastSeen user existing) existing verdict r) :
      LoginRun X srv req
        (verdict ++ loginLookups X req body user id firstSeen lastSeen (.ok existing) rate) r

/-- The part of `handle_login` after its lookups. -/
def decideLogin (X : External) (srv : ProxyServer) (req : Request) (body : LoginBody)
    (user : UserRow) (device : DeviceFingerprint) (existing : Option DeviceRow) :
    Handler Response := do
  let passwordOk ← mapErr .authenticationFailed (X.verifyPassword body.password user.passwordHash)
  if !passwordOk then refusePassword X req body user device
  else do
    let mfaVerified ← loginMfa X user body
    let risk ← loginRisk srv req user device existing
    if risk.recommendation = .block then do
      ignore (logAuthentication X user.id.text device.id req.remoteIp.text false)
      .throw (.riskThresholdExceeded risk.totalScore srv.config.blockThreshold)
    else
      openSession X srv req body user ((req.header "user-agent").getD "unknown") mfaVerified risk

theorem decideLogin_ends {body : LoginBody} {user : UserRow} {device : DeviceFingerprint}
    {existing : Option DeviceRow} {r : Except ProxyError Response}
    (hend : (decideLogin X srv req body user device existing).Ends h r) :
    LoginVerdict X srv req body user device existing h r := by
  rcases ends_mapErr_bind.mp hend with ⟨valid, hpassword, hdecide⟩ | ⟨e, hpassword, rfl, rfl⟩
  swap
  · exact .unverifiable hpassword
  cases valid with
  | false =>
      simp only [Bool.not_false, if_true, refusePassword, storeDevice, upsertDevice, call_bind,
        ends_call, ends_unwrap_bind] at hdecide
      obtain ⟨x, h₁, rfl, ⟨_, rfl, hlogged⟩ | ⟨f, rfl, rfl, rfl⟩⟩ := hdecide
      · rcases ends_bind.mp hlogged with ⟨_, audit, h₂, rfl, hlog, rfl, rfl⟩ | ⟨e, -, hlog⟩
        · exact .refused hpassword (logAuthentication_ends hlog).2
        · have hok := (logAuthentication_ends hlog).1
          simp at hok
      · exact .refusalFailed hpassword
  | true =>
      simp only [Bool.not_true, Bool.false_eq_true, if_false] at hdecide
      rcases ends_bind.mp hdecide with ⟨mfa, check, h₁, rfl, hgate, hscore⟩ | ⟨e, rfl, hgate⟩
      swap
      · exact .mfaRefused hpassword (loginMfa_ends hgate)
      have hpassed := loginMfa_ends hgate
      rcases ends_bind.mp hscore with ⟨risk, scores, h₂, rfl, hrisk, hlast⟩ | ⟨e, rfl, hrisk⟩
      swap
      · exact .riskFailed hpassword hpassed (loginRisk_ends hrisk)
      have hscored := loginRisk_ends hrisk
      rw [List.append_assoc]
      rcases ends_ite.mp hlast with ⟨hblock, hlogged⟩ | ⟨hblock, hopen⟩
      · rcases ends_bind.mp hlogged with ⟨_, audit, h₃, rfl, hlog, rfl, rfl⟩ | ⟨e, -, hlog⟩
        · exact .blocked hpassword hpassed hscored hblock (logAuthentication_ends hlog).2
        · have hok := (logAuthentication_ends hlog).1
          simp at hok
      · exact .opened hpassword hpassed hscored hblock (openSession_ends hopen)

theorem handleLogin_ends {r : Except ProxyError Response}
    (hend : (handleLogin X srv req).Ends h r) : LoginRun X srv req h r := by
  rcases ends_bind.mp hend with ⟨_, rate, h₁, rfl, hrate, hread⟩ | ⟨e, rfl, hrate⟩
  swap
  · exact .limited (checkRateLimit_ends hrate)
  have hrated := checkRateLimit_ends hrate
  rcases ends_okOr_bind.mp hread with ⟨bytes, hbytes, hparse⟩ | ⟨hnone, rfl, rfl⟩
  swap
  · exact .unread hrated hnone
  rcases ends_okOr_bind.mp hparse with ⟨body, hbody, hlookup⟩ | ⟨hnone, rfl, rfl⟩
  swap
  · exact .malformed hrated hbytes hnone
  have hparsed : ParsesLogin X req body := ⟨bytes, hbytes, hbody⟩
  simp only [findUserByUsername, call_bind, ends_call, ends_unwrap_bind] at hlookup
  obtain ⟨x, h₂, rfl, ⟨found, rfl, hfound⟩ | ⟨f, rfl, rfl, rfl⟩⟩ := hlookup
  swap
  · exact .lookupFailed hrated hparsed
  rcases ends_okOr_bind.mp hfound with ⟨user, huser, hdevice⟩ | ⟨hnone, rfl, rfl⟩
  swap
  · exact .unknown hrated hparsed hnone
  obtain ⟨rfl, hactive⟩ := Option.filter_eq_some_iff.mp huser
  simp only [newDevice, newUuid, utcNow, findDeviceByFingerprint, call_bind, ret_bind,
    ends_call] at hdevice
  obtain ⟨id, h₃, rfl, first, h₄, rfl, last, h₅, rfl, y, h₆, rfl, hknown⟩ := hdevice
  rcases ends_unwrap_bind.mp hknown with ⟨existing, rfl, hverdict⟩ | ⟨f, rfl, rfl, rfl⟩
  · have hdecided : LoginRun X srv req _ _ :=
      .decided id first last hrated hparsed hactive (decideLogin_ends hverdict)
    simp only [List.append_assoc]
    exact hdecided
  · exact .deviceFailed id first last hrated hparsed hactive

theorem LoginRun.answer {o : Response} (hl : LoginRun X srv req h (.ok o)) :
    ∃ user mfa token, o = loginAnswer srv user mfa token := by
  cases hl with
  | decided id firstSeen lastSeen rated parsed active decision =>
      cases decision with
      | @opened check scores session mfa risk _ password gate scored block opened =>
          obtain ⟨token, rfl⟩ := opened.answer
          exact ⟨_, mfa, token, rfl⟩

end ZeroTrustProxy
