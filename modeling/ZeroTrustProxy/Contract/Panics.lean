import ZeroTrustProxy.Contract.LoginExits

/-!
Where the handlers panic.

A request whose handler panics is not answered. `authorize`, `forwardUpstream`
and the enrolment never panic; `handle_login` does where a stored secret does
not decode and where `chrono` cannot hold a configured lifetime.
-/

namespace ZeroTrustProxy

open Concurrent Program Handler SessionManager JwtManager TotpManager AuditLogger

variable {X : External} {srv : ProxyServer} {req : Request} {h : List Event} {α β : Type}

/-- The program does not come to a panic. -/
abbrev Panicless (p : Handler α) : Prop := Program.Never Cmd.panic p

/-! ### Single calls -/

theorem unwrap_panicless {err : String → ProxyError} {r : Except Fault α} :
    Panicless (unwrap err r) := by
  cases r with
  | ok a => exact never_ret
  | error f => exact never_throw

theorem okOr_panicless {e : ProxyError} {x : Option α} : Panicless (okOr e x) := by
  cases x with
  | some a => exact never_ret
  | none => exact never_throw

theorem mapErr_panicless {err : String → ProxyError} {r : Except String α} :
    Panicless (mapErr err r) := by
  cases r with
  | ok a => exact never_ret
  | error e => exact never_throw

theorem ignore_panicless {p : Handler α} (hp : Panicless p) : Panicless (ignore p) := by
  apply never_bind
  · exact never_attempt hp
  · exact fun _ => never_ret

theorem calls_okOr_bind {e : ProxyError} {x : Option α} {f : α → Handler β} {c : Cmd} :
    (okOr e x >>= f).Calls h c ↔ ∃ a, x = some a ∧ (f a).Calls h c := by
  cases x with
  | some a => simp [okOr, ret_bind]
  | none => simp [okOr, throw_bind]

theorem calls_mapErr_bind {err : String → ProxyError} {x : Except String α} {f : α → Handler β}
    {c : Cmd} : (mapErr err x >>= f).Calls h c ↔ ∃ a, x = .ok a ∧ (f a).Calls h c := by
  cases x with
  | ok a => simp [mapErr, ret_bind]
  | error e => simp [mapErr, throw_bind]

theorem calls_unwrap_bind {err : String → ProxyError} {x : Except Fault α} {f : α → Handler β}
    {c : Cmd} : (unwrap err x >>= f).Calls h c ↔ ∃ a, x = .ok a ∧ (f a).Calls h c := by
  cases x with
  | ok a => simp [unwrap, ret_bind]
  | error fault => simp [unwrap, throw_bind]

/-! ### The parts of the handlers -/

theorem checkRateLimit_panicless {ip : IpAddr} {bucket : String} {limit windowSecs : Int} :
    Panicless (checkRateLimit ip bucket limit windowSecs) := by
  apply never_bind
  · exact never_call nofun fun _ => unwrap_panicless
  intro count
  apply never_ite
  · apply never_bind
    · exact never_call nofun fun _ => unwrap_panicless
    · exact fun _ => never_ite never_throw never_ret
  · exact never_ite never_throw never_ret

theorem bearerClaims_panicless : Panicless (bearerClaims req) := by
  apply never_bind
  · exact never_ofExcept
  · exact fun _ => never_call nofun fun _ => mapErr_panicless

theorem updateSession_panicless {x : Session} : Panicless (updateSession x) := by
  apply never_bind
  · exact never_call nofun fun _ => never_ret
  intro now
  exact never_ite (never_call nofun fun _ => unwrap_panicless) never_ret

theorem fetchSession_panicless {id : String} : Panicless (fetchSession X id) := by
  apply never_bind
  · exact never_call nofun fun _ => unwrap_panicless
  intro data
  cases data with
  | none => exact never_throw
  | some serialized =>
      apply never_bind
      · exact mapErr_panicless
      intro session
      apply never_bind
      · exact never_call nofun fun _ => never_ret
      intro now
      apply never_ite
      · apply never_bind
        · exact never_call nofun fun _ => unwrap_panicless
        · exact fun _ => never_throw
      · apply never_bind
        · exact never_call nofun fun _ => never_ret
        intro activity
        apply never_bind
        · exact updateSession_panicless
        · exact fun _ => never_ret

theorem getSession_panicless {id : String} : Panicless (getSession X id) := by
  refine never_call nofun fun _ => ?_
  apply never_bind
  · exact never_attempt fetchSession_panicless
  · exact fun _ => never_call nofun fun _ => never_ofExcept

theorem newEvent_panicless {eventType : EventType} {userId deviceId : Option String}
    {ipAddress resource action : String} {outcome : Outcome} :
    Panicless (newEvent eventType userId deviceId ipAddress resource action outcome) := by
  apply never_bind
  · exact never_call nofun fun _ => never_ret
  intro id
  apply never_bind
  · exact never_call nofun fun _ => never_ret
  · exact fun _ => never_ret

theorem log_panicless {event : AuditEvent} : Panicless (log X event) := by
  unfold log
  split
  · exact never_call nofun fun _ => unwrap_panicless
  · apply never_bind
    · exact never_call nofun fun _ => never_ret
    · exact fun _ => never_call nofun fun _ => unwrap_panicless

theorem logAuthentication_panicless {userId deviceId ipAddress : String} {success : Bool} :
    Panicless (ignore (logAuthentication X userId deviceId ipAddress success)) :=
  ignore_panicless (never_bind newEvent_panicless fun _ => log_panicless)

theorem logAuthorization_panicless {userId ipAddress resource action : String} {allowed : Bool}
    {riskScore : ℕ} :
    Panicless (ignore (logAuthorization X userId ipAddress resource action allowed riskScore)) :=
  ignore_panicless (never_bind newEvent_panicless fun _ => log_panicless)

theorem logRiskEvaluation_panicless {userId deviceId ipAddress : String} {riskScore : ℕ}
    {factors : Json} :
    Panicless (ignore (logRiskEvaluation X userId deviceId ipAddress riskScore factors)) :=
  ignore_panicless (never_bind newEvent_panicless fun _ => log_panicless)

theorem newDevice_panicless {userId userAgent ipAddress : String} :
    Panicless (newDevice X userId userAgent ipAddress) := by
  apply never_bind
  · exact never_call nofun fun _ => never_ret
  intro id
  apply never_bind
  · exact never_call nofun fun _ => never_ret
  intro firstSeen
  apply never_bind
  · exact never_call nofun fun _ => never_ret
  · exact fun _ => never_ret

theorem scoreRisk_panicless {engine : RiskEngine} {context : RiskContext} :
    Panicless (scoreRisk engine context) :=
  never_bind (never_call nofun fun _ => never_ret) fun _ => never_ret

theorem evaluateRequestRisk_panicless {session : Session} {claims : Claims} :
    Panicless (evaluateRequestRisk X srv req session claims) := by
  apply never_bind
  · exact newDevice_panicless
  intro device
  apply never_bind
  · exact never_call nofun fun _ => never_ret
  intro ageAt
  apply never_bind
  · exact never_call nofun fun _ => never_ret
  · exact fun _ => scoreRisk_panicless

theorem gateRequest_panicless {session : Session} {claims : Claims} {risk : RiskScore} :
    Panicless (gateRequest X srv req session claims risk) := by
  apply never_ite
  · exact never_throw
  cases hrec : risk.recommendation with
  | block => exact never_bind logAuthorization_panicless fun _ => never_throw
  | stepUpAuth => exact never_ite never_throw logAuthorization_panicless
  | allow => exact logAuthorization_panicless

theorem authorize_panicless : Panicless (authorize X srv req) := by
  apply never_bind
  · exact bearerClaims_panicless
  intro claims
  apply never_bind
  · exact getSession_panicless
  intro session
  apply never_ite
  · exact never_throw
  apply never_ite
  · exact never_bind logAuthorization_panicless fun _ => never_throw
  apply never_bind
  · exact evaluateRequestRisk_panicless
  intro risk
  apply never_bind
  · exact logRiskEvaluation_panicless
  · exact fun _ => gateRequest_panicless

theorem forwardUpstream_panicless : Panicless (forwardUpstream X srv req) := by
  apply never_bind
  · exact okOr_panicless
  intro body
  apply never_bind
  · exact okOr_panicless
  intro uri
  apply never_bind
  · exact never_call nofun fun _ => mapErr_panicless
  · exact fun _ => never_ret

theorem handleMfaEnroll_panicless : Panicless (handleMfaEnroll X req) := by
  apply never_bind
  · exact bearerClaims_panicless
  intro claims
  apply never_bind
  · exact okOr_panicless
  intro userId
  apply never_bind
  · exact never_call nofun fun _ => unwrap_panicless
  intro found
  apply never_bind
  · exact okOr_panicless
  intro user
  apply never_bind
  · exact never_call nofun fun _ => never_ret
  intro secret
  apply never_bind
  · exact never_call nofun fun _ => unwrap_panicless
  · exact fun _ => never_ret

theorem loginRisk_panicless {user : UserRow} {device : DeviceFingerprint}
    {existing : Option DeviceRow} : Panicless (loginRisk srv req user device existing) := by
  apply never_bind
  · exact never_call nofun fun _ => never_ret
  intro lastSeen
  apply never_bind
  · exact never_call nofun fun _ => unwrap_panicless
  intro _
  apply never_bind
  · exact never_call nofun fun _ => never_ret
  · exact fun _ => scoreRisk_panicless

theorem refusePassword_panicless {body : LoginBody} {user : UserRow} {device : DeviceFingerprint} :
    Panicless (refusePassword X req body user device) := by
  apply never_bind
  · exact never_call nofun fun _ => unwrap_panicless
  intro _
  exact never_bind logAuthentication_panicless fun _ => never_throw

/-! ### Logins that panic -/

/-- A code cannot be checked against a secret that does not decode. -/
theorem verifyOrFalse_panics {secret code : String}
    (hcalls : (verifyOrFalse X secret code).Calls h .panic) :
    h = [] ∧ X.decodeSecret secret = none := by
  obtain hcalls | ⟨r, -, h₂, -, -, hrest⟩ := calls_bind.mp hcalls
  swap
  · cases r with
    | ok valid => exact (calls_pure hrest).elim
    | error e => exact (calls_pure hrest).elim
  have hverify := calls_attempt.mp hcalls
  unfold verifyToken at hverify
  cases hbytes : X.decodeSecret secret with
  | none =>
      simp only [hbytes] at hverify
      obtain ⟨rfl, -⟩ | ⟨x, -⟩ := hverify
      · exact ⟨rfl, rfl⟩
      · exact x.elim
  | some bytes =>
      exfalso
      simp only [hbytes] at hverify
      cases herror : X.totpError (totpOf .default bytes) with
      | some e => simp [herror] at hverify
      | none =>
          simp only [herror] at hverify
          obtain ⟨-, hne⟩ | ⟨x, _, -, hx⟩ := hverify
          · simp at hne
          · cases x with
            | error e => exact hx
            | ok valid =>
                cases valid with
                | true => exact hx
                | false => exact hx

/-- A login whose stored secret does not decode. -/
structure CodePanic (X : External) (user : UserRow) (body : LoginBody) : Prop where
  enabled : user.mfaEnabled = true
  secret : ∃ secret, user.mfaSecret = some secret ∧ X.decodeSecret secret = none
  code : body.mfaToken ≠ none

theorem loginMfa_panics {user : UserRow} {body : LoginBody}
    (hcalls : (loginMfa X user body).Calls h .panic) : h = [] ∧ CodePanic X user body := by
  cases henabled : user.mfaEnabled with
  | false => simp [loginMfa, henabled] at hcalls
  | true =>
      simp only [loginMfa, henabled, if_true, calls_okOr_bind] at hcalls
      obtain ⟨secret, hsecret, hcode⟩ := hcalls
      cases htoken : body.mfaToken with
      | none => simp [htoken] at hcode
      | some code =>
          simp only [htoken] at hcode
          obtain hverify | ⟨valid, -, h₂, -, -, hlast⟩ := calls_bind.mp hcode
          · obtain ⟨rfl, hnone⟩ := verifyOrFalse_panics hverify
            exact ⟨rfl, henabled, ⟨secret, hsecret, hnone⟩, by simp [htoken]⟩
          · exfalso
            cases valid with
            | true => exact hlast
            | false => exact hlast

/-- A session that cannot be built, or a token that cannot be: the lifetime is
one `chrono` cannot hold. -/
inductive StartPanic (X : External) (srv : ProxyServer) (req : Request) (user : UserRow)
    (deviceId userAgent : String) (mfa : Bool) (risk : RiskScore) : List Event → Prop
  | session (now : Int) (id : Uuid)
      (bounds : Duration.inBounds (srv.config.sessionDurationMinutes * 60) = false) :
      StartPanic X srv req user deviceId userAgent mfa risk [.newUuid id, .utcNow .sessionNew now]
  | token {create update audit : List Event} {session : Session} (now : Int)
      (created : CreateRun srv req user deviceId userAgent create (.ok session))
      (written : UpdateRun (stamp session mfa risk.totalScore) update (.ok ()))
      (audited : AuditRun X .authentication user.id.text .success audit)
      (bounds : Duration.inBounds (srv.config.jwtExpirationHours * 3600) = false) :
      StartPanic X srv req user deviceId userAgent mfa risk
        (.utcNow .tokenIssue now :: (audit ++ (update ++ create)))

theorem createSession_panics {user : UserRow} {deviceId userAgent : String}
    (hcalls : (createSession srv.config.sessionDurationMinutes user.id.text deviceId
      req.remoteIp.text userAgent).Calls h .panic) :
    ∃ now id, h = [.newUuid id, .utcNow .sessionNew now] ∧
      Duration.inBounds (srv.config.sessionDurationMinutes * 60) = false := by
  simp only [createSession, newSession, utcNow, newUuid, redisSetEx, call_bind, ret_bind,
    calls_call, reduceCtorEq, and_false, false_or] at hcalls
  obtain ⟨now, _, rfl, id, _, rfl, hrest⟩ := hcalls
  by_cases hbounds : Duration.inBounds (srv.config.sessionDurationMinutes * 60) = true
  · exfalso
    rw [if_pos hbounds] at hrest
    have hwrite : Panicless (Program.call (.redisSetEx (sessionKey (Session.build now id user.id.text
        deviceId req.remoteIp.text userAgent srv.config.sessionDurationMinutes).id) (.session
        (Session.build now id user.id.text deviceId req.remoteIp.text userAgent
          srv.config.sessionDurationMinutes)) (asU64 (srv.config.sessionDurationMinutes * 60)))
        (unwrap .redisError) >>= fun _ => pure (Session.build now id user.id.text deviceId
          req.remoteIp.text userAgent srv.config.sessionDurationMinutes)) :=
      never_bind (never_call (by simp) fun _ => unwrap_panicless) fun _ => never_ret
    exact hwrite _ hrest
  · rw [if_neg hbounds] at hrest
    obtain ⟨rfl, -⟩ | ⟨x, -⟩ := hrest
    · exact ⟨now, id, rfl, by simpa using hbounds⟩
    · exact x.elim

theorem startSession_panics {user : UserRow} {deviceId userAgent : String} {mfa : Bool}
    {risk : RiskScore}
    (hcalls : (startSession X srv req user deviceId userAgent mfa risk).Calls h .panic) :
    StartPanic X srv req user deviceId userAgent mfa risk h := by
  obtain hcreate | ⟨session, create, h₁, rfl, hcreate, hstamp⟩ := calls_bind.mp hcalls
  · obtain ⟨now, id, rfl, hbounds⟩ := createSession_panics hcreate
    exact .session now id hbounds
  have hcreated := createSession_ends hcreate
  obtain hupdate | ⟨_, update, h₂, rfl, hupdate, hafter⟩ := calls_bind.mp hstamp
  · exact (updateSession_panicless _ hupdate).elim
  have hwritten := updateSession_ends hupdate
  obtain hlog | ⟨_, audit, h₃, rfl, hlog, htoken⟩ := calls_bind.mp hafter
  · exact (logAuthentication_panicless _ hlog).elim
  have haudit := (logAuthentication_ends hlog).2
  simp only [generateToken, jsonResponse, utcNow, newUuid, call_bind, ret_bind, calls_call,
    reduceCtorEq, and_false, false_or] at htoken
  obtain ⟨now, _, rfl, hsign⟩ := htoken
  by_cases hbounds : Duration.inBounds (srv.config.jwtExpirationHours * 3600) = true
  · exfalso
    rw [if_pos hbounds] at hsign
    simp only [call_bind, calls_call, reduceCtorEq, and_false, false_or, calls_mapErr_bind] at hsign
    obtain ⟨jti, _, -, x, _, -, token, -, hlast⟩ := hsign
    exact hlast
  · rw [if_neg hbounds] at hsign
    obtain ⟨rfl, -⟩ | ⟨x, -⟩ := hsign
    · have hpanic : StartPanic X srv req user deviceId userAgent mfa risk _ :=
        .token now hcreated hwritten haudit (by simpa using hbounds)
      simp only [List.append_assoc]
      exact hpanic
    · exact x.elim

/-- Every way in which a login panics. -/
inductive LoginPanic (X : External) (srv : ProxyServer) (req : Request) : List Event → Prop
  | code {rate : List Event} {body : LoginBody} {user : UserRow} {existing : Option DeviceRow}
      (id : Uuid) (firstSeen lastSeen : Int)
      (rated : RateRun (rateLimitKey "login" req.remoteIp) 10 300 rate (.ok ()))
      (parsed : ParsesLogin X req body) (secret : CodePanic X user body) :
      LoginPanic X srv req (loginLookups X req body user id firstSeen lastSeen (.ok existing) rate)
  | start {rate check scores drawn session : List Event} {body : LoginBody} {user : UserRow}
      {existing : Option DeviceRow} {mfa : Bool} {risk : RiskScore} {deviceId : String} (id : Uuid)
      (firstSeen lastSeen : Int)
      (rated : RateRun (rateLimitKey "login" req.remoteIp) 10 300 rate (.ok ()))
      (parsed : ParsesLogin X req body) (gate : MfaRun X user body check (.ok mfa))
      (scored : LoginRiskRun srv req user (loginDevice X req id firstSeen lastSeen user existing)
        existing scores (.ok risk))
      (given : drawn = [] ∨ ∃ id, drawn = [.newUuid id])
      (started : StartPanic X srv req user deviceId ((req.header "user-agent").getD "unknown") mfa
        risk session) :
      LoginPanic X srv req (session ++ (drawn ++ (scores ++ (check ++
        loginLookups X req body user id firstSeen lastSeen (.ok existing) rate))))

theorem handleLogin_panics (hcalls : (handleLogin X srv req).Calls h .panic) :
    LoginPanic X srv req h := by
  obtain hrate | ⟨_, rate, h₁, rfl, hrate, hread⟩ := calls_bind.mp hcalls
  · exact (checkRateLimit_panicless _ hrate).elim
  have hrated := checkRateLimit_ends hrate
  obtain ⟨bytes, hbytes, hparse⟩ := calls_okOr_bind.mp hread
  obtain ⟨body, hbody, hlookup⟩ := calls_okOr_bind.mp hparse
  have hparsed : ParsesLogin X req body := ⟨bytes, hbytes, hbody⟩
  simp only [findUserByUsername, call_bind, calls_call, reduceCtorEq, and_false, false_or,
    calls_unwrap_bind] at hlookup
  obtain ⟨_, h₂, rfl, found, rfl, hfound⟩ := hlookup
  obtain ⟨user, huser, hdevice⟩ := calls_okOr_bind.mp hfound
  obtain ⟨rfl, hactive⟩ := Option.filter_eq_some_iff.mp huser
  simp only [newDevice, newUuid, utcNow, findDeviceByFingerprint, call_bind, ret_bind, calls_call,
    reduceCtorEq, and_false, false_or] at hdevice
  obtain ⟨id, h₃, rfl, first, h₄, rfl, last, h₅, rfl, hfind⟩ := hdevice
  obtain ⟨-, hne⟩ | ⟨y, h₆, rfl, hknown⟩ := hfind
  · simp at hne
  obtain ⟨existing, rfl, hverdict⟩ := calls_unwrap_bind.mp hknown
  obtain ⟨valid, hpassword, hdecide⟩ := calls_mapErr_bind.mp hverdict
  simp only [List.append_assoc]
  cases valid with
  | false =>
      simp only [Bool.not_false, if_true] at hdecide
      exact (refusePassword_panicless _ hdecide).elim
  | true =>
      simp only [Bool.not_true, Bool.false_eq_true, if_false] at hdecide
      obtain hgate | ⟨mfa, check, h₇, rfl, hgate, hscore⟩ := calls_bind.mp hdecide
      · obtain ⟨rfl, hsecret⟩ := loginMfa_panics hgate
        exact .code id first last hrated hparsed hsecret
      obtain hrisk | ⟨risk, scores, h₈, rfl, hrisk, hlast⟩ := calls_bind.mp hscore
      · exact (loginRisk_panicless _ hrisk).elim
      have hscored := loginRisk_ends hrisk
      by_cases hblock : risk.recommendation = .block
      · exfalso
        rw [if_pos hblock] at hlast
        exact never_bind logAuthentication_panicless (fun _ => never_throw) _ hlast
      · rw [if_neg hblock] at hlast
        have hstart {deviceId : String} {drawn session : List Event}
            (hgiven : drawn = [] ∨ ∃ id, drawn = [.newUuid id])
            (hcalls : (startSession X srv req user deviceId ((req.header "user-agent").getD "unknown")
              mfa risk).Calls session .panic) : LoginPanic X srv req (session ++ (drawn ++ (scores ++
                (check ++ loginLookups X req body user id first last (.ok existing) rate)))) :=
          .start id first last hrated hparsed (loginMfa_ends hgate) hscored hgiven
            (startSession_panics hcalls)
        simp only [List.append_assoc]
        cases hgiven : body.deviceId with
        | some deviceId =>
            simp only [openSession, hgiven] at hlast
            exact hstart (.inl rfl) hlast
        | none =>
            simp only [openSession, hgiven, newUuid, call_bind, ret_bind] at hlast
            obtain ⟨-, hne⟩ | ⟨drawn, session, rfl, hsession⟩ := hlast
            · simp at hne
            · simp only [List.append_assoc]
              exact hstart (.inr ⟨drawn, rfl⟩) hsession

end ZeroTrustProxy
