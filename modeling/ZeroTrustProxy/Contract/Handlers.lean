import ZeroTrustProxy.Contract.Evidence

/-!
The contract of the handlers.

`Licence` lists, for every call with an effect, the evidence on which a
handler makes it, and `Answer` what a handler has done when it answers 200.
The handlers are followed once, from top to bottom; everything that is proved
about runs afterwards uses the contract and never a handler's body.
-/

namespace ZeroTrustProxy

open Concurrent Program Handler SessionManager JwtManager TotpManager AuditLogger

/-- The calls a request may make after the history `h`. What is not listed
has no effect that a contract would have to bound. -/
def Licence (X : External) (srv : ProxyServer) (req : Request) (h : List Event) : Cmd → Prop
  | .redisSetEx key value secs =>
      ∃ x, key = sessionKey x.id ∧ value = .session x ∧ SessionWrite X srv req h x secs
  | .redisDel key => SessionDelete req h key
  | .redisIncr key => ∃ bucket, key = rateLimitKey bucket req.remoteIp
  | .redisExpire key _ => ∃ bucket, key = rateLimitKey bucket req.remoteIp
  | .upsertDevice d => DeviceWrite X req h d
  | .setUserMfaSecret id secret => SecretWrite X req h id secret
  | .createUser _ _ _ => req.route = .register
  | .jwtEncode claims => ∃ h₀ update user mfa x, TokenIssue X srv req h claims h₀ update user mfa x
  | .upstream _ => ∃ claims session risk, GatePassed X srv req h claims session risk
  | .getSessionCall id => ∃ claims, Bearer req h claims ∧ id = claims.sessionId
  | .getSessionReturn id r => ∃ body h₀, h = body ++ .getSessionCall id :: h₀ ∧ FetchRun X id body r
  | _ => True

/-- What a request has done when it is answered with a success. -/
def Answer (req : Request) (o : Response) (h : List Event) : Prop :=
  o.status = 200 →
    match req.route with
    | .login => ∃ claims token h₀, h = .jwtEncode claims (.ok token) :: h₀
    | .mfaVerify => ∃ claims x update h₀, Bearer req h₀ claims ∧
        UpdateRun (upgrade x) update (.ok ()) ∧
        h = update ++ .getSessionReturn claims.sessionId (.ok x) :: h₀
    | .logout => ∃ claims, Bearer req h claims ∧
        .redisDel (sessionKey claims.sessionId) (.ok ()) ∈ h
    | .logoutAll => ∃ claims, Bearer req h claims ∧ RevokedAll h claims.sub
    | _ => True

variable {X : External} {srv : ProxyServer} {req : Request} {α : Type} {h : List Event}

/-! ### Shared pieces -/

theorem bearerClaims_obeys {Q : Claims → List Event → Prop}
    (hQ : ∀ claims token, Bearer req (.jwtDecode token (.ok claims) :: h) claims →
      Q claims (.jwtDecode token (.ok claims) :: h)) :
    (bearerClaims req).Obeys (Licence X srv req) h Q (fun _ _ => True) := by
  simp only [bearerClaims, validateToken, obeys_bind, obeys_ofExcept, obeys_call, obeys_mapErr]
  refine ⟨fun token htoken => ⟨trivial, ?_⟩, fun _ _ => trivial⟩
  rintro (e | claims)
  · simp
  · refine ⟨?_, fun _ _ => trivial⟩
    rintro _ ⟨⟩
    exact hQ claims token ⟨token, htoken, List.mem_cons_self⟩

theorem checkRateLimit_obeys {bucket : String} {limit windowSecs : Int}
    {Q : Unit → List Event → Prop} (hQ : ∀ h', h <:+ h' → Q () h') :
    (checkRateLimit req.remoteIp bucket limit windowSecs).Obeys (Licence X srv req) h Q
      (fun _ _ => True) := by
  have hcount {h' : List Event} (hsub : h <:+ h') (count : Int) :
      (if count > limit then .throw .rateLimitExceeded else pure () : Handler Unit).Obeys
        (Licence X srv req) h' Q (fun _ _ => True) := by
    simp only [obeys_ite, obeys_throw, obeys_pure]
    exact ⟨fun _ => trivial, fun _ => hQ h' hsub⟩
  simp only [checkRateLimit, redisIncr, redisExpire, obeys_bind, obeys_call, obeys_unwrap]
  refine ⟨⟨bucket, rfl⟩, fun r => ⟨fun count _ => ?_, fun _ _ => trivial⟩⟩
  by_cases hone : count = 1
  · rw [if_pos hone]
    simp only [obeys_bind, obeys_call, obeys_unwrap]
    refine ⟨⟨bucket, rfl⟩, fun r' => ⟨fun _ _ => ?_, fun _ _ => trivial⟩⟩
    exact hcount (List.suffix_append [_, _] _) count
  · rw [if_neg hone]
    exact hcount (List.suffix_cons _ _) count

theorem verifyOrFalse_obeys {secret code : String} {Q : Bool → List Event → Prop}
    (hQ : ∀ valid h', h <:+ h' → (valid = true → CodeChecked X h' secret code) → Q valid h') :
    (verifyOrFalse X secret code).Obeys (Licence X srv req) h Q (fun _ _ => True) := by
  have hfalse {h' : List Event} (hsub : h <:+ h') : Q false h' :=
    hQ false h' hsub (fun hne => (Bool.false_ne_true hne).elim)
  simp only [verifyOrFalse, obeys_bind, obeys_attempt, obeys_pure, verifyToken]
  cases hbytes : X.decodeSecret secret with
  | none => exact obeys_panic.mpr trivial
  | some bytes =>
      cases herr : X.totpError (totpOf .default bytes) with
      | some e =>
          simp only [herr, obeys_throw]
          exact hfalse List.suffix_rfl
      | none =>
          simp only [herr, obeys_call]
          refine ⟨trivial, ?_⟩
          rintro (e | _ | _)
          · exact hfalse (List.suffix_cons _ _)
          · exact hfalse (List.suffix_cons _ _)
          · exact hQ true _ (List.suffix_cons _ _)
              fun _ => ⟨bytes, hbytes, List.mem_cons_self⟩

/-- The audit logger only adds to the history, whatever comes of it. -/
theorem log_obeys {event : AuditEvent} {Q : Unit → List Event → Prop}
    {E : ProxyError → List Event → Prop} (hQ : ∀ h', h <:+ h' → Q () h')
    (hE : ∀ e h', h <:+ h' → E e h') :
    (log X event).Obeys (Licence X srv req) h Q E := by
  simp only [log]
  split
  · simp only [insertAuditLog, obeys_call, obeys_unwrap]
    exact ⟨trivial, fun r => ⟨fun _ _ => hQ _ (List.suffix_cons _ _),
      fun _ _ => hE _ _ (List.suffix_cons _ _)⟩⟩
  · simp only [insertAuditLog, newUuid, obeys_bind, obeys_call, obeys_ret, obeys_unwrap]
    refine ⟨trivial, fun id => ⟨trivial, fun r => ?_⟩⟩
    have hsub : h <:+ .insertAuditLog (rowOf X event id) r :: .newUuid id :: h :=
      List.suffix_append [_, _] _
    exact ⟨fun _ _ => hQ _ hsub, fun _ _ => hE _ _ hsub⟩

theorem newEvent_obeys {eventType : EventType} {userId deviceId : Option String}
    {ipAddress resource action : String} {outcome : Outcome} {Q : AuditEvent → List Event → Prop}
    {E : ProxyError → List Event → Prop} (hQ : ∀ event h', h <:+ h' → Q event h') :
    (newEvent eventType userId deviceId ipAddress resource action outcome).Obeys
      (Licence X srv req) h Q E := by
  simp only [newEvent, newUuid, utcNow, obeys_bind, obeys_call, obeys_ret, obeys_pure]
  exact ⟨trivial, fun id => ⟨trivial, fun now =>
    hQ _ _ (List.suffix_append [_, _] _)⟩⟩

theorem logAuthentication_obeys {userId deviceId ipAddress : String} {success : Bool}
    {Q : List Event → Prop} (hQ : ∀ h', h <:+ h' → Q h') :
    (logAuthentication X userId deviceId ipAddress success).Obeys (Licence X srv req) h
      (fun _ => Q) (fun _ => Q) :=
  obeys_bind.mpr (newEvent_obeys fun _ _ h₁ =>
    log_obeys (fun h' h₂ => hQ h' (h₁.trans h₂)) fun _ h' h₂ => hQ h' (h₁.trans h₂))

theorem logAuthorization_obeys {userId ipAddress resource action : String} {allowed : Bool}
    {riskScore : ℕ} {Q : List Event → Prop} (hQ : ∀ h', h <:+ h' → Q h') :
    (logAuthorization X userId ipAddress resource action allowed riskScore).Obeys
      (Licence X srv req) h (fun _ => Q) (fun _ => Q) :=
  obeys_bind.mpr (newEvent_obeys fun _ _ h₁ =>
    log_obeys (fun h' h₂ => hQ h' (h₁.trans h₂)) fun _ h' h₂ => hQ h' (h₁.trans h₂))

theorem logRiskEvaluation_obeys {userId deviceId ipAddress : String} {riskScore : ℕ}
    {factors : Json} {Q : List Event → Prop} (hQ : ∀ h', h <:+ h' → Q h') :
    (logRiskEvaluation X userId deviceId ipAddress riskScore factors).Obeys (Licence X srv req) h
      (fun _ => Q) (fun _ => Q) :=
  obeys_bind.mpr (newEvent_obeys fun _ _ h₁ =>
    log_obeys (fun h' h₂ => hQ h' (h₁.trans h₂)) fun _ h' h₂ => hQ h' (h₁.trans h₂))

/-! ### Sessions -/

/-- `update_session`: its one write must be licensed whenever time is left. -/
theorem updateSession_obeys {x : Session} {Q : Unit → List Event → Prop}
    {E : ProxyError → List Event → Prop}
    (hL : ∀ n, 0 < x.ttl n →
      SessionWrite X srv req (.utcNow .sessionTtl n :: h) x (asU64 (x.ttl n)))
    (hQ : ∀ update, UpdateRun x update (.ok ()) → Q () (update ++ h))
    (hE : ∀ update e, UpdateRun x update (.error e) → E e (update ++ h)) :
    (updateSession x).Obeys (Licence X srv req) h Q E := by
  simp only [updateSession, utcNow, redisSetEx, obeys_bind, obeys_call, obeys_ret, obeys_ite,
    obeys_pure, obeys_unwrap]
  refine ⟨trivial, fun n => ⟨fun left => ⟨⟨x, rfl, rfl, hL n left⟩, ?_⟩, fun none => ?_⟩⟩
  · rintro (f | ⟨⟩)
    · refine ⟨by simp, ?_⟩
      rintro _ ⟨⟩
      exact hE _ _ (.failed left)
    · exact ⟨fun _ _ => hQ _ (.written left), by simp⟩
  · exact hQ _ (.skipped (by omega))

/-- The body of `get_session`, from the marked call on. -/
theorem fetchSession_obeys {claims : Claims} (hb : Bearer req h claims) :
    (fetchSession X claims.sessionId).Obeys (Licence X srv req)
      (.getSessionCall claims.sessionId :: h)
      (fun s h' => ∃ body, h' = body ++ Event.getSessionCall claims.sessionId :: h ∧
        FetchRun X claims.sessionId body (.ok s))
      (fun e h' => ∃ body, h' = body ++ Event.getSessionCall claims.sessionId :: h ∧
        FetchRun X claims.sessionId body (.error e)) := by
  simp only [fetchSession, redisGet, obeys_bind, obeys_call]
  refine ⟨trivial, ?_⟩
  rintro (f | _ | data)
  · exact ⟨_, rfl, .failed⟩
  · exact ⟨_, rfl, .missing⟩
  · simp only [unwrap, obeys_ret, obeys_bind, obeys_mapErr]
    refine ⟨fun x hx => ?_, fun e he => ⟨_, rfl, .unparsed he⟩⟩
    obtain rfl : data = .session x := by
      cases data <;> simp_all [RedisValue.parseSession]
    simp only [utcNow, obeys_call, obeys_ret]
    refine ⟨trivial, fun now => ?_⟩
    cases hover : x.isExpired now with
    | true =>
        simp only [if_true, deleteSession, redisDel, obeys_bind, obeys_call]
        refine ⟨.expired now hb hover, ?_⟩
        rintro (f | ⟨⟩)
        · exact ⟨_, rfl, @FetchRun.expired X _ x now (.error f) hover⟩
        · exact ⟨_, rfl, @FetchRun.expired X _ x now (.ok ()) hover⟩
    | false =>
        simp only [Bool.false_eq_true, if_false, obeys_bind, obeys_call, obeys_ret, obeys_pure]
        refine ⟨trivial, fun activity => updateSession_obeys ?_ ?_ ?_⟩
        · exact fun n left => .touched n activity now hb hover left
        · exact fun update hrun =>
            ⟨_, by rw [List.append_assoc]; rfl, .live hover hrun⟩
        · exact fun update e hrun =>
            ⟨_, by rw [List.append_assoc]; rfl, .live hover hrun⟩

theorem getSession_obeys {claims : Claims} {Q : Session → List Event → Prop}
    (hb : Bearer req h claims)
    (hQ : ∀ s body, Q s (.getSessionReturn claims.sessionId (.ok s) ::
      (body ++ Event.getSessionCall claims.sessionId :: h))) :
    (getSession X claims.sessionId).Obeys (Licence X srv req) h Q (fun _ _ => True) := by
  simp only [getSession, obeys_call, obeys_bind, obeys_attempt, obeys_ofExcept]
  refine ⟨⟨claims, hb, rfl⟩, fun _ => (fetchSession_obeys hb).conseq ?_ ?_⟩
  · rintro s _ ⟨body, rfl, hrun⟩
    refine ⟨⟨body, h, rfl, hrun⟩, fun _ => ⟨?_, fun _ _ => trivial⟩⟩
    rintro _ ⟨⟩
    exact hQ s body
  · rintro e _ ⟨body, rfl, hrun⟩
    exact ⟨⟨body, h, rfl, hrun⟩, fun _ => ⟨by simp, fun _ _ => trivial⟩⟩

/-! ### Login -/

theorem createSession_obeys {body : LoginBody} {user : UserRow} {mfa : Bool}
    {deviceId userAgent : String} {Q : Session → List Event → Prop}
    (login : LoginPassed X req h body user mfa)
    (hQ : ∀ x h₀, h <:+ h₀ → SessionBuilt X srv req h₀ user mfa x → x.userId = user.id.text →
      x.deviceId = deviceId → Q x (createEvent srv x (.ok ()) :: h₀)) :
    (createSession srv.config.sessionDurationMinutes user.id.text deviceId req.remoteIp.text
      userAgent).Obeys (Licence X srv req) h Q (fun _ _ => True) := by
  simp only [createSession, newSession, utcNow, newUuid, redisSetEx, obeys_bind, obeys_call,
    obeys_ret, obeys_ite, obeys_panic, obeys_pure, obeys_unwrap]
  refine ⟨trivial, fun now => ⟨trivial, fun id => ⟨fun bounds => ?_, fun _ => trivial⟩⟩⟩
  have built : SessionBuilt X srv req _ user mfa _ :=
    .intro now id deviceId userAgent login bounds
  refine ⟨⟨_, rfl, rfl, .created built⟩, ?_⟩
  rintro (f | ⟨⟩)
  · simp
  · refine ⟨fun _ _ => ?_, by simp⟩
    exact hQ _ _ (List.suffix_append [_, _] _) built rfl rfl

theorem generateToken_obeys {hours : Int} {userId deviceId sessionId : String} {riskScore : ℕ}
    {mfa : Bool} {Q : String → List Event → Prop}
    (hL : ∀ claims h', h <:+ h' → claims.sub = userId → claims.sessionId = sessionId →
      claims.deviceId = deviceId → claims.mfaVerified = mfa → claims.riskScore = riskScore →
      Licence X srv req h' (.jwtEncode claims))
    (hQ : ∀ claims token h', Q token (.jwtEncode claims (.ok token) :: h')) :
    (generateToken hours userId deviceId riskScore mfa sessionId).Obeys (Licence X srv req) h Q
      (fun _ _ => True) := by
  simp only [generateToken, utcNow, newUuid, obeys_bind, obeys_call, obeys_ret, obeys_ite,
    obeys_panic, obeys_mapErr]
  refine ⟨trivial, fun now => ⟨fun _ => ⟨trivial, fun jti => ⟨?_, ?_⟩⟩, fun _ => trivial⟩⟩
  · exact hL _ _ (List.suffix_append [_, _] _) rfl rfl rfl rfl rfl
  · rintro (e | token)
    · simp
    · refine ⟨?_, by simp⟩
      rintro _ ⟨⟩
      exact hQ _ token _

theorem startSession_obeys {body : LoginBody} {user : UserRow} {mfa : Bool}
    {deviceId userAgent : String} {risk : RiskScore} (login : LoginPassed X req h body user mfa) :
    (startSession X srv req user deviceId userAgent mfa risk).Obeys (Licence X srv req) h
      (Answer req) (fun _ _ => True) := by
  refine obeys_bind.mpr (createSession_obeys login ?_)
  intro x h₀ _ built huser hdevice
  refine obeys_bind.mpr (updateSession_obeys ?_ ?_ (fun _ _ _ => trivial))
  · exact fun n left => .stamped n risk.totalScore built left
  · intro update hrun
    refine obeys_bind.mpr (obeys_ignore.mpr (logAuthentication_obeys fun h₂ hlog => ?_))
    refine obeys_bind.mpr (generateToken_obeys ?_ ?_)
    · intro claims h₃ hsub hsub' hsid hdev hmfa hrisk
      exact ⟨h₀, update, user, mfa, x, built, ⟨_, hrun, hlog.trans hsub, hrisk⟩,
        hsub'.trans huser.symm, hsid, hdev.trans hdevice.symm, hmfa⟩
    · intro claims token h₃
      simp only [jsonResponse, obeys_pure]
      intro _
      rw [login.route]
      exact ⟨claims, token, h₃, rfl⟩

theorem openSession_obeys {body : LoginBody} {user : UserRow} {mfa : Bool} {userAgent : String}
    {risk : RiskScore} (login : LoginPassed X req h body user mfa) :
    (openSession X srv req body user userAgent mfa risk).Obeys (Licence X srv req) h (Answer req)
      (fun _ _ => True) := by
  simp only [openSession]
  split
  · exact startSession_obeys login
  · refine obeys_bind.mpr (obeys_call.mpr ⟨trivial, fun id => ?_⟩)
    exact startSession_obeys (login.mono (List.suffix_cons _ _))

theorem loginMfa_obeys {user : UserRow} {body : LoginBody} {Q : Bool → List Event → Prop}
    (hQ : ∀ mfa h', h <:+ h' → mfa = user.mfaEnabled →
      (user.mfaEnabled = true → ∃ secret code, user.mfaSecret = some secret ∧
        body.mfaToken = some code ∧ CodeChecked X h' secret code) → Q mfa h') :
    (loginMfa X user body).Obeys (Licence X srv req) h Q (fun _ _ => True) := by
  cases henabled : user.mfaEnabled with
  | false =>
      simp only [loginMfa, henabled, Bool.false_eq_true, if_false, obeys_pure]
      exact hQ false h List.suffix_rfl henabled.symm (by simp [henabled])
  | true =>
      simp only [loginMfa, henabled, if_true, obeys_bind, obeys_okOr]
      refine ⟨fun secret hsecret => ?_, fun _ => trivial⟩
      cases hcode : body.mfaToken with
      | none => trivial
      | some code =>
          refine obeys_bind.mpr (verifyOrFalse_obeys fun valid h' hsub hchecked => ?_)
          cases valid with
          | false => trivial
          | true =>
              exact hQ true h' hsub henabled.symm
                fun _ => ⟨secret, code, hsecret, hcode, hchecked rfl⟩

theorem loginRisk_obeys {body : LoginBody} {user : UserRow} {mfa : Bool} {id : Uuid}
    {firstSeen lastSeen : Int} {existing : Option DeviceRow} {Q : RiskScore → List Event → Prop}
    (login : LoginPassed X req h body user mfa)
    (device : .findDeviceByFingerprint user.id
      (loginDevice X req id firstSeen lastSeen user none).fingerprintHash (.ok existing) ∈ h)
    (hQ : ∀ risk h', h <:+ h' → Q risk h') :
    (loginRisk srv req user (loginDevice X req id firstSeen lastSeen user existing)
      existing).Obeys (Licence X srv req) h Q (fun _ _ => True) := by
  simp only [loginRisk, storeDevice, scoreRisk, upsertDevice, utcNow, obeys_bind, obeys_call,
    obeys_ret, obeys_pure, obeys_unwrap]
  refine ⟨trivial, fun seen => ⟨?_, fun r => ⟨fun _ _ => ?_, fun _ _ => trivial⟩⟩⟩
  · have hsub : h <:+ .utcNow .lastSeen seen :: h := List.suffix_cons _ _
    exact .passed (login.mono hsub) (hsub.subset device)
  · refine ⟨trivial, fun timestamp => ⟨trivial, fun now => hQ _ _ ?_⟩⟩
    exact List.suffix_append [_, _, _, _] h

theorem handleLogin_obeys (hroute : req.route = .login) :
    (handleLogin X srv req).Obeys (Licence X srv req) [] (Answer req) (fun _ _ => True) := by
  refine obeys_bind.mpr (checkRateLimit_obeys fun h₁ _ => ?_)
  simp only [obeys_bind, obeys_okOr, obeys_mapErr, findUserByUsername, findDeviceByFingerprint,
    newDevice, newUuid, utcNow, obeys_call, obeys_ret, obeys_pure, obeys_unwrap]
  refine ⟨fun bytes hbytes => ⟨fun body hbody => ⟨trivial, ?_⟩, fun _ => trivial⟩,
    fun _ => trivial⟩
  rintro (f | found)
  · simp
  refine ⟨?_, by simp⟩
  rintro _ ⟨⟩
  refine ⟨fun user huser => ⟨trivial, fun id => ⟨trivial, fun first => ⟨trivial, fun last =>
    ⟨trivial, ?_⟩⟩⟩⟩, fun _ => trivial⟩
  obtain ⟨rfl, hactive⟩ := Option.filter_eq_some_iff.mp huser
  rintro (f | existing)
  · simp
  refine ⟨?_, by simp⟩
  rintro _ ⟨⟩
  refine ⟨fun passwordOk hpassword => ?_, fun _ _ => trivial⟩
  have hdevice : (DeviceFingerprint.build X id first last user.id.text
      ((req.header "user-agent").getD "unknown") req.remoteIp.text .empty).restore existing =
        loginDevice X req id first last user existing := rfl
  rw [hdevice]
  have hseen : .findDeviceByFingerprint user.id
      (loginDevice X req id first last user none).fingerprintHash (.ok existing) ∈
        .findDeviceByFingerprint user.id
          (loginDevice X req id first last user none).fingerprintHash (.ok existing) ::
        .utcNow .lastSeen last :: .utcNow .firstSeen first :: .newUuid id ::
        .findUserByUsername body.username (.ok (some user)) :: h₁ := List.mem_cons_self
  have hfound : .findUserByUsername body.username (.ok (some user)) ∈
        .findDeviceByFingerprint user.id
          (loginDevice X req id first last user none).fingerprintHash (.ok existing) ::
        .utcNow .lastSeen last :: .utcNow .firstSeen first :: .newUuid id ::
        .findUserByUsername body.username (.ok (some user)) :: h₁ := by simp
  cases passwordOk with
  | false =>
      simp only [Bool.not_false, if_true, refusePassword, storeDevice, upsertDevice, obeys_bind,
        obeys_call, obeys_unwrap, obeys_ignore, obeys_throw]
      refine ⟨.refused hroute hfound hseen hpassword, fun r => ⟨fun _ _ => ?_, fun _ _ => trivial⟩⟩
      exact logAuthentication_obeys fun _ _ => trivial
  | true =>
      simp only [Bool.not_true, Bool.false_eq_true, if_false]
      refine obeys_bind.mpr (loginMfa_obeys fun mfa h₂ hsub hmfa hcode => ?_)
      have login : LoginPassed X req h₂ body user mfa :=
        ⟨hroute, ⟨bytes, hbytes, hbody⟩, hsub.subset hfound, hactive, hpassword, hmfa, hcode⟩
      refine obeys_bind.mpr (loginRisk_obeys login (hsub.subset hseen) fun risk h₃ hsub₃ => ?_)
      simp only [obeys_ite, obeys_bind, obeys_ignore, obeys_throw]
      exact ⟨fun _ => logAuthentication_obeys fun _ _ => trivial,
        fun _ => openSession_obeys (login.mono hsub₃)⟩

/-! ### Registration and second factors -/

theorem handleRegister_obeys (hroute : req.route = .register) :
    (handleRegister X req).Obeys (Licence X srv req) [] (Answer req) (fun _ _ => True) := by
  refine obeys_bind.mpr (checkRateLimit_obeys fun h₁ _ => ?_)
  simp only [obeys_bind, obeys_okOr, obeys_mapErr, obeys_ite, obeys_throw, findUserByUsername,
    createUser, jsonResponse, obeys_call, obeys_pure, obeys_unwrap]
  refine ⟨fun bytes _ => ⟨fun body _ => ⟨fun _ => trivial, fun _ => ⟨trivial, fun r =>
    ⟨fun found _ => ⟨fun _ => trivial, fun _ => ⟨trivial, fun r' => ⟨fun hash _ =>
      ⟨hroute, ?_⟩, fun _ _ => trivial⟩⟩⟩, fun _ _ => trivial⟩⟩⟩, fun _ => trivial⟩, fun _ => trivial⟩
  rintro (f | user)
  · trivial
  · intro hstatus
    simp at hstatus

theorem handleMfaEnroll_obeys (hroute : req.route = .mfaEnroll) :
    (handleMfaEnroll X req).Obeys (Licence X srv req) [] (Answer req) (fun _ _ => True) := by
  refine obeys_bind.mpr (bearerClaims_obeys fun claims token hb => ?_)
  simp only [obeys_bind, obeys_okOr, findUserById, generateSecret, setUserMfaSecret, jsonResponse,
    obeys_call, obeys_ret, obeys_pure, obeys_unwrap]
  refine ⟨fun userId hid => ⟨trivial, fun r => ⟨fun found _ => ⟨fun user _ => ⟨trivial,
    fun secret => ⟨?_, fun r' => ⟨fun _ _ => ?_, fun _ _ => trivial⟩⟩⟩, fun _ => trivial⟩,
    fun _ _ => trivial⟩⟩, fun _ => trivial⟩
  · exact ⟨hroute, List.mem_cons_self, claims, hb.mono (List.suffix_append [_, _] _), hid⟩
  · intro _
    simp [hroute]

theorem handleMfaVerify_obeys (hroute : req.route = .mfaVerify) :
    (handleMfaVerify X req).Obeys (Licence X srv req) [] (Answer req) (fun _ _ => True) := by
  refine obeys_bind.mpr (checkRateLimit_obeys fun h₁ _ => ?_)
  refine obeys_bind.mpr (bearerClaims_obeys fun claims token hb => ?_)
  simp only [obeys_bind, obeys_okOr, findUserById, obeys_call, obeys_unwrap]
  refine ⟨fun bytes hbytes => ⟨fun body hbody => ⟨fun userId hid => ⟨trivial, ?_⟩,
    fun _ => trivial⟩, fun _ => trivial⟩, fun _ => trivial⟩
  rintro (f | found)
  · simp
  refine ⟨?_, by simp⟩
  rintro _ ⟨⟩
  refine ⟨?_, fun _ => trivial⟩
  rintro user rfl
  refine ⟨fun secret hsecret => verifyOrFalse_obeys fun valid h₃ hsub hcode => ?_,
    fun _ => trivial⟩
  cases valid with
  | false => trivial
  | true =>
      have passed : MfaPassed X req h₃ claims user :=
        ⟨hroute, hb.mono ((List.suffix_cons _ _).trans hsub),
          ⟨userId, hid, hsub.subset List.mem_cons_self⟩,
          ⟨secret, body, hsecret, ⟨bytes, hbytes, hbody⟩, hcode rfl⟩⟩
      simp only [Bool.not_true, Bool.false_eq_true, if_false, obeys_bind]
      refine getSession_obeys passed.bearer fun x run => ?_
      have hsub₄ : h₃ <:+ run ++ Event.getSessionCall claims.sessionId :: h₃ :=
        (List.suffix_cons _ _).trans (List.suffix_append _ _)
      refine updateSession_obeys ?_ ?_ (fun _ _ _ => trivial)
      · exact fun n left => .upgraded n (passed.mono hsub₄) left
      · intro update hrun
        simp only [jsonResponse, obeys_pure]
        intro _
        rw [hroute]
        exact ⟨claims, x, update, _, (passed.mono hsub₄).bearer, hrun, rfl⟩

/-! ### Logging out -/

theorem handleLogout_obeys (hroute : req.route = .logout) :
    (handleLogout req).Obeys (Licence X srv req) [] (Answer req) (fun _ _ => True) := by
  refine obeys_bind.mpr (bearerClaims_obeys fun claims token hb => ?_)
  simp only [obeys_bind, deleteSession, redisDel, jsonResponse, obeys_call, obeys_pure]
  refine ⟨.logout hroute hb, ?_⟩
  rintro (f | ⟨⟩)
  · trivial
  · intro _
    rw [hroute]
    exact ⟨claims, hb.mono (List.suffix_cons _ _), List.mem_cons_self⟩

/-- The pages of a SCAN after the first: all that they yield is returned, and
the last of them ends the SCAN. -/
theorem scanRest_obeys {left : ℕ} {Q : List String → List Event → Prop}
    (hQ : ∀ more pages, (∀ e ∈ pages, ∃ n r, e = .redisScanNext n r) →
      (∀ n keys, .redisScanNext n (.ok keys) ∈ pages → keys ⊆ more) →
      (0 < left → ScanEnded pages) → Q more (pages ++ h)) :
    (scanRest left).Obeys (Licence X srv req) h Q (fun _ _ => True) := by
  induction left generalizing h Q with
  | zero => exact hQ [] [] (by simp) (by simp) (by simp)
  | succ left ih =>
      simp only [scanRest, obeys_call]
      refine ⟨trivial, ?_⟩
      rintro (f | keys)
      · refine hQ [] [.redisScanNext (left + 1) (.error f)] (by simp) (by simp) fun _ => ?_
        exact .inr (.inr ⟨left + 1, f, List.mem_cons_self⟩)
      · refine obeys_bind.mpr (ih fun more pages hpages hmore hended => ?_)
        have happend : pages ++ Event.redisScanNext (left + 1) (.ok keys) :: h =
            pages ++ [Event.redisScanNext (left + 1) (.ok keys)] ++ h := by simp
        simp only [obeys_pure]
        change Q (keys ++ more) (pages ++ Event.redisScanNext (left + 1) (.ok keys) :: h)
        rw [happend]
        refine hQ (keys ++ more) _ ?_ ?_ fun _ => ?_
        · intro e he
          rcases List.mem_append.mp he with he | he
          · exact hpages e he
          · exact ⟨_, _, List.mem_singleton.mp he⟩
        · intro n keys' he
          rcases List.mem_append.mp he with he | he
          · exact List.subset_append_of_subset_right keys (hmore n keys' he)
          · obtain ⟨-, rfl⟩ : n = left + 1 ∧ keys' = keys := by simpa using he
            exact List.subset_append_left _ _
        · cases left with
          | zero => exact .inr (.inl ⟨keys, by simp⟩)
          | succ left => exact (hended (Nat.succ_pos left)).mono (List.subset_append_left _ _)

/-- One round of the per-key loop. -/
theorem readUserSession_obeys {userId key : String} {Q : Option Session → List Event → Prop}
    (hQ : ∀ found reads, ReadsOf userId [key] reads found.toList → Q found (reads ++ h)) :
    (readUserSession X userId key).Obeys (Licence X srv req) h Q (fun _ _ => True) := by
  -- a key whose value cannot be used contributes its read and nothing else
  have hskip {r : Except Fault (Option RedisValue)}
      (hr : ∀ x, r = .ok (some (.session x)) → x.userId ≠ userId) :
      Q none (.redisGet key r :: h) := by
    refine hQ none [.redisGet key r] ⟨by simp, by simp, by simp, ?_⟩
    intro key' x hread hu
    simp only [List.mem_singleton, Event.redisGet.injEq] at hread
    exact (hr x hread.2.symm hu).elim
  simp only [readUserSession, obeys_call]
  refine ⟨trivial, ?_⟩
  rintro (f | _ | data)
  · exact hskip (by simp)
  · exact hskip (by simp)
  · cases data with
    | int n => exact hskip (by simp)
    | other text => exact hskip (by simp)
    | session x =>
        simp only [RedisValue.parseSession, utcNow, obeys_ite, obeys_bind, obeys_call, obeys_ret,
          obeys_pure]
        refine ⟨fun hu => ⟨trivial, fun now => ?_⟩, fun hne => hskip (by simpa using hne)⟩
        refine hQ _ [.utcNow .isExpired now, .redisGet key (.ok (some (.session x)))]
          ⟨by simp, by simp, ?_, ?_⟩
        · intro y hy
          cases hover : x.isExpired now <;> simp_all
        · intro key' y hread _
          simp only [List.mem_cons, reduceCtorEq, Event.redisGet.injEq, Except.ok.injEq,
            Option.some.injEq, RedisValue.session.injEq, List.not_mem_nil, or_false,
            false_or] at hread
          obtain ⟨rfl, rfl⟩ := hread
          cases hover : y.isExpired now with
          | true => exact .inl ⟨now, List.mem_cons_self, hover⟩
          | false => exact .inr (by simp)

theorem readUserSessions_obeys {userId : String} {keys : List String}
    {Q : List Session → List Event → Prop}
    (hQ : ∀ found reads, ReadsOf userId keys reads found → Q found (reads ++ h)) :
    (readUserSessions X userId keys).Obeys (Licence X srv req) h Q (fun _ _ => True) := by
  induction keys generalizing h Q with
  | nil => exact hQ [] [] (.nil userId)
  | cons key keys ih =>
      refine obeys_bind.mpr (readUserSession_obeys fun found reads hfirst => ?_)
      refine obeys_bind.mpr (ih fun more reads' hmore => ?_)
      simp only [obeys_pure, ← List.append_assoc]
      exact hQ _ _ (hfirst.append hmore)

theorem deleteSessions_obeys {sessions : List Session} {Q : Unit → List Event → Prop}
    (hL : ∀ x ∈ sessions, ∀ h', h <:+ h' → SessionDelete req h' (sessionKey x.id))
    (hQ : ∀ dels, (∀ e ∈ dels, ∃ key, e = .redisDel key (.ok ())) →
      (∀ x ∈ sessions, .redisDel (sessionKey x.id) (.ok ()) ∈ dels) → Q () (dels ++ h)) :
    (deleteSessions sessions).Obeys (Licence X srv req) h Q (fun _ _ => True) := by
  induction sessions generalizing h Q with
  | nil => exact hQ [] (by simp) (by simp)
  | cons x sessions ih =>
      simp only [deleteSessions, deleteSession, redisDel, obeys_bind, obeys_call]
      refine ⟨hL x List.mem_cons_self h List.suffix_rfl, ?_⟩
      rintro (f | ⟨⟩)
      · trivial
      · refine ih (fun y hy h' hsub => ?_) fun dels hdels hall => ?_
        · exact hL y (List.mem_cons_of_mem _ hy) h' ((List.suffix_cons _ _).trans hsub)
        · have happend : dels ++ Event.redisDel (sessionKey x.id) (.ok ()) :: h =
              dels ++ [Event.redisDel (sessionKey x.id) (.ok ())] ++ h := by simp
          change Q () (dels ++ Event.redisDel (sessionKey x.id) (.ok ()) :: h)
          rw [happend]
          refine hQ _ (fun e he => ?_) fun y hy => ?_
          · rcases List.mem_append.mp he with he | he
            · exact hdels e he
            · exact ⟨_, List.mem_singleton.mp he⟩
          · rcases List.mem_cons.mp hy with rfl | hy
            · simp
            · exact List.mem_append_left _ (hall y hy)

/-- The three loops of `revoke_user_sessions` put together. -/
theorem revokedAll_of_runs {keys more : List String} {left : ℕ} {token userId : String}
    {claims : Claims} {pages reads dels : List Event} {found : List Session}
    (hpages : ∀ e ∈ pages, ∃ n r, e = .redisScanNext n r)
    (hmore : ∀ n keys, .redisScanNext n (.ok keys) ∈ pages → keys ⊆ more)
    (hended : 0 < left → ScanEnded pages) (hreads : ReadsOf userId (keys ++ more) reads found)
    (hdels : ∀ e ∈ dels, ∃ key, e = .redisDel key (.ok ()))
    (hall : ∀ x ∈ found, .redisDel (sessionKey x.id) (.ok ()) ∈ dels) :
    RevokedAll (dels ++ (reads ++ (pages ++
      [Event.redisScan (.ok (keys, left)), .jwtDecode token (.ok claims)]))) userId := by
  -- a SCAN page can only be among the pages, and a GET only among the reads
  have hnotreads {n : ℕ} {r : Except Fault (List String)} : .redisScanNext n r ∉ reads := by
    intro he
    rcases hreads.quiet _ he with ⟨_, _, h⟩ | ⟨_, h⟩ <;> simp at h
  have hscanreads {r : Except Fault (List String × ℕ)} : .redisScan r ∉ reads := by
    intro he
    rcases hreads.quiet _ he with ⟨_, _, h⟩ | ⟨_, h⟩ <;> simp at h
  have hnotdels {e : Event} (hne : ∀ key, e ≠ .redisDel key (.ok ())) : e ∉ dels := by
    intro he
    obtain ⟨key, h⟩ := hdels e he
    exact hne key h
  have hnotpages {e : Event} (hne : ∀ n r, e ≠ .redisScanNext n r) : e ∉ pages := by
    intro he
    obtain ⟨n, r, h⟩ := hpages e he
    exact hne n r h
  have hget {key : String} {r : Except Fault (Option RedisValue)}
      (he : .redisGet key r ∈ dels ++ (reads ++ (pages ++
        [Event.redisScan (.ok (keys, left)), .jwtDecode token (.ok claims)]))) :
      .redisGet key r ∈ reads := by
    simpa [hnotdels, hnotpages] using he
  refine ⟨⟨dels ++ (reads ++ pages), keys, left, token, claims, by simp⟩, ?_, fun key hkey => ?_,
    fun key x hread hu => ?_⟩
  · rcases Nat.eq_zero_or_pos left with rfl | hpos
    · exact .inl ⟨keys, by simp⟩
    · refine (hended hpos).mono fun e he => ?_
      simp [he]
  · have hin : key ∈ keys ++ more := by
      rcases hkey with ⟨keys', left', hmem, hin⟩ | ⟨n, keys', hmem, hin⟩
      · obtain ⟨rfl, -⟩ : keys' = keys ∧ left' = left := by
          simpa [hnotdels, hnotpages, hscanreads] using hmem
        exact List.mem_append_left _ hin
      · have hpage : .redisScanNext n (.ok keys') ∈ pages := by
          simpa [hnotdels, hnotreads] using hmem
        exact List.mem_append_right _ (hmore n keys' hpage hin)
    obtain ⟨r, hr⟩ := hreads.visited key hin
    exact ⟨r, by simp [hr]⟩
  · rcases hreads.kept key x (hget hread) hu with ⟨now, hnow, hover⟩ | hfound
    · exact .inl ⟨now, by simp [hnow], hover⟩
    · exact .inr (List.mem_append_left _ (hall x hfound))

theorem handleLogoutAll_obeys (hroute : req.route = .logoutAll) :
    (handleLogoutAll X req).Obeys (Licence X srv req) [] (Answer req) (fun _ _ => True) := by
  refine obeys_bind.mpr (bearerClaims_obeys fun claims token hb => ?_)
  simp only [revokeUserSessions, getUserSessions, scanSessionKeys, redisScan, obeys_bind,
    obeys_call, obeys_unwrap]
  refine ⟨trivial, ?_⟩
  rintro (f | ⟨keys, left⟩)
  · simp
  refine ⟨?_, by simp⟩
  rintro _ ⟨⟩
  refine scanRest_obeys fun more pages hpages hmore hended => ?_
  refine readUserSessions_obeys fun found reads hreads => ?_
  refine deleteSessions_obeys (fun x hx h' hsub => ?_) fun dels hdels hall => ?_
  · obtain ⟨howner, key, hread⟩ := hreads.owned x hx
    refine .logoutAll key hroute (hb.mono ?_) (hsub.subset (List.mem_append_left _ hread)) howner
    exact ((List.suffix_cons _ _).trans ((List.suffix_append _ _).trans
      (List.suffix_append _ _))).trans hsub
  · simp only [jsonResponse, obeys_pure]
    intro _
    rw [hroute]
    refine ⟨claims, hb.mono ?_, revokedAll_of_runs hpages hmore hended hreads hdels hall⟩
    exact (List.suffix_cons _ _).trans ((List.suffix_append _ _).trans
      ((List.suffix_append _ _).trans (List.suffix_append _ _)))

/-! ### The gate -/

theorem RequestRisk.mono {h h' : List Event} {session : Session} {claims : Claims}
    {risk : RiskScore} (hr : RequestRisk X srv req h session claims risk) (hsub : h <:+ h') :
    RequestRisk X srv req h' session claims risk := by
  obtain ⟨id, first, last, ageAt, timestamp, now, hinfix, hrisk⟩ := hr
  exact ⟨id, first, last, ageAt, timestamp, now, hinfix.trans hsub.isInfix, hrisk⟩

theorem evaluateRequestRisk_obeys {session : Session} {claims : Claims}
    {Q : RiskScore → List Event → Prop}
    (hQ : ∀ risk h', h <:+ h' → RequestRisk X srv req h' session claims risk → Q risk h') :
    (evaluateRequestRisk X srv req session claims).Obeys (Licence X srv req) h Q
      (fun _ _ => True) := by
  simp only [evaluateRequestRisk, newDevice, scoreRisk, newUuid, utcNow, obeys_bind, obeys_call,
    obeys_ret, obeys_pure]
  refine ⟨trivial, fun id => ⟨trivial, fun first => ⟨trivial, fun last => ⟨trivial, fun ageAt =>
    ⟨trivial, fun timestamp => ⟨trivial, fun now => ?_⟩⟩⟩⟩⟩⟩
  refine hQ _ _ (List.suffix_append [_, _, _, _, _, _] h) ?_
  exact ⟨id, first, last, ageAt, timestamp, now, (List.prefix_append _ h).isInfix, rfl⟩

/-- The recommendation that goes with a request's score. -/
theorem RequestRisk.recommendation {session : Session} {claims : Claims} {risk : RiskScore}
    (hr : RequestRisk X srv req h session claims risk) :
    risk.recommendation = srv.riskEngine.recommend risk.totalScore := by
  obtain ⟨_, _, _, _, _, _, _, rfl⟩ := hr
  rfl

theorem RiskEngine.below_of_ne_block {engine : RiskEngine} {score : ℕ}
    (h : engine.recommend score ≠ .block) : score < engine.blockThreshold := by
  by_contra hge
  exact h (if_pos (by omega))

theorem RiskEngine.below_of_allow {engine : RiskEngine} {score : ℕ}
    (h : engine.recommend score = .allow) : score < engine.stepUpThreshold := by
  by_contra hge
  by_cases hblock : score ≥ engine.blockThreshold <;>
    simp [RiskEngine.recommend, hblock, Nat.not_lt.mp hge] at h

theorem authorize_obeys {Q : Unit → List Event → Prop} (hroute : req.route = .proxied)
    (hQ : ∀ h', (∃ claims session risk, GatePassed X srv req h' claims session risk) → Q () h') :
    (authorize X srv req).Obeys (Licence X srv req) [] Q (fun _ _ => True) := by
  refine obeys_bind.mpr (bearerClaims_obeys fun claims token hb => ?_)
  refine obeys_bind.mpr (getSession_obeys hb fun session body => ?_)
  simp only [obeys_ite, obeys_throw]
  refine ⟨fun _ => trivial, fun howner => ⟨fun _ => ?_, fun hpolicy => ?_⟩⟩
  · exact obeys_bind.mpr (obeys_ignore.mpr (logAuthorization_obeys fun _ _ => trivial))
  refine obeys_bind.mpr (evaluateRequestRisk_obeys fun risk h₂ hsub hrisk => ?_)
  refine obeys_bind.mpr (obeys_ignore.mpr (logRiskEvaluation_obeys fun h₃ hsub₃ => ?_))
  simp only [gateRequest, obeys_ite, obeys_throw]
  refine ⟨fun _ => trivial, fun hmfa => ?_⟩
  have hgate {h' : List Event} (hsub' : h₃ <:+ h') (hnot : risk.recommendation ≠ .block)
      (hstep : srv.config.stepUpThreshold ≤ risk.totalScore → session.mfaVerified = true) :
      Q () h' := by
    have hrisk' := hrisk.mono (hsub₃.trans hsub')
    have hsub₁ := hsub.trans (hsub₃.trans hsub')
    refine hQ h' ⟨claims, session, risk, hroute, ?_, ?_, by simpa using howner,
      by simpa using hpolicy, ?_, hrisk', ?_, hstep⟩
    · exact hb.mono ((List.suffix_cons _ _).trans ((List.suffix_append _ _).trans
        ((List.suffix_cons _ _).trans hsub₁)))
    · exact hsub₁.subset List.mem_cons_self
    · simpa using hmfa
    · rw [hrisk'.recommendation] at hnot
      exact RiskEngine.below_of_ne_block hnot
  cases hrec : risk.recommendation with
  | block => exact obeys_bind.mpr (obeys_ignore.mpr (logAuthorization_obeys fun _ _ => trivial))
  | stepUpAuth =>
      simp only [obeys_ite, obeys_throw]
      refine ⟨fun _ => trivial, fun hverified => ?_⟩
      refine obeys_ignore.mpr (logAuthorization_obeys fun h' hlog => ?_)
      exact hgate hlog (by simp [hrec]) fun _ => by simpa using hverified
  | allow =>
      refine obeys_ignore.mpr (logAuthorization_obeys fun h' hlog => ?_)
      refine hgate hlog (by simp [hrec]) fun hle => ?_
      have hlt := RiskEngine.below_of_allow (hrisk.recommendation.symm.trans hrec)
      exact (Nat.not_lt.mpr hle hlt).elim

theorem forwardUpstream_obeys {Q : Response → List Event → Prop}
    (hL : ∃ claims session risk, GatePassed X srv req h claims session risk)
    (hQ : ∀ o h', Q o h') :
    (forwardUpstream X srv req).Obeys (Licence X srv req) h Q (fun _ _ => True) := by
  simp only [forwardUpstream, obeys_bind, obeys_okOr, obeys_call, obeys_mapErr, obeys_pure]
  exact ⟨fun _ _ => ⟨fun _ _ => ⟨hL, fun _ => ⟨fun _ _ => hQ _ _, fun _ _ => trivial⟩⟩,
    fun _ => trivial⟩, fun _ => trivial⟩

/-! ### The contract -/

theorem handleRoute_obeys (X : External) (srv : ProxyServer) (req : Request) :
    (handleRoute X srv req req.route).Obeys (Licence X srv req) [] (Answer req)
      (fun _ _ => True) := by
  cases hroute : req.route with
  | health => exact fun _ => by simp [hroute]
  | metrics => exact fun _ => by simp [hroute]
  | login => exact handleLogin_obeys hroute
  | register => exact handleRegister_obeys hroute
  | mfaEnroll => exact handleMfaEnroll_obeys hroute
  | mfaVerify => exact handleMfaVerify_obeys hroute
  | logout => exact handleLogout_obeys hroute
  | logoutAll => exact handleLogoutAll_obeys hroute
  | proxied =>
      refine obeys_bind.mpr (authorize_obeys hroute fun h' hgate => ?_)
      exact forwardUpstream_obeys hgate fun _ _ _ => by simp [hroute]

/-- **The contract of the proxy.** Every request of every run makes its calls
on the evidence `Licence` asks for, and answers 200 only when `Answer` holds. -/
theorem proxy_contract (X : External) (srv : ProxyServer) :
    Contract (proxySystem X srv) (Licence X srv) Answer := by
  intro req
  refine obeys_bind.mpr (obeys_attempt.mpr ((handleRoute_obeys X srv req).conseq ?_ ?_))
  · exact fun o h' hanswer => hanswer
  · intro e h' _ hstatus
    have herror := e.statusCode_ne_ok
    simp only [errorResponse] at hstatus
    omega

end ZeroTrustProxy
