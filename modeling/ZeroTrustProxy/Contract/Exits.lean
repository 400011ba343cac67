import ZeroTrustProxy.Concurrent.Outcome
import ZeroTrustProxy.Contract.Evidence

/-!
How the handlers end.

Every way in which `authorize` and the authentication handlers come to an end,
with the events up to there and the result. `Contract.Handlers` says on what
evidence a handler acts; the statements about what is answered, and about what
is left undone when a request is refused, need every exit.
-/

namespace ZeroTrustProxy

open Concurrent Program Handler SessionManager JwtManager TotpManager AuditLogger

variable {X : External} {srv : ProxyServer} {req : Request} {h : List Event}

/-! ### Single calls -/

section Single

variable {α β : Type} {err : String → ProxyError} {r : Except ProxyError β} {f : α → Handler β}

theorem ends_unwrap {x : Except Fault β} :
    (unwrap err x).Ends h r ↔ h = [] ∧ r = x.mapError fun f => err f.text := by
  cases x <;> simp [unwrap, Except.mapError]

theorem ends_unwrap_bind {x : Except Fault α} :
    (unwrap err x >>= f).Ends h r ↔ (∃ a, x = .ok a ∧ (f a).Ends h r) ∨
      ∃ fault, x = .error fault ∧ h = [] ∧ r = .error (err fault.text) := by
  cases x with
  | ok a => simp [unwrap, ret_bind]
  | error fault => simp [unwrap, throw_bind]

theorem ends_okOr_bind {e : ProxyError} {x : Option α} :
    (okOr e x >>= f).Ends h r ↔
      (∃ a, x = some a ∧ (f a).Ends h r) ∨ x = none ∧ h = [] ∧ r = .error e := by
  cases x with
  | some a => simp [okOr, ret_bind]
  | none => simp [okOr, throw_bind]

theorem ends_mapErr_bind {x : Except String α} :
    (mapErr err x >>= f).Ends h r ↔
      (∃ a, x = .ok a ∧ (f a).Ends h r) ∨ ∃ e, x = .error e ∧ h = [] ∧ r = .error (err e) := by
  cases x with
  | ok a => simp [mapErr, ret_bind]
  | error e => simp [mapErr, throw_bind]

theorem ends_ofExcept_bind {x : Except ProxyError α} :
    (Program.ofExcept x >>= f : Handler β).Ends h r ↔
      (∃ a, x = .ok a ∧ (f a).Ends h r) ∨ ∃ e, x = .error e ∧ h = [] ∧ r = .error e := by
  cases x with
  | ok a => simp [Program.ofExcept, ret_bind]
  | error e => simp [Program.ofExcept, throw_bind]

end Single

theorem ends_panic {α : Type} {r : Except ProxyError α} : ¬ (panic : Handler α).Ends h r := by
  rintro ⟨x, -⟩
  exact x.elim

theorem ends_ignore {α : Type} {p : Handler α} {r : Except ProxyError Unit}
    (hend : (ignore p).Ends h r) : r = .ok () ∧ ∃ r', p.Ends h r' := by
  rcases ends_bind.mp hend with ⟨r', h₁, h₂, rfl, hp, hpure⟩ | ⟨e, -, hp⟩
  · obtain ⟨rfl, rfl⟩ := ends_pure.mp hpure
    obtain ⟨r'', -, hp'⟩ := ends_attempt.mp hp
    exact ⟨rfl, r'', hp'⟩
  · obtain ⟨r'', hr, -⟩ := ends_attempt.mp hp
    simp at hr

/-! ### The audit log -/

/-- One submission to the audit log, whatever comes of it. -/
inductive AuditRun (X : External) (eventType : EventType) (userId : String) (outcome : Outcome) :
    List Event → Prop
  | intro {row : AuditRow} (r : Except Fault Unit) (n : Int) (id : Uuid)
      (type : row.eventType = eventType.jsonStr) (user : row.userId = X.parseUuid userId)
      (result : row.outcome = outcome.jsonStr) :
      AuditRun X eventType userId outcome
        [.insertAuditLog row r, .utcNow .auditTimestamp n, .newUuid id]

theorem newEvent_ends {eventType : EventType} {userId deviceId : Option String}
    {ipAddress resource action : String} {outcome : Outcome} {r : Except ProxyError AuditEvent}
    (hend : (newEvent eventType userId deviceId ipAddress resource action outcome).Ends h r) :
    ∃ id n, h = [.utcNow .auditTimestamp n, .newUuid id] ∧
      r = .ok ⟨id.text, eventType, userId, deviceId, ipAddress, resource, action, outcome, none,
        .obj []⟩ := by
  simp only [newEvent, newUuid, utcNow, call_bind, ret_bind, ends_call, ends_pure] at hend
  obtain ⟨id, _, rfl, n, _, rfl, rfl, rfl⟩ := hend
  exact ⟨id, n, rfl, rfl⟩

theorem log_ends {event : AuditEvent} {id : Uuid} {r : Except ProxyError Unit}
    (hid : X.parseUuid event.id = some id) (hend : (log X event).Ends h r) :
    ∃ x, h = [.insertAuditLog (rowOf X event id) x] := by
  simp only [log, hid, insertAuditLog, ends_call, ends_unwrap] at hend
  obtain ⟨x, _, rfl, rfl, -⟩ := hend
  exact ⟨x, rfl⟩

/-- The events of the three calls of the logger, which fill in the event in
different ways, and the row they insert. -/
theorem audit_events {eventType : EventType} {userId ipAddress resource action : String}
    {deviceId : Option String} {outcome : Outcome} {g : AuditEvent → AuditEvent}
    {r : Except ProxyError Unit} (hg : ∀ event, (g event).id = event.id)
    (hend : (ignore (newEvent eventType (some userId) deviceId ipAddress resource action outcome >>=
      fun event => log X (g event))).Ends h r) :
    r = .ok () ∧ ∃ id n x, h = [.insertAuditLog (rowOf X (g ⟨id.text, eventType, some userId,
      deviceId, ipAddress, resource, action, outcome, none, .obj []⟩) id) x,
      .utcNow .auditTimestamp n, .newUuid id] := by
  obtain ⟨hr, r', hlog⟩ := ends_ignore hend
  rcases ends_bind.mp hlog with ⟨event, h₁, h₂, rfl, hevent, hrest⟩ | ⟨e, -, hevent⟩
  · obtain ⟨id, n, rfl, heq⟩ := newEvent_ends hevent
    obtain rfl := Except.ok.inj heq
    obtain ⟨x, rfl⟩ := log_ends (by rw [hg]; exact X.parseUuid_text id) hrest
    exact ⟨hr, id, n, x, rfl⟩
  · obtain ⟨id, n, -, heq⟩ := newEvent_ends hevent
    simp at heq

theorem audit_ends {eventType : EventType} {userId ipAddress resource action : String}
    {deviceId : Option String} {outcome : Outcome} {g : AuditEvent → AuditEvent}
    {r : Except ProxyError Unit}
    (hg : ∀ event, (g event).id = event.id ∧ (g event).eventType = event.eventType ∧
      (g event).userId = event.userId ∧ (g event).outcome = event.outcome)
    (hend : (ignore (newEvent eventType (some userId) deviceId ipAddress resource action outcome >>=
      fun event => log X (g event))).Ends h r) :
    r = .ok () ∧ AuditRun X eventType userId outcome h := by
  obtain ⟨hr, id, n, x, rfl⟩ := audit_events (fun event => (hg event).1) hend
  obtain ⟨-, htype, huser, houtcome⟩ := hg ⟨id.text, eventType, some userId, deviceId,
    ipAddress, resource, action, outcome, none, .obj []⟩
  refine ⟨hr, .intro x n id ?_ ?_ ?_⟩
  · rw [rowOf, htype]
  · rw [rowOf, huser]
    rfl
  · rw [rowOf, houtcome]

theorem logAuthentication_ends {userId deviceId ipAddress : String} {success : Bool}
    {r : Except ProxyError Unit}
    (hend : (ignore (logAuthentication X userId deviceId ipAddress success)).Ends h r) :
    r = .ok () ∧
      AuditRun X .authentication userId (if success then .success else .failure) h :=
  audit_ends (g := id) (fun _ => ⟨rfl, rfl, rfl, rfl⟩) hend

theorem logAuthorization_ends {userId ipAddress resource action : String} {allowed : Bool}
    {riskScore : ℕ} {r : Except ProxyError Unit}
    (hend : (ignore (logAuthorization X userId ipAddress resource action allowed
      riskScore)).Ends h r) :
    r = .ok () ∧
      AuditRun X .authorization userId (if allowed then .success else .blocked) h :=
  audit_ends (g := fun event => { event with riskScore := some riskScore })
    (fun _ => ⟨rfl, rfl, rfl, rfl⟩) hend

theorem logRiskEvaluation_ends {userId deviceId ipAddress : String} {riskScore : ℕ}
    {factors : Json} {r : Except ProxyError Unit}
    (hend : (ignore (logRiskEvaluation X userId deviceId ipAddress riskScore factors)).Ends h r) :
    r = .ok () ∧ AuditRun X .riskEvaluation userId .success h :=
  audit_ends (g := fun event => { event with riskScore := some riskScore, metadata := factors })
    (fun _ => ⟨rfl, rfl, rfl, rfl⟩) hend

/-! ### Tokens, sessions and codes -/

/-- `bearerClaims`. -/
inductive BearerRun (req : Request) : List Event → Except ProxyError Claims → Prop
  | noToken {e : ProxyError}
      (header : extractTokenFromHeader ((req.header "authorization").getD "") = .error e) :
      BearerRun req [] (.error e)
  | invalid {token e : String}
      (header : extractTokenFromHeader ((req.header "authorization").getD "") = .ok token) :
      BearerRun req [.jwtDecode token (.error e)] (.error (.jwtError e))
  | valid {token : String} {claims : Claims}
      (header : extractTokenFromHeader ((req.header "authorization").getD "") = .ok token) :
      BearerRun req [.jwtDecode token (.ok claims)] (.ok claims)

theorem bearerClaims_ends {r : Except ProxyError Claims} (hend : (bearerClaims req).Ends h r) :
    BearerRun req h r := by
  simp only [bearerClaims, validateToken, ends_ofExcept_bind, ends_call] at hend
  obtain ⟨token, htoken, x, _, rfl, hmap⟩ | ⟨e, he, rfl, rfl⟩ := hend
  · cases x with
    | error e =>
        obtain ⟨rfl, rfl⟩ := ends_throw.mp hmap
        exact .invalid htoken
    | ok claims =>
        obtain ⟨rfl, rfl⟩ := ends_ret.mp hmap
        exact .valid htoken
  · exact .noToken he

theorem BearerRun.bearer {claims : Claims} (hb : BearerRun req h (.ok claims)) :
    Bearer req h claims := by
  cases hb with
  | @valid token _ header => exact ⟨token, header, List.mem_cons_self⟩

theorem BearerRun.error_cases {e : ProxyError} (hb : BearerRun req h (.error e)) :
    (∃ s, e = .authenticationFailed s) ∨ ∃ s, e = .jwtError s := by
  cases hb with
  | invalid header => exact .inr ⟨_, rfl⟩
  | noToken header =>
      simp only [extractTokenFromHeader] at header
      split at header
      · exact .inl ⟨_, (Except.error.inj header).symm⟩
      · split at header
        · simp at header
        · exact .inl ⟨_, (Except.error.inj header).symm⟩

theorem updateSession_ends {x : Session} {r : Except ProxyError Unit}
    (hend : (updateSession x).Ends h r) : UpdateRun x h r := by
  simp only [updateSession, utcNow, redisSetEx, call_bind, ret_bind, ends_call, ends_ite,
    ends_unwrap, ends_pure] at hend
  obtain ⟨n, _, rfl, ⟨left, y, _, rfl, rfl, rfl⟩ | ⟨none, rfl, rfl⟩⟩ := hend
  · cases y with
    | ok u => exact .written left
    | error f => exact .failed left
  · exact .skipped (by omega)

theorem UpdateRun.error_cases {x : Session} {e : ProxyError} (hu : UpdateRun x h (.error e)) :
    ∃ s, e = .redisError s := by
  cases hu with
  | failed left => exact ⟨_, rfl⟩

theorem fetchSession_ends {id : String} {r : Except ProxyError Session}
    (hend : (fetchSession X id).Ends h r) : FetchRun X id h r := by
  simp only [fetchSession, redisGet, call_bind, ends_call, ends_unwrap_bind] at hend
  obtain ⟨x, h', rfl, ⟨data, rfl, hdata⟩ | ⟨f, rfl, rfl, rfl⟩⟩ := hend
  · cases data with
    | none =>
        obtain ⟨rfl, rfl⟩ := ends_throw.mp hdata
        exact .missing
    | some value =>
        simp only [ends_mapErr_bind, utcNow, call_bind, ret_bind, ends_call, ends_ite] at hdata
        obtain ⟨s, hs, now, h₁, rfl, hrest⟩ | ⟨e, he, rfl, rfl⟩ := hdata
        · obtain rfl : value = .session s := by
            cases value <;> simp_all [RedisValue.parseSession]
          obtain ⟨hover, hdel⟩ | ⟨hlive, activity, h₂, rfl, hupdate⟩ := hrest
          · simp only [deleteSession, redisDel, call_bind, ends_call, ends_unwrap_bind,
              ends_throw] at hdel
            obtain ⟨y, h₂, rfl, ⟨_, rfl, rfl, rfl⟩ | ⟨f, rfl, rfl, rfl⟩⟩ := hdel
            · exact @FetchRun.expired X id s now (.ok ()) hover
            · exact @FetchRun.expired X id s now (.error f) hover
          · have hlive' : s.isExpired now = false := by simpa using hlive
            rcases ends_bind.mp hupdate with ⟨u, h₃, h₄, rfl, hrun, hret⟩ | ⟨e, rfl, hrun⟩
            · obtain ⟨rfl, rfl⟩ := ends_pure.mp hret
              have hfetch : FetchRun X id _ _ := .live hlive' (updateSession_ends hrun)
              simpa [Cmd.event, Except.map] using hfetch
            · have hfetch : FetchRun X id _ _ := .live hlive' (updateSession_ends hrun)
              simpa [Cmd.event, Except.map] using hfetch
        · exact .unparsed he
  · exact .failed

theorem FetchRun.error_cases {id : String} {e : ProxyError} (hf : FetchRun X id h (.error e)) :
    (∃ s, e = .redisError s) ∨ (∃ s, e = .serializationError s) ∨
      e = .invalidSession "Session not found" ∨ e = .invalidSession "Session expired" := by
  generalize hr : (Except.error e : Except ProxyError Session) = r at hf
  cases hf with
  | failed => exact .inl ⟨_, Except.error.inj hr⟩
  | missing => exact .inr (.inr (.inl (Except.error.inj hr)))
  | unparsed parse => exact .inr (.inl ⟨_, Except.error.inj hr⟩)
  | @expired x now r' expiry =>
      cases r' with
      | ok u => exact .inr (.inr (.inr (Except.error.inj hr)))
      | error f => exact .inl ⟨_, Except.error.inj hr⟩
  | @live x now activity update r' live run =>
      cases r' with
      | ok u => simp [Except.map] at hr
      | error e' =>
          obtain rfl := Except.error.inj hr
          exact .inl run.error_cases

/-- The events of a `get_session`, with its body. -/
def sessionEvents (id : String) (r : Except ProxyError Session) (body : List Event) : List Event :=
  .getSessionReturn id r :: (body ++ [.getSessionCall id])

theorem getSession_ends {id : String} {r : Except ProxyError Session}
    (hend : (getSession X id).Ends h r) :
    ∃ body, FetchRun X id body r ∧ h = sessionEvents id r body := by
  obtain ⟨_, h₁, rfl, hrest⟩ := ends_call.mp hend
  rcases ends_bind.mp hrest with ⟨r', h₂, h₃, rfl, hfetch, hret⟩ | ⟨e, -, hfetch⟩
  · obtain ⟨r'', heq, hfetch⟩ := ends_attempt.mp hfetch
    obtain rfl := Except.ok.inj heq
    obtain ⟨_, h₄, rfl, hof⟩ := ends_call.mp hret
    obtain ⟨rfl, rfl⟩ := ends_ofExcept.mp hof
    exact ⟨h₂, fetchSession_ends hfetch, by simp [sessionEvents, Cmd.event]⟩
  · obtain ⟨_, heq, -⟩ := ends_attempt.mp hfetch
    simp at heq

/-! ### The gate -/

/-- The calls of `evaluate_request_risk`, and the score. -/
inductive RequestRiskRun (X : External) (srv : ProxyServer) (req : Request) (session : Session)
    (claims : Claims) : List Event → RiskScore → Prop
  | intro (id : Uuid) (firstSeen lastSeen ageAt timestamp now : Int) :
      RequestRiskRun X srv req session claims
        [.utcNow .deviceAge now, .utcNow .riskTimestamp timestamp, .utcNow .sessionAge ageAt,
          .utcNow .lastSeen lastSeen, .utcNow .firstSeen firstSeen, .newUuid id]
        (srv.riskEngine.calculateRisk now (requestContext X req session claims
          (DeviceFingerprint.build X id firstSeen lastSeen claims.sub session.userAgent
            req.remoteIp.text .empty) ageAt timestamp))

theorem evaluateRequestRisk_ends {session : Session} {claims : Claims}
    {r : Except ProxyError RiskScore} (hend : (evaluateRequestRisk X srv req session claims).Ends h r) :
    ∃ risk, r = .ok risk ∧ RequestRiskRun X srv req session claims h risk := by
  simp only [evaluateRequestRisk, newDevice, scoreRisk, newUuid, utcNow, call_bind, ret_bind,
    ends_call] at hend
  obtain ⟨id, _, rfl, first, _, rfl, last, _, rfl, hrest⟩ := hend
  obtain ⟨ageAt, _, rfl, timestamp, _, rfl, now, _, rfl, rfl, rfl⟩ := hrest
  exact ⟨_, rfl, .intro id first last ageAt timestamp now⟩

/-- The MFA and risk gates. Two of the four exits leave no audit event. -/
inductive GateRun (X : External) (srv : ProxyServer) (session : Session) (claims : Claims)
    (risk : RiskScore) : List Event → Except ProxyError Unit → Prop
  | unverified (required : srv.config.requireMfa = true) (mfa : session.mfaVerified = false) :
      GateRun X srv session claims risk [] (.error .mfaRequired)
  | blocked {audit : List Event} (mfa : srv.config.requireMfa = true → session.mfaVerified = true)
      (block : risk.recommendation = .block)
      (audited : AuditRun X .authorization claims.sub .blocked audit) :
      GateRun X srv session claims risk audit
        (.error (.riskThresholdExceeded risk.totalScore srv.config.blockThreshold))
  | stepUp (required : srv.config.requireMfa = false) (stepUp : risk.recommendation = .stepUpAuth)
      (mfa : session.mfaVerified = false) :
      GateRun X srv session claims risk [] (.error .mfaRequired)
  | passed {audit : List Event} (mfa : srv.config.requireMfa = true → session.mfaVerified = true)
      (block : risk.recommendation ≠ .block)
      (stepUp : risk.recommendation = .stepUpAuth → session.mfaVerified = true)
      (audited : AuditRun X .authorization claims.sub .success audit) :
      GateRun X srv session claims risk audit (.ok ())

theorem GateRun.error_cases {session : Session} {claims : Claims} {risk : RiskScore}
    {e : ProxyError} (hg : GateRun X srv session claims risk h (.error e)) :
    e = .mfaRequired ∨ risk.recommendation = .block ∧
      e = .riskThresholdExceeded risk.totalScore srv.config.blockThreshold := by
  cases hg with
  | unverified required mfa => exact .inl rfl
  | stepUp required stepUp mfa => exact .inl rfl
  | blocked mfa block audited => exact .inr ⟨block, rfl⟩

theorem gateRequest_ends {session : Session} {claims : Claims} {risk : RiskScore}
    {r : Except ProxyError Unit} (hend : (gateRequest X srv req session claims risk).Ends h r) :
    GateRun X srv session claims risk h r := by
  simp only [gateRequest, ends_ite, ends_throw, Bool.and_eq_true, Bool.not_eq_true'] at hend
  obtain ⟨⟨hrequired, hmfa⟩, rfl, rfl⟩ | ⟨hmfa, hend⟩ := hend
  · exact .unverified hrequired hmfa
  have hpassed : srv.config.requireMfa = true → session.mfaVerified = true := by
    intro hrequired
    by_contra hfalse
    exact hmfa ⟨hrequired, by simpa using hfalse⟩
  cases hrec : risk.recommendation with
  | block =>
      simp only [hrec] at hend
      obtain ⟨_, h₁, h₂, rfl, hlog, rfl, rfl⟩ | ⟨e, -, hlog⟩ := ends_bind.mp hend
      · exact .blocked hpassed hrec (logAuthorization_ends hlog).2
      · have hok := (logAuthorization_ends hlog).1
        simp at hok
  | stepUpAuth =>
      simp only [hrec, ends_ite, ends_throw] at hend
      obtain ⟨hmfa', rfl, rfl⟩ | ⟨hmfa', hlog⟩ := hend
      · have hnot : session.mfaVerified = false := by simpa using hmfa'
        refine .stepUp ?_ hrec hnot
        cases hrequired : srv.config.requireMfa with
        | false => rfl
        | true => exact absurd (hpassed hrequired) (by simp [hnot])
      · obtain ⟨rfl, haudit⟩ := logAuthorization_ends hlog
        exact .passed hpassed (by simp [hrec]) (fun _ => by simpa using hmfa') haudit
  | allow =>
      simp only [hrec] at hend
      obtain ⟨rfl, haudit⟩ := logAuthorization_ends hend
      exact .passed hpassed (by simp [hrec]) (by simp [hrec]) haudit

/-- Every way in which `authorize` ends. -/
inductive AuthorizeRun (X : External) (srv : ProxyServer) (req : Request) :
    List Event → Except ProxyError Unit → Prop
  | unauthenticated {token : List Event} {e : ProxyError}
      (bearer : BearerRun req token (.error e)) : AuthorizeRun X srv req token (.error e)
  | noSession {token body : List Event} {claims : Claims} {e : ProxyError}
      (bearer : BearerRun req token (.ok claims))
      (fetched : FetchRun X claims.sessionId body (.error e)) :
      AuthorizeRun X srv req (sessionEvents claims.sessionId (.error e) body ++ token) (.error e)
  | mismatch {token body : List Event} {claims : Claims} {session : Session}
      (bearer : BearerRun req token (.ok claims))
      (fetched : FetchRun X claims.sessionId body (.ok session))
      (owner : session.userId ≠ claims.sub) :
      AuthorizeRun X srv req (sessionEvents claims.sessionId (.ok session) body ++ token)
        (.error (.invalidSession "session/token subject mismatch"))
  | denied {token body audit : List Event} {claims : Claims} {session : Session}
      (bearer : BearerRun req token (.ok claims))
      (fetched : FetchRun X claims.sessionId body (.ok session))
      (owner : session.userId = claims.sub)
      (policy : (srv.policyEngine.evaluate X.floats (policyContext req claims)).allowed = false)
      (audited : AuditRun X .authorization claims.sub .blocked audit) :
      AuthorizeRun X srv req
        (audit ++ (sessionEvents claims.sessionId (.ok session) body ++ token))
        (.error (.authorizationDenied
          (srv.policyEngine.evaluate X.floats (policyContext req claims)).reason))
  | scored {token body scores evaluation gate : List Event} {claims : Claims} {session : Session}
      {risk : RiskScore} {r : Except ProxyError Unit} (bearer : BearerRun req token (.ok claims))
      (fetched : FetchRun X claims.sessionId body (.ok session))
      (owner : session.userId = claims.sub)
      (policy : (srv.policyEngine.evaluate X.floats (policyContext req claims)).allowed = true)
      (score : RequestRiskRun X srv req session claims scores risk)
      (evaluated : AuditRun X .riskEvaluation claims.sub .success evaluation)
      (gated : GateRun X srv session claims risk gate r) :
      AuthorizeRun X srv req
        (gate ++ (evaluation ++ (scores ++
          (sessionEvents claims.sessionId (.ok session) body ++ token)))) r

theorem authorize_ends {r : Except ProxyError Unit} (hend : (authorize X srv req).Ends h r) :
    AuthorizeRun X srv req h r := by
  rcases ends_bind.mp hend with ⟨claims, token, h₁, rfl, htoken, hafter⟩ | ⟨e, rfl, htoken⟩
  swap
  · exact .unauthenticated (bearerClaims_ends htoken)
  have hbearer := bearerClaims_ends htoken
  rcases ends_bind.mp hafter with ⟨session, h₂, h₃, rfl, hsession, hchecks⟩ | ⟨e, rfl, hsession⟩
  swap
  · obtain ⟨body, hfetch, rfl⟩ := getSession_ends hsession
    exact .noSession hbearer hfetch
  obtain ⟨body, hfetch, rfl⟩ := getSession_ends hsession
  rw [List.append_assoc]
  simp only [ends_ite, ends_throw] at hchecks
  obtain ⟨hne, rfl, rfl⟩ | ⟨heq, ⟨hpolicy, hdeny⟩ | ⟨hpolicy, hscored⟩⟩ := hchecks
  · exact .mismatch hbearer hfetch hne
  · have howner : session.userId = claims.sub := by simpa using heq
    obtain ⟨_, h₄, h₅, rfl, hlog, rfl, rfl⟩ | ⟨e, -, hlog⟩ := ends_bind.mp hdeny
    · exact .denied hbearer hfetch howner (by simpa using hpolicy) (logAuthorization_ends hlog).2
    · have hok := (logAuthorization_ends hlog).1
      simp at hok
  have howner : session.userId = claims.sub := by simpa using heq
  rcases ends_bind.mp hscored with ⟨risk, scores, h₄, rfl, hrisk, hgated⟩ | ⟨e, rfl, hrisk⟩
  swap
  · obtain ⟨_, hok, -⟩ := evaluateRequestRisk_ends hrisk
    simp at hok
  obtain ⟨risk', hsame, hscore⟩ := evaluateRequestRisk_ends hrisk
  obtain rfl := Except.ok.inj hsame
  rcases ends_bind.mp hgated with ⟨_, evaluation, gate, rfl, hlog, hgate⟩ | ⟨e, -, hlog⟩
  · rw [List.append_assoc, List.append_assoc]
    exact .scored hbearer hfetch howner (by simpa using hpolicy) hscore
      (logRiskEvaluation_ends hlog).2 (gateRequest_ends hgate)
  · have hok := (logRiskEvaluation_ends hlog).1
    simp at hok

/-! ### Answers -/

/-- The response to the outcome of a handler. -/
def respond : Except ProxyError Response → Response
  | .ok resp => resp
  | .error err => errorResponse err

theorem handleRequest_ends {o : Response} (hend : (handleRequest X srv req).Ends h (.ok o)) :
    ∃ r, (handleRoute X srv req req.route).Ends h r ∧ o = respond r := by
  rcases ends_bind.mp hend with ⟨r, h₁, h₂, rfl, hattempt, hanswer⟩ | ⟨e, heq, -⟩
  swap
  · simp at heq
  obtain ⟨r', heq, hroute⟩ := ends_attempt.mp hattempt
  obtain rfl := Except.ok.inj heq
  refine ⟨r, ?_⟩
  cases r with
  | ok resp =>
      obtain ⟨rfl, hresp⟩ := ends_pure.mp hanswer
      exact ⟨hroute, Except.ok.inj hresp⟩
  | error err =>
      obtain ⟨rfl, hresp⟩ := ends_pure.mp hanswer
      exact ⟨hroute, Except.ok.inj hresp⟩

/-- Only a handler that has returned answers with a success. -/
theorem respond_ok {r : Except ProxyError Response} (hok : (respond r).status = 200) :
    ∃ o, r = .ok o := by
  cases r with
  | ok o => exact ⟨o, rfl⟩
  | error e =>
      have herror := e.statusCode_ne_ok
      have hstatus : e.statusCode = 200 := hok
      omega

/-- What a thread that has answered had done. -/
theorem answered_ends {A : Trace (proxySystem X srv) → Entry (proxySystem X srv) → Prop} {w w₁ : World}
    {tr : Trace (proxySystem X srv)} {t : ℕ} {o : Response} (hrun : Run A w tr)
    (hdone : ⟨t, w₁, .done o⟩ ∈ tr) :
    ∃ post pre q r, tr = post ++ ⟨t, w₁, .done o⟩ :: pre ∧ Run A w₁ pre ∧ Started t q pre ∧
      (handleRoute X srv q q.route).Ends (own t pre) r ∧ o = respond r := by
  obtain ⟨post, pre, q, rfl, hrun₁, hq, hend⟩ := hrun.ends hdone
  obtain ⟨r, hroute, ho⟩ := handleRequest_ends hend
  exact ⟨post, pre, q, r, rfl, hrun₁, hq, hroute, ho⟩

/-- The whole history of a thread that has answered. -/
theorem answered_own {A : Trace (proxySystem X srv) → Entry (proxySystem X srv) → Prop} {w w₁ : World}
    {tr : Trace (proxySystem X srv)} {t : ℕ} {q : Request} {o : Response} (hrun : Run A w tr)
    (hq : Started t q tr) (hdone : ⟨t, w₁, .done o⟩ ∈ tr) :
    ∃ r, (handleRoute X srv q q.route).Ends (own t tr) r ∧ o = respond r := by
  obtain ⟨post, pre, q', r, rfl, -, hq', hend, ho⟩ := answered_ends hrun hdone
  obtain rfl := hrun.started_unique hq
    (hq'.mono ((List.suffix_cons _ _).trans (List.suffix_append _ _)).subset)
  have hown : own t (post ++ ⟨t, w₁, .done o⟩ :: pre) = own t pre := by
    rw [own_append, hrun.returned_quiet Cmd.event_inj, own_done, List.nil_append]
  exact ⟨r, hown ▸ hend, ho⟩

end ZeroTrustProxy
