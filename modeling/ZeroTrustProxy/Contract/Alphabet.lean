import ZeroTrustProxy.Concurrent.Once
import ZeroTrustProxy.Model.Proxy

/-!
Which collaborators a part of a handler calls.

The counters of the rate limits are called by `check_rate_limit` alone, the audit
table by the audit logger, the backend by `forward_upstream`. One lemma for each part
says which groups of calls it makes, in the order of the source.
-/

namespace ZeroTrustProxy

open Concurrent Program Handler SessionManager JwtManager TotpManager AuditLogger

/-- The collaborators of the handlers. -/
inductive CmdGroup where
  | counter
  | session
  | account
  | device
  | audit
  | upstream
  | panic
  /-- The reading of the clock that begins a session. -/
  | opening
  /-- The signing of a token. -/
  | signing
  /-- The other readings of the clock, identifiers, hashes, codes, the validation of tokens
  and the marks in the history. -/
  | ambient
  deriving DecidableEq

def Cmd.group : Cmd → CmdGroup
  | .redisIncr _ | .redisExpire _ _ => .counter
  | .redisGet _ | .redisSetEx _ _ _ | .redisDel _ | .redisScan | .redisScanNext _ => .session
  | .findUserByUsername _ | .findUserById _ | .setUserMfaSecret _ _ | .createUser _ _ _ => .account
  | .findDeviceByFingerprint _ _ | .upsertDevice _ => .device
  | .insertAuditLog _ => .audit
  | .upstream _ => .upstream
  | .panic => .panic
  | .utcNow .sessionNew => .opening
  | .jwtEncode _ => .signing
  | .utcNow _ | .newUuid | .generateSecret | .hashPassword _ | .totpCheck _ _
  | .jwtDecode _ | .getSessionCall _ | .getSessionReturn _ _ => .ambient

attribute [local simp] Cmd.group

variable {X : External} {srv : ProxyServer} {req : Request} {h : List Event} {α β : Type}
  {gs gs' : List CmdGroup}

/-- The calls of the program are of these groups. -/
abbrev Confined (gs : List CmdGroup) (p : Handler α) : Prop := p.Uses fun (c : Cmd) => c.group ∈ gs

theorem Confined.mono {p : Handler α} (hp : Confined gs p) (hsub : gs ⊆ gs') : Confined gs' p :=
  Uses.mono hp fun _ hc => hsub hc

theorem Confined.elim {p : Handler α} {c : Cmd} (hcalls : p.Calls h c) (hp : Confined gs p) :
    c.group ∈ gs := hp h c hcalls

/-- A program that is confined to other groups makes no call of the group. -/
theorem Confined.avoids {p : Handler α} {g : CmdGroup} (hp : Confined gs p) (hg : g ∉ gs) :
    p.Uses fun (c : Cmd) => ¬ c.group = g :=
  Uses.mono hp fun _ hc heq => hg (heq ▸ hc)

/-! ### Single calls -/

theorem unwrap_confined {err : String → ProxyError} {r : Except Fault α} :
    Confined gs (unwrap err r) := by
  cases r with
  | ok a => exact uses_ret
  | error f => exact uses_throw

theorem okOr_confined {e : ProxyError} {x : Option α} : Confined gs (okOr e x) := by
  cases x with
  | some a => exact uses_ret
  | none => exact uses_throw

theorem mapErr_confined {err : String → ProxyError} {r : Except String α} :
    Confined gs (mapErr err r) := by
  cases r with
  | ok a => exact uses_ret
  | error e => exact uses_throw

theorem ignore_confined {p : Handler α} (hp : Confined gs p) : Confined gs (ignore p) :=
  uses_bind (uses_attempt hp) fun _ => uses_ret

theorem utcNow_confined {use : ClockUse} : Confined [(Cmd.utcNow use).group] (utcNow use) :=
  uses_call (by simp) fun _ => uses_ret

theorem newUuid_confined : Confined [.ambient] newUuid := uses_call (by decide) fun _ => uses_ret

/-! ### Sessions, tokens and codes -/

theorem bearerClaims_confined : Confined [.ambient] (bearerClaims req) :=
  uses_bind uses_ofExcept fun _ => uses_call (by simp) fun _ => mapErr_confined

theorem updateSession_confined {x : Session} : Confined [.session, .ambient] (updateSession x) := by
  apply uses_bind
  · exact utcNow_confined.mono (by simp)
  intro now
  exact uses_ite (uses_call (by simp) fun _ => unwrap_confined) uses_ret

theorem deleteSession_confined {id : String} : Confined [.session] (deleteSession id) :=
  uses_call (by simp) fun _ => unwrap_confined

theorem fetchSession_confined {id : String} :
    Confined [.session, .ambient] (fetchSession X id) := by
  apply uses_bind
  · exact uses_call (by simp) fun _ => unwrap_confined
  intro data
  cases data with
  | none => exact uses_throw
  | some serialized =>
      apply uses_bind
      · exact mapErr_confined
      intro session
      apply uses_bind
      · exact utcNow_confined.mono (by simp)
      intro now
      apply uses_ite
      · exact uses_bind (deleteSession_confined.mono (by simp)) fun _ => uses_throw
      apply uses_bind
      · exact utcNow_confined.mono (by simp)
      intro activity
      exact uses_bind updateSession_confined fun _ => uses_ret

theorem getSession_confined {id : String} : Confined [.session, .ambient] (getSession X id) := by
  refine uses_call (by simp) fun _ => ?_
  apply uses_bind
  · exact uses_attempt fetchSession_confined
  · exact fun _ => uses_call (by simp) fun _ => uses_ofExcept

theorem scanRest_confined (left : ℕ) : Confined [.session] (scanRest left) := by
  induction left with
  | zero => exact uses_ret
  | succ left ih =>
      refine uses_call (by simp) fun r => ?_
      cases r with
      | error f => exact uses_ret
      | ok keys => exact uses_bind ih fun _ => uses_ret

theorem readUserSession_confined {userId key : String} :
    Confined [.session, .ambient] (readUserSession X userId key) := by
  refine uses_call (by simp) fun r => ?_
  cases r with
  | error f => exact uses_ret
  | ok data =>
      cases data with
      | none => exact uses_ret
      | some data =>
          cases hparse : data.parseSession X with
          | error e =>
              simp only [hparse]
              exact uses_ret
          | ok session =>
              simp only [hparse]
              refine uses_ite (uses_bind ?_ fun _ => uses_ret) uses_ret
              exact utcNow_confined.mono (by simp)

theorem readUserSessions_confined {userId : String} (keys : List String) :
    Confined [.session, .ambient] (readUserSessions X userId keys) := by
  induction keys with
  | nil => exact uses_ret
  | cons key keys ih =>
      exact uses_bind readUserSession_confined fun _ => uses_bind ih fun _ => uses_ret

theorem deleteSessions_confined (sessions : List Session) :
    Confined [.session] (deleteSessions sessions) := by
  induction sessions with
  | nil => exact uses_ret
  | cons session sessions ih => exact uses_bind deleteSession_confined fun _ => ih

theorem revokeUserSessions_confined {userId : String} :
    Confined [.session, .ambient] (revokeUserSessions X userId) := by
  apply uses_bind
  · apply uses_bind
    · apply uses_bind
      · exact uses_call (by simp) fun _ => unwrap_confined
      intro page
      exact uses_bind ((scanRest_confined _).mono (by simp)) fun _ => uses_ret
    · exact fun keys => readUserSessions_confined keys
  intro sessions
  exact uses_bind ((deleteSessions_confined sessions).mono (by simp)) fun _ => uses_ret

theorem createSession_confined {durationMinutes : Int}
    {userId deviceId ipAddress userAgent : String} :
    Confined [.session, .opening, .panic, .ambient]
      (createSession durationMinutes userId deviceId ipAddress userAgent) := by
  apply uses_bind
  · apply uses_bind
    · exact utcNow_confined.mono (by simp)
    intro now
    apply uses_bind
    · exact newUuid_confined.mono (by simp)
    intro id
    exact uses_ite uses_ret (uses_call (by simp) fun r => r.elim)
  intro session
  exact uses_bind (uses_call (by simp) fun _ => unwrap_confined) fun _ => uses_ret

theorem generateToken_confined {expirationHours : Int} {userId deviceId : String} {riskScore : ℕ}
    {mfaVerified : Bool} {sessionId : String} :
    Confined [.signing, .panic, .ambient]
      (generateToken expirationHours userId deviceId riskScore mfaVerified sessionId) := by
  apply uses_bind
  · exact utcNow_confined.mono (by simp)
  intro now
  apply uses_ite
  · apply uses_bind
    · exact newUuid_confined.mono (by simp)
    · exact fun _ => uses_call (by simp) fun _ => mapErr_confined
  · exact uses_call (by simp) fun r => r.elim

theorem verifyOrFalse_confined {secret code : String} :
    Confined [.panic, .ambient] (verifyOrFalse X secret code) := by
  have hverify : Confined [.panic, .ambient] (verifyToken X MfaConfig.default secret code) := by
    unfold verifyToken
    cases X.decodeSecret secret with
    | none => exact uses_call (by simp) fun r => r.elim
    | some bytes =>
        cases herror : X.totpError (totpOf .default bytes) with
        | some e =>
            simp only [herror]
            exact uses_throw
        | none =>
            simp only [herror]
            refine uses_call (by simp) fun r => ?_
            cases r with
            | error e => exact uses_throw
            | ok valid =>
                cases valid with
                | true => exact uses_ret
                | false => exact uses_throw
  apply uses_bind
  · exact uses_attempt hverify
  intro r
  cases r with
  | ok valid => exact uses_ret
  | error e => exact uses_ret

/-! ### The audit logger and the risk scores -/

theorem newEvent_confined {eventType : EventType} {userId deviceId : Option String}
    {ipAddress resource action : String} {outcome : Outcome} :
    Confined [.ambient] (newEvent eventType userId deviceId ipAddress resource action outcome) :=
  uses_bind newUuid_confined fun _ => uses_bind utcNow_confined fun _ => uses_ret

theorem log_confined {event : AuditEvent} : Confined [.audit, .ambient] (log X event) := by
  unfold log
  split
  · exact uses_call (by simp) fun _ => unwrap_confined
  · apply uses_bind
    · exact newUuid_confined.mono (by simp)
    · exact fun _ => uses_call (by simp) fun _ => unwrap_confined

theorem logAuthentication_confined {userId deviceId ipAddress : String} {success : Bool} :
    Confined [.audit, .ambient] (ignore (logAuthentication X userId deviceId ipAddress success)) :=
  ignore_confined (uses_bind (newEvent_confined.mono (by simp)) fun _ => log_confined)

theorem logAuthorization_confined {userId ipAddress resource action : String} {allowed : Bool}
    {riskScore : ℕ} : Confined [.audit, .ambient]
      (ignore (logAuthorization X userId ipAddress resource action allowed riskScore)) :=
  ignore_confined (uses_bind (newEvent_confined.mono (by simp)) fun _ => log_confined)

theorem logRiskEvaluation_confined {userId deviceId ipAddress : String} {riskScore : ℕ}
    {factors : Json} : Confined [.audit, .ambient]
      (ignore (logRiskEvaluation X userId deviceId ipAddress riskScore factors)) :=
  ignore_confined (uses_bind (newEvent_confined.mono (by simp)) fun _ => log_confined)

theorem newDevice_confined {userId userAgent ipAddress : String} :
    Confined [.ambient] (newDevice X userId userAgent ipAddress) :=
  uses_bind newUuid_confined fun _ => uses_bind utcNow_confined fun _ =>
    uses_bind utcNow_confined fun _ => uses_ret

theorem scoreRisk_confined {engine : RiskEngine} {context : RiskContext} :
    Confined [.ambient] (scoreRisk engine context) := uses_bind utcNow_confined fun _ => uses_ret

theorem evaluateRequestRisk_confined {session : Session} {claims : Claims} :
    Confined [.ambient] (evaluateRequestRisk X srv req session claims) :=
  uses_bind newDevice_confined fun _ => uses_bind utcNow_confined fun _ =>
    uses_bind utcNow_confined fun _ => scoreRisk_confined

theorem gateRequest_confined {session : Session} {claims : Claims} {risk : RiskScore} :
    Confined [.audit, .ambient] (gateRequest X srv req session claims risk) := by
  apply uses_ite
  · exact uses_throw
  cases hrec : risk.recommendation with
  | block => exact uses_bind logAuthorization_confined fun _ => uses_throw
  | stepUpAuth => exact uses_ite uses_throw logAuthorization_confined
  | allow => exact logAuthorization_confined

/-! ### The handlers -/

theorem checkRateLimit_confined {ip : IpAddr} {bucket : String} {limit windowSecs : Int} :
    Confined [.counter] (checkRateLimit ip bucket limit windowSecs) := by
  apply uses_bind
  · exact uses_call (by simp) fun _ => unwrap_confined
  intro count
  apply uses_ite
  · apply uses_bind
    · exact uses_call (by simp) fun _ => unwrap_confined
    · exact fun _ => uses_ite uses_throw uses_ret
  · exact uses_ite uses_throw uses_ret

theorem authorize_confined : Confined [.session, .audit, .ambient] (authorize X srv req) := by
  apply uses_bind
  · exact bearerClaims_confined.mono (by simp)
  intro claims
  apply uses_bind
  · exact getSession_confined.mono (by simp)
  intro session
  apply uses_ite
  · exact uses_throw
  apply uses_ite
  · exact uses_bind (logAuthorization_confined.mono (by simp)) fun _ => uses_throw
  apply uses_bind
  · exact evaluateRequestRisk_confined.mono (by simp)
  intro risk
  apply uses_bind
  · exact logRiskEvaluation_confined.mono (by simp)
  · exact fun _ => gateRequest_confined.mono (by simp)

theorem forwardUpstream_confined : Confined [.upstream] (forwardUpstream X srv req) :=
  uses_bind okOr_confined fun _ => uses_bind okOr_confined fun _ =>
    uses_bind (uses_call (by simp) fun _ => mapErr_confined) fun _ => uses_ret

theorem storeDevice_confined {user : UserRow} {device : DeviceFingerprint} :
    Confined [.device] (storeDevice req user device) :=
  uses_call (by simp) fun _ => unwrap_confined

theorem refusePassword_confined {body : LoginBody} {user : UserRow} {device : DeviceFingerprint} :
    Confined [.device, .audit, .ambient] (refusePassword X req body user device) :=
  uses_bind (storeDevice_confined.mono (by simp)) fun _ =>
    uses_bind (logAuthentication_confined.mono (by simp)) fun _ => uses_throw

theorem loginMfa_confined {user : UserRow} {body : LoginBody} :
    Confined [.panic, .ambient] (loginMfa X user body) := by
  apply uses_ite
  · apply uses_bind
    · exact okOr_confined
    intro secret
    cases body.mfaToken with
    | none => exact uses_throw
    | some code => exact uses_bind verifyOrFalse_confined fun _ => uses_ite uses_ret uses_throw
  · exact uses_ret

theorem loginRisk_confined {user : UserRow} {device : DeviceFingerprint}
    {existing : Option DeviceRow} :
    Confined [.device, .ambient] (loginRisk srv req user device existing) := by
  apply uses_bind
  · exact utcNow_confined.mono (by simp)
  intro lastSeen
  apply uses_bind
  · exact storeDevice_confined.mono (by simp)
  intro _
  apply uses_bind
  · exact utcNow_confined.mono (by simp)
  · exact fun _ => scoreRisk_confined.mono (by simp)

theorem startSession_confined {user : UserRow} {deviceId userAgent : String} {mfa : Bool}
    {risk : RiskScore} : Confined [.session, .audit, .opening, .signing, .panic, .ambient]
      (startSession X srv req user deviceId userAgent mfa risk) := by
  apply uses_bind
  · exact createSession_confined.mono (by simp)
  intro session
  apply uses_bind
  · exact updateSession_confined.mono (by simp)
  intro _
  apply uses_bind
  · exact logAuthentication_confined.mono (by simp)
  intro _
  apply uses_bind
  · exact generateToken_confined.mono (by simp)
  · exact fun _ => uses_ret

theorem openSession_confined {body : LoginBody} {user : UserRow} {userAgent : String} {mfa : Bool}
    {risk : RiskScore} : Confined [.session, .audit, .opening, .signing, .panic, .ambient]
      (openSession X srv req body user userAgent mfa risk) := by
  unfold openSession
  cases body.deviceId with
  | some deviceId => exact startSession_confined
  | none => exact uses_bind (newUuid_confined.mono (by simp)) fun _ => startSession_confined

/-! ### The handlers -/

/-- The handler calls `check_rate_limit` and goes on with calls of these groups. -/
def Limited (gs : List CmdGroup) (bucket : String) (req : Request) (p : Handler Response) : Prop :=
  ∃ rest : Unit → Handler Response, p = (checkRateLimit req.remoteIp bucket 10 300 >>= rest) ∧
    ∀ u, Confined gs (rest u)

theorem Limited.mono {bucket : String} {p : Handler Response} (hp : Limited gs bucket req p)
    (hsub : gs ⊆ gs') : Limited gs' bucket req p := by
  obtain ⟨rest, rfl, hrest⟩ := hp
  exact ⟨rest, rfl, fun u => (hrest u).mono hsub⟩

theorem Limited.confined {bucket : String} {p : Handler Response} (hp : Limited gs bucket req p) :
    Confined (.counter :: gs) p := by
  obtain ⟨rest, rfl, hrest⟩ := hp
  exact uses_bind (checkRateLimit_confined.mono (by simp)) fun u => (hrest u).mono (by simp)

theorem handleLogin_limited :
    Limited [.session, .account, .device, .audit, .opening, .signing, .panic, .ambient] "login" req
      (handleLogin X srv req) := by
  refine ⟨_, rfl, fun _ => ?_⟩
  apply uses_bind
  · exact okOr_confined
  intro bytes
  apply uses_bind
  · exact okOr_confined
  intro body
  apply uses_bind
  · exact uses_call (by simp) fun _ => unwrap_confined
  intro found
  apply uses_bind
  · exact okOr_confined
  intro user
  apply uses_bind
  · exact newDevice_confined.mono (by simp)
  intro device
  apply uses_bind
  · exact uses_call (by simp) fun _ => unwrap_confined
  intro existing
  apply uses_bind
  · exact mapErr_confined
  intro passwordOk
  apply uses_ite
  · exact refusePassword_confined.mono (by simp)
  apply uses_bind
  · exact loginMfa_confined.mono (by simp)
  intro mfaVerified
  apply uses_bind
  · exact loginRisk_confined.mono (by simp)
  intro risk
  apply uses_ite
  · exact uses_bind (logAuthentication_confined.mono (by simp)) fun _ => uses_throw
  · exact openSession_confined.mono (by simp)

theorem handleRegister_limited :
    Limited [.account, .ambient] "register" req (handleRegister X req) := by
  refine ⟨_, rfl, fun _ => ?_⟩
  apply uses_bind
  · exact okOr_confined
  intro bytes
  apply uses_bind
  · exact okOr_confined
  intro body
  apply uses_ite
  · exact uses_throw
  apply uses_bind
  · exact uses_call (by simp) fun _ => unwrap_confined
  intro found
  apply uses_ite
  · exact uses_throw
  apply uses_bind
  · exact uses_call (by simp) fun _ => mapErr_confined
  intro passwordHash
  apply uses_bind
  · refine uses_call (by simp) fun r => ?_
    cases r with
    | ok row => exact uses_ret
    | error f => exact uses_throw
  · exact fun _ => uses_ret

theorem handleMfaVerify_limited :
    Limited [.session, .account, .panic, .ambient] "mfa_verify" req (handleMfaVerify X req) := by
  refine ⟨_, rfl, fun _ => ?_⟩
  apply uses_bind
  · exact bearerClaims_confined.mono (by simp)
  intro claims
  apply uses_bind
  · exact okOr_confined
  intro bytes
  apply uses_bind
  · exact okOr_confined
  intro body
  apply uses_bind
  · exact okOr_confined
  intro userId
  apply uses_bind
  · exact uses_call (by simp) fun _ => unwrap_confined
  intro found
  apply uses_bind
  · exact okOr_confined
  intro user
  apply uses_bind
  · exact okOr_confined
  intro secret
  apply uses_bind
  · exact verifyOrFalse_confined.mono (by simp)
  intro valid
  apply uses_ite
  · exact uses_throw
  apply uses_bind
  · exact getSession_confined.mono (by simp)
  intro session
  apply uses_bind
  · exact updateSession_confined.mono (by simp)
  · exact fun _ => uses_ret

theorem handleMfaEnroll_confined : Confined [.account, .ambient] (handleMfaEnroll X req) := by
  apply uses_bind
  · exact bearerClaims_confined.mono (by simp)
  intro claims
  apply uses_bind
  · exact okOr_confined
  intro userId
  apply uses_bind
  · exact uses_call (by simp) fun _ => unwrap_confined
  intro found
  apply uses_bind
  · exact okOr_confined
  intro user
  apply uses_bind
  · exact uses_call (by simp) fun _ => uses_ret
  intro secret
  apply uses_bind
  · exact uses_call (by simp) fun _ => unwrap_confined
  · exact fun _ => uses_ret

theorem handleLogout_confined : Confined [.session, .ambient] (handleLogout req) := by
  apply uses_bind
  · exact bearerClaims_confined.mono (by simp)
  intro claims
  exact uses_bind (deleteSession_confined.mono (by simp)) fun _ => uses_ret

theorem handleLogoutAll_confined : Confined [.session, .ambient] (handleLogoutAll X req) := by
  apply uses_bind
  · exact bearerClaims_confined.mono (by simp)
  intro claims
  exact uses_bind (revokeUserSessions_confined.mono (by simp)) fun _ => uses_ret

/-- The answer is made without a call. -/
theorem handleRequest_once {P : Cmd → Prop} (hp : (handleRoute X srv req req.route).Once P) :
    (handleRequest X srv req).Once P := by
  refine once_bind_left (once_attempt hp) fun r => ?_
  cases r with
  | ok resp => exact uses_ret
  | error err => exact uses_ret

/-- The calls of a request are those of its handler. -/
theorem handleRequest_calls {c : Cmd} (hcalls : (handleRequest X srv req).Calls h c) :
    (handleRoute X srv req req.route).Calls h c := by
  obtain hroute | ⟨r, -, h₂, -, -, hanswer⟩ := calls_bind.mp hcalls
  · exact calls_attempt.mp hroute
  · cases r with
    | ok resp => exact (calls_pure hanswer).elim
    | error err => exact (calls_pure hanswer).elim

end ZeroTrustProxy
