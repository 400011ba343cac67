import ZeroTrustProxy.Runs.GuessBudget
import ZeroTrustProxy.Runs.Recorded
import ZeroTrustProxy.Runs.RiskRange

/-!
What the audit trail can be trusted for.

Many requests write to the audit table at the same time, and none looks at the reply.
Still every row has an id of its own, names an account and the address its request came
from, and tells what the request had established when it was written; and no row is ever
changed or taken away.
-/

namespace ZeroTrustProxy

open Concurrent Program Handler JwtManager TotpManager AuditLogger

variable {X : External} {srv : ProxyServer}
  {A : ProxyTrace X srv → Entry (proxySystem X srv) → Prop} {w w' : World}
  {seg tr tr' tr₀ : ProxyTrace X srv} {x₀ : Entry (proxySystem X srv)} {q : Request}
  {h h' : List Event} {t : ℕ} {row : AuditRow} {claims : Claims} {session : Session}
  {risk : RiskScore} {body : LoginBody} {user : UserRow}

/-! ### What a row rests on -/

/-- The event of a request that the policy or its risk keeps out. -/
def refusalEvent (q : Request) (claims : Claims) (score : ℕ) (id : Uuid) : AuditEvent :=
  ⟨id.text, .authorization, some claims.sub, none, q.remoteIp.text, q.uri.path, q.method,
    .blocked, some score, .obj []⟩

/-- The event of a login, for the device id it goes by. -/
def loginEvent (q : Request) (user : UserRow) (deviceId : String) (outcome : Outcome) (id : Uuid) :
    AuditEvent :=
  ⟨id.text, .authentication, some user.id.text, some deviceId, q.remoteIp.text, "/auth/login",
    "authenticate", outcome, none, .obj []⟩

/-- `authorize` has read the session that the token names, and it is of the token's
subject. -/
structure Presented (q : Request) (h : List Event) (claims : Claims) (session : Session) : Prop where
  route : q.route = .proxied
  bearer : Bearer q h claims
  read : .getSessionReturn claims.sessionId (.ok session) ∈ h
  owner : session.userId = claims.sub

/-- `handle_login` has created a session for the device id and completed it. -/
def SessionOpened (srv : ProxyServer) (q : Request) (h : List Event) (user : UserRow)
    (deviceId : String) (mfa : Bool) (risk : RiskScore) : Prop :=
  ∃ userAgent session create update, CreateRun srv q user deviceId userAgent create (.ok session) ∧
    UpdateRun (stamp session mfa risk.totalScore) update (.ok ()) ∧ update ++ create <:+: h

/-- The rows of the audit table, each with what the request has established. -/
inductive Grounds (X : External) (srv : ProxyServer) (q : Request) (h : List Event) :
    AuditRow → Prop
  | denied {claims : Claims} {session : Session} (id : Uuid)
      (presented : Presented q h claims session)
      (policy : (srv.policyEngine.evaluate X.floats (policyContext q claims)).allowed = false) :
      Grounds X srv q h (rowOf X (refusalEvent q claims session.riskScore id) id)
  | evaluated {claims : Claims} {session : Session} {risk : RiskScore} (id : Uuid)
      (presented : Presented q h claims session)
      (score : RequestRisk X srv q h session claims risk) :
      Grounds X srv q h (rowOf X (evaluationEvent q claims risk id) id)
  | tooRisky {claims : Claims} {session : Session} {risk : RiskScore} (id : Uuid)
      (presented : Presented q h claims session)
      (score : RequestRisk X srv q h session claims risk)
      (above : srv.config.blockThreshold ≤ risk.totalScore) :
      Grounds X srv q h (rowOf X (refusalEvent q claims risk.totalScore id) id)
  | granted {claims : Claims} {session : Session} {risk : RiskScore} (id : Uuid)
      (gate : GatePassed X srv q h claims session risk) :
      Grounds X srv q h (rowOf X (grantEvent q claims risk id) id)
  | wrongPassword {body : LoginBody} {user : UserRow} (id : Uuid) (route : q.route = .login)
      (parsed : ParsesLogin X q body)
      (found : .findUserByUsername body.username (.ok (some user)) ∈ h)
      (active : user.isActive = true)
      (password : X.verifyPassword body.password user.passwordHash = .ok false) :
      Grounds X srv q h
        (rowOf X (loginEvent q user (body.deviceId.getD "unknown") .failure id) id)
  | riskyLogin {body : LoginBody} {user : UserRow} {deviceId : String} {risk : RiskScore} (id : Uuid)
      (passed : LoginPassed X q h body user user.mfaEnabled)
      (score : LoginScored X srv q h risk)
      (above : srv.config.blockThreshold ≤ risk.totalScore) :
      Grounds X srv q h (rowOf X (loginEvent q user deviceId .failure id) id)
  | loggedIn {body : LoginBody} {user : UserRow} {deviceId : String} {risk : RiskScore} (id : Uuid)
      (passed : LoginPassed X q h body user user.mfaEnabled)
      (score : LoginScored X srv q h risk)
      (below : risk.totalScore < srv.config.blockThreshold)
      (opened : SessionOpened srv q h user deviceId user.mfaEnabled risk) :
      Grounds X srv q h (rowOf X (loginEvent q user deviceId .success id) id)

theorem Presented.mono (hp : Presented q h claims session) (hsub : h <:+ h') :
    Presented q h' claims session :=
  { hp with
    bearer := hp.bearer.mono hsub
    read := hsub.subset hp.read }

theorem GatePassed.mono (hg : GatePassed X srv q h claims session risk) (hsub : h <:+ h') :
    GatePassed X srv q h' claims session risk :=
  { hg with
    bearer := hg.bearer.mono hsub
    read := hsub.subset hg.read
    score := hg.score.mono hsub }

theorem SessionOpened.mono {deviceId : String} {mfa : Bool}
    (ho : SessionOpened srv q h user deviceId mfa risk) (hsub : h <:+: h') :
    SessionOpened srv q h' user deviceId mfa risk := by
  obtain ⟨userAgent, session, create, update, hcreate, hupdate, hin⟩ := ho
  exact ⟨userAgent, session, create, update, hcreate, hupdate, hin.trans hsub⟩

/-- What has been established stays so. -/
theorem Grounds.mono (hg : Grounds X srv q h row) (hsub : h <:+ h') : Grounds X srv q h' row := by
  cases hg with
  | denied id presented policy => exact .denied id (presented.mono hsub) policy
  | evaluated id presented score => exact .evaluated id (presented.mono hsub) (score.mono hsub)
  | tooRisky id presented score above =>
      exact .tooRisky id (presented.mono hsub) (score.mono hsub) above
  | granted id gate => exact .granted id (gate.mono hsub)
  | wrongPassword id route parsed found active password =>
      exact .wrongPassword id route parsed (hsub.subset found) active password
  | riskyLogin id passed score above =>
      exact .riskyLogin id (passed.mono hsub) (score.mono hsub) above
  | loggedIn id passed score below opened =>
      exact .loggedIn id (passed.mono hsub) (score.mono hsub) below
        (opened.mono hsub.isInfix)

/-- Every row has the address of its request. -/
theorem Grounds.ipAddress (hg : Grounds X srv q h row) : row.ipAddress = q.remoteIp.text := by
  have hparse (event : AuditEvent) (id : Uuid) (hip : event.ipAddress = q.remoteIp.text) :
      (rowOf X event id).ipAddress = q.remoteIp.text := by
    simp [rowOf, hip, X.parseIp_text]
  cases hg <;> exact hparse _ _ rfl

/-! ### What is submitted -/

/-- The id of the row has been drawn, the time has been read, and that is all since `l`. -/
def DrawnFor (row : AuditRow) (l h : List Event) : Prop :=
  ∃ n, h = .utcNow .auditTimestamp n :: .newUuid row.id :: l

/-- The three calls of the logger submit the event as they have filled it in. -/
theorem audit_calls {eventType : EventType} {userId ipAddress resource action : String}
    {deviceId : Option String} {outcome : Outcome} {g : AuditEvent → AuditEvent}
    (hg : ∀ event, (g event).id = event.id)
    (hcalls : (ignore (newEvent eventType (some userId) deviceId ipAddress resource action outcome >>=
      fun event => log X (g event))).Calls h (.insertAuditLog row)) :
    ∃ id n, h = [.utcNow .auditTimestamp n, .newUuid id] ∧ row = rowOf X (g ⟨id.text, eventType,
      some userId, deviceId, ipAddress, resource, action, outcome, none, .obj []⟩) id := by
  obtain hlog | ⟨_, _, _, -, -, hend⟩ := calls_bind.mp hcalls
  swap
  · exact (calls_pure hend).elim
  obtain hevent | ⟨event, h₁, h₂, rfl, hevent, hinsert⟩ := calls_bind.mp (calls_attempt.mp hlog)
  · exact absurd (newEvent_confined.elim hevent) (by simp [Cmd.group])
  obtain ⟨id, n, rfl, heq⟩ := newEvent_ends hevent
  obtain rfl := Except.ok.inj heq
  have hid : X.parseUuid (g ⟨id.text, eventType, some userId, deviceId, ipAddress, resource, action,
      outcome, none, .obj []⟩).id = some id := by
    rw [hg]
    exact X.parseUuid_text id
  simp only [log, hid, insertAuditLog, calls_call] at hinsert
  obtain ⟨rfl, hrow⟩ | ⟨x, _, rfl, hrest⟩ := hinsert
  · exact ⟨id, n, rfl, (Cmd.insertAuditLog.inj hrow).symm⟩
  · cases x with
    | ok u => exact (calls_ret hrest).elim
    | error f => exact (calls_throw hrest).elim

/-- The gates submit one row, for a request they block or for one they let through. -/
theorem gateRequest_calls (hcalls : (gateRequest X srv q session claims risk).Calls h
      (.insertAuditLog row)) :
    ∃ id n, h = [.utcNow .auditTimestamp n, .newUuid id] ∧
      (row = rowOf X (refusalEvent q claims risk.totalScore id) id ∧ risk.recommendation = .block ∨
        row = rowOf X (grantEvent q claims risk id) id ∧
          (srv.config.requireMfa = true → session.mfaVerified = true) ∧
          (risk.recommendation = .allow ∨
            risk.recommendation = .stepUpAuth ∧ session.mfaVerified = true)) := by
  have hlog {allowed : Bool} (hlogged : (ignore (logAuthorization X claims.sub q.remoteIp.text
      q.uri.path q.method allowed risk.totalScore)).Calls h (.insertAuditLog row)) :
      ∃ id n, h = [.utcNow .auditTimestamp n, .newUuid id] ∧ row = rowOf X ⟨id.text, .authorization,
        some claims.sub, none, q.remoteIp.text, q.uri.path, q.method,
        if allowed then .success else .blocked, some risk.totalScore, .obj []⟩ id :=
    audit_calls (g := fun event => { event with riskScore := some risk.totalScore })
      (fun _ => rfl) hlogged
  simp only [gateRequest, calls_ite, calls_throw, and_false, false_or, Bool.and_eq_true,
    Bool.not_eq_true'] at hcalls
  obtain ⟨hmfa, hcalls⟩ := hcalls
  have hpassed : srv.config.requireMfa = true → session.mfaVerified = true := by
    intro hrequired
    by_contra hfalse
    exact hmfa ⟨hrequired, by simpa using hfalse⟩
  cases hrec : risk.recommendation with
  | block =>
      simp only [hrec] at hcalls
      obtain hlogged | ⟨_, _, _, -, -, hthrow⟩ := calls_bind.mp hcalls
      · obtain ⟨id, n, rfl, hrow⟩ := hlog hlogged
        exact ⟨id, n, rfl, .inl ⟨hrow, rfl⟩⟩
      · exact (calls_throw hthrow).elim
  | stepUpAuth =>
      simp only [hrec, calls_ite, calls_throw, and_false, false_or] at hcalls
      obtain ⟨hverified, hlogged⟩ := hcalls
      obtain ⟨id, n, rfl, hrow⟩ := hlog hlogged
      exact ⟨id, n, rfl, .inr ⟨hrow, hpassed, .inr ⟨rfl, by simpa using hverified⟩⟩⟩
  | allow =>
      simp only [hrec] at hcalls
      obtain ⟨id, n, rfl, hrow⟩ := hlog hcalls
      exact ⟨id, n, rfl, .inr ⟨hrow, hpassed, .inl rfl⟩⟩

theorem authorize_calls (hroute : q.route = .proxied)
    (hcalls : (authorize X srv q).Calls h (.insertAuditLog row)) :
    ∃ l, DrawnFor row l h ∧ Grounds X srv q l row := by
  obtain htoken | ⟨claims, token, h₁, rfl, htoken, hafter⟩ := calls_bind.mp hcalls
  · exact absurd (bearerClaims_confined.elim htoken) (by simp [Cmd.group])
  have hbearer := (bearerClaims_ends htoken).bearer
  obtain hsession | ⟨session, events, h₂, rfl, hsession, hchecks⟩ := calls_bind.mp hafter
  · exact absurd (getSession_confined.elim hsession) (by simp [Cmd.group])
  obtain ⟨body, -, rfl⟩ := getSession_ends hsession
  rw [List.append_assoc]
  simp only [calls_ite, calls_throw, and_false, false_or] at hchecks
  obtain ⟨howner, ⟨hpolicy, hdeny⟩ | ⟨hpolicy, hscored⟩⟩ := hchecks
  all_goals
    have hpresented : Presented q (sessionEvents claims.sessionId (.ok session) body ++ token)
        claims session :=
      ⟨hroute, hbearer.mono (List.suffix_append _ _), by simp [sessionEvents], by simpa using howner⟩
  · obtain hlogged | ⟨_, _, _, -, -, hthrow⟩ := calls_bind.mp hdeny
    · obtain ⟨id, n, rfl, rfl⟩ := audit_calls
        (g := fun event => { event with riskScore := some session.riskScore }) (fun _ => rfl) hlogged
      exact ⟨_, ⟨n, rfl⟩, .denied id hpresented (by simpa using hpolicy)⟩
    · exact (calls_throw hthrow).elim
  obtain hrisk | ⟨risk, scores, h₃, rfl, hrisk, hgated⟩ := calls_bind.mp hscored
  · exact absurd (evaluateRequestRisk_confined.elim hrisk) (by simp [Cmd.group])
  obtain ⟨_, heq, hrun⟩ := evaluateRequestRisk_ends hrisk
  obtain rfl := Except.ok.inj heq
  rw [List.append_assoc]
  have hrisk' : RequestRisk X srv q
      (scores ++ (sessionEvents claims.sessionId (.ok session) body ++ token)) session claims risk := by
    cases hrun with
    | intro id first last ageAt timestamp now =>
        exact ⟨id, first, last, ageAt, timestamp, now, (List.prefix_append _ _).isInfix, rfl⟩
  have hpresented' := hpresented.mono (List.suffix_append scores _)
  obtain hlogged | ⟨_, evaluation, h₄, rfl, hlogged, hgate⟩ := calls_bind.mp hgated
  · obtain ⟨id, n, rfl, rfl⟩ := audit_calls (g := fun event =>
      { event with riskScore := some risk.totalScore, metadata := factorsJson risk })
      (fun _ => rfl) hlogged
    exact ⟨_, ⟨n, rfl⟩, .evaluated id hpresented' hrisk'⟩
  rw [List.append_assoc]
  have hlater := List.suffix_append evaluation
    (scores ++ (sessionEvents claims.sessionId (.ok session) body ++ token))
  obtain ⟨id, n, rfl, ⟨rfl, hblock⟩ | ⟨rfl, hmfa, hallow⟩⟩ := gateRequest_calls hgate
  · rw [hrisk'.recommendation] at hblock
    exact ⟨_, ⟨n, rfl⟩, .tooRisky id (hpresented'.mono hlater) (hrisk'.mono hlater)
      (RiskEngine.blockThreshold_le hblock)⟩
  · have hp := hpresented'.mono hlater
    rw [hrisk'.recommendation] at hallow
    have hbelow : srv.riskEngine.recommend risk.totalScore ≠ .block := by
      obtain hallow | ⟨hstep, -⟩ := hallow
      · simp [hallow]
      · simp [hstep]
    have hgate : GatePassed X srv q
        (evaluation ++ (scores ++ (sessionEvents claims.sessionId (.ok session) body ++ token)))
        claims session risk := by
      refine ⟨hp.route, hp.bearer, hp.read, hp.owner, by simpa using hpolicy, hmfa,
        hrisk'.mono hlater, RiskEngine.below_of_ne_block hbelow, fun hstep => ?_⟩
      obtain hallow | ⟨-, hverified⟩ := hallow
      · exact absurd (RiskEngine.below_of_allow hallow) (Nat.not_lt.mpr hstep)
      · exact hverified
    exact ⟨_, ⟨n, rfl⟩, .granted id hgate⟩

/-- The MFA gate of a login lets through with the flag of the row. -/
theorem MfaRun.enabled {mfa : Bool} (hm : MfaRun X user body h (.ok mfa)) :
    mfa = user.mfaEnabled := by
  generalize hr : (Except.ok mfa : Except ProxyError Bool) = r at hm
  cases hm with
  | notEnrolled enabled => exact (Except.ok.inj hr).trans enabled.symm
  | noSecret enabled secret => simp at hr
  | noCode enabled stored code => simp at hr
  | @decided secret code check valid enabled stored given checked =>
      cases valid with
      | false => simp at hr
      | true => exact (Except.ok.inj hr).trans enabled.symm

/-- A login that is let through submits its row when its session has been stored. -/
theorem startSession_calls {deviceId userAgent : String} {mfa : Bool}
    (hcalls : (startSession X srv q user deviceId userAgent mfa risk).Calls h
      (.insertAuditLog row)) :
    ∃ id n session create update, CreateRun srv q user deviceId userAgent create (.ok session) ∧
      UpdateRun (stamp session mfa risk.totalScore) update (.ok ()) ∧
      h = .utcNow .auditTimestamp n :: .newUuid id :: (update ++ create) ∧
      row = rowOf X (loginEvent q user deviceId .success id) id := by
  obtain hcreate | ⟨session, create, h₁, rfl, hcreate, hstamp⟩ := calls_bind.mp hcalls
  · exact absurd (createSession_confined.elim hcreate) (by simp [Cmd.group])
  obtain hupdate | ⟨_, update, h₂, rfl, hupdate, hafter⟩ := calls_bind.mp hstamp
  · exact absurd (updateSession_confined.elim hupdate) (by simp [Cmd.group])
  obtain hlog | ⟨_, audit, h₃, rfl, -, htoken⟩ := calls_bind.mp hafter
  · obtain ⟨id, n, rfl, rfl⟩ := audit_calls (g := fun event => event) (fun _ => rfl) hlog
    exact ⟨id, n, session, create, update, createSession_ends hcreate, updateSession_ends hupdate,
      by simp, rfl⟩
  · obtain htoken | ⟨_, _, _, -, -, hanswer⟩ := calls_bind.mp htoken
    · exact absurd (generateToken_confined.elim htoken) (by simp [Cmd.group])
    · exact (calls_pure hanswer).elim

theorem openSession_calls {userAgent : String} {mfa : Bool}
    (hcalls : (openSession X srv q body user userAgent mfa risk).Calls h (.insertAuditLog row)) :
    ∃ l id deviceId, DrawnFor row l h ∧ SessionOpened srv q l user deviceId mfa risk ∧
      row = rowOf X (loginEvent q user deviceId .success id) id := by
  have hstart {h : List Event} {deviceId : String}
      (hcalls : (startSession X srv q user deviceId userAgent mfa risk).Calls h
        (.insertAuditLog row)) :
      ∃ l id, DrawnFor row l h ∧ SessionOpened srv q l user deviceId mfa risk ∧
        row = rowOf X (loginEvent q user deviceId .success id) id := by
    obtain ⟨id, n, session, create, update, hcreate, hupdate, rfl, rfl⟩ := startSession_calls hcalls
    exact ⟨_, id, ⟨n, rfl⟩, ⟨userAgent, session, create, update, hcreate, hupdate, List.infix_rfl⟩,
      rfl⟩
  unfold openSession at hcalls
  cases hdevice : body.deviceId with
  | some deviceId =>
      simp only [hdevice] at hcalls
      obtain ⟨l, id, hdrawn, hopened, hrow⟩ := hstart hcalls
      exact ⟨l, id, deviceId, hdrawn, hopened, hrow⟩
  | none =>
      simp only [hdevice, newUuid, call_bind, ret_bind, calls_call, reduceCtorEq, and_false,
        false_or] at hcalls
      obtain ⟨drawn, h', rfl, hcalls⟩ := hcalls
      obtain ⟨l, id, ⟨n, rfl⟩, hopened, hrow⟩ := hstart hcalls
      exact ⟨_, id, drawn.text, ⟨n, rfl⟩,
        hopened.mono (List.prefix_append _ _).isInfix, hrow⟩

/-- A login on a known account, after its lookups. -/
theorem decideLogin_calls {id : Uuid} {first last : Int} {existing : Option DeviceRow}
    {rate : List Event} (hroute : q.route = .login) (hparsed : ParsesLogin X q body)
    (hactive : user.isActive = true)
    (hcalls : (decideLogin X srv q body user (loginDevice X q id first last user existing)
      existing).Calls h (.insertAuditLog row)) :
    ∃ l, DrawnFor row l (h ++ loginLookups X q body user id first last (.ok existing) rate) ∧
      Grounds X srv q l row := by
  have hfound : .findUserByUsername body.username (.ok (some user)) ∈
      loginLookups X q body user id first last (.ok existing) rate := by simp [loginLookups]
  obtain ⟨valid, hpassword, hdecide⟩ := calls_mapErr_bind.mp hcalls
  cases valid with
  | false =>
      simp only [Bool.not_false, if_true, refusePassword, storeDevice, upsertDevice, call_bind,
        calls_call, calls_unwrap_bind, reduceCtorEq, and_false, false_or] at hdecide
      obtain ⟨x, h₁, rfl, _, -, hlogged⟩ := hdecide
      obtain hlog | ⟨_, _, _, -, -, hthrow⟩ := calls_bind.mp hlogged
      · obtain ⟨id, n, rfl, rfl⟩ := audit_calls (g := fun event => event) (fun _ => rfl) hlog
        exact ⟨_, ⟨n, rfl⟩, .wrongPassword id hroute hparsed (List.mem_cons_of_mem _ hfound) hactive
          hpassword⟩
      · exact (calls_throw hthrow).elim
  | true =>
      simp only [Bool.not_true, Bool.false_eq_true, if_false] at hdecide
      obtain hgate | ⟨mfa, check, h₁, rfl, hgate, hscore⟩ := calls_bind.mp hdecide
      · exact absurd (loginMfa_confined.elim hgate) (by simp [Cmd.group])
      have hrun := loginMfa_ends hgate
      obtain rfl := hrun.enabled
      obtain hrisk | ⟨risk, scores, h₂, rfl, hrisk, hlast⟩ := calls_bind.mp hscore
      · exact absurd (loginRisk_confined.elim hrisk) (by simp [Cmd.group])
      simp only [List.append_assoc]
      generalize hlookups : loginLookups X q body user id first last (.ok existing) rate = l₀ at *
      have hpassed : LoginPassed X q (scores ++ (check ++ l₀)) body user user.mfaEnabled := by
        refine ⟨hroute, hparsed, by simp [hfound], hactive, hpassword, rfl, fun henabled => ?_⟩
        have hsub : check ⊆ scores ++ (check ++ l₀) := by simp
        have hgiven := hrun.given.mono hsub
        exact hgiven.resolve_left (by simp [henabled])
      have hscored : LoginScored X srv q (scores ++ (check ++ l₀)) risk :=
        ⟨rate, check, scores, body, user, id, first, last, existing, user.mfaEnabled,
          by rw [hlookups], hpassword, hrun, loginRisk_ends hrisk⟩
      obtain ⟨hblock, hlogged⟩ | ⟨hallow, hopen⟩ := calls_ite.mp hlast
      · obtain hlog | ⟨_, _, _, -, -, hthrow⟩ := calls_bind.mp hlogged
        · obtain ⟨id, n, rfl, rfl⟩ := audit_calls (g := fun event => event) (fun _ => rfl) hlog
          rw [hscored.recommendation] at hblock
          exact ⟨_, ⟨n, rfl⟩, .riskyLogin id hpassed hscored (RiskEngine.blockThreshold_le hblock)⟩
        · exact (calls_throw hthrow).elim
      · obtain ⟨l, id, deviceId, ⟨n, rfl⟩, hopened, rfl⟩ := openSession_calls hopen
        rw [hscored.recommendation] at hallow
        have hlater := List.suffix_append l (scores ++ (check ++ l₀))
        refine ⟨l ++ (scores ++ (check ++ l₀)), ⟨n, by simp⟩, ?_⟩
        exact .loggedIn id (hpassed.mono hlater) (hscored.mono hlater)
          (RiskEngine.below_of_ne_block hallow) (hopened.mono (List.prefix_append _ _).isInfix)

theorem handleLogin_calls (hroute : q.route = .login)
    (hcalls : (handleLogin X srv q).Calls h (.insertAuditLog row)) :
    ∃ l, DrawnFor row l h ∧ Grounds X srv q l row := by
  obtain hrate | ⟨_, rate, h₁, rfl, -, hread⟩ := calls_bind.mp hcalls
  · exact absurd (checkRateLimit_confined.elim hrate) (by simp [Cmd.group])
  obtain ⟨bytes, hbytes, hparse⟩ := calls_okOr_bind.mp hread
  obtain ⟨body, hbody, hlookup⟩ := calls_okOr_bind.mp hparse
  simp only [findUserByUsername, call_bind, calls_call, calls_unwrap_bind, reduceCtorEq, and_false,
    false_or] at hlookup
  obtain ⟨_, h₂, rfl, found, rfl, hfound⟩ := hlookup
  obtain ⟨user, huser, hdevice⟩ := calls_okOr_bind.mp hfound
  obtain ⟨rfl, hactive⟩ := Option.filter_eq_some_iff.mp huser
  obtain hdrawn | ⟨device, drawn, h₃, rfl, hdrawn, hfind⟩ := calls_bind.mp hdevice
  · exact absurd (newDevice_confined.elim hdrawn) (by simp [Cmd.group])
  simp only [newDevice, newUuid, utcNow, call_bind, ret_bind, ends_call, ends_pure] at hdrawn
  obtain ⟨id, _, rfl, first, _, rfl, last, _, rfl, rfl, hbuilt⟩ := hdrawn
  obtain rfl := Except.ok.inj hbuilt
  simp only [findDeviceByFingerprint, call_bind, calls_call, calls_unwrap_bind, reduceCtorEq,
    and_false, false_or] at hfind
  obtain ⟨_, h₄, rfl, existing, rfl, hdecide⟩ := hfind
  simp only [List.append_assoc]
  exact decideLogin_calls hroute ⟨bytes, hbytes, hbody⟩ hactive hdecide

/-- **What is submitted to the audit table.** A request submits a row right after it has
drawn its id, on the grounds that go with the row. -/
theorem audit_submitted (hcalls : (handleRequest X srv q).Calls h (.insertAuditLog row)) :
    ∃ l, DrawnFor row l h ∧ Grounds X srv q l row := by
  have hhandler := handleRequest_calls hcalls
  cases hroute : q.route <;> rw [hroute] at hhandler
  case login => exact handleLogin_calls hroute hhandler
  case proxied =>
    obtain hgate | ⟨_, _, _, -, -, hforward⟩ := calls_bind.mp hhandler
    · exact authorize_calls hroute hgate
    · exact absurd (forwardUpstream_confined.elim hforward) (by simp [Cmd.group])
  case health => exact (calls_pure hhandler).elim
  case metrics => exact (calls_pure hhandler).elim
  case register =>
    exact absurd (handleRegister_limited.confined.elim hhandler) (by simp [Cmd.group])
  case mfaVerify =>
    exact absurd (handleMfaVerify_limited.confined.elim hhandler) (by simp [Cmd.group])
  case mfaEnroll => exact absurd (handleMfaEnroll_confined.elim hhandler) (by simp [Cmd.group])
  case logout => exact absurd (handleLogout_confined.elim hhandler) (by simp [Cmd.group])
  case logoutAll => exact absurd (handleLogoutAll_confined.elim hhandler) (by simp [Cmd.group])

/-! ### Runs -/

/-- The audit table changes by insertions only. -/
theorem World.act_audit {e : Event} (hact : World.act X t e w = some w') :
    w'.audit = w.audit ∨ ∃ row r, e = .insertAuditLog row r ∧ w'.audit = w.audit ++ [row] := by
  rcases act_cases hact with rfl | hc
  · exact .inl rfl
  cases hc with
  | redis hr => exact .inl (by rw [hr.frame])
  | upsert hstored => exact .inl (by rw [upsertDevice_frame hstored])
  | audit => exact .inr ⟨_, _, rfl, rfl⟩
  | _ => exact .inl rfl

/-- A request has sent the row to the table right after it drew its id, on the grounds
that go with it. -/
def Vouched (tr : ProxyTrace X srv) (row : AuditRow) : Prop :=
  ∃ t q l h r, Started t q tr ∧ DrawnFor row l h ∧ .insertAuditLog row r :: h <:+ own t tr ∧
    Grounds X srv q l row

theorem Vouched.mono (hv : Vouched tr row) (hsub : tr <:+ tr') : Vouched tr' row := by
  obtain ⟨t, q, l, h, r, hq, hdrawn, hsent, hgrounds⟩ := hv
  exact ⟨t, q, l, h, r, hq.mono hsub.subset, hdrawn, hsent.trans (own_suffix hsub t), hgrounds⟩

/-- The id of a row that is about to be sent is on no row that has been sent. -/
theorem Vouched.id_ne (hrun : Run A w tr) (hv : Vouched tr row) {row' : AuditRow} {l : List Event}
    (hdrawn : DrawnFor row' l (own t tr)) : row.id ≠ row'.id := by
  intro hid
  obtain ⟨t', q, l', h', r, -, ⟨n', rfl⟩, hsent, -⟩ := hv
  obtain ⟨n, hown⟩ := hdrawn
  have hlast : .newUuid row.id :: l <:+ own t tr := by
    rw [hown, hid]
    exact List.suffix_cons _ _
  have hearlier : .newUuid row.id :: l' <:+ own t' tr :=
    ((List.suffix_cons _ _).trans (List.suffix_cons _ _)).trans hsent
  obtain ⟨rfl, rfl⟩ := drawn_once hrun hlast hearlier
  -- the row sent earlier makes the history longer than it is
  have hlength := hsent.length_le
  simp only [hown, List.length_cons] at hlength
  omega

/-- The account a login has found is there for good. -/
theorem found_user (hrun : Run A w tr) {username : String} {u : UserRow} {l : List Event}
    (hfound : .findUserByUsername username (.ok (some u)) :: l <:+ own t tr) :
    (w.userById u.id).isSome = true := by
  obtain ⟨post, pre, w₀, w₁, q', rfl, -, hbefore, -, -, hact⟩ := history_event hrun hfound
  obtain ⟨-, hname⟩ := World.userByUsername_reply hact
  have hmem : u ∈ w₀.users := List.mem_of_find?_eq_some hname.symm
  obtain ⟨u', hu', -⟩ := (accounts_kept hrun).userById (userById_of_mem hbefore hmem)
  exact Option.isSome_of_eq_some hu'

/-- The row names an account. -/
theorem Grounds.account (hrun : Run A w tr) (hg : Grounds X srv q h row) (hsub : h <:+ own t tr) :
    ∃ user ∈ w.users, row.userId = some user.id := by
  have hknown {u : UserRow} (hisSome : (w.userById u.id).isSome = true) :
      ∃ user ∈ w.users, user.id = u.id := by
    obtain ⟨user, huser⟩ := Option.isSome_iff_exists.mp hisSome
    exact ⟨user, List.mem_of_find?_eq_some huser, userById_id huser⟩
  have htoken {claims : Claims} (hb : Bearer q h claims) :
      ∃ user ∈ w.users, X.parseUuid claims.sub = some user.id := by
    obtain ⟨u, hsub', hisSome⟩ := token_user hrun hb hsub
    obtain ⟨user, hmem, hid⟩ := hknown hisSome
    exact ⟨user, hmem, by rw [hsub', X.parseUuid_text, hid]⟩
  have hname {body : LoginBody} {u : UserRow}
      (hfound : .findUserByUsername body.username (.ok (some u)) ∈ h) :
      ∃ user ∈ w.users, X.parseUuid u.id.text = some user.id := by
    obtain ⟨l, hl⟩ := suffix_of_mem hfound
    obtain ⟨user, hmem, hid⟩ := hknown (found_user hrun (hl.trans hsub))
    exact ⟨user, hmem, by rw [X.parseUuid_text, hid]⟩
  cases hg with
  | denied id presented policy => exact htoken presented.bearer
  | evaluated id presented score => exact htoken presented.bearer
  | tooRisky id presented score above => exact htoken presented.bearer
  | granted id gate => exact htoken gate.bearer
  | wrongPassword id route parsed found active password => exact hname found
  | riskyLogin id passed score above => exact hname passed.found
  | loggedIn id passed score below opened => exact hname passed.found

/-- The table holds `old` and rows that have been sent since, under ids of their own. -/
def Trail (old : List AuditRow) (w : World) (tr : ProxyTrace X srv) : Prop :=
  ∃ rows, w.audit = old ++ rows ∧ (rows.map (·.id)).Nodup ∧ ∀ row ∈ rows, Vouched tr row

theorem Trail.mono {old : List AuditRow} (ht : Trail old w tr) (hsame : w'.audit = w.audit)
    (hsub : tr <:+ tr') : Trail old w' tr' := by
  obtain ⟨rows, haudit, hnodup, hvouched⟩ := ht
  exact ⟨rows, hsame.trans haudit, hnodup, fun row hrow => (hvouched row hrow).mono hsub⟩

/-- A step keeps the trail. -/
theorem Trail.act {old : List AuditRow} {e : Event} (hrun : Run A w tr) (ht : Trail old w tr)
    (hq : Started t q tr) (hcalls : (handleRequest X srv q).Calls (own t tr) e.command)
    (hact : World.act X t e w = some w') : Trail old w' (⟨t, w, .act e⟩ :: tr) := by
  have hsub : tr <:+ ⟨t, w, .act e⟩ :: tr := List.suffix_cons _ _
  obtain hsame | ⟨row, r, rfl, hadd⟩ := World.act_audit hact
  · exact ht.mono hsame hsub
  obtain ⟨l, hdrawn, hgrounds⟩ := audit_submitted hcalls
  obtain ⟨rows, haudit, hnodup, hvouched⟩ := ht
  have hnew : Vouched (⟨t, w, .act (.insertAuditLog row r)⟩ :: tr) row :=
    ⟨t, q, l, own t tr, r, hq.mono hsub.subset, hdrawn, by simp, hgrounds⟩
  refine ⟨rows ++ [row], by rw [hadd, haudit, List.append_assoc], ?_, ?_⟩
  · rw [List.map_append, List.nodup_append]
    refine ⟨hnodup, by simp, ?_⟩
    intro a ha b hb
    obtain ⟨row', hrow', rfl⟩ := List.mem_map.mp ha
    obtain rfl : b = row.id := by simpa using hb
    exact (hvouched row' hrow').id_ne hrun hdrawn
  · intro row' hrow'
    obtain hold | hlast := List.mem_append.mp hrow'
    · exact (hvouched row' hold).mono hsub
    · obtain rfl := List.mem_singleton.mp hlast
      exact hnew

theorem trail (hrun : Run A w (seg ++ x₀ :: tr₀)) :
    Trail x₀.pre.audit w (seg ++ x₀ :: tr₀) := by
  refine (hrun.since (calls_contract (proxySystem X srv))
    (fun w seg => Trail x₀.pre.audit w (seg ++ x₀ :: tr₀)) ?_ ?_ ?_ ?_ ?_).1
  · intro w hbefore _ hen
    have hstart : Trail x₀.pre.audit x₀.pre tr₀ := ⟨[], by simp, by simp, by simp⟩
    obtain ⟨t, w₀, item⟩ := x₀
    cases item with
    | act e =>
        obtain ⟨q, hq, hcalls, hact⟩ := hen.licensed (calls_contract (proxySystem X srv))
        exact hstart.act hbefore hq hcalls hact
    | start q =>
        cases hen
        exact hstart.mono rfl (List.suffix_cons _ _)
    | done o =>
        cases hen
        exact hstart.mono rfl (List.suffix_cons _ _)
  · intro w w' seg m _ hJ henv
    obtain ⟨-, rfl⟩ : w.clock ≤ m ∧ w.advance m = w' := by simpa using henv
    exact hJ.mono rfl List.suffix_rfl
  · exact fun _ hJ _ => hJ.mono rfl (List.suffix_cons _ _)
  · exact fun hbefore hJ _ hq hcalls hact _ => hJ.act hbefore hq hcalls hact
  · exact fun _ hJ _ _ _ => hJ.mono rfl (List.suffix_cons _ _)

/-- **The audit trail.** From one point of a run to a later one the table only grows, and
every row that is added has an id no other one has, names an account, has the address of
a request and says what that request has established. -/
theorem audit_trail (hrun : Run A w (seg ++ x₀ :: tr₀)) :
    ∃ rows, w.audit = x₀.pre.audit ++ rows ∧ (rows.map (·.id)).Nodup ∧
      ∀ row ∈ rows, (∃ user ∈ w.users, row.userId = some user.id) ∧
        ∃ t q, Started t q (seg ++ x₀ :: tr₀) ∧ row.ipAddress = q.remoteIp.text ∧
          Grounds X srv q (own t (seg ++ x₀ :: tr₀)) row := by
  obtain ⟨rows, haudit, hnodup, hvouched⟩ := trail hrun
  refine ⟨rows, haudit, hnodup, fun row hrow => ?_⟩
  obtain ⟨t, q, l, h, r, hq, ⟨n, rfl⟩, hsent, hgrounds⟩ := hvouched row hrow
  have hsub : l <:+ own t (seg ++ x₀ :: tr₀) :=
    (List.suffix_append [_, _, _] l).trans hsent
  have hsince := hgrounds.mono hsub
  exact ⟨hsince.account hrun List.suffix_rfl, t, q, hq, hgrounds.ipAddress, hsince⟩

namespace Scenario

/-- Alice and Bob log in at once, and their rows go to an empty table. -/
theorem audit_trail_run : ∃ (w : World) (seg : ProxyTrace external server)
    (x₀ : Entry (proxySystem external server)) (row row' : AuditRow),
    Reachable w (seg ++ x₀ :: []) ∧ x₀.pre.audit = [] ∧ w.audit = [row, row'] ∧ row.id ≠ row'.id ∧
      ∃ t q, Started t q (seg ++ x₀ :: []) ∧ Grounds external server q (own t (seg ++ x₀ :: [])) row := by
  have hplay : plays (fun _ _ => True) [alice, bob]
      (.start 0 (login aliceLogin) :: .start 1 (login bobLogin) :: steps 0 24 ++ steps 1 23)
      (fun p => decide (p.world.audit.length = 2) &&
        p.trace.getLast?.any fun y => y.pre.audit.isEmpty) = true := by decide +kernel
  obtain ⟨p, hrun, hcheck⟩ := run_of_plays (world_initial (by decide) (by decide) (by decide)) hplay
  obtain ⟨hlength, hfirst⟩ := Bool.and_eq_true_iff.mp hcheck
  obtain ⟨x₀, hlast, hempty⟩ := (Option.any_eq_true _ _).mp hfirst
  obtain ⟨seg, htrace⟩ := List.getLast?_eq_some_iff.mp hlast
  have hnone : x₀.pre.audit = [] := List.isEmpty_iff.mp hempty
  rw [htrace] at hrun
  obtain ⟨rows, haudit, hnodup, hrows⟩ := audit_trail hrun
  rw [hnone, List.nil_append] at haudit
  rw [haudit] at hlength
  obtain ⟨row, row', rfl⟩ := List.length_eq_two.mp (of_decide_eq_true hlength)
  obtain ⟨-, t, q, hq, -, hgrounds⟩ := hrows row List.mem_cons_self
  exact ⟨p.world, seg, x₀, row, row', hrun, hnone, haudit, by simpa using hnodup, t, q, hq, hgrounds⟩

end Scenario

end ZeroTrustProxy
