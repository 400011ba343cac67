import ZeroTrustProxy.Model.Auth
import ZeroTrustProxy.Model.Audit

/-!
The request handlers of `src/proxy/mod.rs`, in the order of the source.
-/

namespace ZeroTrustProxy

open Concurrent Handler SessionManager JwtManager TotpManager AuditLogger

/-- The configuration the handlers read. -/
structure Config where
  sessionDurationMinutes : Int
  requireMfa : Bool
  jwtExpirationHours : Int
  stepUpThreshold : ℕ
  blockThreshold : ℕ
  defaultDeny : Bool
  defaultBackend : String

structure ProxyServer where
  config : Config
  policyEngine : PolicyEngine

namespace ProxyServer

def new (config : Config) : ProxyServer := ⟨config, buildDefaultPolicyEngine config.defaultDeny⟩

def riskEngine (srv : ProxyServer) : RiskEngine :=
  ⟨srv.config.stepUpThreshold, srv.config.blockThreshold⟩

end ProxyServer

/-- `DeviceFingerprint::new` at both of its call sites. -/
def newDevice (X : External) (userId userAgent ipAddress : String) : Handler DeviceFingerprint := do
  let id ← newUuid
  let firstSeen ← utcNow .firstSeen
  let lastSeen ← utcNow .lastSeen
  pure (DeviceFingerprint.build X id firstSeen lastSeen userId userAgent ipAddress .empty)

/-- `RiskEngine::calculate_risk`, which reads the clock for the age of the
device. -/
def scoreRisk (engine : RiskEngine) (context : RiskContext) : Handler RiskScore := do
  let now ← utcNow .deviceAge
  pure (engine.calculateRisk now context)

/-- The token of a request's authorization header, validated. -/
def bearerClaims (req : Request) : Handler Claims := do
  let token ← .ofExcept (extractTokenFromHeader ((req.header "authorization").getD ""))
  validateToken token

/-! ### The gate -/

/-- The device `evaluate_request_risk` scores: trusted when the token and the
session name the same device. -/
def requestDevice (device : DeviceFingerprint) (session : Session) (claims : Claims) :
    DeviceFingerprint :=
  let trustScore := if claims.deviceId = session.deviceId then 70 else 40
  { device with trustScore := trustScore, isTrusted := decide (trustScore ≥ 70) }

def requestContext (X : External) (req : Request) (session : Session) (claims : Claims)
    (device : DeviceFingerprint) (ageAt timestamp : Int) : RiskContext where
  userId := claims.sub
  device := requestDevice device session claims
  ipAddress := req.remoteIp
  timestamp := timestamp
  previousIp := X.parseIp session.ipAddress
  sessionAgeMinutes := Duration.numMinutes (ageAt - session.createdAt)
  failedAttempts := 0

def evaluateRequestRisk (X : External) (srv : ProxyServer) (req : Request) (session : Session)
    (claims : Claims) : Handler RiskScore := do
  let device ← newDevice X claims.sub session.userAgent req.remoteIp.text
  let ageAt ← utcNow .sessionAge
  let timestamp ← utcNow .riskTimestamp
  scoreRisk srv.riskEngine (requestContext X req session claims device ageAt timestamp)

/-- `serde_json::json!({ "factors": risk.factors })`. -/
def factorsJson (risk : RiskScore) : Json :=
  .obj [("factors", .arr (risk.factors.map fun f =>
    .obj [("name", .str f.name), ("score", .num f.score), ("description", .str f.description)]))]

/-- `to_lowercase`, on the ASCII characters a method consists of. -/
def toLowercase (s : String) : String := String.ofList (s.toList.map Char.toLower)

def policyContext (req : Request) (claims : Claims) : PolicyContext where
  userId := claims.sub
  resource := req.uri.path
  action := toLowercase req.method
  attributes := []

/-- The MFA and risk gates, at the end of `authorize`. -/
def gateRequest (X : External) (srv : ProxyServer) (req : Request) (session : Session)
    (claims : Claims) (risk : RiskScore) : Handler Unit :=
  if srv.config.requireMfa && !session.mfaVerified then .throw .mfaRequired
  else
    match risk.recommendation with
    | .block => do
        ignore (logAuthorization X claims.sub req.remoteIp.text req.uri.path req.method false
          risk.totalScore)
        .throw (.riskThresholdExceeded risk.totalScore srv.config.blockThreshold)
    | .stepUpAuth =>
        if !session.mfaVerified then .throw .mfaRequired
        else
          ignore (logAuthorization X claims.sub req.remoteIp.text req.uri.path req.method true
            risk.totalScore)
    | .allow =>
        ignore (logAuthorization X claims.sub req.remoteIp.text req.uri.path req.method true
          risk.totalScore)

def authorize (X : External) (srv : ProxyServer) (req : Request) : Handler Unit := do
  let claims ← bearerClaims req
  let session ← getSession X claims.sessionId
  if session.userId ≠ claims.sub then
    .throw (.invalidSession "session/token subject mismatch")
  else
    let decision := srv.policyEngine.evaluate X.floats (policyContext req claims)
    if !decision.allowed then do
      ignore (logAuthorization X claims.sub req.remoteIp.text req.uri.path req.method false
        session.riskScore)
      .throw (.authorizationDenied decision.reason)
    else do
      let risk ← evaluateRequestRisk X srv req session claims
      ignore (logRiskEvaluation X claims.sub claims.deviceId req.remoteIp.text risk.totalScore
        (factorsJson risk))
      gateRequest X srv req session claims risk

/-! ### Forwarding -/

/-- `trim_end_matches('/')`. -/
def trimEndSlashes (s : String) : String :=
  String.ofList ((s.toList.reverse.dropWhile (· = '/')).reverse)

def forwardUpstream (X : External) (srv : ProxyServer) (req : Request) : Handler Response := do
  let body ← okOr .internalError req.body
  let upstreamBase := trimEndSlashes srv.config.defaultBackend
  let pathAndQuery := req.uri.pathAndQuery.getD "/"
  let upstreamUri ← okOr .internalError (X.parseUri (upstreamBase ++ pathAndQuery))
  let upstreamReq : UpstreamRequest :=
    { method := req.method
      uri := upstreamUri
      headers := req.headers.filter (·.1 ≠ "host")
      body := body }
  let resp ← .call (.upstream upstreamReq) (mapErr fun _ => .internalError)
  pure ⟨resp.status, .upstream resp.bytes⟩

/-! ### Rate limits -/

def rateLimitKey (bucket : String) (ip : IpAddr) : String :=
  "ratelimit:" ++ bucket ++ ":" ++ ip.text

def checkRateLimit (ip : IpAddr) (bucket : String) (limit windowSecs : Int) : Handler Unit := do
  let count ← redisIncr (rateLimitKey bucket ip)
  if count = 1 then redisExpire (rateLimitKey bucket ip) windowSecs else pure ()
  if count > limit then .throw .rateLimitExceeded else pure ()

/-! ### Login -/

def jsonResponse (status : ℕ) (body : ResponseBody) : Handler Response := pure ⟨status, body⟩

/-- The stored trust of a device seen before replaces the neutral default. -/
def DeviceFingerprint.restore (device : DeviceFingerprint) (existing : Option DeviceRow) :
    DeviceFingerprint :=
  match existing with
  | some row => { device with trustScore := (max row.trustScore 0).toNat, isTrusted := row.isTrusted }
  | none => device

/-- The parameters of `upsert_device`, the same after a wrong and after a right
password. -/
def upsertOf (req : Request) (user : UserRow) (device : DeviceFingerprint) : DeviceUpsert where
  userId := user.id
  fingerprintHash := device.fingerprintHash
  userAgent := device.userAgent
  platform := device.platform
  browser := device.browser
  ipAddress := req.remoteIp.text
  trustScore := asI32 device.trustScore
  isTrusted := device.isTrusted

def storeDevice (req : Request) (user : UserRow) (device : DeviceFingerprint) : Handler Unit :=
  upsertDevice (upsertOf req user device)

/-- A wrong password costs the device trust before it is answered. -/
def refusePassword (X : External) (req : Request) (body : LoginBody) (user : UserRow)
    (device : DeviceFingerprint) : Handler Response := do
  storeDevice req user (device.decreaseTrust 15)
  ignore (logAuthentication X user.id.text (body.deviceId.getD "unknown") req.remoteIp.text false)
  .throw (.authenticationFailed "invalid credentials")

/-- The MFA gate of `handle_login`: only a user who has enrolled is asked for
a code. The result is the session's `mfa_verified`. -/
def loginMfa (X : External) (user : UserRow) (body : LoginBody) : Handler Bool :=
  if user.mfaEnabled then do
    let secret ← okOr .mfaRequired user.mfaSecret
    match body.mfaToken with
    | some token => do
        let valid ← verifyOrFalse X secret token
        if valid then pure true else .throw .invalidMfaToken
    | none => .throw .mfaRequired
  else pure false

def loginContext (user : UserRow) (req : Request) (device : DeviceFingerprint) (timestamp : Int) :
    RiskContext where
  userId := user.id.text
  device := device
  ipAddress := req.remoteIp
  timestamp := timestamp
  previousIp := none
  sessionAgeMinutes := 0
  failedAttempts := 0

/-- The device trust update and the risk score of a login that has passed
its authentication checks. -/
def loginRisk (srv : ProxyServer) (req : Request) (user : UserRow)
    (device : DeviceFingerprint) (existing : Option DeviceRow) : Handler RiskScore := do
  let device := if existing.isSome then device.increaseTrust 10 else device
  let lastSeen ← utcNow .lastSeen
  let device := { device with lastSeen := lastSeen }
  storeDevice req user device
  let timestamp ← utcNow .riskTimestamp
  scoreRisk srv.riskEngine (loginContext user req device timestamp)

/-- The session and the token of a login that has been let through, for the
device id it goes by. -/
def startSession (X : External) (srv : ProxyServer) (req : Request) (user : UserRow)
    (deviceId userAgent : String) (mfaVerified : Bool) (risk : RiskScore) : Handler Response := do
  let session ← createSession srv.config.sessionDurationMinutes user.id.text deviceId
    req.remoteIp.text userAgent
  let session := { session with mfaVerified := mfaVerified, riskScore := risk.totalScore }
  updateSession session
  ignore (logAuthentication X user.id.text deviceId req.remoteIp.text true)
  let token ← generateToken srv.config.jwtExpirationHours user.id.text deviceId session.riskScore
    mfaVerified session.id
  jsonResponse 200 (.login
    { accessToken := token
      tokenType := "Bearer"
      expiresIn := srv.config.jwtExpirationHours * 3600
      mfaRequired := user.mfaEnabled && !mfaVerified })

/-- A login without a device id goes by a fresh one. -/
def openSession (X : External) (srv : ProxyServer) (req : Request) (body : LoginBody)
    (user : UserRow) (userAgent : String) (mfaVerified : Bool) (risk : RiskScore) :
    Handler Response :=
  match body.deviceId with
  | some deviceId => startSession X srv req user deviceId userAgent mfaVerified risk
  | none => do
      let id ← newUuid
      startSession X srv req user id.text userAgent mfaVerified risk

def handleLogin (X : External) (srv : ProxyServer) (req : Request) : Handler Response := do
  checkRateLimit req.remoteIp "login" 10 300
  let userAgent := (req.header "user-agent").getD "unknown"
  let bytes ← okOr .internalError req.body
  let body ← okOr (.authenticationFailed "invalid request body") (X.parseLoginBody bytes)
  let found ← findUserByUsername body.username
  let user ← okOr (.authenticationFailed "invalid credentials") (found.filter (·.isActive))
  let device ← newDevice X user.id.text userAgent req.remoteIp.text
  let existing ← findDeviceByFingerprint user.id device.fingerprintHash
  let device := device.restore existing
  let passwordOk ← mapErr .authenticationFailed (X.verifyPassword body.password user.passwordHash)
  if !passwordOk then refusePassword X req body user device
  else do
    let mfaVerified ← loginMfa X user body
    let risk ← loginRisk srv req user device existing
    if risk.recommendation = .block then do
      ignore (logAuthentication X user.id.text device.id req.remoteIp.text false)
      .throw (.riskThresholdExceeded risk.totalScore srv.config.blockThreshold)
    else openSession X srv req body user userAgent mfaVerified risk

/-! ### The other handlers -/

def handleRegister (X : External) (req : Request) : Handler Response := do
  checkRateLimit req.remoteIp "register" 10 300
  let bytes ← okOr .internalError req.body
  let body ← okOr (.authenticationFailed "invalid request body") (X.parseRegisterBody bytes)
  if body.password.utf8ByteSize < 12 then
    .throw (.authenticationFailed "password must be at least 12 characters")
  else do
    let found ← findUserByUsername body.username
    if found.isSome then .throw (.authenticationFailed "username already exists")
    else do
      let passwordHash ← .call (.hashPassword body.password) (mapErr .authenticationFailed)
      let user ← createUser body.username body.email passwordHash
      jsonResponse 201 (.user user.id.text user.username user.email)

def handleMfaEnroll (X : External) (req : Request) : Handler Response := do
  let claims ← bearerClaims req
  let userId ← okOr (.authenticationFailed "invalid subject") (X.parseUuid claims.sub)
  let found ← findUserById userId
  let user ← okOr (.authenticationFailed "user not found") found
  let secret ← generateSecret
  let qrUrl := generateQrUrl secret user.email "zero-trust-proxy"
  setUserMfaSecret userId secret
  jsonResponse 200 (.enrollment secret qrUrl secret)

def handleMfaVerify (X : External) (req : Request) : Handler Response := do
  checkRateLimit req.remoteIp "mfa_verify" 10 300
  let claims ← bearerClaims req
  let bytes ← okOr .internalError req.body
  let body ← okOr (.authenticationFailed "invalid request body") (X.parseMfaVerifyBody bytes)
  let userId ← okOr (.authenticationFailed "invalid subject") (X.parseUuid claims.sub)
  let found ← findUserById userId
  let user ← okOr (.authenticationFailed "user not found") found
  let secret ← okOr .mfaRequired user.mfaSecret
  let valid ← verifyOrFalse X secret body.mfaToken
  if !valid then .throw .invalidMfaToken
  else do
    let session ← getSession X claims.sessionId
    updateSession { session with mfaVerified := true }
    jsonResponse 200 .mfaVerified

def handleLogout (req : Request) : Handler Response := do
  let claims ← bearerClaims req
  deleteSession claims.sessionId
  jsonResponse 200 .ok

def handleLogoutAll (X : External) (req : Request) : Handler Response := do
  let claims ← bearerClaims req
  let revoked ← revokeUserSessions X claims.sub
  jsonResponse 200 (.revoked revoked)

/-! ### Dispatch -/

/-- What `handle_request` does with a request, by method and path. -/
inductive Route where
  | health
  | metrics
  | login
  | register
  | mfaEnroll
  | mfaVerify
  | logout
  | logoutAll
  | proxied
  deriving DecidableEq

def Request.route (req : Request) : Route :=
  let path := req.uri.path
  if path = "/health" then .health
  else if path = "/metrics" then .metrics
  else if path = "/auth/login" ∧ req.method = "POST" then .login
  else if path = "/auth/register" ∧ req.method = "POST" then .register
  else if path = "/auth/mfa/enroll" ∧ req.method = "POST" then .mfaEnroll
  else if path = "/auth/mfa/verify" ∧ req.method = "POST" then .mfaVerify
  else if path = "/auth/logout" ∧ req.method = "POST" then .logout
  else if path = "/auth/logout_all" ∧ req.method = "POST" then .logoutAll
  else .proxied

def metricsText : String :=
  "# Zero-Trust Proxy Metrics\nztp_requests_total 0\nztp_auth_failures_total 0\n"

def handleRoute (X : External) (srv : ProxyServer) (req : Request) : Route → Handler Response
  | .health => pure ⟨200, .text "OK"⟩
  | .metrics => pure ⟨200, .text metricsText⟩
  | .login => handleLogin X srv req
  | .register => handleRegister X req
  | .mfaEnroll => handleMfaEnroll X req
  | .mfaVerify => handleMfaVerify X req
  | .logout => handleLogout req
  | .logoutAll => handleLogoutAll X req
  | .proxied => do
      authorize X srv req
      forwardUpstream X srv req

def errorResponse (err : ProxyError) : Response := ⟨err.statusCode, .error err.message⟩

def handleRequest (X : External) (srv : ProxyServer) (req : Request) :
    Program proxyInterface Empty Response := do
  let result ← (handleRoute X srv req req.route).attempt
  match result with
  | .ok resp => pure resp
  | .error err => pure (errorResponse err)

/-- Nothing is stored in Redis, no device is known and no token has been
signed; accounts may exist already, under distinct ids and names. -/
structure InitialWorld (w : World) : Prop where
  redis : w.redis = ∅
  scans : w.scans = fun _ => []
  devices : w.devices = ∅
  tokens : w.tokens = []
  ids : (w.users.map (·.id)).Nodup
  usernames : (w.users.map (·.username)).Nodup
  emails : (w.users.map (·.email)).Nodup

/-- The running proxy: any number of requests at once, and a clock that does
not go back. -/
@[reducible] def proxySystem (X : External) (srv : ProxyServer) : System proxyInterface where
  World := World
  Req := Request
  Err := Empty
  Out := Response
  Env := Int
  program := handleRequest X srv
  init := InitialWorld
  env now w := if w.clock ≤ now then some (w.advance now) else none
  act := World.act X

end ZeroTrustProxy
