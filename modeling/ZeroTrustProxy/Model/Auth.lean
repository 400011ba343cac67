import ZeroTrustProxy.Model.Commands

/-!
Sessions, tokens and second factors: `src/auth/session.rs`, `src/auth/mod.rs`
and `src/auth/mfa.rs`.
-/

namespace ZeroTrustProxy

open Concurrent Handler

/-- `x as u64` for an `i64`. -/
def asU64 (n : Int) : ℕ := (n % 2 ^ 64).toNat

/-! ### `SessionManager` -/

namespace SessionManager

/-- `Session::new`. `Duration::minutes` panics on a duration it cannot hold. -/
def newSession (userId deviceId ipAddress userAgent : String) (durationMinutes : Int) :
    Handler Session := do
  let now ← utcNow .sessionNew
  let id ← newUuid
  if Duration.inBounds (durationMinutes * 60) then
    pure (Session.build now id userId deviceId ipAddress userAgent durationMinutes)
  else panic

def createSession (durationMinutes : Int) (userId deviceId ipAddress userAgent : String) :
    Handler Session := do
  let session ← newSession userId deviceId ipAddress userAgent durationMinutes
  let ttl := durationMinutes * 60
  redisSetEx (sessionKey session.id) (.session session) (asU64 ttl)
  pure session

/-- Writes the record back with the whole seconds it has left, and does
nothing when none are left. -/
def updateSession (session : Session) : Handler Unit := do
  let now ← utcNow .sessionTtl
  let ttl := session.ttl now
  if ttl > 0 then redisSetEx (sessionKey session.id) (.session session) (asU64 ttl)
  else pure ()

def deleteSession (sessionId : String) : Handler Unit :=
  redisDel (sessionKey sessionId)

/-- The body of `get_session`: every successful read is also a write. -/
def fetchSession (X : External) (sessionId : String) : Handler Session := do
  let data ← redisGet (sessionKey sessionId)
  match data with
  | some serialized =>
      let session ← mapErr .serializationError (serialized.parseSession X)
      let now ← utcNow .isExpired
      if session.isExpired now then
        deleteSession sessionId
        .throw (.invalidSession "Session expired")
      else
        let activity ← utcNow .updateActivity
        let session := session.updateActivity activity
        updateSession session
        pure session
  | none => .throw (.invalidSession "Session not found")

/-- `get_session`, with its call and its return marked in the history. -/
def getSession (X : External) (sessionId : String) : Handler Session :=
  .call (.getSessionCall sessionId) fun _ => do
    let r ← (fetchSession X sessionId).attempt
    .call (.getSessionReturn sessionId r) fun _ => .ofExcept r

/-- The pages of a SCAN after the first. A page that fails ends the iteration
without an error. -/
def scanRest : ℕ → Handler (List String)
  | 0 => pure []
  | left + 1 =>
      .call (.redisScanNext (left + 1)) fun
        | .ok keys => do
            let more ← scanRest left
            pure (keys ++ more)
        | .error _ => pure []

def scanSessionKeys : Handler (List String) := do
  let (keys, left) ← redisScan
  let more ← scanRest left
  pure (keys ++ more)

/-- One round of the loop of `get_user_sessions`. Keys that cannot be read or
parsed are skipped. -/
def readUserSession (X : External) (userId key : String) : Handler (Option Session) :=
  .call (.redisGet key) fun
    | .ok (some data) =>
        match data.parseSession X with
        | .ok session =>
            if session.userId = userId then do
              let now ← utcNow .isExpired
              pure (if session.isExpired now then none else some session)
            else pure none
        | .error _ => pure none
    | _ => pure none

def readUserSessions (X : External) (userId : String) : List String → Handler (List Session)
  | [] => pure []
  | key :: keys => do
      let found ← readUserSession X userId key
      let more ← readUserSessions X userId keys
      pure (found.toList ++ more)

def getUserSessions (X : External) (userId : String) : Handler (List Session) := do
  let keys ← scanSessionKeys
  readUserSessions X userId keys

def deleteSessions : List Session → Handler Unit
  | [] => pure ()
  | session :: sessions => do
      deleteSession session.id
      deleteSessions sessions

def revokeUserSessions (X : External) (userId : String) : Handler ℕ := do
  let sessions ← getUserSessions X userId
  deleteSessions sessions
  pure sessions.length

end SessionManager

/-! ### `JwtManager` -/

namespace JwtManager

def generateToken (expirationHours : Int) (userId deviceId : String) (riskScore : ℕ)
    (mfaVerified : Bool) (sessionId : String) : Handler String := do
  let now ← utcNow .tokenIssue
  if Duration.inBounds (expirationHours * 3600) then
    let jti ← newUuid
    let claims : Claims :=
      { sub := userId
        exp := timestamp (now + Duration.hours expirationHours)
        iat := timestamp now
        jti := jti.text
        sessionId := sessionId
        deviceId := deviceId
        riskScore := riskScore
        mfaVerified := mfaVerified }
    .call (.jwtEncode claims) (mapErr .jwtError)
  else panic

def validateToken (token : String) : Handler Claims :=
  .call (.jwtDecode token) (mapErr .jwtError)

/-- Both error branches of the source; the second cannot be reached. -/
def extractTokenFromHeader (authHeader : String) : Except ProxyError String :=
  if !"Bearer ".toList.isPrefixOf authHeader.toList then
    .error (.authenticationFailed "Invalid authorization header format")
  else
    match "Bearer ".toList.isPrefixOf? authHeader.toList with
    | some token => .ok (String.ofList token)
    | none => .error (.authenticationFailed "Missing bearer token")

end JwtManager

/-! ### `TotpManager` -/

structure MfaConfig where
  digits : ℕ
  step : ℕ

def MfaConfig.default : MfaConfig := ⟨6, 30⟩

namespace TotpManager

def generateQrUrl (secret account issuer : String) : String :=
  "otpauth://totp/" ++ issuer ++ ":" ++ account ++ "?secret=" ++ secret ++ "&issuer=" ++ issuer

/-- The generator `verify_token` builds from the bytes of a secret. -/
def totpOf (config : MfaConfig) (secret : List UInt8) : Totp :=
  ⟨"SHA1", config.digits, 1, config.step, secret⟩

/-- Never `Ok(false)`: a code that does not check is an error. -/
def verifyToken (X : External) (config : MfaConfig) (secret token : String) : Handler Bool :=
  match X.decodeSecret secret with
  | none => panic
  | some bytes =>
      match X.totpError (totpOf config bytes) with
      | some e => .throw (.authenticationFailed e)
      | none =>
          .call (.totpCheck (totpOf config bytes) token) fun
            | .ok true => pure true
            | .ok false => .throw .invalidMfaToken
            | .error e => .throw (.authenticationFailed e)

/-- `verify_token(..).unwrap_or(false)`, as both callers use it. -/
def verifyOrFalse (X : External) (secret token : String) : Handler Bool := do
  let r ← (verifyToken X MfaConfig.default secret token).attempt
  match r with
  | .ok valid => pure valid
  | .error _ => pure false

end TotpManager

end ZeroTrustProxy
