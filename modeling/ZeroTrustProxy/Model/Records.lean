import ZeroTrustProxy.Model.Error
import ZeroTrustProxy.Model.Risk

/-!
The records the proxy stores, signs and sends: sessions, token claims, rows
of the database tables, and responses.
-/

namespace ZeroTrustProxy

/-- `serde_json::Value`, as far as audit metadata uses it. -/
inductive Json where
  | num (n : Int)
  | str (s : String)
  | arr (items : List Json)
  | obj (fields : List (String × Json))

/-! ### Sessions and tokens -/

structure Session where
  id : String
  userId : String
  deviceId : String
  createdAt : Int
  expiresAt : Int
  lastActivity : Int
  ipAddress : String
  userAgent : String
  mfaVerified : Bool
  riskScore : ℕ
  deriving DecidableEq

namespace Session

/-- The record `Session::new` builds from its reading of the clock and a fresh
id. -/
def build (now : Int) (id : Uuid) (userId deviceId ipAddress userAgent : String)
    (durationMinutes : Int) : Session where
  id := id.text
  userId := userId
  deviceId := deviceId
  createdAt := now
  expiresAt := now + Duration.minutes durationMinutes
  lastActivity := now
  ipAddress := ipAddress
  userAgent := userAgent
  mfaVerified := false
  riskScore := 0

/-- `is_expired`, at its reading of the clock. -/
def isExpired (s : Session) (now : Int) : Bool := decide (now > s.expiresAt)

/-- `update_activity`, at its reading of the clock. -/
def updateActivity (s : Session) (now : Int) : Session := { s with lastActivity := now }

/-- The TTL `update_session` computes: whole seconds left before expiry. -/
def ttl (s : Session) (now : Int) : Int := Duration.numSeconds (s.expiresAt - now)

@[simp] theorem updateActivity_id (s : Session) (t : Int) : (s.updateActivity t).id = s.id := rfl

@[simp] theorem updateActivity_userId (s : Session) (t : Int) :
    (s.updateActivity t).userId = s.userId := rfl

@[simp] theorem updateActivity_expiresAt (s : Session) (t : Int) :
    (s.updateActivity t).expiresAt = s.expiresAt := rfl

@[simp] theorem updateActivity_mfaVerified (s : Session) (t : Int) :
    (s.updateActivity t).mfaVerified = s.mfaVerified := rfl

end Session

structure Claims where
  sub : String
  exp : Int
  iat : Int
  jti : String
  sessionId : String
  deviceId : String
  riskScore : ℕ
  mfaVerified : Bool
  deriving DecidableEq

/-- The expiry check of `Validation::default()`: `exp` must parse as `u64` and
may lie up to 60 seconds in the past. -/
def Claims.unexpired (c : Claims) (now : Int) : Bool :=
  decide (0 ≤ c.exp) && decide (timestamp now - 60 ≤ c.exp)

/-! ### Rows -/

structure UserRow where
  id : Uuid
  username : String
  email : String
  passwordHash : String
  mfaEnabled : Bool
  mfaSecret : Option String
  isActive : Bool
  deriving DecidableEq

/-- What a device lookup selects. -/
structure DeviceRow where
  trustScore : Int
  isTrusted : Bool
  deriving DecidableEq

/-- The parameters of `upsert_device`. -/
structure DeviceUpsert where
  userId : Uuid
  fingerprintHash : String
  userAgent : String
  platform : String
  browser : String
  ipAddress : String
  trustScore : Int
  isTrusted : Bool
  deriving DecidableEq

/-- A stored row of `devices`, without the columns nothing reads. The
fingerprint is the key of the table and is not repeated here. -/
structure DeviceRecord where
  userId : Uuid
  userAgent : String
  platform : String
  browser : String
  ipAddress : String
  trustScore : Int
  isTrusted : Bool
  deriving DecidableEq

/-- A row inserted into `audit_log`. -/
structure AuditRow where
  id : Uuid
  eventType : String
  userId : Option Uuid
  ipAddress : String
  resource : String
  action : String
  outcome : String
  riskScore : Option Int
  metadata : Json

/-! ### Requests and responses -/

/-- An HTTP request with the source address of its connection. `body` is
`none` when reading it fails. -/
structure Request where
  method : String
  uri : Uri
  /-- Header names in lower case, with the bytes of the values as characters. -/
  headers : List (String × String)
  body : Option String
  remoteIp : IpAddr

/-- `HeaderValue::to_str`: visible ASCII, blanks and tabs only. -/
def headerToStr (value : String) : Option String :=
  if value.toList.all fun c => (32 ≤ c.toNat && c.toNat < 127) || c = '\t' then some value else none

def Request.header (req : Request) (name : String) : Option String :=
  (req.headers.lookup name).bind headerToStr

/-- What `forward_upstream` sends. -/
structure UpstreamRequest where
  method : String
  uri : Uri
  headers : List (String × String)
  body : String

structure UpstreamResponse where
  status : ℕ
  bytes : String

structure LoginResponse where
  accessToken : String
  tokenType : String
  expiresIn : Int
  mfaRequired : Bool
  deriving DecidableEq

/-- Response bodies, by the shapes the handlers produce. -/
inductive ResponseBody where
  | text (s : String)
  | error (message : String)
  | login (r : LoginResponse)
  | user (id username email : String)
  | enrollment (secret qrCodeUrl manualEntryKey : String)
  | mfaVerified
  | ok
  | revoked (count : ℕ)
  | upstream (bytes : String)
  deriving DecidableEq

structure Response where
  status : ℕ
  body : ResponseBody
  deriving DecidableEq

end ZeroTrustProxy
