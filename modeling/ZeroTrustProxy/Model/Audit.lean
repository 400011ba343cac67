import ZeroTrustProxy.Model.Commands

/-!
The audit logger of `src/audit/mod.rs`. The tracing line is left out.
-/

namespace ZeroTrustProxy

open Concurrent Handler

inductive EventType where
  | authentication
  | authorization
  | accessGranted
  | accessDenied
  | mfaVerification
  | sessionCreated
  | sessionExpired
  | riskEvaluation
  | policyEvaluation
  | deviceRegistration
  | anomalyDetected
  deriving DecidableEq

/-- The `snake_case` name `json_str` renders. -/
def EventType.jsonStr : EventType → String
  | authentication => "authentication"
  | authorization => "authorization"
  | accessGranted => "access_granted"
  | accessDenied => "access_denied"
  | mfaVerification => "mfa_verification"
  | sessionCreated => "session_created"
  | sessionExpired => "session_expired"
  | riskEvaluation => "risk_evaluation"
  | policyEvaluation => "policy_evaluation"
  | deviceRegistration => "device_registration"
  | anomalyDetected => "anomaly_detected"

inductive Outcome where
  | success
  | failure
  | blocked
  deriving DecidableEq

def Outcome.jsonStr : Outcome → String
  | success => "success"
  | failure => "failure"
  | blocked => "blocked"

structure AuditEvent where
  id : String
  eventType : EventType
  userId : Option String
  deviceId : Option String
  ipAddress : String
  resource : String
  action : String
  outcome : Outcome
  riskScore : Option ℕ
  metadata : Json

/-- Insertion into a JSON object, or the one-field object in place of anything
else. -/
def Json.withField (name : String) (value : Json) : Json → Json
  | .obj fields => .obj (fields.filter (·.1 ≠ name) ++ [(name, value)])
  | _ => .obj [(name, value)]

namespace AuditLogger

/-- `AuditEvent::new`, which also reads the clock for a timestamp the insert
leaves to the database. -/
def newEvent (eventType : EventType) (userId deviceId : Option String)
    (ipAddress resource action : String) (outcome : Outcome) : Handler AuditEvent := do
  let id ← newUuid
  let _ ← utcNow .auditTimestamp
  pure
    { id := id.text
      eventType := eventType
      userId := userId
      deviceId := deviceId
      ipAddress := ipAddress
      resource := resource
      action := action
      outcome := outcome
      riskScore := none
      metadata := .obj [] }

/-- The row `log` binds, apart from its id. -/
def rowOf (X : External) (event : AuditEvent) (id : Uuid) : AuditRow where
  id := id
  eventType := event.eventType.jsonStr
  userId := event.userId.bind X.parseUuid
  ipAddress := if (X.parseIp event.ipAddress).isSome then event.ipAddress else "0.0.0.0"
  resource := event.resource
  action := event.action
  outcome := event.outcome.jsonStr
  riskScore := event.riskScore.map asI32
  metadata :=
    match event.deviceId with
    | some deviceId => Json.withField "device_id" (.str deviceId) event.metadata
    | none => event.metadata

def log (X : External) (event : AuditEvent) : Handler Unit :=
  match X.parseUuid event.id with
  | some id => insertAuditLog (rowOf X event id)
  | none => do
      let id ← newUuid
      insertAuditLog (rowOf X event id)

def logAuthentication (X : External) (userId deviceId ipAddress : String) (success : Bool) :
    Handler Unit := do
  let event ← newEvent .authentication (some userId) (some deviceId) ipAddress "/auth/login"
    "authenticate" (if success then .success else .failure)
  log X event

def logAuthorization (X : External) (userId ipAddress resource action : String) (allowed : Bool)
    (riskScore : ℕ) : Handler Unit := do
  let event ← newEvent .authorization (some userId) none ipAddress resource action
    (if allowed then .success else .blocked)
  log X { event with riskScore := some riskScore }

def logRiskEvaluation (X : External) (userId deviceId ipAddress : String) (riskScore : ℕ)
    (factors : Json) : Handler Unit := do
  let event ← newEvent .riskEvaluation (some userId) (some deviceId) ipAddress "/"
    "evaluate_risk" .success
  log X { event with riskScore := some riskScore, metadata := factors }

end AuditLogger

end ZeroTrustProxy
