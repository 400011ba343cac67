import Mathlib.Data.Nat.Notation

/-!
`ProxyError`, its messages and its HTTP status codes.
-/

namespace ZeroTrustProxy

/-- The errors of the proxy. The payload of a storage, serialization or token
error is the text of the error it wraps. -/
inductive ProxyError where
  | authenticationFailed (reason : String)
  | authorizationDenied (reason : String)
  | invalidSession (reason : String)
  | riskThresholdExceeded (score threshold : ℕ)
  | mfaRequired
  | invalidMfaToken
  | rateLimitExceeded
  | databaseError (source : String)
  | redisError (source : String)
  | serializationError (source : String)
  | jwtError (source : String)
  | internalError
  deriving DecidableEq, Repr

namespace ProxyError

def statusCode : ProxyError → ℕ
  | authenticationFailed _ => 401
  | authorizationDenied _ => 403
  | invalidSession _ => 401
  | riskThresholdExceeded _ _ => 403
  | mfaRequired => 401
  | invalidMfaToken => 401
  | rateLimitExceeded => 429
  | databaseError _ => 500
  | redisError _ => 500
  | serializationError _ => 500
  | jwtError _ => 401
  | internalError => 500

/-- The `Display` text of an error. -/
def message : ProxyError → String
  | authenticationFailed reason => "Authentication failed: " ++ reason
  | authorizationDenied reason => "Authorization denied: " ++ reason
  | invalidSession reason => "Invalid session: " ++ reason
  | riskThresholdExceeded score threshold =>
      "Risk threshold exceeded: score " ++ toString score ++ ", threshold " ++ toString threshold
  | mfaRequired => "MFA required"
  | invalidMfaToken => "Invalid MFA token"
  | rateLimitExceeded => "Rate limit exceeded"
  | databaseError source => "Database error: " ++ source
  | redisError source => "Redis error: " ++ source
  | serializationError source => "Serialization error: " ++ source
  | jwtError source => "JWT error: " ++ source
  | internalError => "Internal server error"

/-- No error is answered with a success status. -/
theorem statusCode_ne_ok (e : ProxyError) : 400 ≤ e.statusCode := by
  cases e <;> simp [statusCode]

end ProxyError

end ZeroTrustProxy
