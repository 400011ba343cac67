import ZeroTrustProxy.Model.Chrono
import ZeroTrustProxy.Model.Device

/-!
The risk engine of `src/risk/mod.rs`. Scores are `u32` in the source; the
factors are bounded by constants, so natural numbers do not differ from them.
-/

namespace ZeroTrustProxy

structure RiskContext where
  userId : String
  device : DeviceFingerprint
  ipAddress : IpAddr
  timestamp : Int
  previousIp : Option IpAddr
  sessionAgeMinutes : Int
  failedAttempts : ℕ

structure RiskFactor where
  name : String
  score : ℕ
  description : String
  deriving DecidableEq

inductive RiskLevel where
  | low
  | medium
  | high
  | critical
  deriving DecidableEq

inductive RiskRecommendation where
  | allow
  | stepUpAuth
  | block
  deriving DecidableEq

structure RiskScore where
  totalScore : ℕ
  factors : List RiskFactor
  level : RiskLevel
  recommendation : RiskRecommendation
  deriving DecidableEq

structure RiskEngine where
  stepUpThreshold : ℕ
  blockThreshold : ℕ

namespace RiskEngine

/-- `now` is the reading of the clock taken inside this factor. -/
def calculateDeviceRisk (now : Int) (device : DeviceFingerprint) : ℕ :=
  let daysSinceFirstSeen := Duration.numDays (now - device.firstSeen)
  (if device.isTrusted then 0 else 25) + (if device.trustScore < 50 then 15 else 0)
    + (if daysSinceFirstSeen < 1 then 20 else if daysSinceFirstSeen < 7 then 10 else 0)

def calculateFailedAttemptsRisk (attempts : ℕ) : ℕ :=
  if 1 ≤ attempts ∧ attempts ≤ 2 then 10
  else if 3 ≤ attempts ∧ attempts ≤ 5 then 25
  else if 6 ≤ attempts ∧ attempts ≤ 10 then 40
  else 60

def calculateTimeRisk (context : RiskContext) : Option RiskFactor :=
  let h := hour context.timestamp
  if 2 ≤ h ∧ h < 5 then some ⟨"Unusual Time", 15, "Login during unusual hours"⟩ else none

def calculateIpChangeRisk (context : RiskContext) : Option RiskFactor :=
  match context.previousIp with
  | some prevIp =>
      if prevIp ≠ context.ipAddress then
        some ⟨"IP Change", 20, "IP address changed within session"⟩
      else none
  | none => none

def calculateSessionAgeRisk (ageMinutes : Int) : ℕ :=
  if ageMinutes > 120 then 30 else if ageMinutes > 60 then 15 else 0

/-- The factors in the order in which they are pushed; the geolocation factor
is always absent. -/
def factors (now : Int) (context : RiskContext) : List RiskFactor :=
  let deviceRisk := calculateDeviceRisk now context.device
  let sessionRisk := calculateSessionAgeRisk context.sessionAgeMinutes
  (if deviceRisk > 0 then
    [⟨"Device Trust", deviceRisk, "Device trust score: " ++ toString context.device.trustScore⟩]
  else []) ++
  (if context.failedAttempts > 0 then
    [⟨"Failed Attempts", calculateFailedAttemptsRisk context.failedAttempts,
      toString context.failedAttempts ++ " failed attempts"⟩]
  else []) ++
  (calculateTimeRisk context).toList ++ (calculateIpChangeRisk context).toList ++
  (if sessionRisk > 0 then
    [⟨"Session Age", sessionRisk,
      "Session age: " ++ toString context.sessionAgeMinutes ++ " minutes"⟩]
  else [])

def levelOf (totalScore : ℕ) : RiskLevel :=
  if totalScore ≤ 30 then .low
  else if totalScore ≤ 60 then .medium
  else if totalScore ≤ 85 then .high
  else .critical

def recommend (engine : RiskEngine) (totalScore : ℕ) : RiskRecommendation :=
  if totalScore ≥ engine.blockThreshold then .block
  else if totalScore ≥ engine.stepUpThreshold then .stepUpAuth
  else .allow

/-- `calculate_risk`: every factor pushed is added to the total, which is then
clamped to 100. -/
def calculateRisk (engine : RiskEngine) (now : Int) (context : RiskContext) : RiskScore :=
  let fs := factors now context
  let totalScore := min ((fs.map RiskFactor.score).sum) 100
  ⟨totalScore, fs, levelOf totalScore, engine.recommend totalScore⟩

end RiskEngine

end ZeroTrustProxy
