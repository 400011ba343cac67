import Mathlib.Order.Lattice
import ZeroTrustProxy.Model.Risk

/-!
The risk score as a function of its inputs.

A score is the sum of six numbers, each of which depends on one input of the
context and moves with it in one direction. Levels and recommendations are read
off the sum by ladders that only climb, so a context that is worse in every
input is never scored better.
-/

namespace ZeroTrustProxy

/-! ### The orders -/

def RiskLevel.severity : RiskLevel → ℕ
  | .low => 0
  | .medium => 1
  | .high => 2
  | .critical => 3

def RiskRecommendation.severity : RiskRecommendation → ℕ
  | .allow => 0
  | .stepUpAuth => 1
  | .block => 2

instance : LE RiskLevel := ⟨fun l l' => l.severity ≤ l'.severity⟩

instance : LE RiskRecommendation := ⟨fun r r' => r.severity ≤ r'.severity⟩

theorem RiskLevel.le_def {l l' : RiskLevel} : l ≤ l' ↔ l.severity ≤ l'.severity := Iff.rfl

theorem RiskRecommendation.le_def {r r' : RiskRecommendation} :
    r ≤ r' ↔ r.severity ≤ r'.severity := Iff.rfl

namespace RiskContext

/-- The request comes from another address than the session before it. -/
def IpChanged (context : RiskContext) : Prop :=
  ∃ prevIp, context.previousIp = some prevIp ∧ prevIp ≠ context.ipAddress

/-- From 02:00 to 04:59 UTC. -/
def Nightly (context : RiskContext) : Prop :=
  2 ≤ hour context.timestamp ∧ hour context.timestamp < 5

/-- `c'` is at least as bad as `c` in every input the engine reads. -/
structure NoBetterThan (c c' : RiskContext) : Prop where
  failedAttempts : c.failedAttempts ≤ c'.failedAttempts
  sessionAge : c.sessionAgeMinutes ≤ c'.sessionAgeMinutes
  trustScore : c'.device.trustScore ≤ c.device.trustScore
  trusted : c'.device.isTrusted = true → c.device.isTrusted = true
  firstSeen : c.device.firstSeen ≤ c'.device.firstSeen
  ipChanged : c.IpChanged → c'.IpChanged
  nightly : c.Nightly → c'.Nightly

end RiskContext

namespace RiskEngine

/-! ### The six factors -/

/-- What the guarded factor for failed attempts adds. The guard keeps zero away
from the last arm of the match. -/
def failedScore (attempts : ℕ) : ℕ :=
  if attempts > 0 then calculateFailedAttemptsRisk attempts else 0

def timeScore (t : Int) : ℕ := if 2 ≤ hour t ∧ hour t < 5 then 15 else 0

def ipScore (previous : Option IpAddr) (ip : IpAddr) : ℕ :=
  match previous with
  | some prevIp => if prevIp ≠ ip then 20 else 0
  | none => 0

/-- The sum of the scores of all factors. -/
theorem factors_sum (now : Int) (context : RiskContext) :
    ((factors now context).map RiskFactor.score).sum =
      calculateDeviceRisk now context.device + failedScore context.failedAttempts +
        timeScore context.timestamp + ipScore context.previousIp context.ipAddress +
        calculateSessionAgeRisk context.sessionAgeMinutes := by
  have hguarded (n : ℕ) (name text : String) :
      ((if n > 0 then [⟨name, n, text⟩] else [] : List RiskFactor).map RiskFactor.score).sum =
        n := by
    by_cases hn : n > 0
    · simp [hn]
    · simp [Nat.eq_zero_of_not_pos hn]
  have hfailed (text : String) :
      ((if context.failedAttempts > 0 then
        [⟨"Failed Attempts", calculateFailedAttemptsRisk context.failedAttempts, text⟩]
        else [] : List RiskFactor).map RiskFactor.score).sum =
        failedScore context.failedAttempts := by
    unfold failedScore
    split
    · simp
    · rfl
  have htime : ((calculateTimeRisk context).toList.map RiskFactor.score).sum =
      timeScore context.timestamp := by
    simp only [calculateTimeRisk, timeScore]
    split <;> rfl
  have hip : ((calculateIpChangeRisk context).toList.map RiskFactor.score).sum =
      ipScore context.previousIp context.ipAddress := by
    simp only [calculateIpChangeRisk, ipScore]
    cases context.previousIp with
    | none => rfl
    | some prevIp =>
        simp only
        split <;> rfl
  simp only [factors, List.map_append, List.sum_append, hguarded, hfailed, htime, hip]

/-- Without failed attempts the total is the sum of four factors. -/
theorem totalScore_eq (engine : RiskEngine) (now : Int) {context : RiskContext}
    (hfailed : context.failedAttempts = 0) :
    (engine.calculateRisk now context).totalScore =
      min (calculateDeviceRisk now context.device + timeScore context.timestamp +
        ipScore context.previousIp context.ipAddress +
        calculateSessionAgeRisk context.sessionAgeMinutes) 100 := by
  simp only [calculateRisk, factors_sum, hfailed]
  rfl

/-! ### Bounds -/

theorem calculateDeviceRisk_le (now : Int) (device : DeviceFingerprint) :
    calculateDeviceRisk now device ≤ 60 := by
  unfold calculateDeviceRisk
  dsimp only
  split_ifs <;> omega

theorem failedScore_le (attempts : ℕ) : failedScore attempts ≤ 60 := by
  unfold failedScore calculateFailedAttemptsRisk
  split_ifs <;> omega

theorem timeScore_le (t : Int) : timeScore t ≤ 15 := by
  unfold timeScore
  split <;> omega

theorem ipScore_le (previous : Option IpAddr) (ip : IpAddr) : ipScore previous ip ≤ 20 := by
  unfold ipScore
  split
  · split <;> omega
  · omega

theorem calculateSessionAgeRisk_le (ageMinutes : Int) : calculateSessionAgeRisk ageMinutes ≤ 30 := by
  unfold calculateSessionAgeRisk
  split
  · omega
  · split <;> omega

/-- All factors together come to at most 185. -/
theorem factors_sum_le (now : Int) (context : RiskContext) :
    ((factors now context).map RiskFactor.score).sum ≤ 185 := by
  have hdevice := calculateDeviceRisk_le now context.device
  have hfailed := failedScore_le context.failedAttempts
  have htime := timeScore_le context.timestamp
  have hip := ipScore_le context.previousIp context.ipAddress
  have hage := calculateSessionAgeRisk_le context.sessionAgeMinutes
  rw [factors_sum]
  omega

/-- No sum that the computation forms leaves `u32`: not the one inside the
device factor, and none of the running totals. -/
structure FitsU32 (now : Int) (context : RiskContext) : Prop where
  device : calculateDeviceRisk now context.device < 2 ^ 32
  total : ∀ scores, scores <+: (factors now context).map RiskFactor.score → scores.sum < 2 ^ 32

theorem fitsU32 (now : Int) (context : RiskContext) : FitsU32 now context := by
  constructor
  · have hdevice := calculateDeviceRisk_le now context.device
    omega
  · rintro scores ⟨rest, hscores⟩
    have hsum := factors_sum_le now context
    rw [← hscores, List.sum_append] at hsum
    omega

/-! ### Each factor moves one way -/

theorem numDays_mono {d d' : Int} (h : d ≤ d') : Duration.numDays d ≤ Duration.numDays d' := by
  have hsecs : Duration.numSeconds d ≤ Duration.numSeconds d' :=
    Int.tdiv_le_tdiv Duration.second_pos h
  exact Int.tdiv_le_tdiv (by decide) hsecs

/-- The part of the device factor that depends on its trust. -/
theorem trust_mono {d d' : DeviceFingerprint} (hscore : d'.trustScore ≤ d.trustScore)
    (htrusted : d'.isTrusted = true → d.isTrusted = true) :
    (if d.isTrusted then 0 else 25) + (if d.trustScore < 50 then 15 else 0) ≤
      (if d'.isTrusted then 0 else 25) + (if d'.trustScore < 50 then 15 else 0) := by
  apply Nat.add_le_add
  · cases hflag : d'.isTrusted with
    | false => split <;> simp
    | true => simp [htrusted hflag]
  · split_ifs <;> omega

theorem calculateDeviceRisk_mono (now : Int) {d d' : DeviceFingerprint}
    (hscore : d'.trustScore ≤ d.trustScore) (htrusted : d'.isTrusted = true → d.isTrusted = true)
    (hseen : d.firstSeen ≤ d'.firstSeen) :
    calculateDeviceRisk now d ≤ calculateDeviceRisk now d' := by
  have hdays := numDays_mono (show now - d'.firstSeen ≤ now - d.firstSeen by omega)
  unfold calculateDeviceRisk
  dsimp only
  apply Nat.add_le_add (trust_mono hscore htrusted)
  split_ifs <;> omega

/-- A device that is less trusted and new is at least as risky, whenever the
other one is looked at. -/
theorem calculateDeviceRisk_le_new {now now' : Int} {d d' : DeviceFingerprint}
    (hscore : d'.trustScore ≤ d.trustScore) (htrusted : d'.isTrusted = true → d.isTrusted = true)
    (hnew : now' - d'.firstSeen < Duration.hours 24) :
    calculateDeviceRisk now d ≤ calculateDeviceRisk now' d' := by
  have hdays : Duration.numDays (now' - d'.firstSeen) < 1 := by
    have hmono := numDays_mono (Int.le_sub_one_of_lt hnew)
    have hday : Duration.numDays (Duration.hours 24 - 1) = 0 := by decide
    omega
  unfold calculateDeviceRisk
  dsimp only
  apply Nat.add_le_add (trust_mono hscore htrusted)
  rw [if_pos hdays]
  split_ifs <;> omega

theorem failedScore_mono {n m : ℕ} (h : n ≤ m) : failedScore n ≤ failedScore m := by
  unfold failedScore calculateFailedAttemptsRisk
  split_ifs <;> omega

theorem timeScore_mono {c c' : RiskContext} (h : c.Nightly → c'.Nightly) :
    timeScore c.timestamp ≤ timeScore c'.timestamp := by
  by_cases hnight : c.Nightly
  · have hfull : timeScore c'.timestamp = 15 := if_pos (h hnight)
    rw [hfull]
    exact timeScore_le _
  · have hzero : timeScore c.timestamp = 0 := if_neg hnight
    rw [hzero]
    exact Nat.zero_le _

theorem ipScore_of_changed {context : RiskContext} (h : context.IpChanged) :
    ipScore context.previousIp context.ipAddress = 20 := by
  obtain ⟨prevIp, hprev, hne⟩ := h
  rw [hprev]
  exact if_pos hne

theorem ipScore_of_not_changed {context : RiskContext} (h : ¬ context.IpChanged) :
    ipScore context.previousIp context.ipAddress = 0 := by
  cases hprev : context.previousIp with
  | none => rfl
  | some prevIp => exact if_neg fun hne => h ⟨prevIp, hprev, hne⟩

theorem ipScore_mono {c c' : RiskContext} (h : c.IpChanged → c'.IpChanged) :
    ipScore c.previousIp c.ipAddress ≤ ipScore c'.previousIp c'.ipAddress := by
  by_cases hchanged : c.IpChanged
  · rw [ipScore_of_changed hchanged, ipScore_of_changed (h hchanged)]
  · rw [ipScore_of_not_changed hchanged]
    exact Nat.zero_le _

theorem calculateSessionAgeRisk_mono {a a' : Int} (h : a ≤ a') :
    calculateSessionAgeRisk a ≤ calculateSessionAgeRisk a' := by
  unfold calculateSessionAgeRisk
  split_ifs <;> omega

/-! ### The ladders -/

theorem levelOf_mono {n m : ℕ} (h : n ≤ m) : levelOf n ≤ levelOf m := by
  rw [RiskLevel.le_def]
  unfold levelOf
  split_ifs <;> first | omega | decide

theorem recommend_mono (engine : RiskEngine) {n m : ℕ} (h : n ≤ m) :
    engine.recommend n ≤ engine.recommend m := by
  rw [RiskRecommendation.le_def]
  unfold recommend
  split_ifs <;> first | omega | decide

theorem eq_block_of_le {r : RiskRecommendation} (h : .block ≤ r) : r = .block := by
  cases r with
  | allow => exact absurd h (by decide)
  | stepUpAuth => exact absurd h (by decide)
  | block => rfl

theorem totalScore_mono (engine : RiskEngine) (now : Int) {c c' : RiskContext}
    (h : c.NoBetterThan c') :
    (engine.calculateRisk now c).totalScore ≤ (engine.calculateRisk now c').totalScore := by
  have hdevice := calculateDeviceRisk_mono now h.trustScore h.trusted h.firstSeen
  have hfailed := failedScore_mono h.failedAttempts
  have htime := timeScore_mono h.nightly
  have hip := ipScore_mono h.ipChanged
  have hage := calculateSessionAgeRisk_mono h.sessionAge
  show min _ 100 ≤ min _ 100
  rw [factors_sum, factors_sum]
  apply min_le_min_right
  omega

/-- A context that is no better in any input has no lower score, level or
recommendation, and neither score overflows. -/
theorem calculateRisk_mono (engine : RiskEngine) (now : Int) {c c' : RiskContext}
    (h : c.NoBetterThan c') :
    (engine.calculateRisk now c).totalScore ≤ (engine.calculateRisk now c').totalScore ∧
      (engine.calculateRisk now c).level ≤ (engine.calculateRisk now c').level ∧
      (engine.calculateRisk now c).recommendation ≤
        (engine.calculateRisk now c').recommendation ∧
      FitsU32 now c ∧ FitsU32 now c' := by
  have htotal := totalScore_mono engine now h
  refine ⟨htotal, ?_, ?_, fitsU32 now c, fitsU32 now c'⟩
  · simp only [calculateRisk] at htotal ⊢
    exact levelOf_mono htotal
  · simp only [calculateRisk] at htotal ⊢
    exact recommend_mono engine htotal

/-- A request of a device that has been trusted for a year, in a session that
has just begun, at noon. -/
def baseContext : RiskContext where
  userId := "user123"
  device := ⟨"d", "user123", "", "Mozilla/5.0", "10.0.0.1", "Unknown", "Unknown", 90, true, 0, 0,
    .empty⟩
  ipAddress := ⟨"10.0.0.1"⟩
  timestamp := Duration.hours (365 * 24 + 12)
  previousIp := none
  sessionAgeMinutes := 0
  failedAttempts := 0

/-- Two failed attempts and a stale session do not make it look better. -/
theorem calculateRisk_mono_stale :
    let stale := { baseContext with failedAttempts := 2, sessionAgeMinutes := 130 }
    let engine : RiskEngine := ⟨30, 90⟩
    (engine.calculateRisk stale.timestamp baseContext).totalScore ≤
        (engine.calculateRisk stale.timestamp stale).totalScore ∧
      (engine.calculateRisk stale.timestamp baseContext).level ≤
        (engine.calculateRisk stale.timestamp stale).level ∧
      (engine.calculateRisk stale.timestamp baseContext).recommendation ≤
        (engine.calculateRisk stale.timestamp stale).recommendation ∧
      FitsU32 stale.timestamp baseContext ∧ FitsU32 stale.timestamp stale :=
  calculateRisk_mono _ _
    ⟨Nat.zero_le 2, by decide, Nat.le_refl 90, fun h => h, Int.le_refl 0, fun h => h, fun h => h⟩

end RiskEngine

end ZeroTrustProxy
