import Mathlib.Algebra.Order.Ring.Int
import ZeroTrustProxy.Model.External

/-!
Device fingerprints and their trust score, from `src/auth/device.rs`.
-/

namespace ZeroTrustProxy

/-- `contains` on string slices. -/
def containsText (s sub : String) : Bool := decide (sub.toList <:+: s.toList)

/-- A `u32` after wrapping. -/
def asU32 (n : ℕ) : ℕ := n % 2 ^ 32

/-- `x as i32` for a `u32`. -/
def asI32 (n : ℕ) : Int := if n < 2 ^ 31 then (n : Int) else (n : Int) - 2 ^ 32

structure DeviceMetadata where
  screenResolution : Option String
  timezone : Option String
  language : Option String
  platformVersion : Option String
  hardwareConcurrency : Option ℕ

/-- The metadata both call sites pass: nothing is known of the device. -/
def DeviceMetadata.empty : DeviceMetadata := ⟨none, none, none, none, none⟩

structure DeviceFingerprint where
  id : String
  userId : String
  fingerprintHash : String
  userAgent : String
  ipAddress : String
  platform : String
  browser : String
  trustScore : ℕ
  isTrusted : Bool
  firstSeen : Int
  lastSeen : Int
  metadata : DeviceMetadata

namespace DeviceFingerprint

/-- The bytes fed to the hasher, as text: the fields are simply put one after
another, and an absent one contributes nothing. -/
def hashInput (userAgent ipAddress : String) (metadata : DeviceMetadata) : String :=
  userAgent ++ ipAddress ++ metadata.screenResolution.getD "" ++ metadata.timezone.getD ""
    ++ metadata.language.getD ""

def generateHash (X : External) (userAgent ipAddress : String) (metadata : DeviceMetadata) :
    String :=
  X.sha256 (hashInput userAgent ipAddress metadata)

def parsePlatform (userAgent : String) : String :=
  if containsText userAgent "Windows" then "Windows"
  else if containsText userAgent "Mac" then "macOS"
  else if containsText userAgent "Linux" then "Linux"
  else if containsText userAgent "Android" then "Android"
  else if containsText userAgent "iOS" then "iOS"
  else "Unknown"

def parseBrowser (userAgent : String) : String :=
  if containsText userAgent "Chrome" then "Chrome"
  else if containsText userAgent "Firefox" then "Firefox"
  else if containsText userAgent "Safari" then "Safari"
  else if containsText userAgent "Edge" then "Edge"
  else "Unknown"

/-- The record `DeviceFingerprint::new` builds from a fresh id and its two
readings of the clock. -/
def build (X : External) (id : Uuid) (firstSeen lastSeen : Int)
    (userId userAgent ipAddress : String) (metadata : DeviceMetadata) : DeviceFingerprint where
  id := id.text
  userId := userId
  fingerprintHash := generateHash X userAgent ipAddress metadata
  userAgent := userAgent
  ipAddress := ipAddress
  platform := parsePlatform userAgent
  browser := parseBrowser userAgent
  trustScore := 50
  isTrusted := false
  firstSeen := firstSeen
  lastSeen := lastSeen
  metadata := metadata

def increaseTrust (device : DeviceFingerprint) (amount : ℕ) : DeviceFingerprint :=
  let trustScore := min (asU32 (device.trustScore + amount)) 100
  { device with
    trustScore := trustScore
    isTrusted := if trustScore ≥ 70 then true else device.isTrusted }

/-- `saturating_sub` is subtraction of natural numbers. -/
def decreaseTrust (device : DeviceFingerprint) (amount : ℕ) : DeviceFingerprint :=
  let trustScore := device.trustScore - amount
  { device with
    trustScore := trustScore
    isTrusted := if trustScore < 70 then false else device.isTrusted }

end DeviceFingerprint

end ZeroTrustProxy
