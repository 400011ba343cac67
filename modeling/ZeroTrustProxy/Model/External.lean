import ZeroTrustProxy.Model.Policy

/-!
Code the proxy calls that is not part of the repository, as parameters.

Everything here belongs to the language's libraries or to third-party crates:
parsers and printers of identifiers and addresses, SHA-256, Argon2, TOTP,
`serde_json` on request bodies and stored values, and the URI parser of
`http`. The laws are the ones the proxy relies on without saying so: an
identifier and an address are read back from their own text, and a digest has
64 hexadecimal digits.
-/

namespace ZeroTrustProxy

/-- `uuid::Uuid`, identified with its canonical text. -/
@[ext]
structure Uuid where
  text : String
  deriving DecidableEq, Repr

/-- `std::net::IpAddr`, identified with its canonical text. -/
structure IpAddr where
  text : String
  deriving DecidableEq, Repr

structure LoginBody where
  username : String
  password : String
  deviceId : Option String
  mfaToken : Option String

structure RegisterBody where
  username : String
  email : String
  password : String

structure MfaVerifyBody where
  mfaToken : String

/-- `totp_rs::TOTP`, as its constructor receives it. -/
structure Totp where
  algorithm : String
  digits : ℕ
  skew : ℕ
  step : ℕ
  secret : List UInt8
  deriving DecidableEq

/-- `http::Uri`: scheme, authority and the stored path and query. -/
structure Uri where
  scheme : Option String
  authority : Option String
  pathQuery : String
  deriving DecidableEq

namespace Uri

/-- `PathAndQuery::path`. -/
def pathOf (pathQuery : String) : String :=
  let p := String.ofList (pathQuery.toList.takeWhile (· ≠ '?'))
  if p = "" then "/" else p

def hasPath (u : Uri) : Bool := decide (u.pathQuery ≠ "") || u.scheme.isSome

def path (u : Uri) : String := if u.hasPath then pathOf u.pathQuery else ""

/-- `Uri::path_and_query`, rendered as `PathAndQuery::as_str` does. -/
def pathAndQuery (u : Uri) : Option String :=
  if u.scheme.isSome || u.authority.isNone then
    some (if u.pathQuery = "" then "/" else u.pathQuery)
  else none

end Uri

/-- The external functions. -/
structure External where
  floats : FloatOps
  parseUuid : String → Option Uuid
  parseUuid_text : ∀ u : Uuid, parseUuid u.text = some u
  parseIp : String → Option IpAddr
  parseIp_text : ∀ a : IpAddr, parseIp a.text = some a
  /-- The hexadecimal SHA-256 digest of the UTF-8 bytes of a text. -/
  sha256 : String → String
  sha256_length : ∀ s, (sha256 s).length = 64
  /-- Parsing the stored hash and verifying a password against it. -/
  verifyPassword : String → String → Except String Bool
  /-- `Secret::Encoded(..).to_bytes()`; `none` where `unwrap` panics. -/
  decodeSecret : String → Option (List UInt8)
  /-- The error `TOTP::new` reports for unacceptable parameters, if any. -/
  totpError : Totp → Option String
  /-- `TOTP::check_current` at a given time. -/
  totpCheck : Totp → String → Int → Except String Bool
  parseLoginBody : String → Option LoginBody
  parseRegisterBody : String → Option RegisterBody
  parseMfaVerifyBody : String → Option MfaVerifyBody
  /-- The error of `serde_json` on a text that is not a session record. -/
  sessionError : String → String
  parseUri : String → Option Uri

end ZeroTrustProxy
