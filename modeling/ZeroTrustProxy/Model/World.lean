import ZeroTrustProxy.Concurrent.ExpiringStore
import ZeroTrustProxy.Model.Records

/-!
What the requests share: Redis, the Postgres tables, the clock, the source of
identifiers and the tokens that have been signed.

The two stores are given by the effect of the commands the proxy sends them.
Each command is one atomic step. A `Fault` is a command that fails; it may
have been executed all the same, with only its reply lost.
-/

namespace ZeroTrustProxy

open Concurrent

/-- A failed storage command: whether it was executed before the failure,
which the client cannot see, and the text of the error, which it can. -/
structure Fault where
  executed : Bool
  text : String
  deriving DecidableEq

/-- A stored Redis value, as the proxy can tell values apart: the JSON of a
session, an integer, or a text that is neither. -/
inductive RedisValue where
  | session (s : Session)
  | int (n : Int)
  | other (text : String)
  deriving DecidableEq

/-- `serde_json::from_str::<Session>`. -/
def RedisValue.parseSession (X : External) : RedisValue → Except String Session
  | .session s => .ok s
  | .int n => .error (X.sessionError (toString n))
  | .other text => .error (X.sessionError text)

def sessionKey (id : String) : String := "session:" ++ id

/-- The pattern `session:*`. -/
def isSessionKey (key : String) : Bool := "session:".toList.isPrefixOf key.toList

structure World where
  clock : Int
  redis : ExpiringStore String RedisValue
  /-- For every thread that has a SCAN open: the session keys that have been
  present ever since it was opened and have not been yielded yet. -/
  scans : ℕ → List String
  users : List UserRow
  /-- The `devices` table. The unique constraint is on the fingerprint alone,
  so the table is a finite map from fingerprints to rows. -/
  devices : AList (fun _ : String => DeviceRecord)
  audit : List AuditRow
  /-- The identifiers drawn so far. -/
  drawn : List Uuid
  /-- The tokens signed so far, with their claims. -/
  tokens : List (String × Claims)

namespace World

/-! ### Redis -/

/-- `GET`. -/
def read (w : World) (key : String) : Option RedisValue := (w.redis.lookup key).map Cell.value

/-- Redis refuses an expiry of zero and one it cannot express in
milliseconds. -/
def expiryAccepted (secs : ℕ) : Bool := decide (0 < secs) && decide (secs ≤ 9223372036854775)

/-- `SET key value EX secs`. -/
def setEx (w : World) (key : String) (value : RedisValue) (secs : ℕ) : World :=
  { w with redis := w.redis.insert key ⟨value, some (w.clock + Duration.seconds secs)⟩ }

/-- `DEL key`. -/
def del (w : World) (key : String) : World :=
  { w with
    redis := w.redis.erase key
    scans := fun t => (w.scans t).filter (· ≠ key) }

/-- `INCR key`: the new count and the world after it, or `none` when the value
is not an integer or the count would overflow. -/
def incr (w : World) (key : String) : Option (Int × World) :=
  match w.redis.lookup key with
  | none => some (1, { w with redis := w.redis.insert key ⟨.int 1, none⟩ })
  | some ⟨.int n, deadline⟩ =>
      if n + 1 ≤ 9223372036854775807 then
        some (n + 1, { w with redis := w.redis.insert key ⟨.int (n + 1), deadline⟩ })
      else none
  | some _ => none

/-- `EXPIRE key secs`: a key that is there gets a new deadline, and is deleted
at once when that is not in the future. -/
def expire (w : World) (key : String) (secs : Int) : World :=
  match w.redis.lookup key with
  | none => w
  | some cell =>
      if 0 < secs then
        { w with redis :=
            w.redis.insert key ⟨cell.value, some (w.clock + Duration.seconds secs)⟩ }
      else w.del key

/-- The session keys `ks` still owed to a SCAN of thread `t`. -/
def oweScan (w : World) (t : ℕ) (ks : List String) : World :=
  { w with scans := Function.update w.scans t ks }

/-- Time passes. Keys whose deadline has come are gone, also from what a SCAN
is bound to yield. -/
def advance (w : World) (now : Int) : World :=
  { w with
    clock := now
    redis := w.redis.advance now
    scans := fun t => (w.scans t).filter fun key => ((w.redis.advance now).lookup key).isSome }

/-! ### Postgres -/

def userByUsername (w : World) (username : String) : Option UserRow :=
  w.users.find? (·.username = username)

def userById (w : World) (id : Uuid) : Option UserRow := w.users.find? (·.id = id)

/-- `SELECT trust_score, is_trusted FROM devices WHERE user_id = .. AND
fingerprint_hash = ..`. -/
def findDevice (w : World) (userId : Uuid) (hash : String) : Option DeviceRow :=
  match w.devices.lookup hash with
  | some d => if d.userId = userId then some ⟨d.trustScore, d.isTrusted⟩ else none
  | none => none

/-- The column constraints an inserted device row is checked against before
any conflict is looked for. -/
def deviceAccepted (d : DeviceUpsert) : Bool :=
  decide (0 ≤ d.trustScore) && decide (d.trustScore ≤ 100)
    && decide (d.fingerprintHash.length ≤ 64) && decide (d.platform.length ≤ 50)
    && decide (d.browser.length ≤ 50)

/-- `INSERT INTO devices .. ON CONFLICT (fingerprint_hash) DO UPDATE ..`. The
update sets the score, the flag and the address, and leaves the owner of the
row as it is. -/
def upsertDevice (w : World) (d : DeviceUpsert) : Option World :=
  if deviceAccepted d then
    match w.devices.lookup d.fingerprintHash with
    | some old =>
        let row : DeviceRecord := { old with
          trustScore := d.trustScore, isTrusted := d.isTrusted, ipAddress := d.ipAddress }
        some { w with devices := w.devices.insert d.fingerprintHash row }
    | none =>
        if (w.userById d.userId).isSome then
          let row : DeviceRecord :=
            ⟨d.userId, d.userAgent, d.platform, d.browser, d.ipAddress, d.trustScore, d.isTrusted⟩
          some { w with devices := w.devices.insert d.fingerprintHash row }
        else none
  else none

/-- `UPDATE users SET mfa_enabled = TRUE, mfa_secret = .. WHERE id = ..`. -/
def setUserMfaSecret (w : World) (id : Uuid) (secret : String) : World :=
  { w with users := w.users.map fun u =>
      if u.id = id then { u with mfaEnabled := true, mfaSecret := some secret } else u }

/-- Postgres stores no NUL character in a text. -/
def storable (s : String) : Bool := !s.toList.contains (Char.ofNat 0)

/-- `INSERT INTO users .. RETURNING ..` for the row it returns. -/
def createUser (w : World) (row : UserRow) : Option World :=
  if w.users.all (fun u =>
        decide (u.id ≠ row.id) && decide (u.username ≠ row.username)
          && decide (u.email ≠ row.email))
      && decide (row.username.length ≤ 255) && decide (row.email.length ≤ 255)
      && storable row.username && storable row.email then
    some { w with users := w.users ++ [row] }
  else none

end World

mutual

/-- No NUL character in any text of a JSON value; `JSONB` rejects one. -/
def Json.storable : Json → Bool
  | .num _ => true
  | .str s => World.storable s
  | .arr items => Json.storableItems items
  | .obj fields => Json.storableFields fields

def Json.storableItems : List Json → Bool
  | [] => true
  | x :: xs => x.storable && Json.storableItems xs

def Json.storableFields : List (String × Json) → Bool
  | [] => true
  | (name, x) :: xs => World.storable name && x.storable && Json.storableFields xs

end

namespace World

/-- The column constraints of `audit_log`. -/
def auditAccepted (X : External) (w : World) (row : AuditRow) : Bool :=
  decide (row.eventType.length ≤ 50) && decide (row.resource.length ≤ 255)
    && decide (row.action.length ≤ 100) && decide (row.outcome.length ≤ 20)
    && (match row.userId with
        | some id => (w.userById id).isSome
        | none => true)
    && (X.parseIp row.ipAddress).isSome
    && storable row.resource && storable row.action && row.metadata.storable

end World

end ZeroTrustProxy
