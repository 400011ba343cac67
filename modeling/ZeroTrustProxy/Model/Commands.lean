import ZeroTrustProxy.Concurrent.Run
import ZeroTrustProxy.Model.World

/-!
The calls a handler makes, and what each does to the world.

A reply is admitted by the world or it is not: `World.act` is `none` where
the world cannot give that reply, for instance a `GET` that returns something
other than what is stored. Readings of the clock carry the place in the
source that takes them, so that a history says which reading is which.
-/

namespace ZeroTrustProxy

open Concurrent

/-- The calls of `Utc::now`, by place. -/
inductive ClockUse where
  | sessionNew
  | isExpired
  | updateActivity
  | sessionTtl
  | tokenIssue
  | firstSeen
  | lastSeen
  | sessionAge
  | riskTimestamp
  | deviceAge
  | auditTimestamp
  deriving DecidableEq

inductive Cmd where
  | redisGet (key : String)
  | redisSetEx (key : String) (value : RedisValue) (secs : ℕ)
  | redisDel (key : String)
  | redisScan
  | redisScanNext (left : ℕ)
  | redisIncr (key : String)
  | redisExpire (key : String) (secs : Int)
  | findUserByUsername (username : String)
  | findUserById (id : Uuid)
  | findDeviceByFingerprint (userId : Uuid) (hash : String)
  | upsertDevice (d : DeviceUpsert)
  | setUserMfaSecret (id : Uuid) (secret : String)
  | createUser (username email passwordHash : String)
  | insertAuditLog (row : AuditRow)
  | utcNow (use : ClockUse)
  | newUuid
  | generateSecret
  | hashPassword (password : String)
  | totpCheck (totp : Totp) (token : String)
  | jwtEncode (claims : Claims)
  | jwtDecode (token : String)
  | upstream (req : UpstreamRequest)
  /-- A panic: the thread goes no further. -/
  | panic
  /-- The call of `get_session` and its return are marked in the history. They
  are not calls to anything and change nothing. -/
  | getSessionCall (id : String)
  | getSessionReturn (id : String) (r : Except ProxyError Session)

/-- The replies. The first page of a SCAN comes with the number of pages still
to be had: the cursor is opaque to the client, which only asks whether it is
zero. A failed insertion of a user comes with the row it stores if it is
executed. -/
@[reducible] def Cmd.Resp : Cmd → Type
  | redisGet _ => Except Fault (Option RedisValue)
  | redisSetEx _ _ _ => Except Fault Unit
  | redisDel _ => Except Fault Unit
  | redisScan => Except Fault (List String × ℕ)
  | redisScanNext _ => Except Fault (List String)
  | redisIncr _ => Except Fault Int
  | redisExpire _ _ => Except Fault Unit
  | findUserByUsername _ => Except Fault (Option UserRow)
  | findUserById _ => Except Fault (Option UserRow)
  | findDeviceByFingerprint _ _ => Except Fault (Option DeviceRow)
  | upsertDevice _ => Except Fault Unit
  | setUserMfaSecret _ _ => Except Fault Unit
  | createUser _ _ _ => Except (Fault × UserRow) UserRow
  | insertAuditLog _ => Except Fault Unit
  | utcNow _ => Int
  | newUuid => Uuid
  | generateSecret => String
  | hashPassword _ => Except String String
  | totpCheck _ _ => Except String Bool
  | jwtEncode _ => Except String String
  | jwtDecode _ => Except String Claims
  | upstream _ => Except String UpstreamResponse
  | panic => Empty
  | getSessionCall _ => Unit
  | getSessionReturn _ _ => Unit

/-- A call with its reply. -/
inductive Event where
  | redisGet (key : String) (r : Except Fault (Option RedisValue))
  | redisSetEx (key : String) (value : RedisValue) (secs : ℕ) (r : Except Fault Unit)
  | redisDel (key : String) (r : Except Fault Unit)
  | redisScan (r : Except Fault (List String × ℕ))
  | redisScanNext (left : ℕ) (r : Except Fault (List String))
  | redisIncr (key : String) (r : Except Fault Int)
  | redisExpire (key : String) (secs : Int) (r : Except Fault Unit)
  | findUserByUsername (username : String) (r : Except Fault (Option UserRow))
  | findUserById (id : Uuid) (r : Except Fault (Option UserRow))
  | findDeviceByFingerprint (userId : Uuid) (hash : String) (r : Except Fault (Option DeviceRow))
  | upsertDevice (d : DeviceUpsert) (r : Except Fault Unit)
  | setUserMfaSecret (id : Uuid) (secret : String) (r : Except Fault Unit)
  | createUser (username email passwordHash : String)
      (r : Except (Fault × UserRow) UserRow)
  | insertAuditLog (row : AuditRow) (r : Except Fault Unit)
  | utcNow (use : ClockUse) (now : Int)
  | newUuid (id : Uuid)
  | generateSecret (secret : String)
  | hashPassword (password : String) (r : Except String String)
  | totpCheck (totp : Totp) (token : String) (r : Except String Bool)
  | jwtEncode (claims : Claims) (r : Except String String)
  | jwtDecode (token : String) (r : Except String Claims)
  | upstream (req : UpstreamRequest) (r : Except String UpstreamResponse)
  | getSessionCall (id : String)
  | getSessionReturn (id : String) (r : Except ProxyError Session)

def Cmd.event : (c : Cmd) → c.Resp → Event
  | redisGet key, r => .redisGet key r
  | redisSetEx key value secs, r => .redisSetEx key value secs r
  | redisDel key, r => .redisDel key r
  | redisScan, r => .redisScan r
  | redisScanNext left, r => .redisScanNext left r
  | redisIncr key, r => .redisIncr key r
  | redisExpire key secs, r => .redisExpire key secs r
  | findUserByUsername username, r => .findUserByUsername username r
  | findUserById id, r => .findUserById id r
  | findDeviceByFingerprint userId hash, r => .findDeviceByFingerprint userId hash r
  | upsertDevice d, r => .upsertDevice d r
  | setUserMfaSecret id secret, r => .setUserMfaSecret id secret r
  | createUser username email passwordHash, r => .createUser username email passwordHash r
  | insertAuditLog row, r => .insertAuditLog row r
  | utcNow use, now => .utcNow use now
  | newUuid, id => .newUuid id
  | generateSecret, secret => .generateSecret secret
  | hashPassword password, r => .hashPassword password r
  | totpCheck totp token, r => .totpCheck totp token r
  | jwtEncode claims, r => .jwtEncode claims r
  | jwtDecode token, r => .jwtDecode token r
  | upstream req, r => .upstream req r
  | panic, r => r.elim
  | getSessionCall id, _ => .getSessionCall id
  | getSessionReturn id r, _ => .getSessionReturn id r

def Event.command : Event → Cmd
  | redisGet key _ => .redisGet key
  | redisSetEx key value secs _ => .redisSetEx key value secs
  | redisDel key _ => .redisDel key
  | redisScan _ => .redisScan
  | redisScanNext left _ => .redisScanNext left
  | redisIncr key _ => .redisIncr key
  | redisExpire key secs _ => .redisExpire key secs
  | findUserByUsername username _ => .findUserByUsername username
  | findUserById id _ => .findUserById id
  | findDeviceByFingerprint userId hash _ => .findDeviceByFingerprint userId hash
  | upsertDevice d _ => .upsertDevice d
  | setUserMfaSecret id secret _ => .setUserMfaSecret id secret
  | createUser username email passwordHash _ => .createUser username email passwordHash
  | insertAuditLog row _ => .insertAuditLog row
  | utcNow use _ => .utcNow use
  | newUuid _ => .newUuid
  | generateSecret _ => .generateSecret
  | hashPassword password _ => .hashPassword password
  | totpCheck totp token _ => .totpCheck totp token
  | jwtEncode claims _ => .jwtEncode claims
  | jwtDecode token _ => .jwtDecode token
  | upstream req _ => .upstream req
  | getSessionCall id => .getSessionCall id
  | getSessionReturn id r => .getSessionReturn id r

theorem Cmd.command_event (c : Cmd) (r : c.Resp) : (c.event r).command = c := by
  cases c <;> first | rfl | exact r.elim

/-- An event tells the reply to its call. -/
theorem Cmd.event_inj (c : Cmd) (r r' : c.Resp) (h : c.event r = c.event r') : r = r' := by
  cases c <;> first | rfl | exact r.elim | simpa [Cmd.event] using h

/-- The interface of the handlers. -/
@[reducible] def proxyInterface : Interface where
  Cmd := Cmd
  Resp := Cmd.Resp
  Event := Event
  event := Cmd.event
  command := Event.command
  command_event := Cmd.command_event

/-- The event is a storage command that failed. -/
def Event.failed : Event → Bool
  | redisGet _ (.error _) | redisSetEx _ _ _ (.error _) | redisDel _ (.error _) => true
  | redisScan (.error _) | redisScanNext _ (.error _) => true
  | redisIncr _ (.error _) | redisExpire _ _ (.error _) => true
  | findUserByUsername _ (.error _) | findUserById _ (.error _) => true
  | findDeviceByFingerprint _ _ (.error _) | upsertDevice _ (.error _) => true
  | setUserMfaSecret _ _ (.error _) | createUser _ _ _ (.error _) => true
  | insertAuditLog _ (.error _) => true
  | _ => false

/-- The characters `generate_secret` draws from: the Base32 alphabet. -/
def secretCharset : List Char := "ABCDEFGHIJKLMNOPQRSTUVWXYZ234567".toList

namespace World

/-- Accept `w'` when the reply is the one the world gives. -/
def accept (b : Bool) (w' : World) : Option World := if b then some w' else none

/-- The reply to a command that only reads. -/
def answer {α : Type} [DecidableEq α] (w : World) (v : α) : Except Fault α → Option World
  | .ok v' => accept (decide (v' = v)) w
  | .error _ => some w

/-- The effect of a command that writes. `w'` is the world after it, `none`
where the store refuses it. -/
def write (w : World) (w' : Option World) : Except Fault Unit → Option World
  | .ok _ => w'
  | .error f => some (if f.executed then w'.getD w else w)

/-- The row an insertion returns has the given columns and the defaults. -/
def insertUser (w : World) (username email passwordHash : String) (row : UserRow) :
    Option World :=
  if row = ⟨row.id, username, email, passwordHash, false, none, true⟩ then w.createUser row
  else none

/-- One page of a SCAN of thread `t`, of the keys `owed` to it before the
page. The last page must leave nothing owed. -/
def scanPage (w : World) (t : ℕ) (owed keys : List String) (last : Bool) : Option World :=
  let rest := owed.filter fun key => !keys.contains key
  accept (keys.all isSessionKey && (!last || rest.isEmpty)) (w.oweScan t rest)

/-- What an event of thread `t` does to the world. -/
def act (X : External) (t : ℕ) : Event → World → Option World
  | .redisGet key r, w => w.answer (w.read key) r
  | .redisSetEx key value secs r, w =>
      w.write (if expiryAccepted secs then some (w.setEx key value secs) else none) r
  | .redisDel key r, w => w.write (some (w.del key)) r
  | .redisScan (.ok (keys, left)), w =>
      w.scanPage t (w.redis.keys.filter isSessionKey) keys (left = 0)
  | .redisScan (.error _), w => some w
  | .redisScanNext left (.ok keys), w => w.scanPage t (w.scans t) keys (left = 1)
  | .redisScanNext _ (.error _), w => some w
  | .redisIncr key (.ok n), w =>
      (w.incr key).bind fun (m, w') => accept (decide (n = m)) w'
  | .redisIncr key (.error f), w =>
      some (if f.executed then ((w.incr key).map Prod.snd).getD w else w)
  | .redisExpire key secs r, w => w.write (some (w.expire key secs)) r
  | .findUserByUsername username r, w =>
      match r with
      | .ok _ => if storable username then w.answer (w.userByUsername username) r else none
      | .error _ => some w
  | .findUserById id r, w => w.answer (w.userById id) r
  | .findDeviceByFingerprint userId hash r, w => w.answer (w.findDevice userId hash) r
  | .upsertDevice d r, w => w.write (w.upsertDevice d) r
  | .setUserMfaSecret id secret r, w => w.write (some (w.setUserMfaSecret id secret)) r
  | .createUser username email passwordHash (.ok row), w =>
      w.insertUser username email passwordHash row
  | .createUser username email passwordHash (.error (f, row)), w =>
      some (if f.executed then (w.insertUser username email passwordHash row).getD w else w)
  | .insertAuditLog row r, w =>
      w.write (if auditAccepted X w row then some { w with audit := w.audit ++ [row] } else none) r
  | .utcNow _ now, w => accept (decide (now = w.clock)) w
  | .newUuid id, w => accept (decide (id ∉ w.drawn)) { w with drawn := id :: w.drawn }
  | .generateSecret secret, w =>
      accept (decide (secret.length = 32) && secret.toList.all (secretCharset.contains ·)) w
  | .hashPassword password (.ok hash), w =>
      match X.verifyPassword password hash with
      | .ok true => some w
      | _ => none
  | .hashPassword _ (.error _), w => some w
  | .totpCheck totp token r, w => accept (decide (r = X.totpCheck totp token w.clock)) w
  | .jwtEncode claims (.ok token), w =>
      accept (decide (w.tokens.lookup token = none))
        { w with tokens := (token, claims) :: w.tokens }
  -- signing with a symmetric key does not fail
  | .jwtEncode _ (.error _), _ => none
  | .jwtDecode token r, w =>
      match w.tokens.lookup token, r with
      | some claims, .ok claims' =>
          accept (decide (claims' = claims) && claims.unexpired w.clock) w
      | none, .ok _ => none
      | some claims, .error _ => accept (!claims.unexpired w.clock) w
      | none, .error _ => some w
  | .upstream _ _, w => some w
  | .getSessionCall _, w => some w
  | .getSessionReturn _ _, w => some w

end World

/-! ### Single calls as programs -/

abbrev Handler (α : Type) := Program proxyInterface ProxyError α

namespace Handler

/-- A storage reply, with a failure raised as the error `err` makes of it. -/
def unwrap {α : Type} (err : String → ProxyError) : Except Fault α → Handler α
  | .ok a => .ret a
  | .error f => .throw (err f.text)

def redisGet (key : String) : Handler (Option RedisValue) :=
  .call (.redisGet key) (unwrap .redisError)

def redisSetEx (key : String) (value : RedisValue) (secs : ℕ) : Handler Unit :=
  .call (.redisSetEx key value secs) (unwrap .redisError)

def redisDel (key : String) : Handler Unit :=
  .call (.redisDel key) (unwrap .redisError)

def redisScan : Handler (List String × ℕ) :=
  .call .redisScan (unwrap .redisError)

def redisIncr (key : String) : Handler Int :=
  .call (.redisIncr key) (unwrap .redisError)

def redisExpire (key : String) (secs : Int) : Handler Unit :=
  .call (.redisExpire key secs) (unwrap .redisError)

def findUserByUsername (username : String) : Handler (Option UserRow) :=
  .call (.findUserByUsername username) (unwrap .databaseError)

def findUserById (id : Uuid) : Handler (Option UserRow) :=
  .call (.findUserById id) (unwrap .databaseError)

def findDeviceByFingerprint (userId : Uuid) (hash : String) : Handler (Option DeviceRow) :=
  .call (.findDeviceByFingerprint userId hash) (unwrap .databaseError)

def upsertDevice (d : DeviceUpsert) : Handler Unit :=
  .call (.upsertDevice d) (unwrap .databaseError)

def setUserMfaSecret (id : Uuid) (secret : String) : Handler Unit :=
  .call (.setUserMfaSecret id secret) (unwrap .databaseError)

def createUser (username email passwordHash : String) : Handler UserRow :=
  .call (.createUser username email passwordHash) fun
    | .ok row => .ret row
    | .error (f, _) => .throw (.databaseError f.text)

def insertAuditLog (row : AuditRow) : Handler Unit :=
  .call (.insertAuditLog row) (unwrap .databaseError)

def utcNow (use : ClockUse) : Handler Int := .call (.utcNow use) .ret

def newUuid : Handler Uuid := .call .newUuid .ret

def generateSecret : Handler String := .call .generateSecret .ret

def panic {α : Type} : Handler α := .call .panic fun r => r.elim

/-- `Option::ok_or`. -/
def okOr {α : Type} (e : ProxyError) : Option α → Handler α
  | some a => .ret a
  | none => .throw e

/-- `Result::map_err`. -/
def mapErr {α : Type} (err : String → ProxyError) : Except String α → Handler α
  | .ok a => .ret a
  | .error e => .throw (err e)

/-- `.await.ok()`: the outcome is thrown away. -/
def ignore {α : Type} (p : Handler α) : Handler Unit := do
  let _ ← (p.attempt : Handler (Except ProxyError α))
  pure ()

/-! ### How the single calls are followed -/

variable {α : Type} {L : List Event → Cmd → Prop} {h : List Event}
  {Q : α → List Event → Prop} {E : ProxyError → List Event → Prop}

@[simp] theorem obeys_unwrap {err : String → ProxyError} {r : Except Fault α} :
    (unwrap err r).Obeys L h Q E ↔
      (∀ a, r = .ok a → Q a h) ∧ ∀ f, r = .error f → E (err f.text) h := by
  cases r <;> simp [unwrap]

@[simp] theorem obeys_okOr {e : ProxyError} {x : Option α} :
    (okOr e x).Obeys L h Q E ↔ (∀ a, x = some a → Q a h) ∧ (x = none → E e h) := by
  cases x <;> simp [okOr]

@[simp] theorem obeys_mapErr {err : String → ProxyError} {r : Except String α} :
    (mapErr err r).Obeys L h Q E ↔
      (∀ a, r = .ok a → Q a h) ∧ ∀ e, r = .error e → E (err e) h := by
  cases r <;> simp [mapErr]

@[simp] theorem obeys_panic : (panic : Handler α).Obeys L h Q E ↔ L h .panic :=
  ⟨And.left, fun hL => ⟨hL, fun r => r.elim⟩⟩

/-- The program that follows an ignored one is followed from both outcomes. -/
@[simp] theorem obeys_ignore {p : Handler α} {Q : Unit → List Event → Prop} :
    (ignore p).Obeys L h Q E ↔ p.Obeys L h (fun _ => Q ()) (fun _ => Q ()) := by
  simp only [ignore, Program.obeys_bind, Program.obeys_attempt, Program.obeys_pure]

end Handler

end ZeroTrustProxy
