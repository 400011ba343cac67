import ZeroTrustProxy.Concurrent.Script
import ZeroTrustProxy.Runs.Provenance

/-!
Particular runs of the proxy.

A script says which requests arrive, which of them moves next and how time
passes; the replies are computed from the world. The definitions below fix a
backend, two accounts and the requests the scripts use. The external functions
answer as the real ones do on the inputs that occur: the one-time password is
the first test vector of RFC 6238.
-/

namespace ZeroTrustProxy

open Concurrent

variable {X : External} {srv : ProxyServer}

/-- The reply to a storage command: in mode 0 it succeeds, in mode 1 it fails,
in every other mode it fails after it has been executed. -/
def outcome {α : Type} (mode : ℕ) (v : α) : Except Fault α :=
  if mode = 0 then .ok v else .error ⟨decide (mode ≠ 1), "connection closed"⟩

/-- The `n`-th identifier a script draws. -/
def scriptUuid (n : ℕ) : Uuid :=
  ⟨"00000000-0000-4000-8000-0000000000" ++ (if n < 10 then "0" else "") ++ toString n⟩

def scriptSecret : String := "JBSWY3DPEHPK3PXPJBSWY3DPEHPK3PXP"

def otherSecret : String := "KRSXG5CTMVRXEZLUKRSXG5CTMVRXEZLU"

/-- The replies scripts are played with. A SCAN yields its keys in one page. -/
def World.reply (X : External) (mode _t : ℕ) (c : Cmd) (w : World) : Option c.Resp :=
  match c with
  | .redisGet key => some (outcome mode (w.read key))
  | .redisSetEx _ _ _ => some (outcome mode ())
  | .redisDel _ => some (outcome mode ())
  | .redisScan => some (outcome mode (w.redis.keys.filter isSessionKey, 0))
  | .redisScanNext _ => some (outcome mode [])
  | .redisIncr key =>
      match w.incr key with
      | some (n, _) => some (outcome mode n)
      | none => none
  | .redisExpire _ _ => some (outcome mode ())
  | .findUserByUsername username => some (outcome mode (w.userByUsername username))
  | .findUserById id => some (outcome mode (w.userById id))
  | .findDeviceByFingerprint userId hash => some (outcome mode (w.findDevice userId hash))
  | .upsertDevice _ => some (outcome mode ())
  | .setUserMfaSecret _ _ => some (outcome mode ())
  | .createUser _ _ _ => none
  | .insertAuditLog _ => some (outcome mode ())
  | .utcNow _ => some w.clock
  | .newUuid => some (scriptUuid w.drawn.length)
  | .generateSecret => some (if mode = 0 then scriptSecret else otherSecret)
  | .hashPassword _ => some (.error "not scripted")
  | .totpCheck totp token => some (X.totpCheck totp token w.clock)
  | .jwtEncode _ => some (.ok ("token-" ++ toString w.tokens.length))
  | .jwtDecode token =>
      match w.tokens.lookup token with
      | some claims => some (if claims.unexpired w.clock then .ok claims else .error "ExpiredSignature")
      | none => some (.error "InvalidToken")
  | .upstream _ => some (.ok ⟨200, "hello"⟩)
  | .panic => none
  | .getSessionCall _ => some ()
  | .getSessionReturn _ _ => some ()

namespace Scenario

/-! ### Accounts and requests -/

def userAgent : String := "curl/8.5.0"

def password : String := "correct horse battery"

def passwordHash : String := "$argon2id$v=19$m=19456,t=2,p=1$c2FsdHNhbHRzYWx0$aGFzaA"

/-- The secret of the test vectors, `12345678901234567890` in Base32. -/
def secret : String := "GEZDGNBVGY3TQOJQGEZDGNBVGY3TQOJQ"

def secretBytes : List UInt8 := [49, 50, 51, 52, 53, 54, 55, 56, 57, 48, 49, 50, 51, 52, 53, 54, 55, 56, 57, 48]

def code : String := "287082"

/-- The bytes of `scriptSecret` and its code for the same time. -/
def scriptBytes : List UInt8 := [72, 101, 108, 108, 111, 33, 222, 173, 190, 239, 72, 101, 108, 108, 111, 33, 222, 173, 190, 239]

def scriptCode : String := "503347"

def alice : UserRow :=
  ⟨⟨"a11ce000-0000-4000-8000-000000000001"⟩, "alice", "alice@example.org", passwordHash, false,
    none, true⟩

def bob : UserRow :=
  ⟨⟨"b0b00000-0000-4000-8000-000000000002"⟩, "bob", "bob@example.org", passwordHash, false,
    none, true⟩

def home : IpAddr := ⟨"10.0.0.1"⟩

def aliceLogin : String :=
  "\x7b\"username\":\"alice\",\"password\":\"correct horse battery\"\x7d"

def aliceLoginMfa : String :=
  "\x7b\"username\":\"alice\",\"password\":\"correct horse battery\",\"mfa_token\":\"287082\"\x7d"

def bobLogin : String :=
  "\x7b\"username\":\"bob\",\"password\":\"correct horse battery\"\x7d"

def verifyBody : String := "\x7b\"mfa_token\":\"287082\"\x7d"

/-- The body with the code of the secret that `generate_secret` has drawn. -/
def enrolledBody : String := "\x7b\"mfa_token\":\"503347\"\x7d"

def external : External where
  floats := ⟨Unit, fun _ => none, (), fun _ _ => false⟩
  parseUuid := fun s => some ⟨s⟩
  parseUuid_text := fun _ => rfl
  parseIp := fun s => some ⟨s⟩
  parseIp_text := fun _ => rfl
  sha256 := fun _ => "56119f6dc70fe14c09f714508e6a040179dfade82e0db4627b28784ec70410ff"
  sha256_length := fun _ => by decide
  verifyPassword := fun p h => .ok (decide (p = password ∧ h = passwordHash))
  decodeSecret := fun s =>
    if s = secret then some secretBytes
    else if s = scriptSecret then some scriptBytes
    else none
  totpError := fun _ => none
  totpCheck := fun totp token now =>
    .ok (decide (30 ≤ timestamp now ∧ timestamp now < 90) &&
      decide (totp.secret = secretBytes ∧ token = code ∨
        totp.secret = scriptBytes ∧ token = scriptCode))
  parseLoginBody := fun s =>
    if s = aliceLogin then some ⟨"alice", password, none, none⟩
    else if s = aliceLoginMfa then some ⟨"alice", password, none, some code⟩
    else if s = bobLogin then some ⟨"bob", password, none, none⟩
    else none
  parseRegisterBody := fun _ => none
  parseMfaVerifyBody := fun s =>
    if s = verifyBody then some ⟨code⟩
    else if s = enrolledBody then some ⟨scriptCode⟩
    else none
  sessionError := fun _ => "expected value at line 1 column 1"
  parseUri := fun s =>
    if s = "http://backend:8080/data" then some ⟨some "http", some "backend:8080", "/data"⟩ else none

def config : Config where
  sessionDurationMinutes := 15
  requireMfa := false
  jwtExpirationHours := 24
  stepUpThreshold := 60
  blockThreshold := 85
  defaultDeny := true
  defaultBackend := "http://backend:8080"

def server : ProxyServer := .new config

def login (body : String) : Request :=
  ⟨"POST", ⟨none, none, "/auth/login"⟩, [("user-agent", userAgent)], some body, home⟩

def authorized (method path token body : String) : Request :=
  ⟨method, ⟨none, none, path⟩, [("authorization", "Bearer " ++ token)], some body, home⟩

/-- Two accounts, one minute after the epoch. -/
def world (users : List UserRow) : World where
  clock := Duration.seconds 59
  redis := ∅
  scans := fun _ => []
  users := users
  devices := ∅
  audit := []
  drawn := []
  tokens := []

theorem world_initial {users : List UserRow} (hids : (users.map (·.id)).Nodup)
    (hnames : (users.map (·.username)).Nodup) (hemails : (users.map (·.email)).Nodup) :
    InitialWorld (world users) :=
  ⟨rfl, rfl, rfl, rfl, hids, hnames, hemails⟩

/-! ### Playing -/

abbrev System := proxySystem external server

/-- `n` steps of thread `t` with the usual replies. -/
def steps (t n : ℕ) : List (Move System) := List.replicate n (.step t 0)

/-- Play a script under an assumption on its steps, and check where it ends. -/
def plays (A : Trace System → Entry System → Prop) [∀ tr x, Decidable (A tr x)]
    (users : List UserRow) (script : List (Move System)) (check : Play System → Bool) : Bool :=
  ((Play.start (world users)).run (World.reply external) A script).any check

/-- A script that plays to its end is a run. -/
theorem run_of_plays {A : Trace System → Entry System → Prop} [∀ tr x, Decidable (A tr x)]
    {users : List UserRow} {script : List (Move System)} {check : Play System → Bool}
    (hinit : InitialWorld (world users)) (h : plays A users script check = true) :
    ∃ p : Play System, Run A p.world p.trace ∧ check p = true := by
  obtain ⟨p, hp, hcheck⟩ := (Option.any_eq_true _ _).mp h
  exact ⟨p, (Play.run_sound hinit hp).reached, hcheck⟩

/-- Play a script and check where it ends, and go on from there with another
one. The second check also sees what the second script has added. -/
def playsThen (A : Trace System → Entry System → Prop) [∀ tr x, Decidable (A tr x)]
    (users : List UserRow) (script : List (Move System)) (check : Play System → Bool)
    (script' : List (Move System)) (check' : Play System → Trace System → Bool) : Bool :=
  plays A users script fun p =>
    check p && (p.run (World.reply external) A script').any fun p' =>
      check' p' (p'.trace.take (p'.trace.length - p.trace.length))

theorem run_of_playsThen {A : Trace System → Entry System → Prop} [∀ tr x, Decidable (A tr x)]
    {users : List UserRow} {script script' : List (Move System)} {check : Play System → Bool}
    {check' : Play System → Trace System → Bool} (hinit : InitialWorld (world users))
    (h : playsThen A users script check script' check' = true) :
    ∃ (p p' : Play System) (seg : Trace System), Run A p.world p.trace ∧ check p = true ∧
      p'.trace = seg ++ p.trace ∧ Run A p'.world p'.trace ∧ check' p' seg = true :=
  Play.of_playsThen hinit h

/-! ### Reading a trace -/

/-- Thread `t` serves a request of this route that carries this token, and has
validated it for a session. -/
def serves (t : ℕ) (route : Route) (token id : String) (tr : ProxyTrace X srv) : Bool :=
  (tr.any fun x => match x.item with
    | .start q => decide (x.tid = t ∧ q.route = route) &&
        (match JwtManager.extractTokenFromHeader ((q.header "authorization").getD "") with
          | .ok token' => decide (token' = token)
          | .error _ => false)
    | _ => false) &&
  tr.any fun x => match x.item with
    | .act (.jwtDecode token' (.ok claims)) =>
        decide (x.tid = t ∧ token' = token ∧ claims.sessionId = id)
    | _ => false

theorem exists_bearer {t : ℕ} {route : Route} {token id : String} {tr : ProxyTrace X srv}
    (h : serves t route token id tr = true) :
    ∃ q claims, Started t q tr ∧ q.route = route ∧ Bearer q (own t tr) claims ∧
      claims.sessionId = id := by
  obtain ⟨hstart, hdecode⟩ := Bool.and_eq_true_iff.mp h
  obtain ⟨⟨t₁, w₁, item₁⟩, hmem₁, h₁⟩ := List.any_eq_true.mp hstart
  obtain ⟨⟨t₂, w₂, item₂⟩, hmem₂, h₂⟩ := List.any_eq_true.mp hdecode
  split at h₁
  · rename_i q heq
    split at h₂
    · rename_i token' claims heq'
      obtain ⟨ht', rfl, hid⟩ := of_decide_eq_true h₂
      obtain ⟨hrequest, htoken⟩ := Bool.and_eq_true_iff.mp h₁
      obtain ⟨ht, hroute⟩ := of_decide_eq_true hrequest
      split at htoken
      · rename_i token'' hextract
        obtain rfl := of_decide_eq_true htoken
        obtain rfl : item₁ = .start q := heq
        obtain rfl : item₂ = .act (.jwtDecode token'' (.ok claims)) := heq'
        obtain rfl : t₁ = t := ht
        obtain rfl : t₂ = t₁ := ht'
        exact ⟨q, claims, ⟨w₁, hmem₁⟩, hroute, ⟨token'', hextract, mem_own.mpr ⟨w₂, hmem₂⟩⟩, hid⟩
      · simp at htoken
    · simp at h₂
  · simp at h₁

/-- Thread `t` serves a request of this route. -/
def begins (t : ℕ) (route : Route) (tr : ProxyTrace X srv) : Bool :=
  tr.any fun x => match x.item with
    | .start q => decide (x.tid = t ∧ q.route = route)
    | _ => false

theorem exists_started {t : ℕ} {route : Route} {tr : ProxyTrace X srv}
    (h : begins t route tr = true) : ∃ q, Started t q tr ∧ q.route = route := by
  obtain ⟨⟨t₁, w₁, item⟩, hmem, h₁⟩ := List.any_eq_true.mp h
  split at h₁
  · rename_i q heq
    obtain ⟨rfl, hroute⟩ := of_decide_eq_true h₁
    obtain rfl : item = .start q := heq
    exact ⟨q, ⟨w₁, hmem⟩, hroute⟩
  · simp at h₁

/-- Thread `t` has answered 200. -/
def answered (t : ℕ) (tr : ProxyTrace X srv) : Bool :=
  tr.any fun x => match x.item with
    | .done o => decide (x.tid = t ∧ o.status = 200)
    | _ => false

theorem exists_answer {t : ℕ} {tr : ProxyTrace X srv} (h : answered t tr = true) :
    ∃ w₁ o, ⟨t, w₁, .done o⟩ ∈ tr ∧ o.status = 200 := by
  obtain ⟨⟨t₁, w₁, item⟩, hmem, h₁⟩ := List.any_eq_true.mp h
  split at h₁
  · rename_i o heq
    obtain ⟨rfl, hok⟩ := of_decide_eq_true h₁
    obtain rfl : item = .done o := heq
    exact ⟨w₁, o, hmem, hok⟩
  · simp at h₁

end Scenario

end ZeroTrustProxy
