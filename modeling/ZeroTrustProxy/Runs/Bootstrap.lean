import ZeroTrustProxy.Policy.DenyOverrides
import ZeroTrustProxy.Runs.Prediction

/-!
How a user comes to a second factor.

The gates that ask for a second factor stand in different handlers: the login asks
for it where the row has one, a proxied request where the session has not been
verified, and enrolment and verification do not ask for it at all. So a user who
has none can log in, enrol, verify and be let through, with one token and whatever
the other users do meanwhile, and logs in with a code from then on.
-/

namespace ZeroTrustProxy

open Concurrent Program

variable {X : External} {srv : ProxyServer}
  {A : ProxyTrace X srv → Entry (proxySystem X srv) → Prop} {w : World}
  {seg tr tr₁ pre : ProxyTrace X srv}

/-! ### Parts of a run -/

/-- The run up to an earlier point was a run, and its clock was not ahead. -/
theorem run_before (hrun : Run A w (seg ++ tr)) : ∃ w₁, Run A w₁ tr ∧ w₁.clock ≤ w.clock := by
  rcases List.eq_nil_or_concat' seg with rfl | ⟨post, y, rfl⟩
  · exact ⟨w, hrun, le_rfl⟩
  · have hclock := clock_le hrun (x := y) (by simp)
    rw [List.append_assoc, List.singleton_append] at hrun
    exact ⟨y.pre, hrun.entry.1, hclock⟩

/-- A step of a thread that is new after `tr₁` comes after `tr₁`. -/
theorem suffix_of_new {y : Entry (proxySystem X srv)} (hsub : tr₁ <:+ seg ++ y :: pre)
    (hnew : ∀ z ∈ tr₁, z.tid ≠ y.tid) : tr₁ <:+ pre := by
  rcases List.suffix_or_suffix_of_suffix hsub (List.suffix_append seg _) with hin | hbelow
  · rcases List.suffix_cons_iff.mp hin with rfl | hpre
    · exact (hnew y List.mem_cons_self rfl).elim
    · exact hpre
  · exact (hnew y (hbelow.subset List.mem_cons_self) rfl).elim

theorem Finished.request {t : ℕ} {q : Request} {answer : Option Response}
    (hf : Finished tr t q answer) : Started t q tr := by
  cases hf with
  | answered started done => exact started
  | panicked started calls => exact started

theorem mem_own_of_item {y : Entry (proxySystem X srv)} {t : ℕ} {e : Event} (hy : y ∈ tr)
    (ht : y.tid = t) (hitem : y.item = .act e) : e ∈ own t tr := by
  obtain ⟨t', w', item⟩ := y
  obtain rfl : t' = t := ht
  obtain rfl : item = .act e := hitem
  exact mem_own.mpr ⟨w', hy⟩

/-- A request that has been answered does nothing more. -/
theorem Finished.quiet {t : ℕ} {q : Request} {o : Response} (hf : Finished tr t q (some o))
    (hrun : Run A w (seg ++ tr)) : own t seg = [] := by
  cases hf with
  | answered started done =>
      obtain ⟨post, pre, rfl⟩ := List.append_of_mem done
      rw [← List.append_assoc] at hrun
      have hquiet := hrun.returned_quiet Cmd.event_inj
      rw [own_append, List.append_eq_nil_iff] at hquiet
      exact hquiet.1

/-- The row of a user that has enrolled with this secret. -/
def UserRow.withSecret (u : UserRow) (secret : String) : UserRow :=
  { u with mfaEnabled := true, mfaSecret := some secret }

/-- A row that is found is found with the secret that is written to it. -/
theorem userById_setUserMfaSecret_self {id : Uuid} {u : UserRow} {secret : String}
    (hrow : w.userById id = some u) :
    (w.setUserMfaSecret id secret).userById id = some (u.withSecret secret) := by
  have hid : u.id = id := by simpa using List.find?_some hrow
  unfold World.userById World.setUserMfaSecret
  simp only
  rw [List.find?_map]
  have hsame : ((fun u : UserRow => decide (u.id = id)) ∘ fun u => if u.id = id then
      { u with mfaEnabled := true, mfaSecret := some secret } else u) =
      fun u => decide (u.id = id) := by
    funext u
    simp only [Function.comp_apply]
    split <;> rfl
  have hfind : w.users.find? (fun u => decide (u.id = id)) = some u := hrow
  rw [hsame, hfind, Option.map_some, if_pos hid]
  rfl

/-! ### Turns -/

/-- A request of a thread, with the trace in which it has come to its end and the
answer it has got. -/
structure Turn (X : External) (srv : ProxyServer) where
  tid : ℕ
  request : Request
  trace : ProxyTrace X srv
  answer : Option Response

namespace Turn

/-- The history of the thread. -/
def events (u : Turn X srv) : List Event := own u.tid u.trace

/-- The request has come to its end, and the storage has not failed it. -/
structure Done (u : Turn X srv) : Prop where
  finished : Finished u.trace u.tid u.request u.answer
  stored : StorageSucceeds u.events

/-- The request has arrived after `tr`. -/
structure Follows (u : Turn X srv) (tr : ProxyTrace X srv) : Prop where
  later : tr <:+ u.trace
  new : ∀ y ∈ tr, y.tid ≠ u.tid

theorem Follows.earlier {u : Turn X srv} (h : u.Follows tr) (hsub : tr₁ <:+ tr) :
    u.Follows tr₁ where
  later := hsub.trans h.later
  new y hy := h.new y (hsub.subset hy)

/-- A token that has been signed validates in a later request, until it expires. -/
theorem Follows.validates {u : Turn X srv} (h : u.Follows tr₁) (hrun : Run A w u.trace) {t₁ : ℕ}
    {token : String} {claims : Claims} (hsigned : .jwtEncode claims (.ok token) ∈ own t₁ tr₁)
    (hcarries : Carries u.request token) (hlive : claims.unexpired w.clock = true) :
    Validates u.request u.events claims := by
  obtain ⟨seg, hseg⟩ := h.later
  intro l r hb hl
  rw [events, ← hseg] at hl
  rw [← hseg] at hrun
  exact hb.accepted hrun h.new hsigned hcarries hlive hl

/-- What a thread that is new after `tr₁` has done, it has done after `tr₁`. -/
theorem Follows.event {u : Turn X srv} (h : u.Follows tr₁) (hrun : Run A w u.trace) {e : Event}
    (he : e ∈ u.events) : ∃ seg w₁ w₂, seg ++ tr₁ <:+ u.trace ∧ Run A w₁ (seg ++ tr₁) ∧
      w₁.clock ≤ w.clock ∧ World.act X u.tid e w₁ = some w₂ := by
  obtain ⟨later, hseg⟩ := h.later
  rw [events, ← hseg] at he
  rw [← hseg] at hrun
  obtain ⟨post, w₁, pre, w₂, rfl, hrun₁, hclock, hact⟩ := event_after hrun h.new he
  refine ⟨pre, w₁, w₂, ?_, hrun₁, hclock, hact⟩
  rw [← hseg, List.append_assoc, List.cons_append]
  exact (List.suffix_cons _ _).trans (List.suffix_append _ _)

end Turn

/-! ### The sequence -/

/-- The lifetimes are those of sessions of at most a year, and the threshold of a
block is one that no request with a token of its session can reach. -/
structure Bounded (config : Config) : Prop where
  block : 85 < config.blockThreshold
  minMinutes : 1 ≤ config.sessionDurationMinutes
  maxMinutes : config.sessionDurationMinutes ≤ 525600
  minHours : 1 ≤ config.jwtExpirationHours
  maxHours : config.jwtExpirationHours ≤ 8760

theorem Bounded.held {config : Config} (h : Bounded config) : LifetimesHeld config := by
  obtain ⟨-, hmin, hmax, hmin', hmax'⟩ := h
  simp only [LifetimesHeld, Duration.inBounds, Bool.and_eq_true, decide_eq_true_eq]
  omega

/-- The answer is that of a login, with this token. -/
def AnswersToken (answer : Option Response) (token : String) : Prop :=
  ∃ r, answer = some ⟨200, .login r⟩ ∧ r.accessToken = token

/-- The answer is that of an enrolment, with this secret. -/
def AnswersSecret (answer : Option Response) (secret : String) : Prop :=
  ∃ url key, answer = some ⟨200, .enrollment secret url key⟩

/-- The request is a login of the user with the right password. -/
structure RightLogin (X : External) (user : UserRow) (q : Request) (body : LoginBody) : Prop where
  route : q.route = .login
  parsed : ParsesLogin X q body
  username : body.username = user.username
  password : X.verifyPassword body.password user.passwordHash = .ok true

/-- The secret can be used, and the code is valid for it at the time at which the
thread checks it. -/
def ValidAtCheck (X : External) (tr : ProxyTrace X srv) (t : ℕ) (secret code : String) : Prop :=
  ∃ bytes, X.decodeSecret secret = some bytes ∧
    X.totpError (TotpManager.totpOf .default bytes) = none ∧
    ∀ w₁ r, ⟨t, w₁, .act (.totpCheck (TotpManager.totpOf .default bytes) code r)⟩ ∈ tr →
      X.totpCheck (TotpManager.totpOf .default bytes) code w₁.clock = .ok true

theorem validAtCheck_iff (hrun : Run A w tr) {t : ℕ} {secret code : String} :
    ValidAtCheck X tr t secret code ↔ CodeHolds X (own t tr) secret code := by
  refine exists_congr fun bytes => and_congr_right fun _ => and_congr_right fun _ => ?_
  -- the check answers what is right at its time
  have hreply {w₁ : World} {r : Except String Bool}
      (hmem : ⟨t, w₁, .act (.totpCheck (TotpManager.totpOf .default bytes) code r)⟩ ∈ tr) :
      r = X.totpCheck (TotpManager.totpOf .default bytes) code w₁.clock := by
    obtain ⟨post, pre, rfl⟩ := List.append_of_mem hmem
    obtain ⟨-, -, q, w₂, -, -, hact⟩ := event_entry hrun
    exact of_decide_eq_true (World.accept_eq_some.mp hact).1
  constructor
  · intro hvalid r hr
    obtain ⟨w₁, hmem⟩ := mem_own.mp hr
    rw [hreply hmem]
    exact hvalid w₁ r hmem
  · intro hholds w₁ r hmem
    rw [← hreply hmem]
    exact hholds r (mem_own.mpr ⟨w₁, hmem⟩)

/-- No step enrols the user. -/
def NoEnrolment (id : Uuid) (seg : ProxyTrace X srv) : Prop :=
  ∀ y ∈ seg, ∀ secret r, y.item ≠ .act (.setUserMfaSecret id secret r)

/-- A user without a second factor, and the requests with which the user comes to
one: a login that arrives in the world `world` after the trace `past`, and what
follows it. -/
structure Bootstrap (X : External) (srv : ProxyServer) where
  user : UserRow
  world : World
  past : ProxyTrace X srv
  login : Turn X srv
  enroll : Turn X srv
  verify : Turn X srv
  access : Turn X srv

namespace Bootstrap

def turns (b : Bootstrap X srv) : List (Turn X srv) := [b.login, b.enroll, b.verify, b.access]

/-- The arrival of the login. -/
def start (b : Bootstrap X srv) : Entry (proxySystem X srv) :=
  ⟨b.login.tid, b.world, .start b.login.request⟩

/-- The step is one of the run that ends with the last request. -/
def Step (b : Bootstrap X srv) (pre : ProxyTrace X srv) (e : Entry (proxySystem X srv)) : Prop :=
  e :: pre <:+ b.access.trace

/-- The user is active and not enrolled. The requests are a login with the right
password and, one after the other and all with its token, an enrolment, a
verification with a code that is valid for the secret the enrolment has answered
with, and a proxied request. Each is under its rate limit, and the storage fails
none. From the arrival of the login on, every other request is one of another
user. At the end, in the world `w`, the token has not expired, and more than a
second is left to the expiry of the session. -/
structure Proper (b : Bootstrap X srv) (w : World) : Prop where
  row : b.world.userById b.user.id = some b.user
  active : b.user.isActive = true
  unenrolled : b.user.mfaEnabled = false
  login : b.start :: b.past <:+ b.login.trace
  enroll : b.enroll.Follows b.login.trace
  verify : b.verify.Follows b.enroll.trace
  access : b.access.Follows b.verify.trace
  done : ∀ u ∈ b.turns, u.Done
  right : ∃ body, RightLogin X b.user b.login.request body
  enrolls : b.enroll.request.route = .mfaEnroll
  verifies : b.verify.request.route = .mfaVerify
  proxied : b.access.request.route = .proxied
  method : b.access.request.method ∈ ["GET", "POST", "PUT", "PATCH", "DELETE", "HEAD", "OPTIONS"]
  token : ∀ token, AnswersToken b.login.answer token →
    ∀ u ∈ [b.enroll, b.verify, b.access], Carries u.request token
  code : ∀ secret, AnswersSecret b.enroll.answer secret → ∃ body,
    ParsesVerify X b.verify.request body ∧
      ValidAtCheck X b.verify.trace b.verify.tid secret body.mfaToken
  loginLimit : UnderLimit "login" b.login.request b.login.events
  verifyLimit : UnderLimit "mfa_verify" b.verify.request b.verify.events
  others : ∀ y pre, y :: pre <:+ b.access.trace → b.start :: b.past <:+ pre →
    (∀ u ∈ b.turns, y.tid ≠ u.tid) → ∀ q claims, Started y.tid q b.access.trace →
      Bearer q (own y.tid b.access.trace) claims → claims.sub ≠ b.user.id.text
  unexpired : ∀ claims token, .jwtEncode claims (.ok token) ∈ b.login.events →
    claims.unexpired w.clock = true
  inTime : ∀ x secs r, .redisSetEx (sessionKey x.id) (.session x) secs r ∈ b.login.events →
    w.clock < x.expiresAt - Duration.second

/-- The login has opened the session `x`, which is there until a second before its
expiry, and has signed the token of its answer for it. -/
structure Opened (b : Bootstrap X srv) (w : World) (token : String) (claims : Claims)
    (x : Session) : Prop where
  answered : AnswersToken b.login.answer token
  signed : .jwtEncode claims (.ok token) ∈ b.login.events
  subject : claims.sub = b.user.id.text
  owner : x.userId = claims.sub
  session : claims.sessionId = x.id
  device : x.deviceId = claims.deviceId
  created : ∃ t q h user mfa, Creation b.login.trace t q h user mfa x
  lives : LivesUntil b.Step x.id (x.expiresAt - Duration.second) b.login.trace
  early : w.clock < x.expiresAt - Duration.second

namespace Proper

variable {b : Bootstrap X srv}

theorem trace_suffix (hp : b.Proper w) {u : Turn X srv} (hu : u ∈ b.turns) :
    u.trace <:+ b.access.trace := by
  have hverify := hp.access.later
  have henroll := hp.verify.later.trans hverify
  simp only [turns, List.mem_cons, List.not_mem_nil, or_false] at hu
  rcases hu with rfl | rfl | rfl | rfl
  · exact hp.enroll.later.trans henroll
  · exact henroll
  · exact hverify
  · exact List.suffix_rfl

theorem run_of (hp : b.Proper w) (hrun : Run b.Step w b.access.trace) {u : Turn X srv}
    (hu : u ∈ b.turns) : ∃ w₁, Run b.Step w₁ u.trace ∧ w₁.clock ≤ w.clock := by
  obtain ⟨seg, hseg⟩ := hp.trace_suffix hu
  rw [← hseg] at hrun
  exact run_before hrun

theorem routes (hp : b.Proper w) :
    b.turns.map (·.request.route) = [.login, .mfaEnroll, .mfaVerify, .proxied] := by
  obtain ⟨body, hright⟩ := hp.right
  simp [turns, hright.route, hp.enrolls, hp.verifies, hp.proxied]

/-- A request of the sequence that has been answered has done what its turn shows,
and nothing since. -/
theorem still (hp : b.Proper w) (hrun : Run b.Step w b.access.trace) {u : Turn X srv}
    (hu : u ∈ b.turns) {o : Response} (hanswer : u.answer = some o) (hown : own u.tid pre = u.events)
    (hpre : pre <:+ tr) (hin : seg ++ tr <:+ b.access.trace) : own u.tid seg = [] := by
  obtain ⟨later, hlater⟩ := hp.trace_suffix hu
  have hfinished := (hp.done u hu).finished
  rw [hanswer] at hfinished
  have hquiet : own u.tid later = [] := hfinished.quiet (hlater.symm ▸ hrun)
  have hall : own u.tid b.access.trace = own u.tid pre := by
    rw [← hlater, own_append, hquiet, List.nil_append, hown]
    rfl
  have hseg := (own_suffix hin u.tid).length_le
  have htr := (own_suffix hpre u.tid).length_le
  rw [hall, own_append, List.length_append] at hseg
  exact List.eq_nil_of_length_eq_zero (by omega)

/-- A request with a token of the user is one of the sequence. -/
theorem turn (hp : b.Proper w) (hrun : Run b.Step w b.access.trace)
    {y : Entry (proxySystem X srv)} (hy : y :: pre <:+ b.access.trace)
    (hbegun : b.start :: b.past <:+ pre) {q : Request} {claims : Claims} (hq : Started y.tid q pre)
    (hb : Bearer q (own y.tid pre) claims) (hsub : claims.sub = b.user.id.text) :
    ∃ u ∈ b.turns, y.tid = u.tid ∧ q = u.request := by
  have hpre : pre <:+ b.access.trace := (List.suffix_cons y pre).trans hy
  have hq' := hq.mono hpre.subset
  by_contra hnone
  refine hp.others y pre hy hbegun (fun u hu htid => hnone ⟨u, hu, htid, ?_⟩) q claims hq'
    (hb.mono (own_suffix hpre _)) hsub
  have hstarted := (hp.done u hu).finished.request.mono (hp.trace_suffix hu).subset
  rw [← htid] at hstarted
  exact hrun.started_unique hq' hstarted

/-- Only the enrolment of the sequence writes a secret of the user. -/
theorem enrols (hp : b.Proper w) (hrun : Run b.Step w b.access.trace)
    {y : Entry (proxySystem X srv)} (hy : y :: pre <:+ b.access.trace)
    (hbegun : b.start :: b.past <:+ pre) {secret : String} {r : Except Fault Unit}
    (hitem : y.item = .act (.setUserMfaSecret b.user.id secret r)) : y.tid = b.enroll.tid := by
  obtain ⟨t, w₀, item⟩ := y
  obtain rfl : item = .act (.setUserMfaSecret b.user.id secret r) := hitem
  have hrun' := hrun
  obtain ⟨post, htr⟩ := hy
  rw [← htr] at hrun'
  obtain ⟨hrun₀, -, q, w₁, hq, ⟨hroute, -, claims, hb, hparse⟩, -⟩ := event_entry hrun'
  have hsub := (hb.issued hrun₀ List.suffix_rfl).subject hparse
  obtain ⟨u, hu, htid, rfl⟩ := hp.turn hrun ⟨post, htr⟩ hbegun hq hb hsub
  obtain ⟨body, hright⟩ := hp.right
  simp only [turns, List.mem_cons, List.not_mem_nil, or_false] at hu
  rcases hu with rfl | rfl | rfl | rfl
  · simp [hright.route] at hroute
  · exact htid
  · simp [hp.verifies] at hroute
  · simp [hp.proxied] at hroute

/-- Until the enrolment has written its secret, the row is as it was. -/
theorem row_before (hp : b.Proper w) (hrun : Run b.Step w b.access.trace) {w₁ : World}
    (hrun₁ : Run A w₁ pre) (hpre : pre <:+ b.access.trace) (hbegun : b.start :: b.past <:+ pre)
    (hbefore : ∀ secret r, .setUserMfaSecret b.user.id secret r ∉ own b.enroll.tid pre) :
    w₁.userById b.user.id = some b.user := by
  obtain ⟨seg, rfl⟩ := hbegun
  refine row_since hrun₁ ?_ fun y hy secret r hitem => ?_
  · intro w₂ hen
    have harrives : Enabled b.past ⟨b.login.tid, b.world, .start b.login.request⟩ w₂ := hen
    cases harrives
    exact hp.row
  · obtain ⟨post, mid, rfl⟩ := List.append_of_mem hy
    have hmid : y :: (mid ++ b.start :: b.past) <:+ b.access.trace := by
      rw [List.append_assoc, List.cons_append] at hpre
      exact (List.suffix_append _ _).trans hpre
    have ht := hp.enrols hrun hmid (List.suffix_append _ _) hitem
    exact hbefore secret r (mem_own_of_item (by simp) ht hitem)

/-! ### The login -/

/-- Up to the end of the login, the user is found by name as the row says. -/
theorem found (hp : b.Proper w) (hrun : Run b.Step w b.access.trace) {w₁ : World}
    (hrun₁ : Run A w₁ b.login.trace) {found : Option UserRow}
    (hfound : .findUserByUsername b.user.username (.ok found) ∈ b.login.events) :
    found = some b.user := by
  obtain ⟨seg, hseg⟩ := hp.login
  have hin : b.login.trace <:+ b.access.trace := hp.trace_suffix (by simp [turns])
  rw [Turn.events, ← hseg] at hfound
  rw [← hseg] at hrun₁
  have hnew : ∀ z ∈ b.past, z.tid ≠ b.login.tid := by
    have harrives : Run A w₁ ((seg ++ [b.start]) ++ b.past) := by simpa using hrun₁
    exact harrives.fresh_of_started ⟨b.world, List.mem_append_right _ List.mem_cons_self⟩
  obtain ⟨post, w₂, mid, w₃, rfl, hrun₂, hact⟩ := event_since hrun₁ hnew hfound
  have hmid : mid ++ b.start :: b.past <:+ b.login.trace := by
    rw [← hseg, List.append_assoc, List.cons_append]
    exact (List.suffix_cons _ _).trans (List.suffix_append _ _)
  have hrow := hp.row_before hrun hrun₂ (hmid.trans hin) (List.suffix_append _ _) ?_
  · rw [(World.userByUsername_reply hact).2]
    exact userByUsername_of_userById hrun₂ hrow
  · -- the enrolment has not arrived
    intro secret r hset
    have hnone : own b.enroll.tid b.login.trace = [] := own_eq_nil hp.enroll.new
    have hlater := (own_suffix hmid b.enroll.tid).subset hset
    simp [hnone] at hlater

/-- The login succeeds. -/
theorem logs_in (hp : b.Proper w) (hrun : Run b.Step w b.access.trace)
    (hbounded : Bounded srv.config) : LoggedIn srv b.user b.login.events b.login.answer := by
  obtain ⟨w₁, hrun₁, -⟩ := hp.run_of hrun (u := b.login) (by simp [turns])
  have hdone := hp.done b.login (by simp [turns])
  have hblock := hbounded.block
  obtain ⟨body, hright⟩ := hp.right
  have hiff := login_succeeds_iff hrun₁ hdone.finished hright.route hright.parsed
    (fun found hfound => hp.found hrun hrun₁ (hright.username ▸ hfound)) hp.active hright.password
    (by omega) hbounded.held hdone.stored hp.loginLimit
  exact hiff.mpr (.inl hp.unenrolled)

/-- Nobody logs the session out. -/
theorem unrevoked (hp : b.Proper w) (hrun : Run b.Step w b.access.trace) {t₀ : ℕ} {q₀ : Request}
    {h₀ : List Event} {user : UserRow} {mfa : Bool} {x : Session}
    (hc : Creation tr t₀ q₀ h₀ user mfa x) (howner : x.userId = b.user.id.text)
    (hbegun : b.start :: b.past <:+ tr) {e : Entry (proxySystem X srv)}
    (hstep : b.Step (seg ++ tr) e) : Unrevoked x.id (seg ++ tr) e := by
  intro r q hitem hq
  obtain ⟨t, w₀, item⟩ := e
  obtain rfl : item = .act (.redisDel (sessionKey x.id) r) := hitem
  have hrun' := hrun
  obtain ⟨post, htr⟩ := hstep
  rw [← htr] at hrun'
  obtain ⟨hrun₀, -, q', w₁, hq', hdelete, -⟩ := event_entry hrun'
  obtain rfl := hrun₀.started_unique hq hq'
  obtain ⟨claims, hb, hsub⟩ := SessionDelete.owner hrun₀ hdelete (hc.mono (List.suffix_append seg tr))
  obtain ⟨u, hu, -, rfl⟩ := hp.turn hrun ⟨post, htr⟩ (hbegun.trans (List.suffix_append _ _)) hq hb
    (hsub.trans howner)
  have hroute : u.request.route ∈ b.turns.map (·.request.route) := List.mem_map_of_mem hu
  rw [hp.routes] at hroute
  constructor
  · intro hlogout
    simp [hlogout] at hroute
  · intro hlogout
    simp [hlogout] at hroute

/-- The session that the login has created is there until it expires. -/
theorem lives (hp : b.Proper w) (hrun : Run b.Step w b.access.trace)
    (hbounded : Bounded srv.config) {q₀ : Request} {h₀ l : List Event} {user : UserRow} {mfa : Bool}
    {x : Session} (hc : Creation b.login.trace b.login.tid q₀ h₀ user mfa x)
    (howner : x.userId = b.user.id.text)
    (hcreated : b.login.events = l ++ createEvent srv x (.ok ()) :: h₀) :
    LivesUntil b.Step x.id (x.expiresAt - Duration.second) b.login.trace := by
  obtain ⟨w₁, hrun₁, -⟩ := hp.run_of hrun (u := b.login) (by simp [turns])
  obtain ⟨post, w₀, pre, htr, -, hown⟩ := own_split hcreated
  obtain ⟨seg, hseg⟩ := hp.login
  rw [htr] at hrun₁ hc
  have hsame : post ++ ⟨b.login.tid, w₀, .act (createEvent srv x (.ok ()))⟩ :: pre =
      seg ++ ⟨b.login.tid, b.world, .start b.login.request⟩ :: b.past := htr.symm.trans hseg.symm
  obtain ⟨mid, hmid⟩ := hrun₁.start_before hsame (by simp)
  have hbegun : b.start :: b.past <:+
      ⟨b.login.tid, w₀, .act (createEvent srv x (.ok ()))⟩ :: pre := by
    rw [hmid]
    exact (List.suffix_append mid _).trans (List.suffix_cons _ _)
  have hc₀ := (hc.first hrun₁ hown).2
  have hlives := hc₀.livesUntil (A := b.Step) hbounded.minMinutes hbounded.maxMinutes hown
    fun seg e hstep => hp.unrevoked hrun hc₀ howner hbegun hstep
  refine hlives.later ?_
  rw [htr]
  exact List.suffix_append _ _

theorem opens (hp : b.Proper w) (hrun : Run b.Step w b.access.trace)
    (hbounded : Bounded srv.config) : ∃ token claims x, b.Opened w token claims x := by
  obtain ⟨w₁, hrun₁, -⟩ := hp.run_of hrun (u := b.login) (by simp [turns])
  obtain ⟨-, claims, token, mfa, hsigned, hanswer⟩ := hp.logs_in hrun hbounded
  obtain ⟨l, hl⟩ := suffix_of_mem hsigned
  obtain ⟨post, pre, w₂, w₃, q, htr, hown, hrun₂, hq, ⟨h₀, update, user, mfa', x, hissue⟩, -⟩ :=
    history_event hrun₁ hl
  have hpre : pre <:+ b.login.trace := by
    rw [htr]
    exact (List.suffix_cons _ _).trans (List.suffix_append _ _)
  have hc : Creation b.login.trace b.login.tid q h₀ user mfa' x :=
    hissue.creation (hq.mono hpre.subset) ((List.suffix_cons _ _).trans hl)
  obtain ⟨risk, -, hsuffix, -⟩ := hissue.created
  obtain ⟨later, hlater⟩ := hsuffix.trans ((List.suffix_cons _ _).trans hl)
  have hcreated : b.login.events = (later ++ update) ++ createEvent srv x (.ok ()) :: h₀ := by
    rw [List.append_assoc]
    exact hlater.symm
  -- the login is one of the user
  obtain rfl : q = b.login.request :=
    hrun₁.started_unique (hq.mono hpre.subset) (hp.done _ (by simp [turns])).finished.request
  obtain ⟨body, hright⟩ := hp.right
  obtain ⟨body', hpassed⟩ := hc.login
  obtain rfl : body' = body := ParsesLogin.unique hpassed.parsed hright.parsed
  have hfound : .findUserByUsername b.user.username (.ok (some user)) ∈ b.login.events := by
    rw [← hright.username]
    exact hc.history.subset hpassed.found
  obtain rfl : user = b.user := Option.some.inj (hp.found hrun hrun₁ hfound)
  have howner := hc.userId
  have hearly : w.clock < x.expiresAt - Duration.second := by
    refine hp.inTime x (asU64 (srv.config.sessionDurationMinutes * 60)) (.ok ()) ?_
    rw [hcreated]
    exact List.mem_append_right _ List.mem_cons_self
  exact ⟨token, claims, x, ⟨_, hanswer, rfl⟩, hsigned, hissue.sub.trans howner, hissue.sub.symm,
    hissue.sessionId, hissue.deviceId.symm, ⟨_, _, _, _, _, hc⟩,
    hp.lives hrun hbounded hc howner hcreated, hearly⟩

end Proper

/-- A `get_session` of a later request returns the session. -/
theorem Opened.fetches {b : Bootstrap X srv} {token : String} {claims : Claims} {x : Session}
    (ho : b.Opened w token claims x) {u : Turn X srv} (hu : u.Follows b.login.trace)
    (hdone : u.Done) {w₁ : World} (hrun : Run b.Step w₁ u.trace) (hclock : w₁.clock ≤ w.clock)
    {p : Session → Prop} (hp : ∀ y activity, y.fixed = x.fixed →
      .redisGet (sessionKey x.id) (.ok (some (.session y))) ∈ u.events →
      p (y.updateActivity activity)) : Fetches X claims.sessionId u.events p := by
  intro body r hf hret hbody
  rw [ho.session] at hf hret
  have hearly := ho.early
  obtain ⟨seg, hseg⟩ := hu.later
  have hrun' := hrun
  rw [← hseg] at hrun'
  obtain ⟨s, rfl⟩ := hf.succeeds hrun' hu.new ho.lives (by omega) (by rw [hseg]; exact hbody)
    (hdone.stored.of_subset hbody)
  obtain ⟨y, activity, rfl, hread⟩ := returned_read hrun hret
  obtain ⟨t, q, h, user, mfa, hc⟩ := ho.created
  obtain ⟨hid, horigin⟩ := read_origin hrun hread
  exact ⟨_, rfl, hp y activity (horigin.fixed_eq hrun (hc.mono hu.later) hid) hread⟩

namespace Proper

variable {b : Bootstrap X srv}

/-! ### The enrolment -/

/-- The enrolment succeeds, and ends with the write of its secret. -/
theorem enrolled (hp : b.Proper w) (hrun : Run b.Step w b.access.trace) {token : String}
    {claims : Claims} {x : Session} (ho : b.Opened w token claims x) :
    ∃ secret l, b.enroll.answer = some (enrollAnswer secret b.user) ∧
      b.enroll.events = .setUserMfaSecret b.user.id secret (.ok ()) :: l ∧
      ∀ id secret r, .setUserMfaSecret id secret r ∉ l := by
  obtain ⟨w₁, hrun₁, hclock⟩ := hp.run_of hrun (u := b.enroll) (by simp [turns])
  have hin : b.enroll.trace <:+ b.access.trace := hp.trace_suffix (by simp [turns])
  have hdone := hp.done b.enroll (by simp [turns])
  have hlive := Claims.unexpired_of_le (hp.unexpired claims token ho.signed) hclock
  have hbearer := hp.enroll.validates hrun₁ ho.signed (hp.token token ho.answered _ (by simp)) hlive
  have hsubject : X.parseUuid claims.sub = some b.user.id := by
    rw [ho.subject]
    exact X.parseUuid_text _
  refine enrol_succeeds hrun₁ hdone.finished hp.enrolls hbearer hsubject ?_ hdone.stored
  intro found l hl hkinds
  obtain ⟨post, pre, w₂, w₃, q, htr, hown, hrun₂, -, -, hact⟩ := history_event hrun₁ hl
  have hlogin : b.login.trace <:+ pre := suffix_of_new (htr ▸ hp.enroll.later) hp.enroll.new
  have hpre : pre <:+ b.enroll.trace := by
    rw [htr]
    exact (List.suffix_cons _ _).trans (List.suffix_append _ _)
  rw [(World.userById_reply hact).2]
  refine hp.row_before hrun hrun₂ (hpre.trans hin) (hp.login.trans hlogin) fun secret r hset => ?_
  rw [hown] at hset
  exact hkinds.not_mem (by simp [Event.kind]) hset

/-- Nobody enrols the user again while the sequence lasts. -/
theorem unenrolled_since (hp : b.Proper w) (hrun : Run b.Step w b.access.trace) {secret : String}
    (hanswer : b.enroll.answer = some (enrollAnswer secret b.user)) {later : ProxyTrace X srv}
    (hlater : later ++ b.enroll.trace <:+ b.access.trace) : NoEnrolment b.user.id later := by
  have hquiet := hp.still hrun (by simp [turns]) hanswer rfl List.suffix_rfl hlater
  intro y hy secret' r hitem
  obtain ⟨after, mid, rfl⟩ := List.append_of_mem hy
  have hmid : y :: (mid ++ b.enroll.trace) <:+ b.access.trace := by
    rw [List.append_assoc, List.cons_append] at hlater
    exact (List.suffix_append _ _).trans hlater
  have ht := hp.enrols hrun hmid
    ((hp.login.trans hp.enroll.later).trans (List.suffix_append _ _)) hitem
  have hevent := mem_own_of_item hy ht hitem
  simp [hquiet] at hevent

/-- From the end of the enrolment on, the row has its secret until the user enrols
again. -/
theorem row_after (hp : b.Proper w) (hrun : Run b.Step w b.access.trace) {secret : String}
    {l : List Event} (hset : b.enroll.events = .setUserMfaSecret b.user.id secret (.ok ()) :: l)
    (hl : ∀ id secret r, .setUserMfaSecret id secret r ∉ l) {later : ProxyTrace X srv} {w₁ : World}
    (hrun₁ : Run A w₁ (later ++ b.enroll.trace)) (hno : NoEnrolment b.user.id later) :
    w₁.userById b.user.id = some (b.user.withSecret secret) := by
  have hin : b.enroll.trace <:+ b.access.trace := hp.trace_suffix (by simp [turns])
  obtain ⟨post, w₀, pre, htr, hpost, hpre⟩ := @own_split _ _ _ _ [] _ _ hset
  have hlogin : b.login.trace <:+ pre := suffix_of_new (htr ▸ hp.enroll.later) hp.enroll.new
  rw [htr, ← List.append_assoc] at hrun₁
  rw [htr] at hin
  refine row_since hrun₁ (fun w₂ hen => ?_) fun y hy secret' r hitem => ?_
  · obtain ⟨q, -, -, hact⟩ := enabled_event hen
    obtain rfl : w₀.setUserMfaSecret b.user.id secret = w₂ := Option.some.inj hact
    have hearlier : pre <:+ b.access.trace :=
      ((List.suffix_cons _ _).trans (List.suffix_append post _)).trans hin
    have hrow := hp.row_before hrun hrun₁.entry.1 hearlier (hp.login.trans hlogin) ?_
    · exact userById_setUserMfaSecret_self hrow
    · intro secret' r
      rw [hpre]
      exact hl _ secret' r
  · rcases List.mem_append.mp hy with hlate | hbetween
    · exact hno y hlate secret' r hitem
    · -- the enrolment has done nothing after its write
      obtain ⟨after, mid, rfl⟩ := List.append_of_mem hbetween
      rw [List.append_assoc, List.cons_append] at hin
      have hmid := (List.suffix_append after _).trans hin
      have ht := hp.enrols hrun hmid
        ((hp.login.trans hlogin).trans ((List.suffix_cons _ _).trans (List.suffix_append mid _)))
        hitem
      have hevent := mem_own_of_item hbetween ht hitem
      simp [hpost] at hevent

/-! ### The verification -/

/-- The verification succeeds, and ends with the write of the upgraded session. -/
theorem verified (hp : b.Proper w) (hrun : Run b.Step w b.access.trace) {token : String}
    {claims : Claims} {x : Session} (ho : b.Opened w token claims x) {secret : String}
    {l : List Event} (hanswer : b.enroll.answer = some (enrollAnswer secret b.user))
    (hset : b.enroll.events = .setUserMfaSecret b.user.id secret (.ok ()) :: l)
    (hl : ∀ id secret r, .setUserMfaSecret id secret r ∉ l) :
    b.verify.answer = some verifyAnswer ∧ ∃ y secs l, y.mfaVerified = true ∧
      b.verify.events = .redisSetEx (sessionKey x.id) (.session y) secs (.ok ()) :: l := by
  obtain ⟨w₁, hrun₁, hclock⟩ := hp.run_of hrun (u := b.verify) (by simp [turns])
  have hin : b.verify.trace <:+ b.access.trace := hp.trace_suffix (by simp [turns])
  have hdone := hp.done b.verify (by simp [turns])
  have hfollows : b.verify.Follows b.login.trace := hp.verify.earlier hp.enroll.later
  have hlive := Claims.unexpired_of_le (hp.unexpired claims token ho.signed) hclock
  have hbearer := hfollows.validates hrun₁ ho.signed (hp.token token ho.answered _ (by simp)) hlive
  have hsubject : X.parseUuid claims.sub = some b.user.id := by
    rw [ho.subject]
    exact X.parseUuid_text _
  have hfound (found : Option UserRow)
      (hmem : .findUserById b.user.id (.ok found) ∈ b.verify.events) :
      found = some (b.user.withSecret secret) := by
    obtain ⟨seg, w₂, w₃, hseg, hrun₂, -, hact⟩ := hp.verify.event hrun₁ hmem
    rw [(World.userById_reply hact).2]
    exact hp.row_after hrun hset hl hrun₂ (hp.unenrolled_since hrun hanswer (hseg.trans hin))
  have hfetch := ho.fetches hfollows hdone hrun₁ hclock (p := fun s => s.fixed = x.fixed)
    fun y activity hy _ => hy
  obtain ⟨body, hparsed, hcode⟩ := hp.code secret ⟨_, _, hanswer⟩
  obtain ⟨hok, s, update, l', hs, hupdate, hown⟩ := verify_succeeds hrun₁ hdone.finished hp.verifies
    hbearer hsubject hparsed hfound rfl ((validAtCheck_iff hrun₁).mp hcode) hfetch hdone.stored
    hp.verifyLimit
  refine ⟨hok, ?_⟩
  have hid : (upgrade s).id = x.id := Session.id_eq_of_fixed hs
  cases hupdate with
  | @skipped n none =>
      exfalso
      have hread : .utcNow .sessionTtl n ∈ own b.verify.tid b.verify.trace := by
        rw [hown]
        exact List.mem_cons_self
      have hreading := reading_le hrun₁ hread
      have hexpires : (upgrade s).expiresAt = x.expiresAt := Session.expiresAt_eq_of_fixed hs
      have hearly := ho.early
      have hpos : 0 < (upgrade s).ttl n := Session.ttl_pos (by omega)
      omega
  | @written n left =>
      rw [hid] at hown
      exact ⟨upgrade s, _, _, rfl, hown⟩

/-- A `get_session` for the session, by a request whose history it is, has been
called by one of the sequence. -/
theorem caller (hp : b.Proper w) (hrun : Run b.Step w b.access.trace) {token : String}
    {claims : Claims} {x : Session} (ho : b.Opened w token claims x)
    {y : Entry (proxySystem X srv)} (hy : y :: pre <:+ b.access.trace) {w₁ : World}
    (hrun₁ : Run b.Step w₁ pre) (hlogin : b.login.trace <:+ pre) {l : List Event}
    (hcall : .getSessionCall x.id :: l <:+ own y.tid pre) : ∃ u ∈ b.turns, y.tid = u.tid := by
  have hl : l <:+ own y.tid pre := (List.suffix_cons _ _).trans hcall
  obtain ⟨post, early, w₂, w₃, q, rfl, hown, hrun₂, hq, ⟨claims', hb, hid⟩, -⟩ :=
    history_event hrun₁ hcall
  obtain ⟨t, q', h, user, mfa, hc⟩ := ho.created
  have hsub := (hb.issued hrun₁ hl).owner hrun₁ (hc.mono hlogin) hid.symm
  obtain ⟨u, hu, htid, -⟩ := hp.turn hrun hy (hp.login.trans hlogin)
    (hq.mono ((List.suffix_cons _ _).trans (List.suffix_append _ _)).subset) (hb.mono hl)
    (hsub.trans (ho.owner.trans ho.subject))
  exact ⟨u, hu, htid⟩

/-- From the write of the verification on, the session stays upgraded. -/
theorem upgrade_stays (hp : b.Proper w) (hrun : Run b.Step w b.access.trace) {token : String}
    {claims : Claims} {x : Session} (ho : b.Opened w token claims x)
    (hanswers : ∀ u ∈ [b.login, b.enroll, b.verify], ∃ o, u.answer = some o) {y : Session} {secs : ℕ}
    {l : List Event} (hy : y.mfaVerified = true)
    (hwrites : b.verify.events = .redisSetEx (sessionKey x.id) (.session y) secs (.ok ()) :: l)
    {later : ProxyTrace X srv} {w₁ : World} (hrun₁ : Run b.Step w₁ (later ++ b.verify.trace)) :
    StoresUpgraded x.id w₁ later := by
  obtain ⟨post, w₀, pre, htr, hpre⟩ := own_last hwrites
  have henroll : b.enroll.trace <:+ pre := suffix_of_new (htr ▸ hp.verify.later) hp.verify.new
  have hlogin : b.login.trace <:+ pre := hp.enroll.later.trans henroll
  rw [htr, ← List.append_assoc] at hrun₁
  show StoresUpgraded x.id w₁ (later ++ post)
  refine flag_since ?_ hrun₁ hy
  intro w₂ w₃ seg t' q y' secs' r hrun₂ hq hwrite hy' hstep _
  have hsuf : pre <:+ seg ++
      ⟨b.verify.tid, w₀, .act (.redisSetEx (sessionKey x.id) (.session y) secs (.ok ()))⟩ :: pre :=
    (List.suffix_cons _ _).trans (List.suffix_append _ _)
  have hissued := token_issued hrun₂
    (signed_lookup hrun₂ ((own_suffix (hlogin.trans hsuf) b.login.tid).subset ho.signed))
  have hback := hwrite.writeBack hrun₂ hq hissued (ho.session.trans hy'.symm)
  generalize hown : own t' _ = l' at hback
  cases hback with
  | upgraded n passed => exact .inl rfl
  | @touched h z n activity now live =>
      have hz : z.id = x.id := hy'
      rw [hz] at hown
      rcases read_split (by simp) hown with ⟨after, w₄, mid, hseg⟩ | ⟨mid, w₄, early, rfl, hearly⟩
      · exact .inr ⟨after, w₄, mid, z, hseg, rfl⟩
      · -- it has read before the upgrade: it is one of the sequence, and has come to its end
        exfalso
        have hcall : .getSessionCall x.id :: h <:+ own t' (seg ++ ⟨b.verify.tid, w₀, .act
            (.redisSetEx (sessionKey x.id) (.session y) secs (.ok ()))⟩ :: (mid ++
              ⟨t', w₄, .act (.redisGet (sessionKey x.id) (.ok (some (.session z))))⟩ :: early)) := by
          rw [hown]
          exact List.suffix_append [_, _, _, _] _
        obtain ⟨u, hu, htid⟩ := hp.caller hrun ho hstep hrun₂ (hlogin.trans hsuf) hcall
        obtain rfl : t' = u.tid := htid
        have hquiet {o : Response} (hanswer : u.answer = some o) {s : ProxyTrace X srv}
            (hs : own u.tid s = u.events) (hbelow : s <:+ ⟨b.verify.tid, w₀, .act
              (.redisSetEx (sessionKey x.id) (.session y) secs (.ok ()))⟩ :: (mid ++
                ⟨u.tid, w₄, .act (.redisGet (sessionKey x.id) (.ok (some (.session z))))⟩ :: early)) :
            False := by
          have hnone : own u.tid ((⟨u.tid, w₂, .act (.redisSetEx (sessionKey x.id)
              (.session (z.updateActivity activity)) secs' r)⟩ : Entry (proxySystem X srv)) ::
                seg) = [] :=
            hp.still hrun hu hanswer hs hbelow hstep
          simp at hnone
        simp only [turns, List.mem_cons, List.not_mem_nil, or_false] at hu
        rcases hu with rfl | rfl | rfl | rfl
        · obtain ⟨o, ho⟩ := hanswers b.login (by simp)
          exact hquiet ho rfl (hlogin.trans (List.suffix_cons _ _))
        · obtain ⟨o, ho⟩ := hanswers b.enroll (by simp)
          exact hquiet ho rfl (henroll.trans (List.suffix_cons _ _))
        · obtain ⟨o, ho⟩ := hanswers b.verify (by simp)
          refine hquiet ho ?_ List.suffix_rfl
          rw [own_act_self, hpre, hwrites]
        · -- the proxied request has not arrived
          refine hp.access.new ⟨b.access.tid, w₄, .act (.redisGet (sessionKey x.id)
            (.ok (some (.session z))))⟩ ?_ rfl
          rw [htr]
          simp

/-! ### The proxied request -/

/-- `authorize` lets the proxied request through. -/
theorem passes (hp : b.Proper w) (hrun : Run b.Step w b.access.trace)
    (hbounded : Bounded srv.config)
    (hpolicy : ∀ claims, (srv.policyEngine.evaluate X.floats
      (policyContext b.access.request claims)).allowed = true) {token : String} {claims : Claims}
    {x : Session} (ho : b.Opened w token claims x)
    (hanswers : ∀ u ∈ [b.login, b.enroll, b.verify], ∃ o, u.answer = some o) {y : Session} {secs : ℕ}
    {l : List Event} (hy : y.mfaVerified = true)
    (hwrites : b.verify.events = .redisSetEx (sessionKey x.id) (.session y) secs (.ok ()) :: l) :
    Authorized X srv b.access.request b.access.events := by
  have hdone := hp.done b.access (by simp [turns])
  have hfollows : b.access.Follows b.login.trace :=
    hp.access.earlier (hp.enroll.later.trans hp.verify.later)
  have hbearer := hfollows.validates hrun ho.signed (hp.token token ho.answered _ (by simp))
    (hp.unexpired claims token ho.signed)
  have hfetch : Fetches X claims.sessionId b.access.events
      fun s => s.fixed = x.fixed ∧ s.mfaVerified = true := by
    refine ho.fetches hfollows hdone hrun le_rfl fun z activity hz hread => ⟨hz, ?_⟩
    obtain ⟨seg, w₁, w₂, -, hrun₁, -, hact⟩ := hp.access.event hrun hread
    obtain ⟨c, hc, hvalue⟩ := Option.map_eq_some_iff.mp (World.read_reply hact).2.symm
    obtain ⟨z', hz', hflag⟩ := hp.upgrade_stays hrun ho hanswers hy hwrites hrun₁ c hc
    obtain rfl : z = z' := RedisValue.session.inj (hvalue.symm.trans hz')
    exact hflag
  have hagrees (s : Session) (hs : s.fixed = x.fixed ∧ s.mfaVerified = true) :
      s.userId = claims.sub ∧ s.deviceId = claims.deviceId ∧ s.mfaVerified = true := by
    have hdevice : s.fixed.deviceId = x.fixed.deviceId := by rw [hs.1]
    exact ⟨(Session.userId_eq_of_fixed hs.1).trans ho.owner, hdevice.trans ho.device, hs.2⟩
  have hfinished := hdone.finished
  generalize b.access.answer = answer at hfinished
  cases hfinished with
  | panicked started calls =>
      have hpanics := handleRequest_panics calls
      rw [hp.proxied] at hpanics
      exact (never_bind authorize_panicless (fun _ => forwardUpstream_panicless) _ hpanics).elim
  | answered started done =>
      obtain ⟨r, hend, -⟩ := answered_own hrun started done
      rw [hp.proxied] at hend
      obtain ⟨e, -, hrefused⟩ | ⟨h₁, h₂, hown, -, hpassed⟩ := proxied_ends hend
      · have hok := (authorize_ends hrefused).passes hbearer hfetch hagrees (hpolicy claims)
          hbounded.block
        simp at hok
      · rw [Turn.events, hown]
        exact authorized_append hpassed

end Proper

/-! ### Later logins -/

/-- A later login of the user with the right password, under its rate limit and
without a storage failure, before which the user has not enrolled again. -/
structure NextLogin (b : Bootstrap X srv) (u : Turn X srv) (body : LoginBody) : Prop where
  follows : u.Follows b.enroll.trace
  done : u.Done
  right : RightLogin X b.user u.request body
  limit : UnderLimit "login" u.request u.events
  unenrolled : ∀ later, u.trace = later ++ b.enroll.trace → NoEnrolment b.user.id later

/-- A later login succeeds exactly with a code for the secret. -/
theorem Proper.logs_in_again {b : Bootstrap X srv} (hp : b.Proper w)
    (hrun : Run b.Step w b.access.trace) (hbounded : Bounded srv.config) {secret : String}
    {l : List Event} (hset : b.enroll.events = .setUserMfaSecret b.user.id secret (.ok ()) :: l)
    (hl : ∀ id secret r, .setUserMfaSecret id secret r ∉ l) {w₁ : World} {u : Turn X srv}
    {body : LoginBody} (hrun₁ : Run A w₁ u.trace) (hn : b.NextLogin u body) :
    LoggedIn srv (b.user.withSecret secret) u.events u.answer ↔
      ∃ code, body.mfaToken = some code ∧ ValidAtCheck X u.trace u.tid secret code := by
  have hfound (found : Option UserRow)
      (hmem : .findUserByUsername body.username (.ok found) ∈ u.events) :
      found = some (b.user.withSecret secret) := by
    obtain ⟨seg, w₂, w₃, ⟨rest, hrest⟩, hrun₂, -, hact⟩ := hn.follows.event hrun₁ hmem
    have hno : NoEnrolment b.user.id seg := fun y hy =>
      hn.unenrolled (rest ++ seg) (by rw [← hrest, List.append_assoc]) y
        (List.mem_append_right _ hy)
    have hrow := hp.row_after hrun hset hl hrun₂ hno
    rw [(World.userByUsername_reply hact).2, hn.right.username]
    exact userByUsername_of_userById hrun₂ hrow
  have hblock := hbounded.block
  have hiff := login_succeeds_iff hrun₁ hn.done.finished hn.right.route hn.right.parsed hfound
    hp.active hn.right.password (by omega) hbounded.held hn.done.stored hn.limit
  rw [Turn.events, hiff]
  constructor
  · rintro (hnone | ⟨secret', code, hsecret, hcode, hholds⟩)
    · simp [UserRow.withSecret] at hnone
    · obtain rfl : secret = secret' := Option.some.inj hsecret
      exact ⟨code, hcode, (validAtCheck_iff hrun₁).mpr hholds⟩
  · rintro ⟨code, hcode, hvalid⟩
    exact .inr ⟨secret, code, rfl, hcode, (validAtCheck_iff hrun₁).mp hvalid⟩

end Bootstrap

/-- The default policy allows the common methods. -/
theorem default_policy_allows {config : Config} {q : Request} {claims : Claims}
    (hmethod : q.method ∈ ["GET", "POST", "PUT", "PATCH", "DELETE", "HEAD", "OPTIONS"]) :
    ((ProxyServer.new config).policyEngine.evaluate X.floats (policyContext q claims)).allowed =
      true := by
  have hlower : ∀ method ∈ ["GET", "POST", "PUT", "PATCH", "DELETE", "HEAD", "OPTIONS"],
      toLowercase method ∈ ["get", "post", "put", "patch", "delete", "head", "options"] := by
    decide
  rw [PolicyEngine.evaluate_allowed_iff]
  constructor
  · rintro ⟨rule, hrule, -, hdeny⟩
    simp [ProxyServer.new, buildDefaultPolicyEngine, PolicyEngine.rules, PolicyEngine.addPolicy,
      PolicyEngine.new] at hrule
    simp [hrule] at hdeny
  · refine .inl ⟨_, List.mem_singleton_self _, ⟨.inl rfl, hlower _ hmethod, ?_⟩, rfl⟩
    simp

/-- **The second factor can be reached.** On a server with the default policy, and
with `require_mfa` or without it, an active user who is not enrolled logs in with
the password alone, enrols, verifies a code and is let through by `authorize`,
whatever the other users do meanwhile. From then on, until the user enrols again, a
login with the right password succeeds exactly when it carries a code that is valid
for the secret. -/
theorem mfa_bootstrap {config : Config} (hbounded : Bounded config)
    {b : Bootstrap X (.new config)} (hrun : Reachable w b.access.trace) (hp : b.Proper w) :
    LoggedIn (.new config) b.user b.login.events b.login.answer ∧
    b.verify.answer = some verifyAnswer ∧
    Authorized X (.new config) b.access.request b.access.events ∧
    ∃ secret, b.enroll.answer = some (enrollAnswer secret b.user) ∧
      ∀ w₁ u body, Reachable w₁ u.trace → b.NextLogin u body →
        (LoggedIn (.new config) (b.user.withSecret secret) u.events u.answer ↔
          ∃ code, body.mfaToken = some code ∧ ValidAtCheck X u.trace u.tid secret code) := by
  have hsteps : Run b.Step w b.access.trace := hrun.located.mono fun _ _ => And.right
  have hlogin := hp.logs_in hsteps hbounded
  obtain ⟨token, claims, x, ho⟩ := hp.opens hsteps hbounded
  obtain ⟨secret, l, henroll, hset, hl⟩ := hp.enrolled hsteps ho
  obtain ⟨hverify, y, secs, l', hy, hwrites⟩ := hp.verified hsteps ho henroll hset hl
  have hanswers : ∀ u ∈ [b.login, b.enroll, b.verify], ∃ o, u.answer = some o := by
    obtain ⟨r, hr, -⟩ := ho.answered
    simp [hr, henroll, hverify]
  refine ⟨hlogin, hverify, ?_, secret, henroll, fun w₁ u body hrun₁ hn => ?_⟩
  · exact hp.passes hsteps hbounded (fun claims => default_policy_allows hp.method) ho hanswers hy
      hwrites
  · exact hp.logs_in_again hsteps hbounded hset hl hrun₁ hn

/-! ### A particular run -/

namespace Scenario

/-- The trace up to the return of thread `t`. -/
def upTo (t : ℕ) (tr : ProxyTrace X srv) : ProxyTrace X srv :=
  tr.dropWhile fun x => !(decide (x.tid = t) && x.item.isDone fun _ => true)

theorem upTo_suffix (t : ℕ) (tr : ProxyTrace X srv) : upTo t tr <:+ tr := List.dropWhile_suffix _

/-- Thread `t` has taken up such a request and has given such an answer. -/
def played (t : ℕ) (p : Request → Bool) (f : Response → Bool) (tr : ProxyTrace X srv) : Bool :=
  (tr.any fun x => decide (x.tid = t) && x.item.isStart p) &&
    tr.any fun x => decide (x.tid = t) && x.item.isDone f

/-- A failure, a count above the limit, a token or a session that will have expired
at `now`, or a code that is refused. -/
def spoils (now : Int) (e : Event) : Bool :=
  e.failed || match e with
    | .redisIncr _ (.ok n) => decide (10 < n)
    | .jwtEncode claims _ => !claims.unexpired now
    | .redisSetEx _ (.session x) _ _ => decide (x.expiresAt - Duration.second ≤ now)
    | .totpCheck _ _ r => decide (r ≠ .ok true)
    | _ => false

def clean (now : Int) (tr : ProxyTrace X srv) : Bool := tr.all fun x => !x.item.isAct (spoils now)

theorem clean_event {now : Int} (hclean : clean now tr = true) {t : ℕ} {e : Event}
    (he : e ∈ own t tr) : spoils now e = false := by
  obtain ⟨w₁, hmem⟩ := mem_own.mp he
  simpa [Item.isAct] using List.all_eq_true.mp hclean _ hmem

theorem exists_turn {now : Int} {t : ℕ} {p : Request → Bool} {f : Response → Bool}
    (hplayed : played t p f tr = true) (hclean : clean now tr = true) :
    ∃ q o, p q = true ∧ f o = true ∧ (⟨t, q, tr, some o⟩ : Turn X srv).Done := by
  obtain ⟨hstart, hdone⟩ := Bool.and_eq_true_iff.mp hplayed
  obtain ⟨⟨t₁, w₁, item₁⟩, hmem₁, h₁⟩ := List.any_eq_true.mp hstart
  obtain ⟨⟨t₂, w₂, item₂⟩, hmem₂, h₂⟩ := List.any_eq_true.mp hdone
  obtain ⟨ht₁, hitem₁⟩ := Bool.and_eq_true_iff.mp h₁
  obtain ⟨ht₂, hitem₂⟩ := Bool.and_eq_true_iff.mp h₂
  obtain ⟨q, rfl, hq⟩ := Item.isStart_eq hitem₁
  obtain ⟨o, rfl, ho⟩ := Item.isDone_eq hitem₂
  obtain rfl := of_decide_eq_true ht₁
  obtain rfl := of_decide_eq_true ht₂
  refine ⟨q, o, hq, ho, .answered ⟨w₁, hmem₁⟩ hmem₂, fun e he hfailed => ?_⟩
  have hgood := clean_event hclean he
  simp [spoils, hfailed] at hgood

/-- The request carries the token. -/
def carries (token : String) (q : Request) : Bool :=
  match JwtManager.extractTokenFromHeader ((q.header "authorization").getD "") with
  | .ok token' => decide (token' = token)
  | .error _ => false

theorem carries_spec {token : String} {q : Request} (h : carries token q = true) :
    Carries q token := by
  unfold carries at h
  split at h
  · rename_i token' hextract
    obtain rfl := of_decide_eq_true h
    exact hextract
  · simp at h

/-- Alice's login with the code of the secret that `generate_secret` draws. -/
def aliceLoginEnrolled : String :=
  "\x7b\"username\":\"alice\",\"password\":\"correct horse battery\",\"mfa_token\":\"503347\"\x7d"

def enrolling : External :=
  { external with parseLoginBody := fun s =>
      if s = aliceLoginEnrolled then some ⟨"alice", password, none, some scriptCode⟩
      else external.parseLoginBody s }

theorem right_login {q : Request} {code : Option String} (hroute : q.route = .login)
    (hparsed : ParsesLogin enrolling q ⟨"alice", password, none, code⟩) :
    RightLogin enrolling alice q ⟨"alice", password, none, code⟩ :=
  ⟨hroute, hparsed, rfl, by simp [enrolling, external, alice]⟩

/-- A server that requires a second factor and does not block. -/
def guarded : ProxyServer := .new { config with requireMfa := true, blockThreshold := 90 }

/-- Thread `t'` has started after thread `t` has returned. -/
def inTurn (t t' : ℕ) (tr : ProxyTrace X srv) : Bool :=
  decide ((upTo t tr).length ≤ (upTo t' tr).length) &&
    (upTo t tr).all fun y => decide (y.tid ≠ t')

theorem inTurn_follows {t t' : ℕ} {q : Request} {o : Response} (h : inTurn t t' tr = true) :
    (⟨t', q, upTo t' tr, some o⟩ : Turn X srv).Follows (upTo t tr) := by
  obtain ⟨hlength, hnew⟩ := Bool.and_eq_true_iff.mp h
  refine ⟨?_, fun y hy => of_decide_eq_true (List.all_eq_true.mp hnew y hy)⟩
  exact List.suffix_of_suffix_length_le (upTo_suffix t tr) (upTo_suffix t' tr)
    (of_decide_eq_true hlength)

def usesToken : Event → Bool
  | .jwtDecode _ _ => true
  | _ => false

/-- Thread 0 finds Alice as she is not enrolled, and only threads 0 to 3 use a token. -/
def ofAlice (tr : ProxyTrace X srv) : Bool :=
  (tr.all fun x => !(decide (x.tid = 0) && x.item.isStart fun _ => true) ||
    decide (x.pre.userById alice.id = some alice)) &&
  tr.all fun x => decide (x.tid = 0 ∨ x.tid = 1 ∨ x.tid = 2 ∨ x.tid = 3) ||
    !x.item.isAct usesToken

def bootstraps (tr : ProxyTrace enrolling guarded) : Bool :=
  played 0 (fun q => decide (q.route = .login ∧ q.body = some aliceLogin))
      (fun o => decide (o = loginAnswer guarded alice false "token-0")) (upTo 0 tr) &&
  played 1 (fun q => decide (q.route = .mfaEnroll) && carries "token-0" q)
      (fun o => decide (o = enrollAnswer scriptSecret alice)) (upTo 1 tr) &&
  played 2 (fun q => decide (q.route = .mfaVerify ∧ q.body = some enrolledBody) &&
      carries "token-0" q) (fun _ => true) (upTo 2 tr) &&
  played 3 (fun q => decide (q.route = .proxied ∧ q.method = "GET") && carries "token-0" q)
      (fun _ => true) (upTo 3 tr) &&
  inTurn 0 1 tr && inTurn 1 2 tr && inTurn 2 3 tr && ofAlice tr

theorem exists_bootstrap {w : World} {tr : ProxyTrace enrolling guarded} (hrun : Reachable w tr)
    (hclean : clean w.clock tr = true) (h : bootstraps tr = true) :
    ∃ (w₁ : World) (b : Bootstrap enrolling guarded), Reachable w₁ b.access.trace ∧ b.Proper w₁ ∧
      b.user = alice ∧ b.enroll.tid = 1 ∧ b.enroll.trace = upTo 1 tr ∧
      b.enroll.answer = some (enrollAnswer scriptSecret alice) := by
  simp only [bootstraps, Bool.and_eq_true] at h
  obtain ⟨⟨⟨⟨⟨⟨⟨hplayed₀, hplayed₁⟩, hplayed₂⟩, hplayed₃⟩, h₀₁⟩, h₁₂⟩, h₂₃⟩, halice⟩ := h
  obtain ⟨hrow, halone⟩ := Bool.and_eq_true_iff.mp halice
  have hcleaned (t : ℕ) : clean w.clock (upTo t tr) = true :=
    List.all_eq_true.mpr fun y hy => List.all_eq_true.mp hclean y ((upTo_suffix t tr).subset hy)
  obtain ⟨q₀, o₀, hq₀, ho₀, hdone₀⟩ := exists_turn hplayed₀ (hcleaned 0)
  obtain ⟨q₁, o₁, hq₁, ho₁, hdone₁⟩ := exists_turn hplayed₁ (hcleaned 1)
  obtain ⟨q₂, o₂, hq₂, -, hdone₂⟩ := exists_turn hplayed₂ (hcleaned 2)
  obtain ⟨q₃, o₃, hq₃, -, hdone₃⟩ := exists_turn hplayed₃ (hcleaned 3)
  obtain ⟨hroute₀, hbody₀⟩ := of_decide_eq_true hq₀
  obtain rfl := of_decide_eq_true ho₀
  obtain ⟨henroll, hcarries₁⟩ := Bool.and_eq_true_iff.mp hq₁
  obtain rfl := of_decide_eq_true ho₁
  obtain ⟨hverify, hcarries₂⟩ := Bool.and_eq_true_iff.mp hq₂
  obtain ⟨hroute₂, hbody₂⟩ := of_decide_eq_true hverify
  obtain ⟨haccess, hcarries₃⟩ := Bool.and_eq_true_iff.mp hq₃
  obtain ⟨hroute₃, hmethod⟩ := of_decide_eq_true haccess
  obtain ⟨w₀, hstart⟩ := hdone₀.finished.request
  obtain ⟨post, past, hsplit⟩ := List.append_of_mem hstart
  obtain ⟨later, hlater⟩ := upTo_suffix 3 tr
  have hrun' := hrun
  rw [← hlater] at hrun'
  obtain ⟨w₁, hrun₁, hclock⟩ := run_before hrun'
  obtain ⟨w₂, hrun₂⟩ := hrun.of_suffix (upTo_suffix 2 tr)
  have hparsed₀ : ParsesLogin enrolling q₀ ⟨"alice", password, none, none⟩ :=
    ⟨aliceLogin, hbody₀, by simp [enrolling, external, aliceLogin, aliceLoginEnrolled]⟩
  refine ⟨w₁, ⟨alice, w₀, past, ⟨0, q₀, upTo 0 tr, some (loginAnswer guarded alice false "token-0")⟩,
    ⟨1, q₁, upTo 1 tr, some (enrollAnswer scriptSecret alice)⟩, ⟨2, q₂, upTo 2 tr, some o₂⟩,
    ⟨3, q₃, upTo 3 tr, some o₃⟩⟩, hrun₁, ?_, rfl, rfl, rfl, rfl⟩
  refine
    { row := ?_
      active := rfl
      unenrolled := rfl
      login := ?_
      enroll := inTurn_follows h₀₁
      verify := inTurn_follows h₁₂
      access := inTurn_follows h₂₃
      done := ?_
      right := ⟨_, right_login hroute₀ hparsed₀⟩
      enrolls := of_decide_eq_true henroll
      verifies := hroute₂
      proxied := hroute₃
      method := ?_
      token := ?_
      code := ?_
      loginLimit := ?_
      verifyLimit := ?_
      others := ?_
      unexpired := ?_
      inTime := ?_ }
  · have hfinds := List.all_eq_true.mp hrow _ ((upTo_suffix 0 tr).subset hstart)
    simpa [Item.isStart] using hfinds
  · rw [hsplit]
    exact List.suffix_append _ _
  · simp [Bootstrap.turns, hdone₀, hdone₁, hdone₂, hdone₃]
  · simp [hmethod]
  · rintro token ⟨r, hanswer, rfl⟩
    obtain rfl : _ = r := by simpa [loginAnswer] using hanswer
    simp [carries_spec hcarries₁, carries_spec hcarries₂, carries_spec hcarries₃]
  · rintro secret ⟨url, key, hanswer⟩
    obtain ⟨rfl, -, -⟩ : scriptSecret = secret ∧ _ ∧ _ := by simpa [enrollAnswer] using hanswer
    refine ⟨⟨scriptCode⟩, ⟨enrolledBody, hbody₂, ?_⟩, (validAtCheck_iff hrun₂).mpr ?_⟩
    · simp [enrolling, external, verifyBody, enrolledBody]
    · refine ⟨scriptBytes, ?_, rfl, fun r hr => ?_⟩
      · simp [enrolling, external, scriptSecret, Scenario.secret]
      · simpa [spoils, Event.failed] using clean_event (hcleaned 2) hr
  · intro n hn
    simpa [spoils, Event.failed] using clean_event (hcleaned 0) hn
  · intro n hn
    simpa [spoils, Event.failed] using clean_event (hcleaned 2) hn
  · rintro y pre hy - hother q claims hq ⟨token, -, hdecode⟩
    exfalso
    obtain ⟨w₃, hmem⟩ := mem_own.mp hdecode
    have hone := List.all_eq_true.mp halone _ ((upTo_suffix 3 tr).subset hmem)
    have hnone : ¬ (y.tid = 0 ∨ y.tid = 1 ∨ y.tid = 2 ∨ y.tid = 3) := by
      simpa [Bootstrap.turns] using hother
    simp [hnone, Item.isAct, usesToken] at hone
  · intro claims token hsigned
    have hlive : claims.unexpired w.clock = true := by
      simpa [spoils, Event.failed] using clean_event (hcleaned 0) hsigned
    exact Claims.unexpired_of_le hlive hclock
  · intro x secs r hwritten
    have hlate := clean_event (hcleaned 0) hwritten
    simp only [spoils, Bool.or_eq_false_iff, decide_eq_false_iff_not] at hlate
    omega

def scripted (t n : ℕ) : List (Move (proxySystem enrolling guarded)) := List.replicate n (.step t 0)

def arrives (t : ℕ) (q : Request) : Move (proxySystem enrolling guarded) := .start t q

def enrolment : Event → Bool
  | .setUserMfaSecret _ _ _ => true
  | _ => false

/-- Alice logs in again, with a code. Only thread 1 has enrolled her, and it has
returned before. -/
def returns (tr : ProxyTrace enrolling guarded) : Bool :=
  played 4 (fun q => decide (q.route = .login ∧ q.body = some aliceLoginEnrolled))
    (fun _ => true) tr &&
  ((upTo 1 tr).all fun y => decide (y.tid ≠ 4)) &&
  tr.all fun x => decide (x.tid = 1) || !x.item.isAct enrolment

/-- Bob logs in while Alice comes to a second factor, on a server that requires one.
She is let through, and logs in again with a code. -/
theorem mfa_bootstrap_run : ∃ (w w₁ : World) (b : Bootstrap enrolling guarded)
    (u : Turn enrolling guarded) (body : LoginBody), Reachable w b.access.trace ∧ b.Proper w ∧
      Authorized enrolling guarded b.access.request b.access.events ∧ Reachable w₁ u.trace ∧
      b.NextLogin u body ∧ LoggedIn guarded (b.user.withSecret scriptSecret) u.events u.answer := by
  have hplay : ((Play.start (world [alice, bob])).run (World.reply enrolling)
      (fun (_ : ProxyTrace enrolling guarded) _ => True)
      (arrives 0 (login aliceLogin) :: scripted 0 24 ++
        arrives 5 (login bobLogin) :: scripted 5 12 ++
        arrives 1 (authorized "POST" "/auth/mfa/enroll" "token-0" "") :: scripted 1 5 ++
        arrives 2 (authorized "POST" "/auth/mfa/verify" "token-0" enrolledBody) :: scripted 2 15 ++
        scripted 5 11 ++
        arrives 3 (authorized "GET" "/data" "token-0" "") :: scripted 3 22 ++
        arrives 4 (login aliceLoginEnrolled) :: scripted 4 24)).any
      (fun p => clean p.world.clock p.trace && (bootstraps p.trace && returns p.trace)) = true := by
    decide +kernel
  obtain ⟨p, hp, hcheck⟩ := (Option.any_eq_true _ _).mp hplay
  have hrun := (Play.run_sound (world_initial (by decide) (by decide) (by decide)) hp).reached
  obtain ⟨hclean, hcheck⟩ := Bool.and_eq_true_iff.mp hcheck
  obtain ⟨hbootstraps, hreturns⟩ := Bool.and_eq_true_iff.mp hcheck
  obtain ⟨hplayed, honly⟩ := Bool.and_eq_true_iff.mp hreturns
  obtain ⟨hplayed, hlater⟩ := Bool.and_eq_true_iff.mp hplayed
  obtain ⟨w₁, b, hreach, hproper, huser, htid, htrace, hanswer⟩ :=
    exists_bootstrap hrun hclean hbootstraps
  obtain ⟨q, o, hq, -, hdone⟩ := exists_turn hplayed hclean
  obtain ⟨hroute, hbody⟩ := of_decide_eq_true hq
  have hparsed : ParsesLogin enrolling q ⟨"alice", password, none, some scriptCode⟩ :=
    ⟨aliceLoginEnrolled, hbody, by simp [enrolling]⟩
  have hnext : b.NextLogin ⟨4, q, p.trace, some o⟩ ⟨"alice", password, none, some scriptCode⟩ := by
    refine ⟨⟨htrace ▸ upTo_suffix 1 p.trace, ?_⟩, hdone, huser ▸ right_login hroute hparsed, ?_, ?_⟩
    · rw [htrace]
      exact fun y hy => of_decide_eq_true (List.all_eq_true.mp hlater y hy)
    · intro n hn
      simpa [spoils, Event.failed] using clean_event hclean hn
    · -- the enrolment has returned
      intro later hsplit y hy secret r hitem
      have hfinished := (hproper.done b.enroll (by simp [Bootstrap.turns])).finished
      rw [hanswer] at hfinished
      have htrace' : p.trace = later ++ b.enroll.trace := hsplit
      rw [htrace'] at hrun honly
      have hquiet := hfinished.quiet hrun
      have hone := List.all_eq_true.mp honly y (List.mem_append_left _ hy)
      have ht : y.tid = 1 := by simpa [hitem, Item.isAct, enrolment] using hone
      have hevent := mem_own_of_item hy (ht.trans htid.symm) hitem
      simp [hquiet] at hevent
  have hbounded : Bounded { config with requireMfa := true, blockThreshold := 90 } := by
    constructor <;> decide
  obtain ⟨-, -, hauthorized, secret, hanswer', hagain⟩ := mfa_bootstrap hbounded hreach hproper
  obtain ⟨rfl, -, -⟩ : scriptSecret = secret ∧ _ ∧ _ := by
    simpa [hanswer, enrollAnswer] using hanswer'
  refine ⟨w₁, p.world, b, _, _, hreach, hproper, hauthorized, hrun, hnext, ?_⟩
  have hagain' := hagain p.world ⟨4, q, p.trace, some o⟩ _ hrun hnext
  have hcode : CodeHolds enrolling (own 4 p.trace) scriptSecret scriptCode := by
    refine ⟨scriptBytes, ?_, rfl, fun r hr => ?_⟩
    · simp [enrolling, external, scriptSecret, Scenario.secret]
    · simpa [spoils, Event.failed] using clean_event hclean hr
  exact hagain'.mpr ⟨scriptCode, rfl, (validAtCheck_iff hrun).mpr hcode⟩

end Scenario

end ZeroTrustProxy
