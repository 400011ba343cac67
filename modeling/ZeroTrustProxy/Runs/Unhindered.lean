import ZeroTrustProxy.Contract.MfaExits
import ZeroTrustProxy.Runs.Audited

/-!
What a request finds when nothing stands in its way.

A request that carries an unexpired token, that is under its rate limit and
whose storage commands succeed has few ways left to end. The lemmas of this
file rule the other ways out, for one request in a run in which other requests
may fail.
-/

namespace ZeroTrustProxy

open Concurrent Program

variable {X : External} {srv : ProxyServer}
  {A : ProxyTrace X srv → Entry (proxySystem X srv) → Prop} {w : World}
  {seg tr tr₀ tr₁ : ProxyTrace X srv} {x₀ : Entry (proxySystem X srv)} {req : Request}
  {h h' l : List Event}

/-- What a thread has done that has no step in the earlier part of the trace. -/
theorem event_after (hrun : Run A w (seg ++ tr₁)) {t : ℕ} (hnew : ∀ z ∈ tr₁, z.tid ≠ t)
    {e : Event} (he : e ∈ own t (seg ++ tr₁)) :
    ∃ post w₁ pre w₂, seg = post ++ ⟨t, w₁, .act e⟩ :: pre ∧ Run A w₁ (pre ++ tr₁) ∧
      w₁.clock ≤ w.clock ∧ World.act X t e w₁ = some w₂ := by
  obtain ⟨w₁, hmem⟩ := mem_own.mp he
  obtain hseg | hold := List.mem_append.mp hmem
  swap
  · exact (hnew _ hold rfl).elim
  have hclock := clock_le hrun hmem
  obtain ⟨post, pre, rfl⟩ := List.append_of_mem hseg
  rw [List.append_assoc, List.cons_append] at hrun
  obtain ⟨hrun₁, -, q, w₂, -, -, hact⟩ := event_entry hrun
  exact ⟨post, w₁, pre, w₂, rfl, hrun₁, hclock, hact⟩

/-! ### Storage -/

theorem StorageSucceeds.fails (hs : StorageSucceeds h) {e : Event} (hmem : e ∈ h)
    (hfailed : e.failed = true) (hkind : e.kind ≠ .audit) : False :=
  hkind (hs e hmem hfailed)

/-- The counts of the rate limit are within it. -/
def UnderLimit (bucket : String) (q : Request) (h : List Event) : Prop :=
  ∀ n, .redisIncr (rateLimitKey bucket q.remoteIp) (.ok n) ∈ h → n ≤ 10

theorem RateRun.passes {bucket : String} {r : Except ProxyError Unit}
    (hr : RateRun (rateLimitKey bucket req.remoteIp) 10 300 h r) (hs : StorageSucceeds h)
    (hlimit : UnderLimit bucket req h) : r = .ok () := by
  cases hr with
  | failed => exact (hs.fails List.mem_cons_self rfl (by simp [Event.kind])).elim
  | unset => exact (hs.fails List.mem_cons_self rfl (by simp [Event.kind])).elim
  | @counted n window opened =>
      have hn : n ≤ 10 := hlimit n (by simp)
      exact if_neg (by omega)

theorem UpdateRun.succeeds {x : Session} {r : Except ProxyError Unit} (hu : UpdateRun x h r)
    (hs : StorageSucceeds h) : r = .ok () := by
  cases hu with
  | skipped none => rfl
  | written left => rfl
  | failed left => exact (hs.fails List.mem_cons_self rfl (by simp [Event.kind])).elim

/-! ### Tokens -/

/-- The request carries the token in its authorization header. -/
def Carries (q : Request) (token : String) : Prop :=
  JwtManager.extractTokenFromHeader ((q.header "authorization").getD "") = .ok token

theorem Claims.unexpired_of_le {c : Claims} {n m : Int} (h : c.unexpired m = true) (hle : n ≤ m) :
    c.unexpired n = true := by
  have hsecs : timestamp n ≤ timestamp m := Int.ediv_le_ediv Duration.second_pos hle
  simp only [Claims.unexpired, Bool.and_eq_true, decide_eq_true_eq] at h ⊢
  omega

/-- A request that starts after the token has been signed finds it valid, as long
as it has not expired. -/
theorem BearerRun.accepted (hrun : Run A w (seg ++ tr₁)) {t t₁ : ℕ} (hnew : ∀ z ∈ tr₁, z.tid ≠ t)
    {token : String} {claims : Claims} (hsigned : .jwtEncode claims (.ok token) ∈ own t₁ tr₁)
    (hcarries : Carries req token) (hlive : claims.unexpired w.clock = true)
    {r : Except ProxyError Claims} (hb : BearerRun req l r) (hl : l ⊆ own t (seg ++ tr₁)) :
    r = .ok claims := by
  have hlookup {pre : ProxyTrace X srv} {w₁ : World} (hrun₁ : Run A w₁ (pre ++ tr₁)) :
      w₁.tokens.lookup token = some claims :=
    signed_lookup hrun₁ (own_suffix (List.suffix_append _ _) t₁ |>.subset hsigned)
  cases hb with
  | noToken header => exact absurd (hcarries.symm.trans header) (by simp)
  | @invalid token' e header =>
      exfalso
      obtain rfl : token = token' := Except.ok.inj (hcarries.symm.trans header)
      obtain ⟨post, w₁, pre, w₂, -, hrun₁, hclock, hact⟩ :=
        event_after hrun hnew (hl List.mem_cons_self)
      simp [World.act, hlookup hrun₁, Claims.unexpired_of_le hlive hclock, World.accept] at hact
  | @valid token' claims' header =>
      obtain rfl : token = token' := Except.ok.inj (hcarries.symm.trans header)
      obtain ⟨post, w₁, pre, w₂, -, hrun₁, -, hact⟩ := event_after hrun hnew (hl List.mem_cons_self)
      obtain ⟨-, hfound, -⟩ := World.decode_reply hact
      rw [hlookup hrun₁] at hfound
      rw [Option.some.inj hfound]

/-! ### Rows -/

/-- A row is found as a step of the run has left it until its user enrols. -/
theorem row_since {id : Uuid} {u : UserRow} (hrun : Run A w (seg ++ x₀ :: tr₀))
    (hfirst : ∀ w₁, Enabled tr₀ x₀ w₁ → w₁.userById id = some u)
    (hno : ∀ y ∈ seg, ∀ secret r, y.item ≠ .act (.setUserMfaSecret id secret r)) :
    w.userById id = some u := by
  refine (hrun.since (proxy_contract X srv) (fun w seg =>
    (∀ y ∈ seg, ∀ secret r, y.item ≠ .act (.setUserMfaSecret id secret r)) →
      w.userById id = some u) ?_ ?_ ?_ ?_ ?_).1 hno
  · exact fun _ _ hen _ => hfirst _ hen
  · intro w w' seg m _ hJ henv hno
    obtain ⟨-, rfl⟩ : w.clock ≤ m ∧ w.advance m = w' := by simpa using henv
    exact hJ hno
  · exact fun _ hJ _ hno => hJ fun y hy => hno y (List.mem_cons_of_mem _ hy)
  · intro w w' seg t q e _ hJ _ _ _ hact _ hno
    refine userById_act hact ?_ (hJ fun y hy => hno y (List.mem_cons_of_mem _ hy))
    rintro secret r rfl
    exact hno _ List.mem_cons_self secret r rfl
  · exact fun _ hJ _ _ _ hno => hJ fun y hy => hno y (List.mem_cons_of_mem _ hy)

theorem usernames_nodup (h : Run A w tr) : (w.users.map (·.username)).Nodup := by
  refine (h.invariant (proxy_contract X srv) (fun w _ => (w.users.map (·.username)).Nodup)
    ?_ ?_ ?_ ?_ ?_).1
  · exact fun _ hinit => hinit.usernames
  · intro w w' tr m _ hJ henv
    obtain ⟨-, rfl⟩ : w.clock ≤ m ∧ w.advance m = w' := by simpa using henv
    exact hJ
  · exact fun _ hJ _ => hJ
  · intro w w' tr t q e _ hJ _ _ _ hact _
    obtain hsame | ⟨id, secret, r, -, hset⟩ | ⟨_, _, _, _, row, -, -, hfresh, hadd⟩ :=
      World.act_users hact
    · rw [hsame]
      exact hJ
    · have hnames : (w.setUserMfaSecret id secret).users.map (·.username) =
          w.users.map (·.username) := by
        simp only [World.setUserMfaSecret, List.map_map]
        refine List.map_congr_left fun u _ => ?_
        simp only [Function.comp_apply]
        split <;> rfl
      rw [hset, hnames]
      exact hJ
    · rw [hadd, List.map_append, List.nodup_append]
      refine ⟨hJ, by simp, ?_⟩
      intro a ha b hb
      obtain ⟨u, hu, rfl⟩ := List.mem_map.mp ha
      obtain rfl : b = row.username := by simpa using hb
      exact (hfresh u hu).2
  · exact fun _ hJ _ _ _ => hJ

/-- A row that is found by its id is found by its name. -/
theorem userByUsername_of_userById (hrun : Run A w tr) {id : Uuid} {u : UserRow}
    (hrow : w.userById id = some u) : w.userByUsername u.username = some u := by
  have hmem : u ∈ w.users := List.mem_of_find?_eq_some hrow
  cases hfind : w.userByUsername u.username with
  | none => simpa using List.find?_eq_none.mp hfind u hmem
  | some v =>
      have hname : v.username = u.username := by simpa using List.find?_some hfind
      have hv : v ∈ w.users := List.mem_of_find?_eq_some hfind
      rw [List.inj_on_of_nodup_map (usernames_nodup hrun) hv hmem hname]

/-! ### Sessions -/

variable {t₀ : ℕ} {q₀ : Request} {h₀ : List Event} {user : UserRow} {mfa : Bool} {x : Session}

/-- A token that names a session is one of its user. -/
theorem Issued.owner (hrun : Run A w tr) {claims : Claims} (hissued : Issued tr claims)
    (hc : Creation tr t₀ q₀ h₀ user mfa x) (hid : claims.sessionId = x.id) :
    claims.sub = x.userId := by
  obtain ⟨_, _, _, _, _, x', hc', hid', hsub⟩ := hissued.creation
  obtain ⟨-, -, rfl⟩ := hc'.unique hrun hc (hid'.trans hid)
  exact hsub.symm

/-- Only requests with a token of its user delete a session. -/
theorem SessionDelete.owner (hrun : Run A w tr) {t : ℕ} {q : Request}
    (hdelete : SessionDelete q (own t tr) (sessionKey x.id)) (hc : Creation tr t₀ q₀ h₀ user mfa x) :
    ∃ claims, Bearer q (own t tr) claims ∧ claims.sub = x.userId := by
  generalize hown : own t tr = l at hdelete
  generalize hkey : sessionKey x.id = key at hdelete
  cases hdelete with
  | @expired h claims y now bearer expiry =>
      have hsuf : h <:+ own t tr := hown ▸ List.suffix_append [_, _, _] h
      refine ⟨claims, bearer.mono (List.suffix_append [_, _, _] h), ?_⟩
      exact (bearer.issued hrun hsuf).owner hrun hc (sessionKey_inj.mp hkey).symm
  | @logout h claims route bearer =>
      refine ⟨claims, bearer, ?_⟩
      have hissued := (hown ▸ bearer : Bearer q (own t tr) claims).issued hrun List.suffix_rfl
      exact hissued.owner hrun hc (sessionKey_inj.mp hkey).symm
  | @logoutAll h claims y key' route bearer read owner =>
      refine ⟨claims, bearer, ?_⟩
      have hread : .redisGet key' (.ok (some (.session y))) ∈ own t tr := hown ▸ read
      have horigin := (read_any_origin hrun hread).2
      have hfixed := horigin.fixed_eq hrun hc (sessionKey_inj.mp hkey).symm
      rw [← owner, Session.userId_eq_of_fixed hfixed]

/-- From `tr₁` on, a record is stored for the session until `n`, and it does not
expire before. -/
def LivesUntil (A : ProxyTrace X srv → Entry (proxySystem X srv) → Prop) (id : String) (n : Int)
    (tr₁ : ProxyTrace X srv) : Prop :=
  ∀ seg w, Run A w (seg ++ tr₁) → w.clock ≤ n →
    ∃ y, w.read (sessionKey id) = some (.session y) ∧ n < y.expiresAt

/-- A session lives until a second before its expiry if nobody logs it out. -/
theorem Creation.livesUntil (hmin : 1 ≤ srv.config.sessionDurationMinutes)
    (hmax : srv.config.sessionDurationMinutes ≤ 525600) {pre : ProxyTrace X srv} {w₀ : World}
    (hc : Creation (⟨t₀, w₀, .act (createEvent srv x (.ok ()))⟩ :: pre) t₀ q₀ h₀ user mfa x)
    (hown : own t₀ pre = h₀)
    (hkept : ∀ seg e, A (seg ++ ⟨t₀, w₀, .act (createEvent srv x (.ok ()))⟩ :: pre) e →
      Unrevoked x.id (seg ++ ⟨t₀, w₀, .act (createEvent srv x (.ok ()))⟩ :: pre) e) :
    LivesUntil A x.id (x.expiresAt - Duration.second)
      (⟨t₀, w₀, .act (createEvent srv x (.ok ()))⟩ :: pre) := by
  intro seg w hrun hclock
  have hcseg := hc.mono (List.suffix_append seg _)
  obtain ⟨y, d, hlookup, -⟩ := session_lives hmin hmax hrun hcseg hown hkept hclock
  obtain ⟨y', hy', hid, horigin⟩ := stored_origin hrun hlookup
  obtain rfl : y = y' := RedisValue.session.inj hy'
  refine ⟨y, by simp [World.read, hlookup], ?_⟩
  have hsame := Session.expiresAt_eq_of_fixed (horigin.fixed_eq hrun hcseg hid)
  have hsecond := Duration.second_pos
  omega

theorem LivesUntil.later {id : String} {n : Int} (h : LivesUntil A id n tr₀) (hsub : tr₀ <:+ tr₁) :
    LivesUntil A id n tr₁ := by
  obtain ⟨mid, rfl⟩ := hsub
  intro seg w hrun
  rw [← List.append_assoc] at hrun
  exact h _ w hrun

/-- A `get_session` of a request that starts in time, and has ended in time,
returns the session. -/
theorem FetchRun.succeeds (hrun : Run A w (seg ++ tr₁)) {t : ℕ} (hnew : ∀ z ∈ tr₁, z.tid ≠ t)
    {id : String} {n : Int} (hlives : LivesUntil A id n tr₁) (hclock : w.clock ≤ n)
    {r : Except ProxyError Session} (hf : FetchRun X id h r) (hown : h ⊆ own t (seg ++ tr₁))
    (hs : StorageSucceeds h) : ∃ s, r = .ok s := by
  have hget {v : Option RedisValue} (hmem : .redisGet (sessionKey id) (.ok v) ∈ h) :
      ∃ y, v = some (.session y) ∧ n < y.expiresAt := by
    obtain ⟨post, w₁, pre, w₂, -, hrun₁, hle, hact⟩ := event_after hrun hnew (hown hmem)
    obtain ⟨y, hread, hafter⟩ := hlives pre w₁ hrun₁ (hle.trans hclock)
    exact ⟨y, (World.read_reply hact).2.trans hread, hafter⟩
  cases hf with
  | failed => exact (hs.fails List.mem_cons_self rfl (by simp [Event.kind])).elim
  | missing =>
      obtain ⟨y, hy, -⟩ := hget (v := none) List.mem_cons_self
      simp at hy
  | @unparsed data e parse =>
      obtain ⟨y, hy, -⟩ := hget (v := some data) List.mem_cons_self
      obtain rfl := Option.some.inj hy
      simp [RedisValue.parseSession] at parse
  | @expired y now _ expiry =>
      exfalso
      obtain ⟨y', hy', hafter⟩ := hget (v := some (.session y)) (by simp)
      obtain rfl : y = y' := RedisValue.session.inj (Option.some.inj hy')
      have hread : .utcNow .isExpired now ∈ own t (seg ++ tr₁) := hown (by simp)
      have hnow := reading_le hrun hread
      simp only [Session.isExpired, decide_eq_true_eq] at expiry
      omega
  | @live y now activity update _ live run =>
      have hupdate := run.succeeds fun e he => hs e (List.mem_append_left _ he)
      exact ⟨_, by rw [hupdate]; rfl⟩

/-! ### Codes -/

/-- The secret can be used, and the code is right for it whenever this history
checks it. -/
def CodeHolds (X : External) (h : List Event) (secret code : String) : Prop :=
  ∃ bytes, X.decodeSecret secret = some bytes ∧
    X.totpError (TotpManager.totpOf .default bytes) = none ∧
    ∀ x, .totpCheck (TotpManager.totpOf .default bytes) code x ∈ h → x = .ok true

/-- The account asks for no second factor, or the login carries a code that is
right. -/
def FactorHolds (X : External) (user : UserRow) (body : LoginBody) (h : List Event) : Prop :=
  user.mfaEnabled = false ∨ ∃ secret code, user.mfaSecret = some secret ∧
    body.mfaToken = some code ∧ CodeHolds X h secret code

theorem CodeHolds.of_codes {secret code : String} (hc : CodeHolds X h secret code)
    (hcodes : ∀ e ∈ h', e.kind = .code → e ∈ h) : CodeHolds X h' secret code := by
  obtain ⟨bytes, hbytes, husable, hright⟩ := hc
  exact ⟨bytes, hbytes, husable, fun x hx => hright x (hcodes _ hx rfl)⟩

theorem FactorHolds.of_codes {user : UserRow} {body : LoginBody} (hf : FactorHolds X user body h)
    (hcodes : ∀ e ∈ h', e.kind = .code → e ∈ h) : FactorHolds X user body h' := by
  obtain hnone | ⟨secret, code, hsecret, hcode, hholds⟩ := hf
  · exact .inl hnone
  · exact .inr ⟨secret, code, hsecret, hcode, hholds.of_codes hcodes⟩

theorem CodeRun.holds_iff {secret code : String} {valid : Bool}
    (hc : CodeRun X secret code h valid) : CodeHolds X h secret code ↔ valid = true := by
  cases hc with
  | @unusable bytes e decoded error =>
      apply iff_of_false
      · rintro ⟨bytes', hbytes, husable, -⟩
        obtain rfl := Option.some.inj (decoded.symm.trans hbytes)
        simp [error] at husable
      · exact Bool.false_ne_true
  | @checked bytes x decoded usable =>
      constructor
      · rintro ⟨bytes', hbytes, -, hright⟩
        obtain rfl := Option.some.inj (decoded.symm.trans hbytes)
        exact decide_eq_true (hright x List.mem_cons_self)
      · intro hvalid
        refine ⟨bytes, decoded, usable, fun y hy => ?_⟩
        obtain rfl : y = x := by simpa using hy
        exact of_decide_eq_true hvalid

/-- The MFA gate of a login lets through who has the second factor asked for. -/
theorem MfaRun.holds_iff {user : UserRow} {body : LoginBody} {r : Except ProxyError Bool}
    (hm : MfaRun X user body h r) : FactorHolds X user body h ↔ ∃ mfa, r = .ok mfa := by
  cases hm with
  | notEnrolled enabled => exact iff_of_true (.inl enabled) ⟨false, rfl⟩
  | noSecret enabled secret =>
      apply iff_of_false
      · rintro (hnone | ⟨secret', -, hsecret, -⟩)
        · simp [enabled] at hnone
        · simp [secret] at hsecret
      · simp
  | noCode enabled stored code =>
      apply iff_of_false
      · rintro (hnone | ⟨-, code', -, hcode, -⟩)
        · simp [enabled] at hnone
        · simp [code] at hcode
      · simp
  | @decided secret code check valid enabled stored given checked =>
      have hcode : FactorHolds X user body h ↔ valid = true := by
        rw [← checked.holds_iff]
        constructor
        · rintro (hnone | ⟨secret', code', hsecret, hcode, hholds⟩)
          · simp [enabled] at hnone
          · obtain rfl := Option.some.inj (stored.symm.trans hsecret)
            obtain rfl := Option.some.inj (given.symm.trans hcode)
            exact hholds
        · exact fun hholds => .inr ⟨secret, code, stored, given, hholds⟩
      rw [hcode]
      cases valid with
      | true => exact iff_of_true rfl ⟨true, rfl⟩
      | false => simp

/-! ### Risk -/

/-- A request without failed attempts is not blocked when its factors come to
less than the threshold. -/
theorem RiskEngine.not_blocked {engine : RiskEngine} {now : Int} {context : RiskContext} {n : ℕ}
    (hfailed : context.failedAttempts = 0)
    (hsum : calculateDeviceRisk now context.device + timeScore context.timestamp +
      ipScore context.previousIp context.ipAddress +
      calculateSessionAgeRisk context.sessionAgeMinutes ≤ n)
    (hn : n < engine.blockThreshold) : (engine.calculateRisk now context).recommendation ≠ .block := by
  intro hblock
  have hreached : engine.blockThreshold ≤ (engine.calculateRisk now context).totalScore :=
    blockThreshold_le hblock
  rw [totalScore_eq engine now hfailed] at hreached
  omega

/-- No login scores more than 75. -/
theorem LoginRiskRun.not_blocked {user : UserRow} {device : DeviceFingerprint}
    {existing : Option DeviceRow} {risk : RiskScore}
    (hr : LoginRiskRun srv req user device existing h (.ok risk))
    (hblock : 75 < srv.config.blockThreshold) : risk.recommendation ≠ .block := by
  cases hr with
  | scored seen timestamp now =>
      refine RiskEngine.not_blocked rfl ?_ hblock
      have hdevice := RiskEngine.calculateDeviceRisk_le now
        { (if existing.isSome then device.increaseTrust 10 else device) with lastSeen := seen }
      have htime := RiskEngine.timeScore_le timestamp
      show RiskEngine.calculateDeviceRisk now _ + RiskEngine.timeScore timestamp + 0 + 0 ≤ 75
      exact (Nat.add_le_add hdevice htime)

/-- No request with a token of its session scores more than 85. -/
theorem RequestRiskRun.not_blocked {session : Session} {claims : Claims} {risk : RiskScore}
    (hr : RequestRiskRun X srv req session claims h risk)
    (hdevice : session.deviceId = claims.deviceId) (hblock : 85 < srv.config.blockThreshold) :
    risk.recommendation ≠ .block := by
  cases hr with
  | intro id first last ageAt timestamp now =>
      refine RiskEngine.not_blocked rfl ?_ hblock
      have hnew : RiskEngine.calculateDeviceRisk now (requestDevice (.build X id first last claims.sub
          session.userAgent req.remoteIp.text .empty) session claims) ≤ 20 := by
        simp only [RiskEngine.calculateDeviceRisk, requestDevice, hdevice, if_true]
        split_ifs <;> simp_all
      have htime := RiskEngine.timeScore_le timestamp
      have hip := RiskEngine.ipScore_le (X.parseIp session.ipAddress) req.remoteIp
      have hage := RiskEngine.calculateSessionAgeRisk_le
        (Duration.numMinutes (ageAt - session.createdAt))
      exact Nat.add_le_add (Nat.add_le_add (Nat.add_le_add hnew htime) hip) hage

/-! ### Logins -/

theorem LoggedIn.of_subset {user : UserRow} {answer : Option Response}
    (hl : LoggedIn srv user h answer) (hsub : h ⊆ h') : LoggedIn srv user h' answer := by
  obtain ⟨⟨x, secs, hcreated⟩, claims, token, mfa, hsigned, hanswer⟩ := hl
  exact ⟨⟨x, secs, hsub hcreated⟩, claims, token, mfa, hsub hsigned, hanswer⟩

theorem OpenRun.loggedIn {body : LoginBody} {user : UserRow} {userAgent : String} {mfa : Bool}
    {risk : RiskScore} {r : Except ProxyError Response}
    (ho : OpenRun X srv req body user userAgent mfa risk h r) (hs : StorageSucceeds h)
    (hsigned : ∀ claims e, .jwtEncode claims (.error e) ∉ h) :
    LoggedIn srv user h (some (respond r)) := by
  cases ho with
  | named given started => exact (started.audited hs hsigned).2
  | @unnamed id session _ given started =>
      have hsub : session ⊆ session ++ [Event.newUuid id] := List.subset_append_left _ _
      exact (started.audited (hs.of_subset hsub) fun claims e he =>
        hsigned claims e (hsub he)).2.of_subset hsub

/-- With the right password a login ends in a session exactly when the second
factor asked for is right. -/
theorem LoginRun.loggedIn_iff {body : LoginBody} {user : UserRow} {r : Except ProxyError Response}
    (hl : LoginRun X srv req h r) (hparsed : ParsesLogin X req body)
    (hfound : ∀ found, .findUserByUsername body.username (.ok found) ∈ h → found = some user)
    (hactive : user.isActive = true)
    (hpassword : X.verifyPassword body.password user.passwordHash = .ok true)
    (hblock : 75 < srv.config.blockThreshold) (hs : StorageSucceeds h)
    (hlimit : UnderLimit "login" req h) (hsigned : ∀ claims e, .jwtEncode claims (.error e) ∉ h) :
    LoggedIn srv user h (some (respond r)) ↔ FactorHolds X user body h := by
  cases hl with
  | limited rated => simpa using rated.passes hs hlimit
  | unread rated none =>
      obtain ⟨bytes, hbytes, -⟩ := hparsed
      simp [none] at hbytes
  | malformed rated read parse =>
      obtain ⟨bytes, hbytes, hbody⟩ := hparsed
      obtain rfl := Option.some.inj (read.symm.trans hbytes)
      simp [parse] at hbody
  | lookupFailed rated parsed =>
      exact (hs.fails List.mem_cons_self rfl (by simp [Event.kind])).elim
  | @unknown rate body' found rated parsed inactive =>
      obtain rfl := parsed.unique hparsed
      obtain rfl := hfound found List.mem_cons_self
      simp [Option.filter, hactive] at inactive
  | deviceFailed id firstSeen lastSeen rated parsed active =>
      exact (hs.fails List.mem_cons_self rfl (by simp [Event.kind])).elim
  | @decided rate verdict body' u existing _ id firstSeen lastSeen rated parsed active decision =>
      obtain rfl := parsed.unique hparsed
      obtain rfl : u = user := Option.some.inj (hfound (some u) (by simp [loginLookups]))
      have hlookups : OfKinds _ (loginLookups X req body' u id firstSeen lastSeen (.ok existing)
        rate) := loginLookups_kinds rated.kinds
      cases decision with
      | unverifiable password => simp [hpassword] at password
      | refusalFailed password => simp [hpassword] at password
      | refused password audited => simp [hpassword] at password
      | mfaRefused password gate =>
          refine iff_of_false not_loggedIn fun hfactor => ?_
          obtain ⟨mfa, hok⟩ :=
            gate.holds_iff.mp (hfactor.of_codes fun e he _ => List.mem_append_left _ he)
          simp at hok
      | riskFailed password gate scored =>
          cases scored with
          | failed => exact (hs.fails List.mem_cons_self rfl (by simp [Event.kind])).elim
      | blocked password gate scored block audited => exact (scored.not_blocked hblock block).elim
      | @opened check scores session mfa risk _ password gate scored block opened =>
          have hsub : session ⊆ (session ++ (scores ++ check)) ++
              loginLookups X req body' u id firstSeen lastSeen (.ok existing) rate := by
            intro e he
            simp [he]
          refine iff_of_true ?_ ((gate.holds_iff.mpr ⟨mfa, rfl⟩).of_codes fun e he hkind => ?_)
          · exact (opened.loggedIn (hs.of_subset hsub) fun claims e he =>
              hsigned claims e (hsub he)).of_subset hsub
          · -- only the gate has checked a code
            have hnot {ks : List EventKind} {part : List Event} (hpart : OfKinds ks part)
                (hks : .code ∉ ks) : e ∉ part := hpart.not_mem (hkind ▸ hks)
            simp only [List.mem_append] at he
            obtain (he | he | he) | he := he
            · exact (hnot opened.kinds (by decide) he).elim
            · exact (hnot scored.kinds (by decide) he).elim
            · exact he
            · exact (hnot hlookups (by decide) he).elim

/-- A login that panics has found its account. -/
theorem LoginPanic.found {body : LoginBody} (hp : LoginPanic X srv req h)
    (hparsed : ParsesLogin X req body) :
    ∃ user, .findUserByUsername body.username (.ok (some user)) ∈ h := by
  cases hp with
  | @code rate body' user existing id firstSeen lastSeen rated parsed secret =>
      obtain rfl := parsed.unique hparsed
      exact ⟨user, by simp [loginLookups]⟩
  | @start rate check scores drawn session body' user existing mfa risk deviceId id firstSeen lastSeen
      rated parsed gate scored given started =>
      obtain rfl := parsed.unique hparsed
      exact ⟨user, by simp [loginLookups]⟩

/-- The lifetimes are ones that `chrono` can hold. -/
def LifetimesHeld (config : Config) : Prop :=
  Duration.inBounds (config.sessionDurationMinutes * 60) = true ∧
    Duration.inBounds (config.jwtExpirationHours * 3600) = true

/-- **A login with the right password succeeds exactly when it carries the second
factor asked for**, if nothing else stands in its way. -/
theorem login_succeeds_iff (hrun : Run A w tr) {t : ℕ} {body : LoginBody} {user : UserRow}
    {answer : Option Response} (hfinished : Finished tr t req answer) (hroute : req.route = .login)
    (hparsed : ParsesLogin X req body)
    (hfound : ∀ found, .findUserByUsername body.username (.ok found) ∈ own t tr → found = some user)
    (hactive : user.isActive = true)
    (hpassword : X.verifyPassword body.password user.passwordHash = .ok true)
    (hblock : 75 < srv.config.blockThreshold) (hheld : LifetimesHeld srv.config)
    (hs : StorageSucceeds (own t tr)) (hlimit : UnderLimit "login" req (own t tr)) :
    LoggedIn srv user (own t tr) answer ↔ FactorHolds X user body (own t tr) := by
  cases hfinished with
  | answered started done =>
      obtain ⟨r, hend, rfl⟩ := answered_own hrun started done
      rw [hroute] at hend
      exact (handleLogin_ends hend).loggedIn_iff hparsed hfound hactive hpassword hblock hs hlimit
        fun claims e => signing_succeeds hrun claims e
  | panicked started calls =>
      have hpanics := handleRequest_panics calls
      rw [hroute] at hpanics
      have hpanic := handleLogin_panics hpanics
      obtain ⟨u, hu⟩ := hpanic.found hparsed
      obtain rfl := Option.some.inj (hfound _ hu)
      apply iff_of_false
      · rintro ⟨-, claims, token, mfa, -, hanswer⟩
        simp at hanswer
      · obtain hsession | htoken | hcode := hpanic.cause hparsed hu
        · simp [hheld.1] at hsession
        · simp [hheld.2] at htoken
        · obtain ⟨secret, hsecret, hnone⟩ := hcode.secret
          rintro (hdisabled | ⟨secret', code, hsecret', -, bytes, hbytes, -⟩)
          · simp [hcode.enabled] at hdisabled
          · obtain rfl := Option.some.inj (hsecret.symm.trans hsecret')
            simp [hnone] at hbytes

/-! ### Requests with a token -/

/-- The token of the request validates, to these claims. -/
def Validates (q : Request) (h : List Event) (claims : Claims) : Prop :=
  ∀ l r, BearerRun q l r → l ⊆ h → r = .ok claims

theorem Validates.unique {claims claims' : Claims} (hv : Validates req h claims)
    (hb : Bearer req h claims') : claims' = claims := by
  obtain ⟨token, header, decoded⟩ := hb
  have hsub : [.jwtDecode token (.ok claims')] ⊆ h :=
    List.cons_subset.mpr ⟨decoded, List.nil_subset _⟩
  exact Except.ok.inj (hv _ _ (.valid header) hsub)

/-- `get_session` returns a session that passes the test. -/
def Fetches (X : External) (id : String) (h : List Event) (p : Session → Prop) : Prop :=
  ∀ body r, FetchRun X id body r → .getSessionReturn id r ∈ h → body ⊆ h → ∃ s, r = .ok s ∧ p s

/-- **An enrolment succeeds** and ends with the write of the secret that it
answers with. -/
theorem enrol_succeeds (hrun : Run A w tr) {t : ℕ} {claims : Claims} {id : Uuid} {user : UserRow}
    {answer : Option Response} (hfinished : Finished tr t req answer)
    (hroute : req.route = .mfaEnroll) (hbearer : Validates req (own t tr) claims)
    (hsubject : X.parseUuid claims.sub = some id)
    (hfound : ∀ found l, .findUserById id (.ok found) :: l <:+ own t tr → OfKinds [.token] l →
      found = some user) (hs : StorageSucceeds (own t tr)) :
    ∃ secret l, answer = some (enrollAnswer secret user) ∧
      own t tr = .setUserMfaSecret id secret (.ok ()) :: l ∧
      ∀ id' secret' r, .setUserMfaSecret id' secret' r ∉ l := by
  cases hfinished with
  | panicked started calls =>
      have hpanics := handleRequest_panics calls
      rw [hroute] at hpanics
      exact (handleMfaEnroll_panicless _ hpanics).elim
  | answered started done =>
      obtain ⟨r, hend, rfl⟩ := answered_own hrun started done
      rw [hroute] at hend
      have hexit := handleMfaEnroll_ends hend
      generalize hown : own t tr = h at hexit hbearer hfound hs ⊢
      cases hexit with
      | unauthenticated bearer => simpa using hbearer _ _ bearer (List.Subset.refl _)
      | badSubject bearer subject =>
          obtain rfl := Except.ok.inj (hbearer _ _ bearer (List.Subset.refl _))
          simp [hsubject] at subject
      | lookupFailed bearer subject =>
          exact (hs.fails List.mem_cons_self rfl (by simp [Event.kind])).elim
      | unknown bearer subject =>
          obtain rfl := Except.ok.inj (hbearer _ _ bearer (List.subset_cons_self _ _))
          obtain rfl := Option.some.inj (hsubject.symm.trans subject)
          simpa using hfound none _ List.suffix_rfl bearer.kinds
      | @written token claims' id' user' secret x bearer subject =>
          have hsub : token ⊆ .setUserMfaSecret id' secret x :: .generateSecret secret ::
              .findUserById id' (.ok (some user')) :: token := by
            intro e he
            simp [he]
          obtain rfl := Except.ok.inj (hbearer _ _ bearer hsub)
          obtain rfl := Option.some.inj (hsubject.symm.trans subject)
          obtain rfl := Option.some.inj
            (hfound (some user') token (List.suffix_append [_, _] _) bearer.kinds)
          cases x with
          | error f => exact (hs.fails List.mem_cons_self rfl (by simp [Event.kind])).elim
          | ok u =>
              refine ⟨secret, _, rfl, rfl, fun id'' secret' r hmem => ?_⟩
              simp only [List.mem_cons, reduceCtorEq, false_or] at hmem
              exact bearer.kinds.not_mem (by simp [Event.kind]) hmem

/-- **A verification with the right code succeeds** and writes the upgrade of the
session it has been given. -/
theorem verify_succeeds (hrun : Run A w tr) {t : ℕ} {claims : Claims} {id : Uuid} {user : UserRow}
    {secret : String} {body : MfaVerifyBody} {p : Session → Prop} {answer : Option Response}
    (hfinished : Finished tr t req answer) (hroute : req.route = .mfaVerify)
    (hbearer : Validates req (own t tr) claims) (hsubject : X.parseUuid claims.sub = some id)
    (hparsed : ParsesVerify X req body)
    (hfound : ∀ found, .findUserById id (.ok found) ∈ own t tr → found = some user)
    (hsecret : user.mfaSecret = some secret) (hcode : CodeHolds X (own t tr) secret body.mfaToken)
    (hfetch : Fetches X claims.sessionId (own t tr) p) (hs : StorageSucceeds (own t tr))
    (hlimit : UnderLimit "mfa_verify" req (own t tr)) :
    answer = some verifyAnswer ∧ ∃ s update l, p s ∧ UpdateRun (upgrade s) update (.ok ()) ∧
      own t tr = update ++ Event.getSessionReturn claims.sessionId (.ok s) :: l := by
  cases hfinished with
  | panicked started calls =>
      exfalso
      have hpanics := handleRequest_panics calls
      rw [hroute] at hpanics
      obtain ⟨claims', id', user', secret', -, hb, hid, hrow, hstored, -, hnone⟩ :=
        handleMfaVerify_panics hpanics
      obtain rfl := hbearer.unique hb
      obtain rfl := Option.some.inj (hsubject.symm.trans hid)
      obtain rfl := Option.some.inj (hfound _ hrow)
      obtain rfl := Option.some.inj (hsecret.symm.trans hstored)
      obtain ⟨bytes, hbytes, -⟩ := hcode
      simp [hnone] at hbytes
  | answered started done =>
      obtain ⟨r, hend, rfl⟩ := answered_own hrun started done
      rw [hroute] at hend
      have hexit := handleMfaVerify_ends hend
      generalize hown : own t tr = h at hexit hbearer hfound hs hlimit hcode hfetch ⊢
      cases hexit with
      | limited rated => simpa using rated.passes hs hlimit
      | unauthenticated rated bearer =>
          simpa using hbearer _ _ bearer (List.subset_append_left _ _)
      | unread rated bearer none =>
          obtain ⟨bytes, hbytes, -⟩ := hparsed
          simp [none] at hbytes
      | malformed rated bearer read parse =>
          obtain ⟨bytes, hbytes, hbody⟩ := hparsed
          obtain rfl := Option.some.inj (read.symm.trans hbytes)
          simp [parse] at hbody
      | badSubject rated bearer parsed subject =>
          obtain rfl := Except.ok.inj (hbearer _ _ bearer (List.subset_append_left _ _))
          simp [hsubject] at subject
      | lookupFailed rated bearer parsed subject =>
          exact (hs.fails List.mem_cons_self rfl (by simp [Event.kind])).elim
      | @unknown rate token claims' body' id' rated bearer parsed subject =>
          have hsub : token ⊆ .findUserById id' (.ok none) :: (token ++ rate) := by
            intro e he
            simp [he]
          obtain rfl := Except.ok.inj (hbearer _ _ bearer hsub)
          obtain rfl := Option.some.inj (hsubject.symm.trans subject)
          simpa using hfound none List.mem_cons_self
      | @noSecret rate token claims' body' id' user' rated bearer parsed subject none =>
          have hsub : token ⊆ .findUserById id' (.ok (some user')) :: (token ++ rate) := by
            intro e he
            simp [he]
          obtain rfl := Except.ok.inj (hbearer _ _ bearer hsub)
          obtain rfl := Option.some.inj (hsubject.symm.trans subject)
          obtain rfl := Option.some.inj (hfound (some user') List.mem_cons_self)
          simp [none] at hsecret
      | @decided rate token verdict claims' body' id' user' secret' r rated bearer parsed subject stored
          decision =>
          obtain rfl := parsed.unique hparsed
          have hsub :
              token ⊆ verdict ++ Event.findUserById id' (.ok (some user')) :: (token ++ rate) := by
            intro e he
            simp [he]
          obtain rfl := Except.ok.inj (hbearer _ _ bearer hsub)
          obtain rfl := Option.some.inj (hsubject.symm.trans subject)
          obtain rfl := Option.some.inj (hfound (some user') (by simp))
          obtain rfl := Option.some.inj (hsecret.symm.trans stored)
          have hright {check : List Event} {valid : Bool}
              (hc : CodeRun X secret body'.mfaToken check valid) (hcheck : check ⊆ verdict) :
              valid = true :=
            hc.holds_iff.mp (hcode.of_codes fun e he _ => List.mem_append_left _ (hcheck he))
          cases decision with
          | refused checked => simpa using hright checked (List.Subset.refl _)
          | @noSession check session e checked fetched =>
              obtain ⟨s, hok, -⟩ := hfetch _ _ fetched (by simp [sessionEvents]) fun e he => by
                simp [sessionEvents, he]
              simp at hok
          | @upgraded check session update s r checked fetched written =>
              obtain ⟨s', hok, hp⟩ := hfetch _ _ fetched (by simp [sessionEvents]) fun e he => by
                simp [sessionEvents, he]
              obtain rfl := Except.ok.inj hok
              obtain rfl := written.succeeds (hs.of_subset fun e he => by simp [he])
              exact ⟨rfl, s, update,
                (session ++ [Event.getSessionCall claims'.sessionId] ++ check) ++
                Event.findUserById id (.ok (some user')) :: (token ++ rate), hp, written,
                by simp [sessionEvents]⟩

/-- A request that nothing denies, and whose session has been verified, passes
`authorize`. -/
theorem AuthorizeRun.passes {claims : Claims} {p : Session → Prop} {r : Except ProxyError Unit}
    (ha : AuthorizeRun X srv req h r) (hbearer : Validates req h claims)
    (hfetch : Fetches X claims.sessionId h p)
    (hp : ∀ s, p s → s.userId = claims.sub ∧ s.deviceId = claims.deviceId ∧ s.mfaVerified = true)
    (hpolicy : (srv.policyEngine.evaluate X.floats (policyContext req claims)).allowed = true)
    (hblock : 85 < srv.config.blockThreshold) : r = .ok () := by
  cases ha with
  | unauthenticated bearer => simpa using hbearer _ _ bearer (List.Subset.refl _)
  | noSession bearer fetched =>
      obtain rfl := Except.ok.inj (hbearer _ _ bearer (List.subset_append_right _ _))
      obtain ⟨s, hok, -⟩ := hfetch _ _ fetched (by simp [sessionEvents]) fun e he => by
        simp [sessionEvents, he]
      simp at hok
  | mismatch bearer fetched owner =>
      obtain rfl := Except.ok.inj (hbearer _ _ bearer (List.subset_append_right _ _))
      obtain ⟨s, hok, hs⟩ := hfetch _ _ fetched (by simp [sessionEvents]) fun e he => by
        simp [sessionEvents, he]
      obtain rfl := Except.ok.inj hok
      exact (owner (hp _ hs).1).elim
  | denied bearer fetched owner policy audited =>
      obtain rfl := Except.ok.inj (hbearer _ _ bearer fun e he => by simp [he])
      simp [hpolicy] at policy
  | scored bearer fetched owner policy score evaluated gated =>
      obtain rfl := Except.ok.inj (hbearer _ _ bearer fun e he => by simp [he])
      obtain ⟨s, hok, hs⟩ := hfetch _ _ fetched (by simp [sessionEvents]) fun e he => by
        simp [sessionEvents, he]
      obtain rfl := Except.ok.inj hok
      obtain ⟨-, hdevice, hverified⟩ := hp _ hs
      cases gated with
      | unverified required mfa => simp [hverified] at mfa
      | blocked mfa block audited => exact (score.not_blocked hdevice hblock block).elim
      | stepUp required stepUp mfa => simp [hverified] at mfa
      | passed => rfl

end ZeroTrustProxy
