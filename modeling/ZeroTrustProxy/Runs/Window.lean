import ZeroTrustProxy.Runs.Accesses

/-!
How long a session lasts.

Every access writes the record back with the whole seconds it has left, so the
deadline of its key moves with every write. It never moves below the expiry of
the record by a second or more: a TTL is computed from a reading of the clock
that is not ahead of the write, and rounds down by less than a second. A
session that nobody logs out is therefore there until a second before its
expiry, and the expiry check refuses it from its expiry on.
-/

namespace ZeroTrustProxy

open Concurrent

variable {X : External} {srv : ProxyServer}
  {A : ProxyTrace X srv → Entry (proxySystem X srv) → Prop} {w : World} {tr : ProxyTrace X srv}

/-! ### What is written -/

/-- The record of a creation. -/
theorem Creation.times (h : Run A w tr) {t : ℕ} {q : Request} {h₀ : List Event} {user : UserRow}
    {mfa : Bool} {x : Session} (hc : Creation tr t q h₀ user mfa x) :
    x.createdAt ≤ w.clock ∧
      x.expiresAt = x.createdAt + Duration.minutes srv.config.sessionDurationMinutes := by
  cases hb : hc.built with
  | intro created uuid deviceId userAgent login bounds =>
      have hnew : .utcNow .sessionNew created ∈ own t tr := hc.history.subset (by simp)
      exact ⟨reading_le h hnew, rfl⟩

/-- A stored record was created, and expires as long after its creation as
the configuration says. -/
theorem Origin.times (h : Run A w tr) {y : Session} (ho : Origin tr y) :
    y.createdAt ≤ w.clock ∧
      y.expiresAt = y.createdAt + Duration.minutes srv.config.sessionDurationMinutes := by
  obtain ⟨t, q, h₀, user, mfa, x, hc, hx⟩ := ho.creation
  have hcreated : x.createdAt = y.createdAt := show x.fixed.createdAt = y.fixed.createdAt by rw [hx]
  rw [← hcreated, ← Session.expiresAt_eq_of_fixed hx]
  exact hc.times h

/-- The reading of the clock that a thread has just taken. -/
theorem last_reading (h : Run A w tr) {t : ℕ} {use : ClockUse} {n : Int} {l : List Event}
    (hown : own t tr = .utcNow use n :: l) :
    n ≤ w.clock ∧ ∃ w₀ pre, Run A w₀ pre ∧ own t pre = l ∧ n = w₀.clock := by
  refine ⟨reading_le h (hown ▸ List.mem_cons_self), ?_⟩
  have hlast : .utcNow use n :: l <:+ own t tr := by
    rw [hown]
  obtain ⟨post, pre, w₀, w₁, q, -, hpre, hrun, -, -, hact⟩ := history_event h hlast
  exact ⟨w₀, pre, hrun, hpre, (World.clock_reply hact).2⟩

/-- The expiry of every write is the TTL of its record at some time since the
creation of the session. -/
theorem SessionWrite.ttl (hrun : Run A w tr) {t : ℕ} {q : Request} {y : Session} {secs : ℕ}
    (h : SessionWrite X srv q (own t tr) y secs) :
    ∃ n, y.createdAt ≤ n ∧ n ≤ w.clock ∧ secs = asU64 (y.ttl n) ∧
      (0 < srv.config.sessionDurationMinutes → 0 < y.ttl n) := by
  generalize hown : own t tr = l at h
  cases h with
  | created built =>
      obtain ⟨_, created, _, rfl, -, hcreated, hexpires⟩ := built.drawn
      have hnew : .utcNow .sessionNew created ∈ own t tr := by
        rw [hown]
        simp
      have httl : y.ttl created = srv.config.sessionDurationMinutes * 60 := by
        simp [Session.ttl, hexpires, Duration.minutes]
      refine ⟨created, hcreated.le, reading_le hrun hnew, ?_, fun h => ?_⟩
      · rw [httl]
      · omega
  | stamped n risk built left =>
      obtain ⟨hle, w₀, pre, hrun₀, hpre, rfl⟩ := last_reading hrun hown
      obtain ⟨_, created, _, rfl, -, hcreated, -⟩ := built.drawn
      have hnew : .utcNow .sessionNew created ∈ own t pre := by
        rw [hpre]
        simp
      exact ⟨w₀.clock, hcreated.le.trans (reading_le hrun₀ hnew), hle, rfl, fun _ => left⟩
  | @touched _ claims x n activity now bearer live left =>
      obtain ⟨hle, w₀, pre, hrun₀, hpre, rfl⟩ := last_reading hrun hown
      have hread : .redisGet (sessionKey claims.sessionId) (.ok (some (.session x))) ∈ own t pre := by
        rw [hpre]
        simp
      exact ⟨w₀.clock, ((read_origin hrun₀ hread).2.times hrun₀).1, hle, rfl, fun _ => left⟩
  | @upgraded _ claims user x n passed left =>
      obtain ⟨hle, w₀, pre, hrun₀, hpre, rfl⟩ := last_reading hrun hown
      obtain ⟨x₀, activity, rfl, hread⟩ := returned_read hrun₀ (hpre ▸ List.mem_cons_self)
      exact ⟨w₀.clock, ((read_origin hrun₀ hread).2.times hrun₀).1, hle, rfl, fun _ => left⟩

/-! ### The deadline of a key -/

/-- Taken as an unsigned number of seconds, the TTL of a session of at most a
year falls short of the time left by less than a second. -/
theorem Session.ttl_bounds {x : Session} {n minutes : Int} (hminutes : minutes ≤ 525600)
    (hexpires : x.expiresAt = x.createdAt + Duration.minutes minutes) (hn : x.createdAt ≤ n)
    (hleft : 0 < x.ttl n) :
    x.expiresAt - Duration.second < n + Duration.seconds (asU64 (x.ttl n)) ∧
      asU64 (x.ttl n) ≤ 31536000 ∧ 0 < asU64 (x.ttl n) := by
  obtain ⟨hlow, hhigh⟩ := Duration.numSeconds_pos_bounds hleft
  have hminutes' : Duration.minutes minutes ≤ Duration.seconds 31536000 := by
    simp only [Duration.minutes, Duration.seconds, Duration.second]
    omega
  have hsmall : x.ttl n ≤ 31536000 := by
    have hle : Duration.seconds (x.ttl n) ≤ Duration.seconds 31536000 := by
      simp only [Session.ttl]
      omega
    simp only [Duration.seconds, Duration.second] at hle
    omega
  have hasU64 : (asU64 (x.ttl n) : Int) = x.ttl n := by
    simp only [asU64]
    omega
  rw [hasU64]
  simp only [Session.ttl] at hleft hsmall hhigh hasU64 ⊢
  omega

/-- No command fails, and no logout deletes the session. -/
def Kept (id : String) (tr : ProxyTrace X srv) (x : Entry (proxySystem X srv)) : Prop :=
  Entry.succeeds x = true ∧ ∀ r q, x.item = .act (.redisDel (sessionKey id) r) →
    Started x.tid q tr → q.route ≠ .logout ∧ q.route ≠ .logoutAll

/-- The creation of a session, in a run without failures. -/
theorem Creation.entry (hA : ∀ tr x, A tr x → Entry.succeeds x = true) (h : Run A w tr) {t : ℕ}
    {q : Request} {h₀ : List Event} {user : UserRow} {mfa : Bool} {x : Session}
    (hc : Creation tr t q h₀ user mfa x) :
    ∃ seg w₀ pre, tr = seg ++ ⟨t, w₀, .act (createEvent srv x (.ok ()))⟩ :: pre ∧
      own t pre = h₀ := by
  obtain ⟨r, l, hl⟩ := hc.performed
  obtain ⟨seg, w₀, pre, rfl, -, hpre⟩ := own_split hl.symm
  cases r with
  | ok u => exact ⟨seg, w₀, pre, rfl, hpre⟩
  | error f =>
      have hfail := hA _ _ h.entry.2.1
      simp [Entry.succeeds, createEvent, Event.failed] at hfail

variable {t₀ : ℕ} {q₀ : Request} {h₀ : List Event} {user : UserRow} {mfa : Bool} {x : Session}

theorem SessionWrite.expires (hrun : Run A w tr) {t : ℕ} {q : Request} {y : Session} {secs : ℕ}
    (hq : Started t q tr) (hw : SessionWrite X srv q (own t tr) y secs) :
    y.expiresAt = y.createdAt + Duration.minutes srv.config.sessionDurationMinutes := by
  rcases hw.built_or_origin hrun (stored_origin_past hrun).2 hq with ⟨_, _, built, -⟩ | horigin
  · obtain ⟨_, created, _, -, -, hcreated, hexpires⟩ := built.drawn
    rw [hcreated, hexpires]
  · exact (horigin.times hrun).2

/-- A write of a record sets a deadline less than a second before its expiry,
or later, and Redis takes it. -/
theorem SessionWrite.deadline (hmin : 1 ≤ srv.config.sessionDurationMinutes)
    (hmax : srv.config.sessionDurationMinutes ≤ 525600) (hrun : Run A w tr) {t : ℕ} {q : Request}
    {y : Session} {secs : ℕ} (hq : Started t q tr) (hw : SessionWrite X srv q (own t tr) y secs) :
    y.expiresAt - Duration.second < w.clock + Duration.seconds secs ∧
      World.expiryAccepted secs = true := by
  obtain ⟨n, hcreated, hn, rfl, hleft⟩ := hw.ttl hrun
  obtain ⟨hlow, hhigh, hpos⟩ :=
    Session.ttl_bounds hmax (hw.expires hrun hq) hcreated (hleft (by omega))
  refine ⟨by omega, ?_⟩
  simp only [World.expiryAccepted, Bool.and_eq_true, decide_eq_true_eq]
  omega

/-- The step is not a logout that deletes the session. -/
def Unrevoked (id : String) (tr : ProxyTrace X srv) (e : Entry (proxySystem X srv)) : Prop :=
  ∀ r q, e.item = .act (.redisDel (sessionKey id) r) → Started e.tid q tr →
    q.route ≠ .logout ∧ q.route ≠ .logoutAll

/-- The run has been split at the first write of the session `x`, which has been
executed. -/
theorem Creation.first {seg pre : ProxyTrace X srv} {w₀ : World}
    (hrun : Run A w (seg ++ ⟨t₀, w₀, .act (createEvent srv x (.ok ()))⟩ :: pre))
    (hc : Creation (seg ++ ⟨t₀, w₀, .act (createEvent srv x (.ok ()))⟩ :: pre) t₀ q₀ h₀ user mfa x)
    (hown : own t₀ pre = h₀) :
    Started t₀ q₀ pre ∧
      Creation (⟨t₀, w₀, .act (createEvent srv x (.ok ()))⟩ :: pre) t₀ q₀ h₀ user mfa x := by
  have hstart : Started t₀ q₀ pre := by
    obtain ⟨-, -, q, -, hq, -⟩ := event_entry hrun
    have hsame := hrun.started_unique hc.started
      (hq.mono fun y hy => List.mem_append_right _ (List.mem_cons_of_mem _ hy))
    exact hsame ▸ hq
  refine ⟨hstart, hstart.mono (List.subset_cons_self _ _), hc.built, .ok (), ?_⟩
  rw [own_act_self, hown]

/-- **The key lives.** Up to a second before its expiry, a session that has been
created and not logged out is stored, under a deadline that lies beyond. -/
theorem session_lives (hmin : 1 ≤ srv.config.sessionDurationMinutes)
    (hmax : srv.config.sessionDurationMinutes ≤ 525600) {seg pre : ProxyTrace X srv} {w₀ : World}
    (hrun : Run A w (seg ++ ⟨t₀, w₀, .act (createEvent srv x (.ok ()))⟩ :: pre))
    (hc : Creation (seg ++ ⟨t₀, w₀, .act (createEvent srv x (.ok ()))⟩ :: pre) t₀ q₀ h₀ user mfa x)
    (hown : own t₀ pre = h₀)
    (hkept : ∀ seg e, A (seg ++ ⟨t₀, w₀, .act (createEvent srv x (.ok ()))⟩ :: pre) e →
      Unrevoked x.id (seg ++ ⟨t₀, w₀, .act (createEvent srv x (.ok ()))⟩ :: pre) e)
    (hclock : w.clock ≤ x.expiresAt - Duration.second) :
    ∃ y d, w.redis.lookup (sessionKey x.id) = some ⟨.session y, some d⟩ ∧
      x.expiresAt - Duration.second < d := by
  obtain ⟨hstart, hc₀⟩ := hc.first hrun hown
  refine (hrun.since (proxy_contract X srv) (fun w seg => w.clock ≤ x.expiresAt - Duration.second →
    ∃ y d, w.redis.lookup (sessionKey x.id) = some ⟨.session y, some d⟩ ∧
      x.expiresAt - Duration.second < d) ?_ ?_ ?_ ?_ ?_).1 hclock
  · intro w' hpre _ hen _
    obtain ⟨_, -, -, hact⟩ := enabled_event hen
    obtain ⟨-, rfl⟩ := World.setEx_reply hact
    have hwrite : SessionWrite X srv q₀ (own t₀ pre) x
        (asU64 (srv.config.sessionDurationMinutes * 60)) := by
      rw [hown]
      exact .created hc.built
    exact ⟨x, _, AList.lookup_insert _, (hwrite.deadline hmin hmax hpre hstart).1⟩
  · intro w w' seg m _ hJ henv hclock
    obtain ⟨hle, rfl⟩ : w.clock ≤ m ∧ w.advance m = w' := by simpa using henv
    have hm : x.expiresAt - Duration.second ≥ m := hclock
    obtain ⟨y, d, hlookup, hd⟩ := hJ (hle.trans hm)
    refine ⟨y, d, ExpiringStore.lookup_advance_eq_some.mpr ⟨hlookup, ?_⟩, hd⟩
    simp only [Cell.alive, decide_eq_true_eq]
    omega
  · exact fun _ hJ _ => hJ
  · intro w w' seg t q e hrun hJ _ hq hL hact hA hclock
    have hcseg := hc₀.mono (List.suffix_append seg _)
    rw [World.act_clock hact] at hclock
    rcases sessionKey_step hL hact x.id with hsame | ⟨y, secs, r, -, hid, hwrite, -, hnew⟩ |
      ⟨r, rfl, hdelete, rfl⟩
    · rw [hsame]
      exact hJ hclock
    · have hsame := Session.expiresAt_eq_of_fixed (hwrite.fixed_eq hrun hq hcseg hid)
      refine ⟨y, _, hnew, ?_⟩
      rw [← hsame]
      exact (hwrite.deadline hmin hmax hrun hq).1
    · rcases hdelete.cases_id with ⟨y, now, l, hover, hown⟩ | ⟨hroute, -⟩ | ⟨hroute, -⟩
      · -- only an expired session is deleted by `get_session`
        obtain ⟨hnow, -⟩ := last_reading hrun hown
        have hread : .redisGet (sessionKey x.id) (.ok (some (.session y))) ∈
            own t (seg ++ ⟨t₀, w₀, .act (createEvent srv x (.ok ()))⟩ :: pre) := by
          rw [hown]
          simp
        obtain ⟨hid, horigin⟩ := read_origin hrun hread
        have hsame := Session.expiresAt_eq_of_fixed (horigin.fixed_eq hrun hcseg hid)
        have hafter : y.expiresAt < now := by simpa [Session.isExpired] using hover
        have hsecond := Duration.second_pos
        omega
      · exact ((hkept seg _ hA r q rfl hq).1 hroute).elim
      · exact ((hkept seg _ hA r q rfl hq).2 hroute).elim
  · exact fun _ hJ _ _ _ => hJ

/-- In a run in which nothing fails and nobody logs out, that goes for every
session. -/
theorem Kept.session_lives (hmin : 1 ≤ srv.config.sessionDurationMinutes)
    (hmax : srv.config.sessionDurationMinutes ≤ 525600) (hrun : Run (Kept x.id) w tr)
    (hc : Creation tr t₀ q₀ h₀ user mfa x) (hclock : w.clock ≤ x.expiresAt - Duration.second) :
    ∃ y d, w.redis.lookup (sessionKey x.id) = some ⟨.session y, some d⟩ ∧
      x.expiresAt - Duration.second < d := by
  obtain ⟨seg, w₀, pre, rfl, hown⟩ := hc.entry (fun _ _ => And.left) hrun
  exact ZeroTrustProxy.session_lives hmin hmax hrun hc hown (fun _ _ => And.right) hclock

/-! ### The window -/

/-- An early `get_session` returns the session. -/
theorem GetSession.succeeds (hmin : 1 ≤ srv.config.sessionDurationMinutes)
    (hmax : srv.config.sessionDurationMinutes ≤ 525600) (hrun : Run (Kept x.id) w tr)
    (hc : Creation tr t₀ q₀ h₀ user mfa x) {t : ℕ} {r : Except ProxyError Session}
    {mid pre : ProxyTrace X srv} (hcall : GetSession tr t x.id r mid pre)
    (hearly : ∀ w₁ e, ⟨t, w₁, .act e⟩ ∈ mid →
      ((∃ key v, e = .redisGet key v) ∨ ∃ now, e = .utcNow .isExpired now) →
      w₁.clock ≤ x.expiresAt - Duration.second) : ∃ s, r = .ok s := by
  have hfails {e : Event} (he : e ∈ own t mid) (hfailed : e.failed = true) : False := by
    obtain ⟨w₁, w₂, before, -, -, -, -, hA, -⟩ := hcall.event hrun he
    have hok := hA.1
    simp [Entry.succeeds, hfailed] at hok
  -- what the `GET` finds
  have hget {v : Option RedisValue} (he : .redisGet (sessionKey x.id) (.ok v) ∈ own t mid) :
      ∃ y, v = some (.session y) := by
    obtain ⟨w₁, w₂, before, hmem, hpre, hbefore, hrun₁, -, hact⟩ := hcall.event hrun he
    obtain ⟨t₁, q₁, h₁, user', mfa', hc'⟩ := hcall.created hrun hc
    obtain ⟨y, d, hlookup, -⟩ := Kept.session_lives hmin hmax hrun₁ (hc'.mono hpre)
      (hearly w₁ _ hmem (.inl ⟨_, _, rfl⟩))
    obtain ⟨-, rfl⟩ := World.read_reply hact
    exact ⟨y, by simp [World.read, hlookup]⟩
  have hfetch := hcall.fetch hrun
  generalize hbody : own t mid = body at hfetch
  cases hfetch with
  | failed => exact (hfails (by rw [hbody]; exact List.mem_cons_self) rfl).elim
  | missing =>
      obtain ⟨y, hy⟩ := hget (v := none) (by simp [hbody])
      simp at hy
  | @unparsed data e parse =>
      obtain ⟨y, hy⟩ := hget (v := some data) (by simp [hbody])
      obtain rfl := Option.some.inj hy
      simp [RedisValue.parseSession] at parse
  | @expired y now _ expiry =>
      exfalso
      have hread : .redisGet (sessionKey x.id) (.ok (some (.session y))) ∈ own t mid := by
        simp [hbody]
      have hsame := Session.expiresAt_eq_of_fixed (hcall.read_fixed hrun hc hread)
      obtain ⟨w₁, w₂, before, hmem, -, -, -, -, hact⟩ :=
        hcall.event hrun (e := .utcNow .isExpired now) (by simp [hbody])
      obtain ⟨-, rfl⟩ := World.clock_reply hact
      have hle := hearly w₁ _ hmem (.inr ⟨_, rfl⟩)
      have hsecond := Duration.second_pos
      simp only [Session.isExpired, decide_eq_true_eq] at expiry
      omega
  | @live y now activity update r _ hupdate =>
      cases hupdate with
      | skipped => exact ⟨_, rfl⟩
      | written => exact ⟨_, rfl⟩
      | @failed n f =>
          refine (hfails (e := .redisSetEx (sessionKey y.id) (.session (y.updateActivity activity))
            (asU64 ((y.updateActivity activity).ttl n)) (.error f)) ?_ rfl).elim
          rw [hbody]
          exact List.mem_cons_self

/-- A late `get_session` does not. -/
theorem GetSession.refuses (hrun : Run A w tr) (hc : Creation tr t₀ q₀ h₀ user mfa x) {t : ℕ}
    {s : Session} {mid pre : ProxyTrace X srv} (hcall : GetSession tr t x.id (.ok s) mid pre)
    {w₁ : World} {now : Int} (hcheck : ⟨t, w₁, .act (.utcNow .isExpired now)⟩ ∈ mid) :
    w₁.clock ≤ x.expiresAt := by
  obtain ⟨y, now', activity, update, hlive, rfl, hupdate, hbody⟩ := (hcall.fetch hrun).ok_inv
  have hread : .redisGet (sessionKey x.id) (.ok (some (.session y))) ∈ own t mid := by
    simp [hbody]
  have hsame := Session.expiresAt_eq_of_fixed (hcall.read_fixed hrun hc hread)
  obtain rfl : now = now' := by
    have hmem : .utcNow .isExpired now ∈ own t mid := mem_own.mpr ⟨w₁, hcheck⟩
    rw [hbody] at hmem
    cases hupdate <;> simpa using hmem
  have hnow : now = w₁.clock := by
    obtain ⟨_, _, _, -, -, -, hen⟩ := hrun.entry_of_mem (hcall.subset hcheck)
    obtain ⟨_, -, -, hact⟩ := enabled_event hen
    exact (World.clock_reply hact).2
  simp only [Session.isExpired, decide_eq_false_iff_not] at hlive
  omega

/-- **The session window.** Without failing commands and without a logout, a
`get_session` that reads and checks up to a second before the expiry of its
session returns the session, one that checks after the expiry does not, and
what is returned has the fields the session was created with. Redis takes the
expiry of every write-back. -/
theorem session_window (hmin : 1 ≤ srv.config.sessionDurationMinutes)
    (hmax : srv.config.sessionDurationMinutes ≤ 525600) (hrun : Run (Kept x.id) w tr)
    (hc : Creation tr t₀ q₀ h₀ user mfa x) :
    x.expiresAt = x.createdAt + Duration.minutes srv.config.sessionDurationMinutes ∧
    (∀ {t : ℕ} {r : Except ProxyError Session} {mid pre : ProxyTrace X srv},
      GetSession tr t x.id r mid pre →
      ((∀ w₁ e, ⟨t, w₁, .act e⟩ ∈ mid →
          ((∃ key v, e = .redisGet key v) ∨ ∃ now, e = .utcNow .isExpired now) →
          w₁.clock ≤ x.expiresAt - Duration.second) → ∃ s, r = .ok s) ∧
      (∀ w₁ now, ⟨t, w₁, .act (.utcNow .isExpired now)⟩ ∈ mid → x.expiresAt < w₁.clock →
        ∃ e, r = .error e) ∧
      ∀ s, r = .ok s → s.id = x.id ∧ s.userId = x.userId ∧ s.deviceId = x.deviceId ∧
        s.createdAt = x.createdAt ∧ s.expiresAt = x.expiresAt ∧ s.ipAddress = x.ipAddress ∧
        s.userAgent = x.userAgent) ∧
    ∀ {t : ℕ} {q : Request} {y : Session} {secs : ℕ} {next}, Started t q tr →
      (handleRequest X srv q).Path (own t tr)
        (.call (.redisSetEx (sessionKey y.id) (.session y) secs) next) →
      World.expiryAccepted secs = true := by
  refine ⟨(hc.times hrun).2, fun {t r mid pre} hcall => ?_, fun {t q y secs next} hq hpath => ?_⟩
  · refine ⟨hcall.succeeds hmin hmax hrun hc, ?_, ?_⟩
    · intro w₁ now hcheck hlate
      cases r with
      | error e => exact ⟨e, rfl⟩
      | ok s =>
          have hle := hcall.refuses hrun hc hcheck
          omega
    · rintro s rfl
      obtain ⟨y, now, activity, update, -, rfl, -, hbody⟩ := (hcall.fetch hrun).ok_inv
      have hfixed : y.fixed = x.fixed := hcall.read_fixed hrun hc (by simp [hbody])
      have hfield {β : Type} (f : Session → β) : f y.fixed = f x.fixed := by rw [hfixed]
      exact ⟨hfield Session.id, hfield Session.userId, hfield Session.deviceId,
        hfield Session.createdAt, hfield Session.expiresAt, hfield Session.ipAddress,
        hfield Session.userAgent⟩
  · obtain ⟨y', -, hvalue, hwrite⟩ := (hpath.obeys (proxy_contract X srv q)).1
    obtain rfl := RedisValue.session.inj hvalue
    exact (hwrite.deadline hmin hmax hrun hq).2

/-- No command fails, nothing is deleted, and it is not later than `n`. -/
def Entry.keepsUntil (n : Int) (_ : ProxyTrace X srv) (x : Entry (proxySystem X srv)) : Prop :=
  Entry.succeeds x = true ∧ (∀ key r, x.item ≠ .act (.redisDel key r)) ∧ x.pre.clock ≤ n

instance (n : Int) (tr : ProxyTrace X srv) (x : Entry (proxySystem X srv)) :
    Decidable (Entry.keepsUntil n tr x) :=
  decidable_of_iff ((Entry.succeeds x && (match x.item with
    | .act (.redisDel _ _) => false
    | _ => true) && decide (x.pre.clock ≤ n)) = true) (by
    obtain ⟨t, w, item⟩ := x
    simp only [Entry.keepsUntil, Bool.and_eq_true, decide_eq_true_eq, and_assoc]
    refine and_congr_right fun _ => and_congr_left fun _ => ?_
    split <;> simp_all)

theorem Entry.keepsUntil.kept {n : Int} {e : Entry (proxySystem X srv)}
    (h : Entry.keepsUntil n tr e) (id : String) : Kept id tr e :=
  ⟨h.1, fun r _ hdel => (h.2.1 _ r hdel).elim⟩

open Scenario in
/-- A proxied request reads the session of a login. -/
theorem session_window_run : ∃ (w : World) (tr : ProxyTrace external server) (t₀ t : ℕ)
    (q₀ : Request) (h₀ : List Event) (user : UserRow) (mfa : Bool) (x s : Session)
    (mid pre : ProxyTrace external server), Run (Kept x.id) w tr ∧
      Creation tr t₀ q₀ h₀ user mfa x ∧ GetSession tr t x.id (.ok s) mid pre ∧
      s.createdAt = x.createdAt ∧ s.expiresAt = x.expiresAt := by
  have hplay : plays (Entry.keepsUntil (Duration.seconds 59)) [alice]
      (.start 0 (login aliceLogin) :: steps 0 24 ++
        .start 1 (authorized "GET" "/data" "token-0" "") :: steps 1 10)
      (fun p => p.trace.any (Entry.returns 1 (scriptUuid 2).text fun _ => true) &&
        p.world.storesPast (scriptUuid 2).text (Duration.seconds 59)) = true := by decide +kernel
  obtain ⟨p, hrun, hcheck⟩ := run_of_plays (world_initial (by simp) (by simp) (by simp)) hplay
  obtain ⟨hreturns, hpast⟩ := Bool.and_eq_true_iff.mp hcheck
  obtain ⟨r, mid, pre, hcall, -⟩ := exists_getSession hrun hreturns
  obtain ⟨hpre, t₀, q₀, h₀, user, mfa, x, hc, hid⟩ := hcall.creation hrun
  rw [← hid] at hcall hpast
  have hkept : Run (Kept x.id) p.world p.trace := hrun.mono fun _ _ hx => hx.kept x.id
  obtain ⟨-, hwindow, -⟩ := session_window (by decide) (by decide) hkept (hc.mono hpre)
  obtain ⟨hsucceeds, -, hfields⟩ := hwindow hcall
  obtain ⟨s, rfl⟩ := hsucceeds fun w₁ e hmem _ => by
    obtain ⟨_, _, _, -, -, hA, -⟩ := hrun.entry_of_mem (hcall.subset hmem)
    exact hA.2.2.trans (storesPast_expires hrun (hc.mono hpre) hpast).le
  obtain ⟨-, -, -, hcreated, hexpires, -⟩ := hfields s rfl
  exact ⟨p.world, p.trace, t₀, 1, q₀, h₀, user, mfa, x, s, mid, pre, hkept, hc.mono hpre, hcall,
    hcreated, hexpires⟩

end ZeroTrustProxy
