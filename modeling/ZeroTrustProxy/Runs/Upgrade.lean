import ZeroTrustProxy.Runs.Window

/-!
The upgrade of a session by `mfa/verify`.

Every access of a session reads the whole record and writes the whole record
back. An access that has read the record before an upgrade and writes it back
after it undoes the upgrade, and nothing tells the request that has asked for
the upgrade. When no access does that, the upgrade stays.
-/

namespace ZeroTrustProxy

open Concurrent

variable {X : External} {srv : ProxyServer}
  {A : ProxyTrace X srv → Entry (proxySystem X srv) → Prop} {w : World} {tr : ProxyTrace X srv}
  {t₀ : ℕ} {q₀ : Request} {h₀ : List Event} {user : UserRow} {mfa : Bool} {x : Session}

/-- No command fails, no logout deletes the session, and more than a second is
left to its expiry. -/
def Undisturbed (x : Session) (tr : ProxyTrace X srv) (e : Entry (proxySystem X srv)) : Prop :=
  Kept x.id tr e ∧ e.pre.clock < x.expiresAt - Duration.second

/-- The step writes the session with the flag set. -/
def Entry.Upgrades (id : String) (e : Entry (proxySystem X srv)) : Prop :=
  ∃ y secs r, e.item = .act (.redisSetEx (sessionKey id) (.session y) secs r) ∧
    y.mfaVerified = true

/-- The step writes back a copy of the session without the flag, which its
request has read before the flag was set. -/
def StaleWrite (id : String) (tr : ProxyTrace X srv) (e : Entry (proxySystem X srv)) : Prop :=
  ∃ y secs r, e.item = .act (.redisSetEx (sessionKey id) (.session y) secs r) ∧
    y.mfaVerified = false ∧ ∃ seg w₀ v pre,
      tr = seg ++ ⟨e.tid, w₀, .act (.redisGet (sessionKey id) v)⟩ :: pre ∧
      ∃ z ∈ seg, Entry.Upgrades id z

/-- What an `mfa/verify` has done when it has answered. -/
theorem verify_answered (hrun : Run A w tr) {t : ℕ} {q : Request} {w₁ : World} {o : Response}
    (hdone : ⟨t, w₁, .done o⟩ ∈ tr) (hok : o.status = 200) (hq : Started t q tr)
    (hroute : q.route = .mfaVerify) :
    ∃ post pre claims y update l, tr = post ++ ⟨t, w₁, .done o⟩ :: pre ∧ Bearer q l claims ∧
      UpdateRun (upgrade y) update (.ok ()) ∧
      own t pre = update ++ .getSessionReturn claims.sessionId (.ok y) :: l := by
  obtain ⟨post, pre, w₂, rfl, hrun₁, -, hen⟩ := hrun.entry_of_mem hdone
  obtain ⟨-, q', hq', hanswer⟩ := hen.justified (proxy_contract X srv)
  obtain rfl := hrun.started_unique hq
    (hq'.mono fun y hy => List.mem_append_right _ (List.mem_cons_of_mem _ hy))
  have hverify := hanswer hok
  rw [hroute] at hverify
  obtain ⟨claims, y, update, l, hb, hupdate, hown⟩ := hverify
  exact ⟨post, pre, claims, y, update, l, rfl, hb, hupdate, hown⟩

/-- The write with which an `mfa/verify` has upgraded the session. -/
def UpgradedBy (id : String) (tr : ProxyTrace X srv) : Prop :=
  ∃ seg t w₀ y secs pre claims,
    tr = seg ++ ⟨t, w₀, .act (.redisSetEx (sessionKey id) (.session y) secs (.ok ()))⟩ :: pre ∧
      y.mfaVerified = true ∧ Issued pre claims ∧ claims.sessionId = id

/-- More than a second before its expiry, a record has a TTL. -/
theorem Session.ttl_pos {y : Session} {n : Int} (h : n < y.expiresAt - Duration.second) :
    0 < y.ttl n := by
  apply Duration.numSeconds_pos
  omega

/-- An `mfa/verify` that has answered has written the upgrade. -/
theorem verify_upgrades (hrun : Run (Undisturbed x) w tr) (hc : Creation tr t₀ q₀ h₀ user mfa x)
    {t : ℕ} {q : Request} {w₁ : World} {o : Response} {claims : Claims}
    (hdone : ⟨t, w₁, .done o⟩ ∈ tr) (hok : o.status = 200) (hq : Started t q tr)
    (hroute : q.route = .mfaVerify) (hb : Bearer q (own t tr) claims)
    (hid : claims.sessionId = x.id) : UpgradedBy x.id tr := by
  obtain ⟨post, pre, claims', y, update, l, rfl, hb', hupdate, hown⟩ :=
    verify_answered hrun hdone hok hq hroute
  have hpre : pre <:+ post ++ ⟨t, w₁, .done o⟩ :: pre :=
    (List.suffix_cons _ _).trans (List.suffix_append _ _)
  have hl : l <:+ own t pre := by
    rw [hown]
    exact (List.suffix_cons _ _).trans (List.suffix_append _ _)
  have hclaims : claims' = claims :=
    hb'.unique hrun (hl.trans (own_suffix hpre t)) hb List.suffix_rfl
  have hret : .getSessionReturn x.id (.ok y) ∈ own t pre := by
    rw [hown, hclaims, hid]
    simp
  have hrun₁ := hrun.entry.1
  obtain ⟨y₀, activity, rfl, hread⟩ := returned_read hrun₁ hret
  obtain ⟨hyid, horigin⟩ := read_origin hrun₁ hread
  have hexpires := Session.expiresAt_eq_of_fixed ((horigin.mono hpre).fixed_eq hrun hc hyid)
  cases hupdate with
  | @skipped n none =>
      exfalso
      obtain ⟨post', w₂, pre', rfl, -⟩ := own_last hown
      obtain ⟨-, hA, -, w₃, -, -, hact⟩ := event_entry hrun₁
      have hreading : World.act X t (.utcNow .sessionTtl n) w₂ = some w₃ := hact
      obtain ⟨-, rfl⟩ := World.clock_reply hreading
      have hearly : w₂.clock < (upgrade (y₀.updateActivity activity)).expiresAt - Duration.second :=
        hexpires ▸ hA.2
      exact absurd (Session.ttl_pos hearly) (by omega)
  | @written n left =>
      obtain ⟨post', w₂, pre', rfl, hown'⟩ := own_last hown
      obtain ⟨hrun₂, -⟩ := event_entry hrun₁
      have hl' : l <:+ own t pre' := by
        rw [hown']
        exact List.suffix_append [_, _] l
      have hissued : Issued pre' claims' := hb'.issued hrun₂ hl'
      have hkey : sessionKey (upgrade (y₀.updateActivity activity)).id = sessionKey x.id := by
        rw [← hyid]
        rfl
      rw [hkey]
      exact ⟨post ++ ⟨t, w₁, .done o⟩ :: post', t, w₂, upgrade (y₀.updateActivity activity),
        asU64 ((upgrade (y₀.updateActivity activity)).ttl n), pre', claims', by simp, rfl, hissued,
        hclaims ▸ hid⟩

/-- What is stored for the session says that it has been upgraded. -/
def StoresUpgraded (id : String) (w : World) (_ : ProxyTrace X srv) : Prop :=
  ∀ c, w.redis.lookup (sessionKey id) = some c → ∃ y, c.value = .session y ∧ y.mfaVerified = true

/-- A read that a thread has made three events ago lies before a step of the run
or after it. -/
theorem read_split {x₀ : Entry (proxySystem X srv)} {seg pre : ProxyTrace X srv} {t : ℕ}
    {n activity now : Int} {id : String} {x : Session} {h : List Event}
    (hx₀ : ∀ v, x₀.item ≠ .act (.redisGet (sessionKey id) v))
    (hown : own t (seg ++ x₀ :: pre) = .utcNow .sessionTtl n :: .utcNow .updateActivity activity ::
      .utcNow .isExpired now :: .redisGet (sessionKey id) (.ok (some (.session x))) :: h) :
    (∃ post w₂ mid, seg = post ++
        ⟨t, w₂, .act (.redisGet (sessionKey id) (.ok (some (.session x))))⟩ :: mid) ∨
      ∃ (mid : ProxyTrace X srv) (w₂ : World) (pre' : ProxyTrace X srv), pre = mid ++
        ⟨t, w₂, .act (.redisGet (sessionKey id) (.ok (some (.session x))))⟩ :: pre' ∧
        own t pre' = h := by
  have hown' : own t (seg ++ x₀ :: pre) = ([.utcNow .sessionTtl n, .utcNow .updateActivity activity,
      .utcNow .isExpired now] : List Event) ++
        .redisGet (sessionKey id) (.ok (some (.session x))) :: h := hown
  obtain ⟨post, w₂, pre', hsplit, -, hpre'⟩ := own_split hown'
  have hne : (⟨t, w₂, .act (.redisGet (sessionKey id) (.ok (some (.session x))))⟩ :
      Entry (proxySystem X srv)) ≠ x₀ := by
    rintro rfl
    exact hx₀ _ rfl
  rcases split_cases hsplit hne with ⟨mid, hseg, -⟩ | ⟨mid, -, hpre⟩
  · exact .inl ⟨post, w₂, mid, hseg⟩
  · exact .inr ⟨mid, w₂, pre', hpre, hpre'⟩

/-- From the write of a flagged record on, the record that is stored is flagged,
provided that a later write without the flag copies what has been read since. -/
theorem flag_since {id : String} {t : ℕ} {w₀ : World} {y : Session} {secs : ℕ}
    {seg pre : ProxyTrace X srv}
    (hcopies : ∀ {w w' : World} {seg : ProxyTrace X srv} {t' : ℕ} {q : Request} {y' : Session}
      {secs' : ℕ} {r : Except Fault Unit},
      Run A w (seg ++ ⟨t, w₀, .act (.redisSetEx (sessionKey id) (.session y) secs (.ok ()))⟩ :: pre) →
      Started t' q
        (seg ++ ⟨t, w₀, .act (.redisSetEx (sessionKey id) (.session y) secs (.ok ()))⟩ :: pre) →
      SessionWrite X srv q (own t'
        (seg ++ ⟨t, w₀, .act (.redisSetEx (sessionKey id) (.session y) secs (.ok ()))⟩ :: pre))
        y' secs' → y'.id = id →
      A (seg ++ ⟨t, w₀, .act (.redisSetEx (sessionKey id) (.session y) secs (.ok ()))⟩ :: pre)
        ⟨t', w, .act (.redisSetEx (sessionKey id) (.session y') secs' r)⟩ →
      World.act X t' (.redisSetEx (sessionKey id) (.session y') secs' r) w = some w' →
      y'.mfaVerified = true ∨ ∃ post w₂ mid x, seg = post ++
        ⟨t', w₂, .act (.redisGet (sessionKey id) (.ok (some (.session x))))⟩ :: mid ∧
        x.mfaVerified = y'.mfaVerified)
    (hrun : Run A w
      (seg ++ ⟨t, w₀, .act (.redisSetEx (sessionKey id) (.session y) secs (.ok ()))⟩ :: pre))
    (hy : y.mfaVerified = true) : StoresUpgraded id w seg := by
  refine (hrun.since (proxy_contract X srv) (StoresUpgraded id) ?_ ?_ ?_ ?_ ?_).1
  · intro w' _ _ hen c hc
    obtain ⟨_, -, -, hact⟩ := enabled_event hen
    obtain ⟨-, rfl⟩ := World.setEx_reply hact
    obtain rfl := Option.some.inj ((AList.lookup_insert w₀.redis).symm.trans hc)
    exact ⟨y, rfl, hy⟩
  · intro w w' seg m _ hJ henv c hc
    obtain ⟨-, rfl⟩ : w.clock ≤ m ∧ w.advance m = w' := by simpa using henv
    exact hJ c (ExpiringStore.lookup_advance_eq_some.mp hc).1
  · exact fun _ hJ _ => hJ
  · intro w w' seg t' q e hrun hJ hpast hq hL hact hstep c hc
    rcases sessionKey_step hL hact id with hsame | ⟨y', secs', r, rfl, hy', hwrite, -, hnew⟩ |
      ⟨r, rfl, -, rfl⟩
    · rw [hsame] at hc
      exact hJ c hc
    · obtain rfl := Option.some.inj (hnew.symm.trans hc)
      refine ⟨y', rfl, ?_⟩
      rcases hcopies hrun hq hwrite hy' hstep hact with hflag | ⟨post, w₂, mid, x, rfl, hsame⟩
      · exact hflag
      · rw [List.append_assoc, List.cons_append] at hrun
        obtain ⟨-, -, _, _, -, -, hget⟩ := event_entry hrun
        obtain ⟨-, hstored⟩ := World.read_reply hget
        obtain ⟨c', hc', hvalue⟩ := Option.map_eq_some_iff.mp hstored.symm
        obtain ⟨x', hx', hverified⟩ := hpast _ mid (List.suffix_append _ _) c' hc'
        obtain rfl : x = x' := RedisValue.session.inj (hvalue.symm.trans hx')
        rw [← hsame]
        exact hverified
    · simp [World.del] at hc
  · exact fun _ hJ _ _ _ => hJ

/-- **The upgrade stays.** When no stale copy is written back, the record of the
session says that it has been upgraded from the upgrade on. -/
theorem stores_upgraded {id : String} {t : ℕ} {w₀ : World} {y : Session} {secs : ℕ}
    {seg pre : ProxyTrace X srv} {claims : Claims} (hA : ∀ tr e, A tr e → ¬ StaleWrite id tr e)
    (hrun : Run A w
      (seg ++ ⟨t, w₀, .act (.redisSetEx (sessionKey id) (.session y) secs (.ok ()))⟩ :: pre))
    (hy : y.mfaVerified = true) (hissued : Issued pre claims) (hid : claims.sessionId = id) :
    StoresUpgraded id w seg := by
  refine flag_since ?_ hrun hy
  intro w w' seg t' q y' secs' r hrun hq hwrite hy' hstep _
  have hsuf : pre <:+ seg ++
      ⟨t, w₀, .act (.redisSetEx (sessionKey id) (.session y) secs (.ok ()))⟩ :: pre :=
    (List.suffix_cons _ _).trans (List.suffix_append _ _)
  have hback := hwrite.writeBack hrun hq (hissued.mono hsuf) (hid.trans hy'.symm)
  generalize hown : own t' _ = l at hback
  cases hback with
  | upgraded n passed => exact .inl rfl
  | @touched h x n activity now live =>
      have hxid : x.id = id := hy'
      rw [hxid] at hown
      rcases read_split (by simp) hown with ⟨post, w₂, mid, hseg⟩ | ⟨mid, w₂, pre', rfl, -⟩
      · exact .inr ⟨post, w₂, mid, x, hseg, rfl⟩
      · -- read before the upgrade: the write would be stale
        refine .inl ?_
        by_contra hflag
        exact hA _ _ hstep ⟨_, _, _, rfl, Bool.eq_false_iff.mpr hflag,
          seg ++ ⟨t, w₀, .act (.redisSetEx (sessionKey id) (.session y) secs (.ok ()))⟩ :: mid, w₂,
          .ok (some (.session x)), pre', by simp, _, List.mem_append_right _ List.mem_cons_self, y, secs, .ok (), rfl, hy⟩

/-- **An upgrade is not lost, as far as it goes.** When no request writes back a
copy of the session that it has read before an upgrade, every `get_session`
that starts after an `mfa/verify` has answered returns an upgraded session. -/
theorem upgrade_kept
    (hrun : Run (fun tr e => Undisturbed x tr e ∧ ¬ StaleWrite x.id tr e) w tr)
    (hc : Creation tr t₀ q₀ h₀ user mfa x) {t t' : ℕ} {q : Request} {w₁ : World} {o : Response}
    {claims : Claims} {s : Session} {mid pre : ProxyTrace X srv}
    (hdone : ⟨t, w₁, .done o⟩ ∈ pre) (hok : o.status = 200) (hq : Started t q pre)
    (hroute : q.route = .mfaVerify) (hb : Bearer q (own t pre) claims)
    (hid : claims.sessionId = x.id) (hcall : GetSession tr t' x.id (.ok s) mid pre) :
    s.mfaVerified = true := by
  obtain ⟨t₁, q₁, h₁, user', mfa', hc'⟩ := hcall.created hrun hc
  obtain ⟨y, now, activity, update, -, rfl, -, hbody⟩ := (hcall.fetch hrun).ok_inv
  have hread : .redisGet (sessionKey x.id) (.ok (some (.session y))) ∈ own t' mid := by
    rw [hbody]
    simp
  obtain ⟨w₂, _, before, -, ⟨seg, rfl⟩, -, hrun₂, -, hact⟩ := hcall.event hrun hread
  obtain ⟨-, w₃, -, -, hrun₃, -⟩ := hcall.call hrun
  obtain ⟨seg', t₂, w₄, y', secs, pre', claims', rfl, hy', hissued, hid'⟩ :=
    verify_upgrades (hrun₃.mono fun _ _ => And.left) hc' hdone hok hq hroute hb hid
  rw [← List.append_assoc] at hrun₂
  obtain ⟨-, hstored⟩ := World.read_reply hact
  obtain ⟨c, hlookup, hvalue⟩ := Option.map_eq_some_iff.mp hstored.symm
  obtain ⟨y'', hy'', hverified⟩ :=
    stores_upgraded (fun _ _ => And.right) hrun₂ hy' hissued hid' c hlookup
  obtain rfl : y = y'' := RedisValue.session.inj (hvalue.symm.trans hy'')
  exact hverified

theorem Entry.keepsUntil.undisturbed {n : Int} {e : Entry (proxySystem X srv)}
    (h : Entry.keepsUntil n tr e) (hn : n < x.expiresAt - Duration.second) : Undisturbed x tr e :=
  ⟨h.kept x.id, lt_of_le_of_lt h.2.2 hn⟩

/-- The step writes a session with this flag. -/
def Entry.writes (flag : Bool) (e : Entry (proxySystem X srv)) : Bool :=
  match e.item with
  | .act (.redisSetEx _ (.session y) _ _) => y.mfaVerified == flag
  | _ => false

/-- Nothing is disturbed, and after a write with the flag there is none
without it. -/
def Entry.upgradesLast (n : Int) (tr : ProxyTrace X srv) (e : Entry (proxySystem X srv)) : Prop :=
  Entry.keepsUntil n tr e ∧ (Entry.writes false e = true → tr.any (Entry.writes true) = false)

instance (n : Int) (tr : ProxyTrace X srv) (e : Entry (proxySystem X srv)) :
    Decidable (Entry.upgradesLast n tr e) :=
  inferInstanceAs (Decidable (_ ∧ _))

theorem Entry.upgradesLast.not_stale {n : Int} {e : Entry (proxySystem X srv)}
    (h : Entry.upgradesLast n tr e) (id : String) : ¬ StaleWrite id tr e := by
  obtain ⟨t, w₀, item⟩ := e
  rintro ⟨y, secs, r, rfl, hflag, seg, w₁, v, pre, rfl, ⟨t', w₂, item⟩, hz, y', secs', r', rfl, hy'⟩
  have hwrites := h.2 (by simp [Entry.writes, hflag])
  rw [List.any_eq_false] at hwrites
  refine hwrites _ (List.mem_append_left _ hz) ?_
  simp [Entry.writes, hy']

/-- A `get_session` has returned a session with this flag. -/
def flagged (flag : Bool) : Except ProxyError Session → Bool
  | .ok s => s.mfaVerified == flag
  | .error _ => false

theorem exists_flagged {flag : Bool} {r : Except ProxyError Session} (h : flagged flag r = true) :
    ∃ s, r = .ok s ∧ s.mfaVerified = flag := by
  cases r with
  | error e => simp [flagged] at h
  | ok s => exact ⟨s, rfl, by simpa [flagged] using h⟩

open Scenario in
/-- A login without a second factor, an enrolment and an `mfa/verify`, followed
by a proxied request. -/
theorem upgrade_kept_run : ∃ (w : World) (tr mid pre : ProxyTrace external server) (x s : Session),
    Run (fun tr e => Undisturbed x tr e ∧ ¬ StaleWrite x.id tr e) w tr ∧
      GetSession tr 3 x.id (.ok s) mid pre ∧ s.mfaVerified = true := by
  have hplay : playsThen (Entry.upgradesLast (Duration.seconds 59)) [alice]
      (.start 0 (login aliceLogin) :: steps 0 24 ++
        .start 1 (authorized "POST" "/auth/mfa/enroll" "token-0" "") :: steps 1 5 ++
        .start 2 (authorized "POST" "/auth/mfa/verify" "token-0" enrolledBody) :: steps 2 15)
      (fun p => serves 2 .mfaVerify "token-0" (scriptUuid 2).text p.trace && answered 2 p.trace &&
        p.trace.all fun e => decide (e.tid ≠ 3))
      (.start 3 (authorized "GET" "/data" "token-0" "") :: steps 3 8)
      (fun p _ => p.trace.any (Entry.returns 3 (scriptUuid 2).text Except.isOk) &&
        p.world.storesPast (scriptUuid 2).text (Duration.seconds 59)) = true := by decide +kernel
  obtain ⟨p, p', seg, -, hbefore, htr, hrun, hafter⟩ :=
    run_of_playsThen (world_initial (by simp) (by simp) (by simp)) hplay
  simp only [Bool.and_eq_true, List.all_eq_true, decide_eq_true_eq] at hbefore hafter
  obtain ⟨⟨hserves, hanswered⟩, hfresh⟩ := hbefore
  obtain ⟨hreturns, hpast⟩ := hafter
  obtain ⟨r, mid, pre, hcall, hr⟩ := exists_getSession hrun hreturns
  obtain ⟨s, rfl⟩ : ∃ s, r = .ok s := by
    cases r with
    | error e => simp [Except.isOk, Except.toBool] at hr
    | ok s => exact ⟨s, rfl⟩
  obtain ⟨hpre, t₀, q₀, h₀, user, mfa, x, hc, hid⟩ := hcall.creation hrun
  have hsub : p.trace <:+ pre := (htr ▸ hcall).after hfresh
  obtain ⟨q, claims, hq, hroute, hb, hclaims⟩ := exists_bearer hserves
  obtain ⟨w₁, o, hdone, hok⟩ := exists_answer hanswered
  rw [← hid] at hpast hcall hclaims
  have hrun' : Run (fun tr e => Undisturbed x tr e ∧ ¬ StaleWrite x.id tr e) p'.world p'.trace :=
    hrun.mono fun _ _ he => ⟨he.1.undisturbed (storesPast_expires hrun (hc.mono hpre) hpast),
      he.not_stale x.id⟩
  exact ⟨p'.world, p'.trace, mid, pre, x, s, hrun', hcall,
    upgrade_kept hrun' (hc.mono hpre) (hsub.subset hdone) hok (hq.mono hsub.subset) hroute
      (hb.mono (own_suffix hsub 2)) hclaims hcall⟩

open Scenario in
/-- A proxied request has read the session before the upgrade and writes it back
after the `mfa/verify` has answered; the next request finds it as it was before. -/
theorem upgrade_lost :
    ¬ ∀ (w : World) (tr : ProxyTrace external server) (t₀ : ℕ) (q₀ : Request) (h₀ : List Event)
      (user : UserRow) (mfa : Bool) (x : Session), Run (Undisturbed x) w tr →
      Creation tr t₀ q₀ h₀ user mfa x →
      ∀ (t t' : ℕ) (q : Request) (w₁ : World) (o : Response) (claims : Claims) (s : Session)
        (mid pre : ProxyTrace external server), ⟨t, w₁, .done o⟩ ∈ pre → o.status = 200 →
        Started t q pre → q.route = .mfaVerify → Bearer q (own t pre) claims →
        claims.sessionId = x.id → GetSession tr t' x.id (.ok s) mid pre → s.mfaVerified = true := by
  intro hclaim
  have hplay : playsThen (Entry.keepsUntil (Duration.seconds 59)) [alice]
      (.start 0 (login aliceLogin) :: steps 0 24 ++
        .start 1 (authorized "POST" "/auth/mfa/enroll" "token-0" "") :: steps 1 5 ++
        .start 2 (authorized "GET" "/data" "token-0" "") :: steps 2 6 ++
        .start 3 (authorized "POST" "/auth/mfa/verify" "token-0" enrolledBody) :: steps 3 15)
      (fun p => serves 3 .mfaVerify "token-0" (scriptUuid 2).text p.trace && answered 3 p.trace &&
        p.trace.all fun e => decide (e.tid ≠ 4))
      (steps 2 1 ++ .start 4 (authorized "GET" "/data" "token-0" "") :: steps 4 8)
      (fun p _ => p.trace.any (Entry.returns 4 (scriptUuid 2).text (flagged false)) &&
        p.world.storesPast (scriptUuid 2).text (Duration.seconds 59)) = true := by decide +kernel
  obtain ⟨p, p', seg, -, hbefore, htr, hrun, hafter⟩ :=
    run_of_playsThen (world_initial (by simp) (by simp) (by simp)) hplay
  simp only [Bool.and_eq_true, List.all_eq_true, decide_eq_true_eq] at hbefore hafter
  obtain ⟨⟨hserves, hanswered⟩, hfresh⟩ := hbefore
  obtain ⟨hreturns, hpast⟩ := hafter
  obtain ⟨r, mid, pre, hcall, hflag⟩ := exists_getSession hrun hreturns
  obtain ⟨s, rfl, hs⟩ := exists_flagged hflag
  obtain ⟨hpre, t₀, q₀, h₀, user, mfa, x, hc, hid⟩ := hcall.creation hrun
  have hsub : p.trace <:+ pre := (htr ▸ hcall).after hfresh
  obtain ⟨q, claims, hq, hroute, hb, hclaims⟩ := exists_bearer hserves
  obtain ⟨w₁, o, hdone, hok⟩ := exists_answer hanswered
  rw [← hid] at hpast hcall hclaims
  have hrun' : Run (Undisturbed x) p'.world p'.trace := hrun.mono fun _ _ he =>
    he.undisturbed (storesPast_expires hrun (hc.mono hpre) hpast)
  have hkept := hclaim _ _ t₀ q₀ h₀ user mfa x hrun' (hc.mono hpre) 3 4 q w₁ o claims s mid pre
    (hsub.subset hdone) hok (hq.mono hsub.subset) hroute (hb.mono (own_suffix hsub 3)) hclaims hcall
  rw [hs] at hkept
  exact Bool.false_ne_true hkept

end ZeroTrustProxy
