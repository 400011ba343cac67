import ZeroTrustProxy.Contract.Exits
import ZeroTrustProxy.Runs.Upgrade

/-!
A token and the record of its session.

A login writes the record twice and signs the token after the second write.
Whatever is stored under the session id of a token from then on is a copy of
what that login has written, touched or upgraded, since only a request with
the token can read the record and write it back. So the record names the
subject and the device of the token, and the checks that compare the two
never fail.
-/

namespace ZeroTrustProxy

open Concurrent Program

variable {X : External} {srv : ProxyServer}
  {A : ProxyTrace X srv → Entry (proxySystem X srv) → Prop} {w : World} {tr : ProxyTrace X srv}

/-! ### Subject and device -/

/-- The claims of a token are those of the session its login has created. -/
theorem Issued.session {claims : Claims} (h : Issued tr claims) :
    ∃ t q h₀ user mfa x, Creation tr t q h₀ user mfa x ∧ x.id = claims.sessionId ∧
      x.userId = claims.sub ∧ x.deviceId = claims.deviceId := by
  obtain ⟨t, q, h, h₀, update, user, mfa, x, hq, hh, hissue⟩ := h
  obtain ⟨risk, -, hsuffix, -⟩ := hissue.created
  refine ⟨t, q, h₀, user, mfa, x, ⟨hq, hissue.built, .ok (), ?_⟩, hissue.sessionId.symm,
    hissue.sub.symm, hissue.deviceId.symm⟩
  exact (List.suffix_append _ _).trans (hsuffix.trans hh)

/-- The record `y` is one of the session that the claims name. -/
structure Agrees (claims : Claims) (y : Session) : Prop where
  id : y.id = claims.sessionId
  userId : y.userId = claims.sub
  deviceId : y.deviceId = claims.deviceId

theorem Origin.agrees (hrun : Run A w tr) {y : Session} (h : Origin tr y) {claims : Claims}
    (hissued : Issued tr claims) (hid : y.id = claims.sessionId) : Agrees claims y := by
  obtain ⟨t, q, h₀, user, mfa, x, hc, hx, hsub, hdevice⟩ := hissued.session
  have hfixed : y.fixed = x.fixed := h.fixed_eq hrun hc (hid.trans hx.symm)
  refine ⟨hid, ?_, ?_⟩
  · rw [Session.userId_eq_of_fixed hfixed, hsub]
  · rw [← hdevice]
    show y.fixed.deviceId = x.fixed.deviceId
    rw [hfixed]

/-- What is stored for the session of a token is a record of that session. -/
theorem stored_agrees (hrun : Run A w tr) {claims : Claims} (hissued : Issued tr claims)
    {v : RedisValue} (hread : w.read (sessionKey claims.sessionId) = some v) :
    ∃ y, v = .session y ∧ Agrees claims y := by
  obtain ⟨c, hc, rfl⟩ := Option.map_eq_some_iff.mp hread
  obtain ⟨y, hy, hid, horigin⟩ := stored_origin hrun hc
  exact ⟨y, hy, horigin.agrees hrun hissued hid⟩

/-- What a `get_session` for a token returns is a record of its session. -/
theorem returned_agrees (hrun : Run A w tr) {t : ℕ} {claims : Claims} (hissued : Issued tr claims)
    {s : Session} (hret : .getSessionReturn claims.sessionId (.ok s) ∈ own t tr) :
    Agrees claims s := by
  obtain ⟨x, activity, rfl, hread⟩ := returned_read hrun hret
  obtain ⟨hid, horigin⟩ := read_origin hrun hread
  exact (horigin.updateActivity activity).agrees hrun hissued hid

/-! ### The second factor -/

/-- A login has signed a token with these claims, and has read the clock for the
update of its session more than a second before the session expires. -/
def IssuedInTime (tr : ProxyTrace X srv) (claims : Claims) : Prop :=
  ∃ t q h h₀ update user mfa x, Started t q tr ∧ h <:+ own t tr ∧
    TokenIssue X srv q h claims h₀ update user mfa x ∧
    ∀ n, .utcNow .sessionTtl n ∈ update → n < x.expiresAt - Duration.second

theorem IssuedInTime.issued {claims : Claims} (h : IssuedInTime tr claims) : Issued tr claims := by
  obtain ⟨t, q, h, h₀, update, user, mfa, x, hq, hh, hissue, -⟩ := h
  exact ⟨t, q, h, h₀, update, user, mfa, x, hq, hh, hissue⟩

/-- A login that is about to complete its session has not signed a token. -/
theorem not_issued_before_stamp (hrun : Run A w tr) {t : ℕ} {q : Request} {n : Int}
    {h₀ : List Event} {user : UserRow} {mfa : Bool} {x : Session} {claims : Claims}
    (hq : Started t q tr) (built : SessionBuilt X srv q h₀ user mfa x) (left : 0 < x.ttl n)
    (hown : own t tr = .utcNow .sessionTtl n :: createEvent srv x (.ok ()) :: h₀)
    (hissued : Issued tr claims) : claims.sessionId ≠ x.id := by
  intro hid
  have hwrite : SessionWrite X srv q (own t tr) (stamp x mfa 0) (asU64 (x.ttl n)) := by
    rw [hown]
    exact .stamped n 0 built left
  have hback := hwrite.writeBack hrun hq hissued hid
  rw [hown] at hback
  generalize hl : Event.utcNow .sessionTtl n :: createEvent srv x (.ok ()) :: h₀ = l at hback
  generalize stamp x mfa 0 = y at hback
  cases hback with
  | touched => simp [createEvent] at hl
  | upgraded => simp [createEvent] at hl

/-- A record that a login has completed with the flag set is stored with it. -/
theorem stamped_verified (hrun : Run A w tr) {t : ℕ} {q : Request} {h₀ : List Event}
    {user : UserRow} {x : Session} {n : Int} {risk secs : ℕ} (hq : Started t q tr)
    (built : SessionBuilt X srv q h₀ user true x) (left : 0 < x.ttl n)
    (hlast : .redisSetEx (sessionKey x.id) (.session (stamp x true risk)) secs (.ok ()) ::
      .utcNow .sessionTtl n :: createEvent srv x (.ok ()) :: h₀ <:+ own t tr) :
    StoresUpgraded x.id w tr := by
  obtain ⟨seg, pre, w₀, w₁, q', rfl, hown, hpre, hq', -, hact⟩ := history_event hrun hlast
  have hsuf (seg : ProxyTrace X srv) (e : Entry (proxySystem X srv)) : pre <:+ seg ++ e :: pre :=
    (List.suffix_cons _ _).trans (List.suffix_append _ _)
  obtain rfl := hrun.started_unique hq (hq'.mono (hsuf _ _).subset)
  have hc : Creation pre t q h₀ user true x := by
    refine ⟨hq', built, .ok (), ?_⟩
    rw [hown]
    exact List.suffix_cons _ _
  have hstores : StoresUpgraded x.id w seg := by
    refine flag_since ?_ hrun rfl
    intro w₂ w₃ seg t' q' y' secs' r hrun₂ hq₂ hwrite hy' _ _
    generalize hown' : own t' _ = l at hwrite
    cases hwrite with
    | created built' => exact ((hown' ▸ built').fresh hrun₂ (hc.mono (hsuf _ _)) hy').elim
    | @stamped h user' mfa' x' n' risk' built' left' =>
        -- this login would complete its session for the second time
        exfalso
        have hc' := Creation.mk hq₂ built' ⟨.ok (), hown' ▸ List.suffix_cons _ _⟩
        obtain ⟨rfl, rfl, rfl⟩ := hc'.unique hrun₂ (hc.mono (hsuf _ _)) hy'
        have hlength := congrArg List.length hown'
        rw [own_append, own_act_self, hown] at hlength
        simp only [List.length_append, List.length_cons] at hlength
        omega
    | upgraded => exact .inl rfl
    | @touched h claims' x' n' activity now bearer live left' =>
        have hread : .redisGet (sessionKey claims'.sessionId) (.ok (some (.session x'))) ∈
            own t' (seg ++ ⟨t, w₀, .act (.redisSetEx (sessionKey x.id)
              (.session (stamp x true risk)) secs (.ok ()))⟩ :: pre) := by
          rw [hown']
          simp
        have hx' : claims'.sessionId = x.id := (read_origin hrun₂ hread).1.symm.trans hy'
        rw [hx'] at hown'
        rcases read_split (by simp) hown' with ⟨post, w₄, mid, hseg⟩ | ⟨mid, w₄, pre', rfl, hpre'⟩
        · exact .inr ⟨post, w₄, mid, x', hseg, rfl⟩
        · -- a request with the token of this login has read before the token was signed
          exfalso
          have hb : Bearer q' (own t' pre') claims' := by
            rw [hpre']
            exact bearer.mono (List.suffix_cons _ _)
          obtain ⟨hrun', -⟩ := event_entry hpre
          refine not_issued_before_stamp hpre hq' built left hown ?_ hx'
          exact (hb.issued hrun' List.suffix_rfl).mono
            ((List.suffix_cons _ _).trans (List.suffix_append mid _))
  exact hstores

/-- A record that a login has completed in time with the flag set keeps it. -/
theorem stored_verified (hrun : Run A w tr) {claims : Claims} (hintime : IssuedInTime tr claims)
    (hmfa : claims.mfaVerified = true) : StoresUpgraded claims.sessionId w tr := by
  obtain ⟨t, q, h, h₀, update, user, mfa, x, hq, hh, hissue, htime⟩ := hintime
  obtain ⟨risk, hupdate, hsuffix, -⟩ := hissue.created
  obtain rfl : mfa = true := hissue.mfa.symm.trans hmfa
  cases hupdate with
  | @skipped n none =>
      have hpos : 0 < x.ttl n := Session.ttl_pos (htime n (by simp))
      exact absurd hpos (by simpa [Session.ttl, stamp] using none)
  | @written n left =>
      rw [hissue.sessionId]
      exact stamped_verified hrun hq hissue.built left (hsuffix.trans hh)

/-! ### Requests that make no owner check -/

/-- A request that is not a login writes the session of its token. -/
theorem SessionWrite.bearer (hrun : Run A w tr) {t : ℕ} {q : Request} {y : Session} {secs : ℕ}
    (h : SessionWrite X srv q (own t tr) y secs) (hroute : q.route ≠ .login) :
    ∃ claims, Bearer q (own t tr) claims ∧ claims.sessionId = y.id := by
  generalize hown : own t tr = l at h
  cases h with
  | created built =>
      cases built with
      | intro now id deviceId userAgent login bounds => exact (hroute login.route).elim
  | stamped n risk built left =>
      cases built with
      | intro now id deviceId userAgent login bounds => exact (hroute login.route).elim
  | @touched h claims x n activity now bearer live left =>
      have hread : .redisGet (sessionKey claims.sessionId) (.ok (some (.session x))) ∈ own t tr := by
        rw [hown]
        simp
      exact ⟨claims, bearer.mono (List.suffix_append [_, _, _, _, _] _),
        (read_origin hrun hread).1.symm⟩
  | @upgraded h claims user x n passed left =>
      have hret : .getSessionReturn claims.sessionId (.ok x) ∈ own t tr := by
        rw [hown]
        simp
      have hsuf : h <:+ own t tr := hown ▸ List.suffix_append [_, _] h
      have hagrees := returned_agrees hrun (passed.bearer.issued hrun hsuf) hret
      exact ⟨claims, passed.bearer.mono (List.suffix_append [_, _] h), hagrees.id.symm⟩

/-- A request that is no login and no logout from everywhere deletes the session
of its token. -/
theorem SessionDelete.key {q : Request} {l : List Event} {key : String} (h : SessionDelete q l key)
    (hroute : q.route ≠ .logoutAll) : ∃ claims, Bearer q l claims ∧ key = sessionKey claims.sessionId := by
  cases h with
  | expired now bearer expiry =>
      exact ⟨_, bearer.mono (List.suffix_append [_, _, _] _), rfl⟩
  | logout route bearer => exact ⟨_, bearer, rfl⟩
  | logoutAll key route bearer read owner => exact (hroute route).elim

/-- A step of a request that is no login and no logout from everywhere changes
nothing but the session of its token. -/
theorem own_session_step (hrun : Run A w tr) {t : ℕ} {q : Request} {claims : Claims} {w₁ w₂ : World}
    {e : Event} {id : String} (hq : Started t q tr) (hlogin : q.route ≠ .login)
    (hall : q.route ≠ .logoutAll) (hb : Bearer q (own t tr) claims) (he : ⟨t, w₁, .act e⟩ ∈ tr)
    (hact : World.act X t e w₁ = some w₂)
    (hchange : w₂.redis.lookup (sessionKey id) ≠ w₁.redis.lookup (sessionKey id)) :
    id = claims.sessionId ∧ ∀ v, w₁.read (sessionKey id) = some v ∨ w₂.read (sessionKey id) = some v →
      ∃ y, v = .session y ∧ Agrees claims y := by
  obtain ⟨post, pre, w₃, rfl, hpre, hA, hen⟩ := hrun.entry_of_mem he
  have hsuf : pre <:+ post ++ (⟨t, w₁, .act e⟩ : Entry (proxySystem X srv)) :: pre :=
    (List.suffix_cons _ _).trans (List.suffix_append _ _)
  obtain ⟨q', hq', hL, hact'⟩ := enabled_event hen
  obtain rfl := hrun.started_unique hq (hq'.mono hsuf.subset)
  obtain rfl : w₂ = w₃ := Option.some.inj (hact.symm.trans hact')
  have hclaims {claims' : Claims} (hb' : Bearer q (own t pre) claims') : claims' = claims :=
    hb'.unique hrun (own_suffix hsuf t) hb List.suffix_rfl
  obtain ⟨claims', hb', rfl⟩ : ∃ claims', Bearer q (own t pre) claims' ∧ claims'.sessionId = id := by
    rcases sessionKey_step hL hact id with hsame | ⟨y, secs, r, -, hid, hwrite, -⟩ | ⟨r, -, hdelete, -⟩
    · exact (hchange hsame).elim
    · obtain ⟨claims', hb', hid'⟩ := hwrite.bearer hpre hlogin
      exact ⟨claims', hb', hid'.trans hid⟩
    · obtain ⟨claims', hb', hkey⟩ := hdelete.key hall
      exact ⟨claims', hb', (sessionKey_inj.mp hkey).symm⟩
  obtain rfl := hclaims hb'
  have hissued := hb'.issued hpre List.suffix_rfl
  refine ⟨rfl, fun v hv => ?_⟩
  rcases hv with hbefore | hafter
  · exact stored_agrees hpre hissued hbefore
  · exact stored_agrees (.step hpre hen hA) (hissued.mono (List.suffix_cons _ _)) hafter

/-! ### The checks that compare the two -/

/-- `authorize` does not find the session of somebody else. -/
theorem authorize_no_mismatch (hrun : Run A w tr) {t : ℕ} {q : Request}
    {r : Except ProxyError Unit} (hend : (authorize X srv q).Ends (own t tr) r) :
    r ≠ .error (.invalidSession "session/token subject mismatch") := by
  rintro rfl
  have hexit := authorize_ends hend
  generalize hown : own t tr = l at hexit
  generalize hr : (Except.error (.invalidSession "session/token subject mismatch") :
    Except ProxyError Unit) = r at hexit
  cases hexit with
  | unauthenticated bearer =>
      obtain rfl := Except.error.inj hr
      simpa using bearer.error_cases
  | noSession bearer fetched =>
      obtain rfl := Except.error.inj hr
      simpa using fetched.error_cases
  | @mismatch token body claims session bearer fetched owner =>
      have hissued := bearer.bearer.issued hrun (hown ▸ List.suffix_append _ token)
      have hret : .getSessionReturn claims.sessionId (.ok session) ∈ own t tr := by
        rw [hown]
        simp [sessionEvents]
      exact owner (returned_agrees hrun hissued hret).userId
  | denied => simp at hr
  | scored bearer fetched owner policy score evaluated gated =>
      rw [← hr] at gated
      simpa using gated.error_cases

/-- **Token and session agree.** In every run, what is stored for the session of
a token is a record of that session, of the token's subject and device, and it
says that a second factor was verified when the token does and its login was in
time. So no request finds the session of another subject or of another device
behind its token, and a request other than a login and a logout from everywhere
changes only the session of its own token. -/
theorem token_session_agree (hrun : Reachable w tr) :
    (∀ token claims v, w.tokens.lookup token = some claims →
      w.read (sessionKey claims.sessionId) = some v → ∃ y, v = .session y ∧ Agrees claims y ∧
        (IssuedInTime tr claims → claims.mfaVerified = true → y.mfaVerified = true)) ∧
    (∀ t q r, (authorize X srv q).Ends (own t tr) r →
      r ≠ .error (.invalidSession "session/token subject mismatch")) ∧
    (∀ t q claims s, Bearer q (own t tr) claims →
      .getSessionReturn claims.sessionId (.ok s) ∈ own t tr →
      Agrees claims s ∧ ∀ device, (requestDevice device s claims).trustScore = 70) ∧
    ∀ t q claims w₁ w₂ e id, Started t q tr → q.route = .logout ∨ q.route = .mfaVerify →
      Bearer q (own t tr) claims → ⟨t, w₁, .act e⟩ ∈ tr → World.act X t e w₁ = some w₂ →
      w₂.redis.lookup (sessionKey id) ≠ w₁.redis.lookup (sessionKey id) →
      id = claims.sessionId ∧
        ∀ v, w₁.read (sessionKey id) = some v ∨ w₂.read (sessionKey id) = some v →
          ∃ y, v = .session y ∧ Agrees claims y := by
  refine ⟨fun token claims v htoken hread => ?_, fun t q r => authorize_no_mismatch hrun,
    fun t q claims s hb hret => ?_, fun t q claims w₁ w₂ e id hq hroute hb he hact => ?_⟩
  · obtain ⟨y, rfl, hagrees⟩ := stored_agrees hrun (token_issued hrun htoken) hread
    refine ⟨y, rfl, hagrees, fun hintime hmfa => ?_⟩
    obtain ⟨c, hc, hvalue⟩ := Option.map_eq_some_iff.mp hread
    obtain ⟨y', hy', hverified⟩ := stored_verified hrun hintime hmfa c hc
    obtain rfl : y = y' := RedisValue.session.inj (hvalue.symm.trans hy')
    exact hverified
  · have hagrees := returned_agrees hrun (hb.issued hrun List.suffix_rfl) hret
    refine ⟨hagrees, fun device => ?_⟩
    simp [requestDevice, hagrees.deviceId]
  · refine own_session_step hrun hq ?_ ?_ hb he hact
    · rintro hlogin
      simp [hlogin] at hroute
    · rintro hall
      simp [hall] at hroute

theorem Issued.in_time (hrun : Run A w tr) {claims : Claims} (h : Issued tr claims)
    (hpast : w.storesPast claims.sessionId w.clock = true) : IssuedInTime tr claims := by
  obtain ⟨t, q, h, h₀, update, user, mfa, x, hq, hh, hissue⟩ := h
  refine ⟨t, q, h, h₀, update, user, mfa, x, hq, hh, hissue, fun n hn => ?_⟩
  obtain ⟨risk, -, hsuffix, -⟩ := hissue.created
  have hown : update ++ createEvent srv x (.ok ()) :: h₀ <:+ own t tr := hsuffix.trans hh
  have hc : Creation tr t q h₀ user mfa x :=
    ⟨hq, hissue.built, .ok (), (List.suffix_append _ _).trans hown⟩
  rw [hissue.sessionId] at hpast
  have hread := reading_le hrun (hown.subset (List.mem_append_left _ hn))
  exact lt_of_le_of_lt hread (storesPast_expires hrun hc hpast)

/-- The session of a verified token is stored and has not expired. -/
def World.storesToken (w : World) (token : String) : Bool :=
  (w.tokens.lookup token).any fun claims =>
    claims.mfaVerified && w.storesPast claims.sessionId w.clock

theorem exists_token {token : String} (h : w.storesToken token = true) :
    ∃ claims v, w.tokens.lookup token = some claims ∧ claims.mfaVerified = true ∧
      w.storesPast claims.sessionId w.clock = true ∧
      w.read (sessionKey claims.sessionId) = some v := by
  obtain ⟨claims, htoken, hstored⟩ := (Option.any_eq_true _ _).mp h
  obtain ⟨hmfa, hpast⟩ := Bool.and_eq_true_iff.mp hstored
  obtain ⟨v, hread⟩ : ∃ v, w.read (sessionKey claims.sessionId) = some v := by
    unfold World.storesPast at hpast
    split at hpast
    · exact ⟨_, ‹_›⟩
    · simp at hpast
  exact ⟨claims, v, htoken, hmfa, hpast, hread⟩

open Scenario in
/-- A login with a code. -/
theorem token_session_agree_run : ∃ (w : World) (tr : ProxyTrace external server) (claims : Claims)
    (y : Session), Reachable w tr ∧ w.tokens.lookup "token-0" = some claims ∧
      claims.mfaVerified = true ∧ w.read (sessionKey claims.sessionId) = some (.session y) ∧
      Agrees claims y ∧ y.mfaVerified = true := by
  have hplay : plays (fun _ _ => True) [{ alice with mfaEnabled := true, mfaSecret := some secret }]
      (.start 0 (login aliceLoginMfa) :: steps 0 25)
      (fun p => p.world.storesToken "token-0") = true := by decide +kernel
  obtain ⟨p, hrun, hcheck⟩ := run_of_plays (world_initial (by simp) (by simp) (by simp)) hplay
  obtain ⟨claims, v, htoken, hmfa, hpast, hread⟩ := exists_token hcheck
  obtain ⟨y, rfl, hagrees, hverified⟩ :=
    (token_session_agree hrun).1 "token-0" claims v htoken hread
  have hintime := (token_issued hrun htoken).in_time hrun hpast
  exact ⟨p.world, p.trace, claims, y, hrun, htoken, hmfa, hread, hagrees, hverified hintime hmfa⟩

end ZeroTrustProxy
