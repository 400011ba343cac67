import ZeroTrustProxy.Runs.Forwarding
import ZeroTrustProxy.Runs.Prediction
import ZeroTrustProxy.Runs.Registration

/-!
What a login leaves behind.

A login draws one session and signs one token, and no other request does either. So the
session records and the tokens are no more than the logins, a session has one token, and
two clients that have logged in hold different tokens for different sessions.
-/

namespace ZeroTrustProxy

open Concurrent Program Handler SessionManager JwtManager

variable {X : External} {srv : ProxyServer}
  {A : ProxyTrace X srv → Entry (proxySystem X srv) → Prop} {w : World} {tr : ProxyTrace X srv}
  {q : Request} {h : List Event} {g : CmdGroup} {t t' : ℕ}

/-! ### One request -/

/-- What a login alone does, and does once. -/
def CmdGroup.ofLogin (g : CmdGroup) : Prop := g = .opening ∨ g = .signing

theorem CmdGroup.ofLogin.not_mem {gs : List CmdGroup} (hg : g.ofLogin) (hopening : .opening ∉ gs)
    (hsigning : .signing ∉ gs) : g ∉ gs := by
  obtain rfl | rfl := hg
  · exact hopening
  · exact hsigning

theorem createSession_opens_once {durationMinutes : Int}
    {userId deviceId ipAddress userAgent : String} :
    (createSession durationMinutes userId deviceId ipAddress userAgent).Once
      fun (c : Cmd) => c.group = .opening := by
  apply once_bind_left
  · apply once_bind_left (once_call fun now => uses_ret)
    intro now
    refine Confined.avoids (show Confined [.panic, .ambient] _ from ?_) (by decide)
    apply uses_bind (newUuid_confined.mono (by simp))
    exact fun id => uses_ite uses_ret (uses_call (by simp [Cmd.group]) fun r => r.elim)
  · intro session
    refine Confined.avoids (show Confined [.session] _ from ?_) (by decide)
    exact uses_bind (uses_call (by simp [Cmd.group]) fun _ => unwrap_confined) fun _ => uses_ret

theorem generateToken_signs_once {expirationHours : Int} {userId deviceId : String}
    {riskScore : ℕ} {mfaVerified : Bool} {sessionId : String} :
    (generateToken expirationHours userId deviceId riskScore mfaVerified sessionId).Once
      fun (c : Cmd) => c.group = .signing := by
  apply once_bind (utcNow_confined.avoids (by simp [Cmd.group]))
  intro now
  apply once_ite
  · apply once_bind (newUuid_confined.avoids (by decide))
    exact fun jti => once_call fun x => mapErr_confined.avoids List.not_mem_nil
  · exact once_call fun r => r.elim

theorem startSession_once {user : UserRow} {deviceId userAgent : String} {mfa : Bool}
    {risk : RiskScore} (hg : g.ofLogin) :
    (startSession X srv q user deviceId userAgent mfa risk).Once
      fun (c : Cmd) => c.group = g := by
  obtain rfl | rfl := hg
  · apply once_bind_left createSession_opens_once
    intro session
    refine Confined.avoids
      (show Confined [.session, .audit, .signing, .panic, .ambient] _ from ?_) (by decide)
    apply uses_bind (updateSession_confined.mono (by simp))
    intro _
    apply uses_bind (logAuthentication_confined.mono (by simp))
    intro _
    exact uses_bind (generateToken_confined.mono (by simp)) fun _ => uses_ret
  · apply once_bind (createSession_confined.avoids (by decide))
    intro session
    apply once_bind (updateSession_confined.avoids (by decide))
    intro _
    apply once_bind (logAuthentication_confined.avoids (by decide))
    intro _
    exact once_bind_left generateToken_signs_once fun _ => uses_ret

theorem handleLogin_once (hg : g.ofLogin) :
    (handleLogin X srv q).Once fun (c : Cmd) => c.group = g := by
  have hcall {gs : List CmdGroup} {α : Type} {p : Handler α} (hp : Confined gs p)
      (hopening : .opening ∉ gs) (hsigning : .signing ∉ gs) :
      p.Uses fun (c : Cmd) => ¬ c.group = g := hp.avoids (hg.not_mem hopening hsigning)
  apply once_bind (hcall checkRateLimit_confined (by decide) (by decide))
  intro _
  apply once_bind (okOr_confined.avoids List.not_mem_nil)
  intro bytes
  apply once_bind (okOr_confined.avoids List.not_mem_nil)
  intro body
  have hfind : Confined [.account] (findUserByUsername body.username) :=
    uses_call (by simp [Cmd.group]) fun _ => unwrap_confined
  apply once_bind (hcall hfind (by decide) (by decide))
  intro found
  apply once_bind (okOr_confined.avoids List.not_mem_nil)
  intro user
  apply once_bind (hcall newDevice_confined (by decide) (by decide))
  intro device
  have hknown : Confined [.device]
      (findDeviceByFingerprint user.id device.fingerprintHash) :=
    uses_call (by simp [Cmd.group]) fun _ => unwrap_confined
  apply once_bind (hcall hknown (by decide) (by decide))
  intro existing
  apply once_bind (mapErr_confined.avoids List.not_mem_nil)
  intro passwordOk
  apply once_ite
  · exact (hcall refusePassword_confined (by decide) (by decide)).once
  apply once_bind (hcall loginMfa_confined (by decide) (by decide))
  intro mfa
  apply once_bind (hcall loginRisk_confined (by decide) (by decide))
  intro risk
  apply once_ite
  · have hblocked : Confined [.audit, .ambient] (do
        ignore (AuditLogger.logAuthentication X user.id.text (device.restore existing).id
          q.remoteIp.text false)
        Program.throw (.riskThresholdExceeded risk.totalScore srv.config.blockThreshold) :
          Handler Response) := uses_bind logAuthentication_confined fun _ => uses_throw
    exact (hcall hblocked (by decide) (by decide)).once
  · unfold openSession
    cases body.deviceId with
    | some deviceId => exact startSession_once hg
    | none =>
        apply once_bind (hcall newUuid_confined (by decide) (by decide))
        exact fun id => startSession_once hg

/-- No other request begins a session or signs a token. -/
theorem handleRoute_avoids {route : Route} (hg : g.ofLogin) (hroute : route ≠ .login) :
    (handleRoute X srv q route).Uses fun (c : Cmd) => ¬ c.group = g := by
  have hout {gs : List CmdGroup} {p : Handler Response} (hp : Confined gs p)
      (hopening : .opening ∉ gs) (hsigning : .signing ∉ gs) :
      p.Uses fun (c : Cmd) => ¬ c.group = g := hp.avoids (hg.not_mem hopening hsigning)
  cases route with
  | login => exact (hroute rfl).elim
  | proxied =>
      apply uses_bind (authorize_confined.avoids (hg.not_mem (by decide) (by decide)))
      exact fun _ => hout forwardUpstream_confined (by decide) (by decide)
  | register => exact hout handleRegister_limited.confined (by decide) (by decide)
  | mfaVerify => exact hout handleMfaVerify_limited.confined (by decide) (by decide)
  | mfaEnroll => exact hout handleMfaEnroll_confined (by decide) (by decide)
  | logout => exact hout handleLogout_confined (by decide) (by decide)
  | logoutAll => exact hout handleLogoutAll_confined (by decide) (by decide)
  | health => exact uses_ret
  | metrics => exact uses_ret

theorem program_once (hg : g.ofLogin) (q : Request) :
    ((proxySystem X srv).program q).Once fun (c : Cmd) => c.group = g := by
  apply handleRequest_once
  by_cases hroute : q.route = .login
  · rw [hroute]
    exact handleLogin_once hg
  · exact (handleRoute_avoids hg hroute).once

theorem login_of_call {c : Cmd} (hg : g.ofLogin)
    (hcalls : ((proxySystem X srv).program q).Calls h c) (hc : c.group = g) :
    q.route = .login := by
  by_contra hroute
  exact handleRoute_avoids hg hroute h c (handleRequest_calls hcalls) hc

/-! ### Runs -/

/-- The event signs a token. -/
def signsToken : Event → Bool
  | .jwtEncode _ _ => true
  | _ => false

theorem signsToken_group {e : Event} (he : signsToken e = true) : e.command.group = .signing := by
  cases e with
  | jwtEncode claims r => rfl
  | _ => simp [signsToken] at he

/-- A login has arrived. -/
def loginArrival (y : Entry (proxySystem X srv)) : Bool :=
  y.item.isStart fun (q : Request) => decide (q.route = .login)

theorem tokens_le_signed (hrun : Run A w tr) :
    w.tokens.length ≤ tr.countP fun y => y.item.isEvent signsToken := by
  refine (hrun.invariant (proxy_contract X srv)
    (fun w tr => w.tokens.length ≤ tr.countP fun y => y.item.isEvent signsToken) ?_ ?_ ?_ ?_ ?_).1
  · intro w hinit
    simp [hinit.tokens]
  · intro w w' tr m _ hJ henv
    obtain ⟨-, rfl⟩ : w.clock ≤ m ∧ w.advance m = w' := by simpa using henv
    exact hJ
  · exact fun _ hJ _ => hJ.trans (List.sublist_cons_self _ _).countP_le
  · intro w w' tr t q e _ hJ _ _ _ hact _
    obtain hsame | ⟨claims, token, rfl, -, htokens⟩ := World.act_tokens hact
    · rw [hsame]
      exact hJ.trans (List.sublist_cons_self _ _).countP_le
    · rw [htokens, List.length_cons, List.countP_cons_of_pos (by simp [Item.isEvent, signsToken])]
      exact Nat.succ_le_succ hJ
  · exact fun _ hJ _ _ _ => hJ.trans (List.sublist_cons_self _ _).countP_le

/-- There are no more tokens than logins have arrived. -/
theorem tokens_le_logins (hrun : Run A w tr) : w.tokens.length ≤ tr.countP loginArrival := by
  have hg : CmdGroup.signing.ofLogin := .inr rfl
  calc w.tokens.length
      ≤ tr.countP fun y => y.item.isEvent signsToken := tokens_le_signed hrun
    _ ≤ tr.countP loginArrival := hrun.countP_le (program_once hg) (fun e => signsToken_group)
        fun q h c hcalls hc => decide_eq_true (login_of_call hg hcalls hc)

/-- A login creates one session. -/
theorem Creation.same_session (hrun : Run A w tr) {q q' : Request} {h₀ h₀' : List Event}
    {user user' : UserRow} {mfa mfa' : Bool} {x x' : Session}
    (h : Creation tr t q h₀ user mfa x) (h' : Creation tr t q' h₀' user' mfa' x') : x = x' := by
  obtain ⟨id, now, l, hl, hxid, -⟩ := h.built.drawn
  obtain ⟨id', now', l', hl', hxid', -⟩ := h'.built.drawn
  have hdrawn : .newUuid id :: .utcNow .sessionNew now :: l <:+ own t tr := hl ▸ h.history
  have hdrawn' : .newUuid id' :: .utcNow .sessionNew now' :: l' <:+ own t tr := hl' ▸ h'.history
  -- the clock is read for a session once, so the readings are one
  obtain ⟨hread, rfl⟩ := hrun.own_unique (P := fun (c : Cmd) => c.group = .opening)
    (program_once (.inl rfl)) ((List.suffix_cons _ _).trans hdrawn)
    ((List.suffix_cons _ _).trans hdrawn') rfl rfl
  have heq := (List.suffix_of_suffix_length_le hdrawn hdrawn' (by simp)).eq_of_length (by simp)
  obtain rfl : id = id' := Event.newUuid.inj (List.cons.inj heq).1
  exact (h.unique hrun h' (hxid.trans hxid'.symm)).2.2

/-- There are no more session records than logins have arrived. -/
theorem sessions_le_logins (hrun : Run A w tr) {ids : Finset String}
    (hids : ∀ id ∈ ids, ∃ c, w.redis.lookup (sessionKey id) = some c) :
    ids.card ≤ tr.countP loginArrival := by
  have hlogin : ∀ id ∈ ids, ∃ t q h₀ user mfa x, Creation tr t q h₀ user mfa x ∧ x.id = id := by
    intro id hid
    obtain ⟨c, hc⟩ := hids id hid
    obtain ⟨y, -, rfl, horigin⟩ := stored_origin hrun hc
    obtain ⟨t, q, h₀, user, mfa, x, hx, hfixed⟩ := horigin.creation
    exact ⟨t, q, h₀, user, mfa, x, hx, Session.id_eq_of_fixed hfixed⟩
  choose! thread req before user mfa session hcreated hnamed using hlogin
  have hmaps : Set.MapsTo thread ids
      (askers (fun (q : Request) => decide (q.route = .login)) tr) := by
    intro id hid
    obtain ⟨body, hpassed⟩ := (hcreated id hid).login
    exact (hcreated id hid).started.mem_askers (decide_eq_true hpassed.route)
  have hinj : Set.InjOn thread ids := by
    intro id hid id' hid' hthread
    have hother := hcreated id' hid'
    rw [← hthread] at hother
    rw [← hnamed id hid, ← hnamed id' hid', (hcreated id hid).same_session hrun hother]
  exact (Finset.card_le_card_of_injOn thread hmaps hinj).trans card_askers_le

/-- A token is signed for the session its login has created. -/
theorem signer_creation (hrun : Run A w tr) {claims : Claims} {r : Except String String}
    {l : List Event} (hl : .jwtEncode claims r :: l <:+ own t tr) :
    ∃ q h₀ user mfa x, Creation tr t q h₀ user mfa x ∧ x.id = claims.sessionId ∧
      claims.sub = user.id.text := by
  obtain ⟨post, pre, w₀, w₁, q, rfl, hown, -, hq, hL, -⟩ := history_event hrun hl
  obtain ⟨h₀, update, user, mfa, x, hissue⟩ := hL
  obtain ⟨risk, -, hsuffix, -⟩ := hissue.created
  have hlater := (List.suffix_cons (⟨t, w₀, .act (.jwtEncode claims r)⟩ :
    Entry (proxySystem X srv)) pre).trans (List.suffix_append post _)
  have hcreation : Creation pre t q h₀ user mfa x :=
    ⟨hq, hissue.built, .ok (), (List.suffix_append update _).trans (hown ▸ hsuffix)⟩
  exact ⟨q, h₀, user, mfa, x, hcreation.mono hlater, hissue.sessionId.symm,
    hissue.sub.trans hcreation.userId⟩

/-- Two tokens for one session have been signed by one login, and are one token. -/
theorem signed_unique (hrun : Run A w tr) {claims claims' : Claims} {token token' : String}
    (hsigned : .jwtEncode claims (.ok token) ∈ own t tr)
    (hsigned' : .jwtEncode claims' (.ok token') ∈ own t' tr)
    (hsession : claims.sessionId = claims'.sessionId) : t = t' ∧ token = token' := by
  obtain ⟨l, hl⟩ := suffix_of_mem hsigned
  obtain ⟨l', hl'⟩ := suffix_of_mem hsigned'
  obtain ⟨q, h₀, user, mfa, x, hx, hid, -⟩ := signer_creation hrun hl
  obtain ⟨q', h₀', user', mfa', x', hx', hid', -⟩ := signer_creation hrun hl'
  obtain ⟨rfl, -, -⟩ := hx.unique hrun hx' (hid.trans (hsession.trans hid'.symm))
  obtain ⟨heq, -⟩ := hrun.own_unique (P := fun (c : Cmd) => c.group = .signing)
    (program_once (.inr rfl)) hl hl' rfl rfl
  exact ⟨rfl, Except.ok.inj (Event.jwtEncode.inj heq).2⟩

/-- What a client has from a login: a token that is accepted, for a session that this login
has created for the user. -/
structure Granted (w : World) (tr : ProxyTrace X srv) (t : ℕ) (answer : LoginResponse)
    (claims : Claims) : Prop where
  accepted : w.tokens.lookup answer.accessToken = some claims
  created : ∃ q h₀ user mfa x, Creation tr t q h₀ user mfa x ∧ x.id = claims.sessionId ∧
    claims.sub = user.id.text

/-- A login that is answered has signed the token it answers with. -/
theorem signed_of_answer (hrun : Run A w tr) (hq : Started t q tr) (hroute : q.route = .login)
    {o : Response} (hdone : Returned t o tr) (hok : o.status = 200) :
    ∃ answer claims, o = ⟨200, .login answer⟩ ∧
      .jwtEncode claims (.ok answer.accessToken) ∈ own t tr := by
  obtain ⟨w₁, hdone⟩ := hdone
  obtain ⟨r, hend, rfl⟩ := answered_own hrun hq hdone
  rw [hroute] at hend
  obtain ⟨o, rfl⟩ := respond_success (r := r) (by rw [hok]; decide)
  obtain ⟨claims, token, rest, answer, hown, -, rfl, rfl, -⟩ := (handleLogin_ends hend).signs
  exact ⟨answer, claims, rfl, hown ▸ List.mem_cons_self⟩

/-- **One login, one session, one token.** The tokens and the session records are no more
than the logins that have arrived, a session has one token, and a login that succeeds is
answered with a token for a session of its own, which no other login is answered with. -/
theorem one_token_each (hrun : Run A w tr) :
    w.tokens.length ≤ tr.countP loginArrival ∧
      (∀ ids : Finset String, (∀ id ∈ ids, ∃ c, w.redis.lookup (sessionKey id) = some c) →
        ids.card ≤ tr.countP loginArrival) ∧
      (∀ a b c d, w.tokens.lookup a = some c → w.tokens.lookup b = some d →
        c.sessionId = d.sessionId → a = b) ∧
      ∀ t q o, Started t q tr → q.route = .login → Returned t o tr → o.status = 200 →
        ∃ answer claims, o = ⟨200, .login answer⟩ ∧ Granted w tr t answer claims ∧
          ∀ t' q' (answer' : LoginResponse) claims', t' ≠ t → Started t' q' tr →
            q'.route = .login → Returned t' (⟨200, .login answer'⟩ : Response) tr →
            w.tokens.lookup answer'.accessToken = some claims' →
            answer'.accessToken ≠ answer.accessToken ∧ claims'.sessionId ≠ claims.sessionId := by
  refine ⟨tokens_le_logins hrun, fun ids hids => sessions_le_logins hrun hids,
    fun a b c d ha hb hsession => ?_, fun t q o hq hroute hdone hok => ?_⟩
  · obtain ⟨t, hsigned⟩ := token_signed hrun ha
    obtain ⟨t', hsigned'⟩ := token_signed hrun hb
    exact (signed_unique hrun hsigned hsigned' hsession).2
  · obtain ⟨answer, claims, rfl, hsigned⟩ := signed_of_answer hrun hq hroute hdone hok
    have haccepted := signed_lookup hrun hsigned
    obtain ⟨l, hl⟩ := suffix_of_mem hsigned
    obtain ⟨q₀, h₀, user, mfa, x, hx, hid, hsub⟩ := signer_creation hrun hl
    refine ⟨answer, claims, rfl, ⟨haccepted, q₀, h₀, user, mfa, x, hx, hid, hsub⟩, ?_⟩
    intro t' q' answer' claims' hne hq' hroute' hdone' haccepted'
    obtain ⟨answer'', claims'', heq, hsigned'⟩ := signed_of_answer hrun hq' hroute' hdone' rfl
    obtain rfl : answer' = answer'' := by simpa using heq
    obtain rfl := Option.some.inj (haccepted'.symm.trans (signed_lookup hrun hsigned'))
    have hapart : claims'.sessionId ≠ claims.sessionId := fun hsession =>
      hne (signed_unique hrun hsigned' hsigned hsession).1
    refine ⟨fun htoken => hapart ?_, hapart⟩
    rw [htoken, haccepted] at haccepted'
    exact congrArg Claims.sessionId (Option.some.inj haccepted').symm

namespace Scenario

/-- Alice logs in twice. -/
theorem one_token_each_run : ∃ (w : World) (tr : ProxyTrace external server)
    (answer answer' : LoginResponse) (claims claims' : Claims), Reachable w tr ∧
      tr.countP loginArrival = 2 ∧ w.tokens.length ≤ 2 ∧ Granted w tr 0 answer claims ∧
      Granted w tr 1 answer' claims' ∧ answer'.accessToken ≠ answer.accessToken ∧
      claims'.sessionId ≠ claims.sessionId := by
  have hplay : plays (fun _ _ => True) [alice]
      (.start 0 (login aliceLogin) :: steps 0 24 ++ .start 1 (login aliceLogin) :: steps 1 23)
      (fun p => decide (p.trace.countP loginArrival = 2) &&
        (p.trace.all fun y => !y.item.isStart fun (q : Request) => decide (q.route ≠ .login)) &&
        answersLogin 0 "token-0" p.trace && answersLogin 1 "token-1" p.trace) = true := by
    decide +kernel
  obtain ⟨p, hrun, hcheck⟩ := run_of_plays (world_initial (by decide) (by decide) (by decide)) hplay
  simp only [Bool.and_eq_true] at hcheck
  obtain ⟨⟨⟨hcount, honly⟩, hfirst⟩, hsecond⟩ := hcheck
  obtain ⟨w₁, answer, hdone, -, -⟩ := exists_login_answer hfirst
  obtain ⟨w₂, answer', hdone', -, -⟩ := exists_login_answer hsecond
  have hlogin {t : ℕ} {answer : LoginResponse} {w₁ : World}
      (hdone : ⟨t, w₁, .done ⟨200, .login answer⟩⟩ ∈ p.trace) :
      ∃ q, Started t q p.trace ∧ q.route = .login := by
    obtain ⟨post, pre, q, r, htrace, -, ⟨w₀, hq⟩, -⟩ := answered_ends hrun hdone
    have hmem : ⟨t, w₀, .start q⟩ ∈ p.trace :=
      htrace ▸ List.mem_append_right post (List.mem_cons_of_mem _ hq)
    have hstart := List.all_eq_true.mp honly _ hmem
    exact ⟨q, ⟨w₀, hmem⟩, by simpa [Item.isStart] using hstart⟩
  obtain ⟨q, hq, hroute⟩ := hlogin hdone
  obtain ⟨q', hq', hroute'⟩ := hlogin hdone'
  obtain ⟨htokens, -, -, hgranted⟩ := one_token_each hrun
  obtain ⟨a, claims, ha, hfirst, hapart⟩ := hgranted 0 q _ hq hroute ⟨w₁, hdone⟩ rfl
  obtain ⟨b, claims', hb, hsecond, -⟩ := hgranted 1 q' _ hq' hroute' ⟨w₂, hdone'⟩ rfl
  obtain ⟨htoken, hsession⟩ := hapart 1 q' b claims' (by decide) hq' hroute' (hb ▸ ⟨w₂, hdone'⟩)
    hsecond.accepted
  have hcount := of_decide_eq_true hcount
  exact ⟨p.world, p.trace, a, b, claims, claims', hrun, hcount, hcount ▸ htokens, hfirst, hsecond,
    htoken, hsession⟩

end Scenario

end ZeroTrustProxy
