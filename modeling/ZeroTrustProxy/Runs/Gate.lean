import ZeroTrustProxy.Runs.Scenario

/-!
The gate: what stands behind a request that is forwarded upstream.
-/

namespace ZeroTrustProxy

open Concurrent

variable {X : External} {srv : ProxyServer}
  {A : ProxyTrace X srv → Entry (proxySystem X srv) → Prop} {w : World} {tr : ProxyTrace X srv}

/-- What `get_session` has established when it returns a session: the record
comes from a login that lies before the expiry check, and has not expired. -/
theorem returned_created (h : Run A w tr) {t : ℕ} {id : String} {y : Session} {l : List Event}
    (hret : .getSessionReturn id (.ok y) :: l <:+ own t tr) :
    ∃ body h₁ now, l = body ++ Event.getSessionCall id :: h₁ ∧ FetchRun X id body (.ok y) ∧
      .utcNow .isExpired now ∈ body ∧ y.id = id ∧
      ∃ t₀ q₀ h₀ user mfa x, Creation tr t₀ q₀ h₀ user mfa x ∧ x.fixed = y.fixed ∧
        x.createdAt ≤ now ∧
        now ≤ x.createdAt + Duration.minutes srv.config.sessionDurationMinutes := by
  obtain ⟨_, _, _, _, _, -, -, -, -, hL, -⟩ := history_event h hret
  obtain ⟨body, h₁, rfl, hfetch⟩ := hL
  obtain ⟨x, now, activity, update, hlive, rfl, -, rfl⟩ := hfetch.ok_inv
  have hcheck : .utcNow .isExpired now :: .redisGet (sessionKey id) (.ok (some (.session x))) ::
      .getSessionCall id :: h₁ <:+ own t tr := by
    refine List.IsSuffix.trans ?_ hret
    exact ⟨.getSessionReturn id (.ok (x.updateActivity activity)) :: update ++
      [Event.utcNow .updateActivity activity], by simp⟩
  obtain ⟨post, pre, w₂, w₃, q, rfl, hown, hrun, -, -, hact⟩ := history_event h hcheck
  have hread : .redisGet (sessionKey id) (.ok (some (.session x))) ∈ own t pre := by simp [hown]
  obtain ⟨hid, horigin⟩ := read_origin hrun hread
  obtain ⟨t₀, q₀, h₀, user, mfa, x₀, hc, hx⟩ := horigin.creation
  refine ⟨_, h₁, now, rfl, hfetch, by simp, hid, t₀, q₀, h₀, user, mfa, x₀,
    hc.mono ((List.suffix_cons _ _).trans (List.suffix_append _ _)), hx, ?_, ?_⟩
  · cases hb : hc.built with
    | intro created uuid deviceId userAgent login bounds =>
        have hcreated : .utcNow .sessionNew created ∈ own t₀ pre :=
          hc.history.subset (by simp)
        rw [(World.clock_reply hact).2]
        exact reading_le hrun hcreated
  · have hexpires : now ≤ x₀.expiresAt := by
      rw [Session.expiresAt_eq_of_fixed hx]
      simpa [Session.isExpired] using hlive
    cases hb : hc.built with
    | intro created uuid deviceId userAgent login bounds => exact hexpires

/-- What stands behind a request that thread `t` forwards upstream after the
trace `pre`. -/
def GateProvenance (pre : ProxyTrace X srv) (t : ℕ) : Prop :=
  ∃ q claims session risk body l now, Started t q pre ∧ q.route = .proxied ∧
    Bearer q (own t pre) claims ∧
    -- the session that was read, and the time of its expiry check
    .getSessionReturn claims.sessionId (.ok session) :: body ++
      .getSessionCall claims.sessionId :: l <:+ own t pre ∧
    FetchRun X claims.sessionId body (.ok session) ∧ .utcNow .isExpired now ∈ body ∧
    -- (a) the login
    (∃ t₀ q₀ h₀ login user mfa x, Creation pre t₀ q₀ h₀ user mfa x ∧
      LoginPassed X q₀ h₀ login user mfa ∧ x.id = claims.sessionId ∧
      user.id.text = claims.sub ∧ x.createdAt ≤ now ∧
      now ≤ x.createdAt + Duration.minutes srv.config.sessionDurationMinutes) ∧
    -- (b) the policy
    (srv.policyEngine.evaluate X.floats (policyContext q claims)).allowed = true ∧
    -- (c) the second factor
    (srv.config.requireMfa = true → session.mfaVerified = true) ∧
    -- (d) the risk
    RequestRisk X srv q (own t pre) session claims risk ∧
    risk.totalScore < srv.config.blockThreshold ∧
    (srv.config.stepUpThreshold ≤ risk.totalScore → session.mfaVerified = true)

/-- **Gate provenance.** A request that has been forwarded upstream has passed
every check of the gate, and its session was opened by an earlier login of the
same user that passed every check of a login. -/
theorem forwarded_provenance {post pre : ProxyTrace X srv} {t : ℕ} {w₀ : World}
    {u : UpstreamRequest} {r : Except String UpstreamResponse}
    (h : Reachable w (post ++ ⟨t, w₀, .act (.upstream u r)⟩ :: pre)) : GateProvenance pre t := by
  obtain ⟨hrun, -, q, w₁, hq, hL, -⟩ := event_entry h
  obtain ⟨claims, session, risk, hgate⟩ := hL
  obtain ⟨l, hl⟩ := suffix_of_mem hgate.read
  obtain ⟨body, h₁, now, rfl, hfetch, hnow, hid, t₀, q₀, h₀, user, mfa, x, hc, hx, hafter, hbefore⟩ :=
    returned_created hrun hl
  obtain ⟨login, hlogin⟩ := hc.login
  have hxid : x.id = claims.sessionId := (Session.id_eq_of_fixed hx).trans hid
  have huser : user.id.text = claims.sub := by
    rw [← hc.userId, Session.userId_eq_of_fixed hx, hgate.owner]
  exact ⟨q, claims, session, risk, body, h₁, now, hq, hgate.route, hgate.bearer, hl, hfetch, hnow,
    ⟨t₀, q₀, h₀, login, user, mfa, x, hc, hlogin, hxid, huser, hafter, hbefore⟩, hgate.policy,
    hgate.mfa, hgate.score, hgate.below, hgate.stepUp⟩

/-- The step forwards a request. -/
def Entry.forwards (x : Entry (proxySystem X srv)) : Bool :=
  match x.item with
  | .act (.upstream _ _) => true
  | _ => false

theorem exists_forwarded {tr : ProxyTrace X srv} (h : tr.any Entry.forwards = true) :
    ∃ post pre t w₀ u r, tr = post ++ ⟨t, w₀, .act (.upstream u r)⟩ :: pre := by
  obtain ⟨⟨t, w₀, item⟩, hmem, hforwards⟩ := List.any_eq_true.mp h
  obtain ⟨u, r, rfl⟩ : ∃ u r, item = .act (.upstream u r) := by
    unfold Entry.forwards at hforwards
    split at hforwards
    · exact ⟨_, _, ‹_›⟩
    · simp at hforwards
  obtain ⟨post, pre, rfl⟩ := List.append_of_mem hmem
  exact ⟨post, pre, t, w₀, u, r, rfl⟩

open Scenario in
/-- A login and a proxied request with its token. -/
theorem forwarded_provenance_run : ∃ (w : World) (post pre : ProxyTrace external server) (t : ℕ)
    (w₀ : World) (u : UpstreamRequest) (r : Except String UpstreamResponse),
    Reachable w (post ++ ⟨t, w₀, .act (.upstream u r)⟩ :: pre) ∧ GateProvenance pre t := by
  have hplay : plays (fun _ _ => True) [alice]
      (.start 0 (login aliceLogin) :: steps 0 24 ++
        .start 1 (authorized "GET" "/data" "token-0" "") :: steps 1 22)
      (fun p => p.trace.any Entry.forwards) = true := by decide +kernel
  obtain ⟨p, hrun, hforwards⟩ := run_of_plays
    (world_initial (by simp) (by simp) (by simp)) hplay
  obtain ⟨post, pre, t, w₀, u, r, htr⟩ := exists_forwarded hforwards
  rw [htr] at hrun
  exact ⟨p.world, post, pre, t, w₀, u, r, hrun, forwarded_provenance hrun⟩

end ZeroTrustProxy
