import ZeroTrustProxy.Contract.LoginExits
import ZeroTrustProxy.Policy.RiskScore
import ZeroTrustProxy.Runs.Agreement
import ZeroTrustProxy.Runs.Gate

/-!
The risk scores that occur.

The engine can score up to 100, but its two callers feed it little: a device
that has just been built, no failed attempts, and at the gate a session that
names the device of the token and has not expired. What is left are the device
factor, the time of day, the address and the age of the session. With one
reading of the clock per request the first of these counts a device as new, and
the last is bounded by the lifetime of sessions.
-/

namespace ZeroTrustProxy

open Concurrent Program

variable {X : External} {srv : ProxyServer}
  {A : ProxyTrace X srv → Entry (proxySystem X srv) → Prop} {w : World} {tr : ProxyTrace X srv}

/-! ### The factors -/

namespace RiskEngine

theorem calculateSessionAgeRisk_le_of_le {ageMinutes : Int} (h : ageMinutes ≤ 120) :
    calculateSessionAgeRisk ageMinutes ≤ 15 := by
  unfold calculateSessionAgeRisk
  rw [if_neg (by omega)]
  split <;> omega

theorem calculateSessionAgeRisk_eq_zero {ageMinutes : Int} (h : ageMinutes ≤ 60) :
    calculateSessionAgeRisk ageMinutes = 0 := by
  unfold calculateSessionAgeRisk
  rw [if_neg (by omega), if_neg (by omega)]

/-- A device that was first seen at the time of the request is new. -/
theorem calculateDeviceRisk_new {now : Int} {device : DeviceFingerprint}
    (hseen : device.firstSeen = now) :
    calculateDeviceRisk now device =
      (if device.isTrusted then 0 else 25) + (if device.trustScore < 50 then 15 else 0) + 20 := by
  have hdays : Duration.numDays (now - device.firstSeen) = 0 := by
    rw [hseen, Int.sub_self]
    rfl
  simp only [calculateDeviceRisk, hdays]
  rfl

end RiskEngine

/-- An age of at most some minutes counts no more of them. -/
theorem Duration.numMinutes_le {d m : Int} (hd : 0 ≤ d) (h : d ≤ Duration.minutes m) :
    Duration.numMinutes d ≤ m := by
  have hsecs : Duration.numSeconds d = d / 1000000000 := Int.tdiv_eq_ediv_of_nonneg hd
  have hminutes : Duration.numMinutes d = d / 1000000000 / 60 := by
    unfold Duration.numMinutes
    rw [hsecs, Int.tdiv_eq_ediv_of_nonneg (by omega)]
  simp only [Duration.minutes, Duration.seconds, Duration.second] at h
  omega

/-! ### Where the scores are computed -/

/-- In the history `h`, `handle_login` has come to its risk score. -/
def LoginScored (X : External) (srv : ProxyServer) (req : Request) (h : List Event)
    (risk : RiskScore) : Prop :=
  ∃ rate check scores body user id firstSeen lastSeen existing mfa,
    scores ++ (check ++ loginLookups X req body user id firstSeen lastSeen (.ok existing) rate)
      <:+ h ∧
    X.verifyPassword body.password user.passwordHash = .ok true ∧
    MfaRun X user body check (.ok mfa) ∧
    LoginRiskRun srv req user (loginDevice X req id firstSeen lastSeen user existing) existing scores
      (.ok risk)

/-- In the history `h`, `authorize` has come to the risk score of a session that
`get_session` has returned. -/
def AuthorizeScored (X : External) (srv : ProxyServer) (req : Request) (h : List Event)
    (risk : RiskScore) : Prop :=
  ∃ token body scores claims session,
    scores ++ (sessionEvents claims.sessionId (.ok session) body ++ token) <:+ h ∧
    BearerRun req token (.ok claims) ∧ FetchRun X claims.sessionId body (.ok session) ∧
    RequestRiskRun X srv req session claims scores risk

/-- All readings of the clock in a history are the same. -/
def OneReading (h : List Event) : Prop :=
  ∀ use use' n n', .utcNow use n ∈ h → .utcNow use' n' ∈ h → n = n'

/-- In the history `h`, `handle_login` has come to the risk score of `user` on
a device with this row. -/
def LoginJudged (X : External) (srv : ProxyServer) (req : Request) (user : UserRow)
    (existing : Option DeviceRow) (h : List Event) (risk : RiskScore) : Prop :=
  ∃ rate check scores body id firstSeen lastSeen mfa,
    scores ++ (check ++ loginLookups X req body user id firstSeen lastSeen (.ok existing) rate)
      <:+ h ∧
    ParsesLogin X req body ∧ X.verifyPassword body.password user.passwordHash = .ok true ∧
    MfaRun X user body check (.ok mfa) ∧
    LoginRiskRun srv req user (loginDevice X req id firstSeen lastSeen user existing) existing scores
      (.ok risk)

theorem LoginJudged.scored {req : Request} {user : UserRow} {existing : Option DeviceRow}
    {h : List Event} {risk : RiskScore} (hjudged : LoginJudged X srv req user existing h risk) :
    LoginScored X srv req h risk := by
  obtain ⟨rate, check, scores, body, id, first, last, mfa, hsuf, -, hrest⟩ := hjudged
  exact ⟨rate, check, scores, body, user, id, first, last, existing, mfa, hsuf, hrest⟩

/-- A login that is forbidden has been judged, and its risk is what it is
refused for. -/
theorem LoginRun.judged {req : Request} {h : List Event} {e : ProxyError}
    (hrun : LoginRun X srv req h (.error e)) (hstatus : e.statusCode = 403) :
    ∃ user existing risk, LoginJudged X srv req user existing h risk ∧
      risk.recommendation = .block := by
  -- every other error has another status
  have hother (hcases : (∃ s, e = .redisError s) ∨ (∃ s, e = .jwtError s) ∨
      e = .rateLimitExceeded ∨ e = .mfaRequired ∨ e = .invalidMfaToken) : False := by
    rcases hcases with ⟨s, rfl⟩ | ⟨s, rfl⟩ | rfl | rfl | rfl <;> simp [ProxyError.statusCode] at hstatus
  generalize hr : (Except.error e : Except ProxyError Response) = r at hrun
  cases hrun with
  | limited rated =>
      obtain rfl := Except.error.inj hr
      obtain hredis | hlimited := rated.error_cases
      · exact (hother (.inl hredis)).elim
      · exact (hother (.inr (.inr (.inl hlimited)))).elim
  | @decided rate verdict body user existing _ id firstSeen lastSeen rated parsed active decision =>
      cases decision with
      | @blocked check scores audit mfa risk password gate scored block audited =>
          refine ⟨user, existing, risk, ⟨rate, check, scores, body, id, firstSeen, lastSeen, mfa, ?_,
            parsed, password, gate, scored⟩, block⟩
          simp only [List.append_assoc]
          exact List.suffix_append audit _
      | mfaRefused password gate =>
          obtain rfl := Except.error.inj hr
          exact (hother (.inr (.inr (.inr gate.error_cases)))).elim
      | riskFailed password gate scored =>
          cases scored
          obtain rfl := Except.error.inj hr
          simp [ProxyError.statusCode] at hstatus
      | opened password gate scored block opened =>
          rw [← hr] at opened
          obtain hredis | hjwt := opened.error_cases
          · exact (hother (.inl hredis)).elim
          · exact (hother (.inr (.inl hjwt))).elim
      | _ =>
          obtain rfl := Except.error.inj hr
          simp [ProxyError.statusCode] at hstatus
  | _ =>
      obtain rfl := Except.error.inj hr
      simp [ProxyError.statusCode] at hstatus

/-- A login that is refused for its risk has scored it. -/
theorem LoginRun.scored {req : Request} {h : List Event} {score threshold : ℕ}
    (hrun : LoginRun X srv req h (.error (.riskThresholdExceeded score threshold))) :
    ∃ risk, LoginScored X srv req h risk ∧ risk.recommendation = .block := by
  obtain ⟨user, existing, risk, hjudged, hblock⟩ := hrun.judged rfl
  exact ⟨risk, hjudged.scored, hblock⟩

/-- So has a proxied request. -/
theorem AuthorizeRun.blocked_scored {req : Request} {h : List Event} {score threshold : ℕ}
    (hrun : AuthorizeRun X srv req h (.error (.riskThresholdExceeded score threshold))) :
    ∃ risk, AuthorizeScored X srv req h risk ∧ risk.recommendation = .block := by
  generalize hr : (Except.error (.riskThresholdExceeded score threshold) :
    Except ProxyError Unit) = r at hrun
  cases hrun with
  | unauthenticated bearer =>
      obtain rfl := Except.error.inj hr
      simpa using bearer.error_cases
  | noSession bearer fetched =>
      obtain rfl := Except.error.inj hr
      simpa using fetched.error_cases
  | @scored token body scores evaluation gate claims session risk r bearer fetched owner policy score
      evaluated gated =>
      rw [← hr] at gated
      rcases gated.error_cases with heq | ⟨hblock, -⟩
      · simp at heq
      · refine ⟨risk, ⟨token, body, scores, claims, session, ?_, bearer, fetched, score⟩, hblock⟩
        rw [← List.append_assoc gate]
        exact List.suffix_append _ _
  | _ => simp at hr

/-! ### The ranges -/

/-- The score of a login, whatever its device is. -/
theorem login_score_range {req : Request} {h : List Event} {risk : RiskScore}
    (hone : OneReading h) (hscored : LoginScored X srv req h risk) :
    20 ≤ risk.totalScore ∧ risk.totalScore ≤ 75 := by
  obtain ⟨rate, check, scores, body, user, id, first, last, existing, mfa, hsuf, -, -, hrisk⟩ := hscored
  cases hrisk with
  | scored seen timestamp now =>
      have hseen : first = now := by
        refine hone .firstSeen .deviceAge first now (hsuf.subset ?_) (hsuf.subset ?_)
        · simp [loginLookups]
        · simp
      generalize hdevice : ({ (if existing.isSome then
          (loginDevice X req id first last user existing).increaseTrust 10
        else loginDevice X req id first last user existing) with lastSeen := seen } :
        DeviceFingerprint) = device
      have hnew : device.firstSeen = now := by
        rw [← hseen, ← hdevice]
        cases existing <;> rfl
      rw [RiskEngine.totalScore_eq _ _ rfl]
      show 20 ≤ min (RiskEngine.calculateDeviceRisk now device + RiskEngine.timeScore timestamp + 0 + 0)
          100 ∧
        min (RiskEngine.calculateDeviceRisk now device + RiskEngine.timeScore timestamp + 0 + 0) 100 ≤ 75
      rw [RiskEngine.calculateDeviceRisk_new hnew]
      have htime := RiskEngine.timeScore_le timestamp
      split <;> split <;> omega

/-- The score of a proxied request whose session is live. -/
theorem authorize_score_range (hrun : Run A w tr) {t : ℕ} {req : Request} {risk : RiskScore}
    (hone : OneReading (own t tr)) (hscored : AuthorizeScored X srv req (own t tr) risk) :
    20 ≤ risk.totalScore ∧ risk.totalScore ≤ 85 ∧
      (srv.config.sessionDurationMinutes ≤ 120 → risk.totalScore ≤ 70) ∧
      (srv.config.sessionDurationMinutes ≤ 60 → risk.totalScore ≤ 55) := by
  obtain ⟨token, body, scores, claims, session, hsuf, hbearer, hfetch, hrisk⟩ := hscored
  cases hrisk with
  | intro id first last ageAt timestamp now =>
      have hret : .getSessionReturn claims.sessionId (.ok session) ::
          (body ++ [Event.getSessionCall claims.sessionId] ++ token) <:+ own t tr :=
        (List.suffix_append _ _).trans hsuf
      obtain ⟨_, l, checked, hbody, -, hcheck, -, _, _, _, _, _, x, -, hx, hcreated, hlive⟩ :=
        returned_created hrun hret
      have hsession : session.createdAt = x.createdAt :=
        show session.fixed.createdAt = x.fixed.createdAt by rw [hx]
      -- all readings are that of the expiry check
      have hreading {use : ClockUse} {n : Int} (hn : .utcNow use n ∈ own t tr) : checked = n := by
        refine hone .isExpired use checked n (hret.subset (List.mem_cons_of_mem _ ?_)) hn
        rw [hbody]
        exact List.mem_append_left _ hcheck
      obtain rfl := hreading (hsuf.subset (by simp) : .utcNow .deviceAge now ∈ own t tr)
      obtain rfl := hreading (hsuf.subset (by simp) : .utcNow .firstSeen first ∈ own t tr)
      obtain rfl := hreading (hsuf.subset (by simp) : .utcNow .sessionAge ageAt ∈ own t tr)
      have hissued := hbearer.bearer.issued hrun ((List.suffix_append _ _).trans
        ((List.suffix_append _ _).trans hsuf))
      have hdevice := (returned_agrees hrun hissued (hret.subset List.mem_cons_self)).deviceId
      have hage {m : Int} (hm : srv.config.sessionDurationMinutes ≤ m) :
          Duration.numMinutes (checked - session.createdAt) ≤ m := by
        refine (Duration.numMinutes_le ?_ ?_).trans hm
        · omega
        · omega
      have hnew : RiskEngine.calculateDeviceRisk checked (requestDevice (.build X id checked last
          claims.sub session.userAgent req.remoteIp.text .empty) session claims) = 20 := by
        refine (RiskEngine.calculateDeviceRisk_new ?_).trans ?_
        · rfl
        · simp [requestDevice, hdevice]
      have htotal : (srv.riskEngine.calculateRisk checked (requestContext X req session claims
          (.build X id checked last claims.sub session.userAgent req.remoteIp.text .empty) checked
          timestamp)).totalScore =
          min (20 + RiskEngine.timeScore timestamp +
            RiskEngine.ipScore (X.parseIp session.ipAddress) req.remoteIp +
            RiskEngine.calculateSessionAgeRisk (Duration.numMinutes (checked - session.createdAt)))
            100 := by
        rw [RiskEngine.totalScore_eq _ _ rfl, ← hnew]
        rfl
      have htime := RiskEngine.timeScore_le timestamp
      have hip := RiskEngine.ipScore_le (X.parseIp session.ipAddress) req.remoteIp
      have hmax := RiskEngine.calculateSessionAgeRisk_le
        (Duration.numMinutes (checked - session.createdAt))
      rw [htotal]
      refine ⟨by omega, by omega, fun hduration => ?_, fun hduration => ?_⟩
      · have hfifteen := RiskEngine.calculateSessionAgeRisk_le_of_le (hage hduration)
        omega
      · have hzero := RiskEngine.calculateSessionAgeRisk_eq_zero (hage hduration)
        omega

/-- A score below both thresholds is allowed. -/
theorem RiskEngine.recommend_allow {engine : RiskEngine} {score : ℕ}
    (hstep : score < engine.stepUpThreshold) (hblock : score < engine.blockThreshold) :
    engine.recommend score = .allow := by
  simp only [RiskEngine.recommend, if_neg (Nat.not_le.mpr hblock), if_neg (Nat.not_le.mpr hstep)]

theorem RiskEngine.blockThreshold_le {engine : RiskEngine} {score : ℕ}
    (h : engine.recommend score = .block) : engine.blockThreshold ≤ score := by
  by_contra hlt
  simp only [RiskEngine.recommend, if_neg hlt] at h
  split at h <;> simp at h

theorem LoginScored.recommendation {req : Request} {h : List Event} {risk : RiskScore}
    (hscored : LoginScored X srv req h risk) :
    risk.recommendation = srv.riskEngine.recommend risk.totalScore := by
  obtain ⟨_, _, _, _, _, _, _, _, _, _, -, -, -, hrisk⟩ := hscored
  cases hrisk
  rfl

theorem AuthorizeScored.recommendation {req : Request} {h : List Event} {risk : RiskScore}
    (hscored : AuthorizeScored X srv req h risk) :
    risk.recommendation = srv.riskEngine.recommend risk.totalScore := by
  obtain ⟨_, _, _, _, _, -, -, -, hrisk⟩ := hscored
  cases hrisk
  rfl

/-- **The range of live scores.** For a request whose readings of the clock
agree, the score of a login is between 20 and 75, and that of a proxied request
is at least 20 and at most 55, 70 or 85, by the lifetime of sessions. With
thresholds beyond these, nothing is refused for its risk and no proxied request
is asked for a step-up. -/
theorem live_risk_range (hrun : Reachable w tr) {t : ℕ} (hone : OneReading (own t tr))
    (req : Request) :
    (∀ risk, LoginScored X srv req (own t tr) risk → 20 ≤ risk.totalScore ∧ risk.totalScore ≤ 75) ∧
    (∀ risk, AuthorizeScored X srv req (own t tr) risk →
      20 ≤ risk.totalScore ∧ risk.totalScore ≤ 85 ∧
        (srv.config.sessionDurationMinutes ≤ 120 → risk.totalScore ≤ 70) ∧
        (srv.config.sessionDurationMinutes ≤ 60 → risk.totalScore ≤ 55)) ∧
    (55 < srv.config.stepUpThreshold → 75 < srv.config.blockThreshold →
      srv.config.sessionDurationMinutes ≤ 60 →
      (∀ r score threshold, (handleLogin X srv req).Ends (own t tr) r →
        r ≠ .error (.riskThresholdExceeded score threshold)) ∧
      (∀ r score threshold, (authorize X srv req).Ends (own t tr) r →
        r ≠ .error (.riskThresholdExceeded score threshold)) ∧
      ∀ risk, AuthorizeScored X srv req (own t tr) risk → risk.recommendation = .allow) := by
  have hlogin {risk : RiskScore} (hscored : LoginScored X srv req (own t tr) risk) :=
    login_score_range hone hscored
  have hproxied {risk : RiskScore} (hscored : AuthorizeScored X srv req (own t tr) risk) :=
    authorize_score_range hrun hone hscored
  refine ⟨fun risk => hlogin, fun risk => hproxied, fun hstep hblock hduration => ?_⟩
  have hallow (risk : RiskScore) (hscored : AuthorizeScored X srv req (own t tr) risk) :
      risk.recommendation = .allow := by
    have hle := (hproxied hscored).2.2.2 hduration
    rw [hscored.recommendation]
    apply RiskEngine.recommend_allow
    · show risk.totalScore < srv.config.stepUpThreshold
      omega
    · show risk.totalScore < srv.config.blockThreshold
      omega
  refine ⟨?_, ?_, hallow⟩
  · rintro _ score threshold hend rfl
    obtain ⟨risk, hscored, hrec⟩ := (handleLogin_ends hend).scored
    have hle := (hlogin hscored).2
    rw [hscored.recommendation] at hrec
    have hge : srv.config.blockThreshold ≤ risk.totalScore := RiskEngine.blockThreshold_le hrec
    omega
  · rintro _ score threshold hend rfl
    obtain ⟨risk, hscored, hrec⟩ := (authorize_ends hend).blocked_scored
    simp [hallow risk hscored] at hrec

/-! ### A run -/

theorem LoginScored.mono {req : Request} {h h' : List Event} {risk : RiskScore}
    (hscored : LoginScored X srv req h risk) (hsub : h <:+ h') : LoginScored X srv req h' risk := by
  obtain ⟨rate, check, scores, body, user, id, first, last, existing, mfa, hsuf, hrest⟩ := hscored
  exact ⟨rate, check, scores, body, user, id, first, last, existing, mfa, hsuf.trans hsub, hrest⟩

theorem AuthorizeScored.mono {req : Request} {h h' : List Event} {risk : RiskScore}
    (hscored : AuthorizeScored X srv req h risk) (hsub : h <:+ h') :
    AuthorizeScored X srv req h' risk := by
  obtain ⟨token, body, scores, claims, session, hsuf, hrest⟩ := hscored
  exact ⟨token, body, scores, claims, session, hsuf.trans hsub, hrest⟩

theorem LoginRun.ok_scored {req : Request} {h : List Event} {o : Response}
    (hrun : LoginRun X srv req h (.ok o)) : ∃ risk, LoginScored X srv req h risk := by
  cases hrun with
  | @decided rate verdict body user existing _ id firstSeen lastSeen rated parsed active decision =>
      cases decision with
      | @opened check scores session mfa risk _ password gate scored block opened =>
          refine ⟨risk, rate, check, scores, body, user, id, firstSeen, lastSeen, existing, mfa, ?_,
            password, gate, scored⟩
          simp only [List.append_assoc]
          exact List.suffix_append session _

theorem AuthorizeRun.ok_scored {req : Request} {h : List Event}
    (hrun : AuthorizeRun X srv req h (.ok ())) : ∃ risk, AuthorizeScored X srv req h risk := by
  cases hrun with
  | @scored token body scores evaluation gate claims session risk _ bearer fetched owner policy score
      evaluated gated =>
      refine ⟨risk, token, body, scores, claims, session, ?_, bearer, fetched, score⟩
      rw [← List.append_assoc gate]
      exact List.suffix_append _ _

/-- The step takes no reading of the clock but `n`. -/
def Entry.readsAt (n : Int) (x : Entry (proxySystem X srv)) : Bool :=
  match x.item with
  | .act (.utcNow _ m) => decide (m = n)
  | _ => true

theorem reading_of_readsAt {n : Int} (h : tr.all (Entry.readsAt n) = true) {t : ℕ} {use : ClockUse}
    {m : Int} (hm : .utcNow use m ∈ own t tr) : m = n := by
  obtain ⟨w₀, hmem⟩ := mem_own.mp hm
  exact of_decide_eq_true (List.all_eq_true.mp h _ hmem)

theorem oneReading_of_readsAt {n : Int} (h : tr.all (Entry.readsAt n) = true) (t : ℕ) :
    OneReading (own t tr) := by
  intro use use' m m' hm hm'
  exact (reading_of_readsAt h hm).trans (reading_of_readsAt h hm').symm

/-- What a thread that has answered 200 had done. -/
theorem answered_route (hrun : Run A w tr) {t : ℕ} {route : Route}
    (hbegins : Scenario.begins t route tr = true) (hanswered : Scenario.answered t tr = true) :
    ∃ q o pre, pre <:+ tr ∧ (handleRoute X srv q route).Ends (own t pre) (.ok o) := by
  obtain ⟨w₁, o, hdone, hok⟩ := Scenario.exists_answer hanswered
  obtain ⟨q, hq, rfl⟩ := Scenario.exists_started hbegins
  obtain ⟨post, pre, q', r, rfl, -, hq', hend, rfl⟩ := answered_ends hrun hdone
  have hsuf : pre <:+ post ++ (⟨t, w₁, .done (respond r)⟩ : Entry (proxySystem X srv)) :: pre :=
    (List.suffix_cons _ _).trans (List.suffix_append _ _)
  obtain rfl := hrun.started_unique hq (hq'.mono hsuf.subset)
  obtain ⟨o, rfl⟩ := respond_ok hok
  exact ⟨q, o, pre, hsuf, hend⟩

open Scenario in
/-- A login and a proxied request with its token. -/
theorem live_risk_range_run : ∃ (w : World) (tr : ProxyTrace external server) (q q' : Request)
    (risk risk' : RiskScore), Reachable w tr ∧ OneReading (own 0 tr) ∧ OneReading (own 1 tr) ∧
      LoginScored external server q (own 0 tr) risk ∧ risk.totalScore ≤ 75 ∧
      AuthorizeScored external server q' (own 1 tr) risk' ∧ risk'.totalScore ≤ 55 ∧
      risk'.recommendation = .allow := by
  have hplay : plays (fun _ _ => True) [alice]
      (.start 0 (login aliceLogin) :: steps 0 24 ++
        .start 1 (authorized "GET" "/data" "token-0" "") :: steps 1 22)
      (fun p => p.trace.all (Entry.readsAt (Duration.seconds 59)) && answered 0 p.trace &&
        answered 1 p.trace && begins 0 .login p.trace && begins 1 .proxied p.trace) = true := by
    decide +kernel
  obtain ⟨p, hrun, hcheck⟩ := run_of_plays (world_initial (by simp) (by simp) (by simp)) hplay
  simp only [Bool.and_eq_true] at hcheck
  obtain ⟨⟨⟨⟨hreads, hlogin⟩, hproxied⟩, hstart⟩, hstart'⟩ := hcheck
  have hone (t : ℕ) : OneReading (own t p.trace) := oneReading_of_readsAt hreads t
  obtain ⟨q, o, pre, hpre, hend⟩ := answered_route hrun hstart hlogin
  obtain ⟨risk, hscored⟩ := (handleLogin_ends hend).ok_scored
  have hscored₀ := hscored.mono (own_suffix hpre 0)
  obtain ⟨q', o', pre', hpre', hend'⟩ := answered_route hrun hstart' hproxied
  obtain ⟨_, h₁, h₂, hown, hgate, -⟩ | ⟨e, heq, -⟩ := ends_bind.mp hend'
  · obtain ⟨risk', hscored'⟩ := (authorize_ends hgate).ok_scored
    have hsuf : h₁ <:+ own 1 p.trace := (hown ▸ List.suffix_append h₂ h₁).trans (own_suffix hpre' 1)
    have hscored₁ := hscored'.mono hsuf
    have hrange := (live_risk_range hrun (hone 0) q).1 risk hscored₀
    obtain ⟨-, hrange', hallow⟩ := live_risk_range hrun (hone 1) q'
    exact ⟨p.world, p.trace, q, q', risk, risk', hrun, hone 0, hone 1, hscored₀, hrange.2, hscored₁,
      (hrange' risk' hscored₁).2.2.2 (by decide),
      (hallow (by decide) (by decide) (by decide)).2.2 risk' hscored₁⟩
  · simp at heq

end ZeroTrustProxy
