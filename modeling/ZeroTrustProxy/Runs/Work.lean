import ZeroTrustProxy.Concurrent.Cost
import ZeroTrustProxy.Runs.Provenance
import ZeroTrustProxy.Runs.Scenario

/-!
How much work a request makes.

What a handler asks of the stores, the clock and the token library is bounded whatever it is
replied, and the bound does not depend on what is stored. The one exception is `logout_all`,
which looks at every key that a SCAN yields, those of the other users' sessions too: it makes
one call for each page and at most three for each key.
-/

namespace ZeroTrustProxy

open Concurrent Program Handler SessionManager JwtManager TotpManager AuditLogger

variable {X : External} {srv : ProxyServer} {req : Request} {α : Type} {n : ℕ}

/-! ### Replies -/

theorem okOr_costs {e : ProxyError} {x : Option α} : Costs 0 (okOr e x) := by
  cases x with
  | some a => exact costs_ret
  | none => exact costs_throw

theorem unwrap_costs {err : String → ProxyError} {x : Except Fault α} : Costs 0 (unwrap err x) := by
  cases x with
  | ok a => exact costs_ret
  | error f => exact costs_throw

theorem mapErr_costs {err : String → ProxyError} {x : Except String α} :
    Costs 0 (mapErr err x) := by
  cases x with
  | ok a => exact costs_ret
  | error e => exact costs_throw

theorem ignore_costs {p : Handler α} (hp : Costs n p) : Costs n (ignore p) :=
  costs_bind (costs_attempt hp) (by omega) fun _ => costs_ret

/-- There is no reply to a panic, and so no call. -/
theorem panic_costs : Costs n (panic : Handler α) := fun x => x.elim

theorem utcNow_costs {use : ClockUse} : Costs 1 (utcNow use) := costs_call fun _ => costs_ret

theorem newUuid_costs : Costs 1 newUuid := costs_call fun _ => costs_ret

theorem generateSecret_costs : Costs 1 Handler.generateSecret := costs_call fun _ => costs_ret

theorem bearerClaims_costs : Costs 1 (bearerClaims req) :=
  costs_bind costs_ofExcept (by omega) fun _ => costs_call fun _ => mapErr_costs

/-! ### Sessions and tokens -/

theorem createSession_costs {minutes : Int} {userId deviceId ipAddress userAgent : String} :
    Costs 3 (createSession minutes userId deviceId ipAddress userAgent) := by
  refine costs_bind (k := 2) ?_ (by omega) fun _ => ?_
  · refine costs_bind utcNow_costs (by omega) fun now => ?_
    refine costs_bind newUuid_costs (by omega) fun id => ?_
    exact costs_ite costs_ret panic_costs
  · refine costs_bind (costs_call fun _ => unwrap_costs) (by omega) fun _ => ?_
    exact costs_ret

theorem updateSession_costs {session : Session} : Costs 2 (updateSession session) := by
  refine costs_bind utcNow_costs (by omega) fun now => ?_
  exact costs_ite (costs_call fun _ => unwrap_costs) costs_ret

theorem deleteSession_costs {sessionId : String} : Costs 1 (deleteSession sessionId) :=
  costs_call fun _ => unwrap_costs

theorem fetchSession_costs {sessionId : String} : Costs 5 (fetchSession X sessionId) := by
  refine costs_bind (costs_call fun _ => unwrap_costs) (by omega) fun data => ?_
  cases data with
  | none => exact costs_throw
  | some serialized =>
      refine costs_bind mapErr_costs (by omega) fun session => ?_
      refine costs_bind utcNow_costs (by omega) fun now => ?_
      apply costs_ite
      · exact costs_bind deleteSession_costs (by omega) fun _ => costs_throw
      · refine costs_bind utcNow_costs (by omega) fun activity => ?_
        exact costs_bind updateSession_costs (by omega) fun _ => costs_ret

/-- Five calls, and the two marks of the history. -/
theorem getSession_costs {sessionId : String} : Costs 7 (getSession X sessionId) := by
  refine costs_call fun _ => ?_
  refine costs_bind (costs_attempt fetchSession_costs) (by omega) fun r => ?_
  exact costs_call fun _ => costs_ofExcept

theorem generateToken_costs {hours : Int} {userId deviceId sessionId : String} {score : ℕ}
    {mfa : Bool} : Costs 3 (generateToken hours userId deviceId score mfa sessionId) := by
  refine costs_bind utcNow_costs (by omega) fun now => ?_
  apply costs_ite
  · exact costs_bind newUuid_costs (by omega) fun _ => costs_call fun _ => mapErr_costs
  · exact panic_costs

theorem verifyOrFalse_costs {secret token : String} : Costs 1 (verifyOrFalse X secret token) := by
  have hverify : Costs 1 (verifyToken X .default secret token) := by
    unfold verifyToken
    split
    · exact panic_costs
    split
    · exact costs_throw
    refine costs_call fun x => ?_
    split
    · exact costs_ret
    · exact costs_throw
    · exact costs_throw
  refine costs_bind (costs_attempt hverify) (by omega) fun r => ?_
  cases r with
  | ok valid => exact costs_ret
  | error e => exact costs_ret

/-! ### Devices, scores and the audit log -/

theorem newDevice_costs {userId userAgent ipAddress : String} :
    Costs 3 (newDevice X userId userAgent ipAddress) := by
  refine costs_bind newUuid_costs (by omega) fun id => ?_
  refine costs_bind utcNow_costs (by omega) fun firstSeen => ?_
  exact costs_bind utcNow_costs (by omega) fun _ => costs_ret

theorem scoreRisk_costs {engine : RiskEngine} {context : RiskContext} :
    Costs 1 (scoreRisk engine context) := costs_bind utcNow_costs (by omega) fun _ => costs_ret

theorem storeDevice_costs {user : UserRow} {device : DeviceFingerprint} :
    Costs 1 (storeDevice req user device) := costs_call fun _ => unwrap_costs

/-- The id of an event is that of a uuid, so its row needs no other. -/
theorem log_costs {event : AuditEvent} {id : Uuid} (hid : event.id = id.text) :
    Costs 1 (log X event) := by
  have hparse : X.parseUuid event.id = some id := by rw [hid, X.parseUuid_text]
  simp only [log, hparse]
  exact costs_call fun _ => unwrap_costs

theorem logAuthentication_costs {userId deviceId ipAddress : String} {success : Bool} :
    Costs 3 (logAuthentication X userId deviceId ipAddress success) :=
  costs_call fun _ => costs_call fun _ => log_costs rfl

theorem logAuthorization_costs {userId ipAddress resource action : String} {allowed : Bool}
    {score : ℕ} : Costs 3 (logAuthorization X userId ipAddress resource action allowed score) :=
  costs_call fun _ => costs_call fun _ => log_costs rfl

theorem logRiskEvaluation_costs {userId deviceId ipAddress : String} {score : ℕ} {factors : Json} :
    Costs 3 (logRiskEvaluation X userId deviceId ipAddress score factors) :=
  costs_call fun _ => costs_call fun _ => log_costs rfl

/-! ### The gate and the backend -/

theorem evaluateRequestRisk_costs {session : Session} {claims : Claims} :
    Costs 6 (evaluateRequestRisk X srv req session claims) := by
  refine costs_bind newDevice_costs (by omega) fun device => ?_
  refine costs_bind utcNow_costs (by omega) fun ageAt => ?_
  exact costs_bind utcNow_costs (by omega) fun _ => scoreRisk_costs

theorem gateRequest_costs {session : Session} {claims : Claims} {risk : RiskScore} :
    Costs 3 (gateRequest X srv req session claims risk) := by
  apply costs_ite
  · exact costs_throw
  cases risk.recommendation with
  | block => exact costs_bind (ignore_costs logAuthorization_costs) (by omega) fun _ => costs_throw
  | stepUpAuth => exact costs_ite costs_throw (ignore_costs logAuthorization_costs)
  | allow => exact ignore_costs logAuthorization_costs

theorem authorize_costs : Costs 20 (authorize X srv req) := by
  refine costs_bind bearerClaims_costs (by omega) fun claims => ?_
  refine costs_bind getSession_costs (by omega) fun session => ?_
  apply costs_ite
  · exact costs_throw
  apply costs_ite
  · exact costs_bind (ignore_costs logAuthorization_costs) (by omega) fun _ => costs_throw
  refine costs_bind evaluateRequestRisk_costs (by omega) fun risk => ?_
  exact costs_bind (ignore_costs logRiskEvaluation_costs) (by omega) fun _ => gateRequest_costs

theorem forwardUpstream_costs : Costs 1 (forwardUpstream X srv req) := by
  refine costs_bind okOr_costs (by omega) fun body => ?_
  refine costs_bind okOr_costs (by omega) fun uri => ?_
  exact costs_bind (costs_call fun _ => mapErr_costs) (by omega) fun _ => costs_ret

/-! ### The handlers -/

theorem checkRateLimit_costs {ip : IpAddr} {bucket : String} {limit windowSecs : Int} :
    Costs 2 (checkRateLimit ip bucket limit windowSecs) := by
  refine costs_bind (costs_call fun _ => unwrap_costs) (by omega) fun count => ?_
  apply costs_ite
  · refine costs_bind (costs_call fun _ => unwrap_costs) (by omega) fun _ => ?_
    exact costs_ite costs_throw costs_ret
  · exact costs_ite costs_throw costs_ret

theorem refusePassword_costs {body : LoginBody} {user : UserRow} {device : DeviceFingerprint} :
    Costs 4 (refusePassword X req body user device) := by
  refine costs_bind storeDevice_costs (by omega) fun _ => ?_
  exact costs_bind (ignore_costs logAuthentication_costs) (by omega) fun _ => costs_throw

theorem loginMfa_costs {user : UserRow} {body : LoginBody} : Costs 1 (loginMfa X user body) := by
  apply costs_ite
  · refine costs_bind okOr_costs (by omega) fun secret => ?_
    cases body.mfaToken with
    | none => exact costs_throw
    | some token =>
        exact costs_bind verifyOrFalse_costs (by omega) fun _ => costs_ite costs_ret costs_throw
  · exact costs_ret

theorem loginRisk_costs {user : UserRow} {device : DeviceFingerprint}
    {existing : Option DeviceRow} : Costs 4 (loginRisk srv req user device existing) := by
  refine costs_bind utcNow_costs (by omega) fun lastSeen => ?_
  refine costs_bind storeDevice_costs (by omega) fun _ => ?_
  exact costs_bind utcNow_costs (by omega) fun _ => scoreRisk_costs

theorem startSession_costs {user : UserRow} {deviceId userAgent : String} {mfa : Bool}
    {risk : RiskScore} :
    Costs 11 (startSession X srv req user deviceId userAgent mfa risk) := by
  refine costs_bind createSession_costs (by omega) fun session => ?_
  refine costs_bind updateSession_costs (by omega) fun _ => ?_
  refine costs_bind (ignore_costs logAuthentication_costs) (by omega) fun _ => ?_
  exact costs_bind generateToken_costs (by omega) fun _ => costs_ret

theorem openSession_costs {body : LoginBody} {user : UserRow} {userAgent : String} {mfa : Bool}
    {risk : RiskScore} : Costs 12 (openSession X srv req body user userAgent mfa risk) := by
  unfold openSession
  cases body.deviceId with
  | some deviceId => exact startSession_costs.le (by omega)
  | none => exact costs_bind newUuid_costs (by omega) fun _ => startSession_costs

theorem handleLogin_costs : Costs 24 (handleLogin X srv req) := by
  refine costs_bind checkRateLimit_costs (by omega) fun _ => ?_
  refine costs_bind okOr_costs (by omega) fun bytes => ?_
  refine costs_bind okOr_costs (by omega) fun body => ?_
  refine costs_bind (costs_call fun _ => unwrap_costs) (by omega) fun found => ?_
  refine costs_bind okOr_costs (by omega) fun user => ?_
  refine costs_bind newDevice_costs (by omega) fun device => ?_
  refine costs_bind (costs_call fun _ => unwrap_costs) (by omega) fun existing => ?_
  refine costs_bind mapErr_costs (by omega) fun passwordOk => ?_
  apply costs_ite
  · exact refusePassword_costs.le (by omega)
  refine costs_bind loginMfa_costs (by omega) fun mfa => ?_
  refine costs_bind loginRisk_costs (by omega) fun risk => ?_
  apply costs_ite
  · exact costs_bind (ignore_costs logAuthentication_costs) (by omega) fun _ => costs_throw
  · exact openSession_costs

theorem handleRegister_costs : Costs 5 (handleRegister X req) := by
  refine costs_bind checkRateLimit_costs (by omega) fun _ => ?_
  refine costs_bind okOr_costs (by omega) fun bytes => ?_
  refine costs_bind okOr_costs (by omega) fun body => ?_
  apply costs_ite
  · exact costs_throw
  refine costs_bind (costs_call fun _ => unwrap_costs) (by omega) fun found => ?_
  apply costs_ite
  · exact costs_throw
  refine costs_bind (costs_call fun _ => mapErr_costs) (by omega) fun hash => ?_
  refine costs_bind (k := 1) (costs_call fun x => ?_) (by omega) fun _ => costs_ret
  cases x with
  | ok row => exact costs_ret
  | error f => exact costs_throw

theorem handleMfaEnroll_costs : Costs 4 (handleMfaEnroll X req) := by
  refine costs_bind bearerClaims_costs (by omega) fun claims => ?_
  refine costs_bind okOr_costs (by omega) fun userId => ?_
  refine costs_bind (costs_call fun _ => unwrap_costs) (by omega) fun found => ?_
  refine costs_bind okOr_costs (by omega) fun user => ?_
  refine costs_bind generateSecret_costs (by omega) fun secret => ?_
  exact costs_bind (costs_call fun _ => unwrap_costs) (by omega) fun _ => costs_ret

theorem handleMfaVerify_costs : Costs 14 (handleMfaVerify X req) := by
  refine costs_bind checkRateLimit_costs (by omega) fun _ => ?_
  refine costs_bind bearerClaims_costs (by omega) fun claims => ?_
  refine costs_bind okOr_costs (by omega) fun bytes => ?_
  refine costs_bind okOr_costs (by omega) fun body => ?_
  refine costs_bind okOr_costs (by omega) fun userId => ?_
  refine costs_bind (costs_call fun _ => unwrap_costs) (by omega) fun found => ?_
  refine costs_bind okOr_costs (by omega) fun user => ?_
  refine costs_bind okOr_costs (by omega) fun secret => ?_
  refine costs_bind verifyOrFalse_costs (by omega) fun valid => ?_
  apply costs_ite
  · exact costs_throw
  refine costs_bind getSession_costs (by omega) fun session => ?_
  exact costs_bind updateSession_costs (by omega) fun _ => costs_ret

theorem handleLogout_costs : Costs 2 (handleLogout req) := by
  refine costs_bind bearerClaims_costs (by omega) fun claims => ?_
  exact costs_bind deleteSession_costs (by omega) fun _ => costs_ret

/-! ### What a SCAN brings -/

/-- The calls a reply to a SCAN asks for: one for every page to come, and for every key a read,
a reading of the clock and a deletion. -/
def scanCredit : Event → ℕ
  | .redisScan (.ok (keys, left)) => left + 3 * keys.length
  | .redisScanNext _ (.ok keys) => 3 * keys.length
  | _ => 0

/-- The pages pay for their keys. -/
theorem scanRest_affords (left : ℕ) :
    (scanRest left).Affords scanCredit (fun keys => 3 * keys.length) left := by
  induction left with
  | zero => exact affords_ret le_rfl
  | succ left ih =>
      refine affords_call fun x => ?_
      cases x with
      | error f => exact affords_ret (Nat.zero_le _)
      | ok keys =>
          -- what this page brings is kept until the others have been read
          refine affords_bind (ih.frame (3 * keys.length)) fun more => affords_ret ?_
          simp only [List.length_append]
          omega

theorem scanSessionKeys_affords :
    scanSessionKeys.Affords scanCredit (fun keys => 3 * keys.length) 1 := by
  refine affords_call fun x => ?_
  rcases x with f | ⟨keys, left⟩
  · exact affords_throw
  · have hrest := (scanRest_affords left).frame (3 * keys.length)
    show (scanRest left >>= fun more => pure (keys ++ more)).Affords _ _
      (0 + (left + 3 * keys.length))
    refine affords_bind (hrest.le (by omega)) fun more => affords_ret ?_
    simp only [List.length_append]
    omega

theorem readUserSession_affords {userId key : String} :
    (readUserSession X userId key).Affords scanCredit (fun found => found.toList.length) 3 := by
  refine affords_call fun x => ?_
  split
  · split
    · apply affords_ite
      · refine affords_call fun now => ?_
        refine affords_ret ?_
        split <;> simp
      · exact affords_ret (by simp)
    · exact affords_ret (by simp)
  · exact affords_ret (by simp)

/-- After the reads of a key there is one call left for the session that was found. -/
theorem readUserSessions_affords {userId : String} (keys : List String) :
    (readUserSessions X userId keys).Affords scanCredit List.length (3 * keys.length) := by
  induction keys with
  | nil => exact affords_ret le_rfl
  | cons key keys ih =>
      have hread := (@readUserSession_affords X userId key).frame (3 * keys.length)
      refine affords_bind (hread.le (by simp only [List.length_cons]; omega)) fun found => ?_
      have hrest := ih.frame found.toList.length
      refine affords_bind (hrest.le (by omega)) fun more => affords_ret ?_
      simp only [List.length_append]
      omega

theorem deleteSessions_affords (sessions : List Session) :
    (deleteSessions sessions).Affords scanCredit (fun _ => 0) sessions.length := by
  induction sessions with
  | nil => exact affords_ret le_rfl
  | cons session sessions ih =>
      exact affords_seq deleteSession_costs.affords (fun _ => ih)
        (by simp only [List.length_cons]; omega)

theorem handleLogoutAll_affords :
    (handleLogoutAll X req).Affords scanCredit (fun _ => 0) 2 := by
  refine affords_seq (n := 1) bearerClaims_costs.affords (fun claims => ?_) le_rfl
  refine affords_bind (Q := fun _ => 0) ?_ fun revoked => affords_ret le_rfl
  refine affords_bind (Q := List.length) ?_ fun sessions => ?_
  · exact affords_bind scanSessionKeys_affords readUserSessions_affords
  · exact affords_bind (deleteSessions_affords sessions) fun _ => affords_ret le_rfl

/-! ### Requests -/

/-- What a request is given to spend when it arrives. -/
def Route.budget : Route → ℕ
  | .health | .metrics => 0
  | .login => 24
  | .register => 5
  | .mfaEnroll => 4
  | .mfaVerify => 14
  | .logout | .logoutAll => 2
  | .proxied => 21

theorem handleRoute_costs {route : Route} (hroute : route ≠ .logoutAll) :
    Costs route.budget (handleRoute X srv req route) := by
  cases route with
  | health => exact costs_ret
  | metrics => exact costs_ret
  | login => exact handleLogin_costs
  | register => exact handleRegister_costs
  | mfaEnroll => exact handleMfaEnroll_costs
  | mfaVerify => exact handleMfaVerify_costs
  | logout => exact handleLogout_costs
  | logoutAll => exact (hroute rfl).elim
  | proxied => exact costs_bind authorize_costs (by decide) fun _ => forwardUpstream_costs

theorem handleRoute_affords (route : Route) :
    (handleRoute X srv req route).Affords scanCredit (fun _ => 0) route.budget := by
  by_cases hroute : route = .logoutAll
  · subst hroute
    exact handleLogoutAll_affords
  · exact (handleRoute_costs hroute).affords

/-- The answer is made without any further call. -/
theorem handleRequest_affords {credit : Event → ℕ} {n : ℕ}
    (hroute : (handleRoute X srv req req.route).Affords credit (fun _ => 0) n) :
    (handleRequest X srv req).Affords credit (fun _ => 0) n := by
  refine affords_bind (affords_attempt hroute) fun result => ?_
  cases result with
  | ok o => exact affords_ret le_rfl
  | error e => exact affords_ret le_rfl

/-! ### Runs -/

variable {A : ProxyTrace X srv → Entry (proxySystem X srv) → Prop} {w : World}
  {tr : ProxyTrace X srv}

theorem budget_le (route : Route) : route.budget ≤ 24 := by
  cases route <;> decide

/-- **The work of the proxy is bounded.** A request makes at most a number of calls that is
fixed by its route; a `logout_all` makes one more for every page of its SCAN and three more
for every key it is given. Whatever is under way at once, all requests together make at most
24 calls for each that has arrived, and what the SCANs have asked for. -/
theorem work_bounded (hrun : Run A w tr) :
    (∀ (t : ℕ) (q : Request), Started t q tr →
      (own t tr).length ≤ q.route.budget + ((own t tr).map scanCredit).sum ∧
        (q.route ≠ .logoutAll → (own t tr).length ≤ q.route.budget)) ∧
      spent tr ≤ 24 * arrivals tr + supplied (fun _ => 0) scanCredit tr := by
  refine ⟨fun t q hq => ⟨?_, fun hroute => ?_⟩, ?_⟩
  · exact hrun.own_length_le (handleRequest_affords (handleRoute_affords q.route)) hq
  · have hcosts : Costs q.route.budget (handleRoute X srv q q.route) := handleRoute_costs hroute
    simpa using hrun.own_length_le (handleRequest_affords hcosts) hq
  · calc spent tr
        ≤ supplied (fun q : Request => q.route.budget) scanCredit tr :=
          hrun.spent_le fun q => handleRequest_affords (handleRoute_affords q.route)
      _ ≤ _ := supplied_le fun q => budget_le q.route

namespace Scenario

/-- Alice logs in twice and then out from everywhere, which takes all that it is given. -/
theorem work_bounded_run : ∃ (w : World) (tr : ProxyTrace external server) (q : Request),
    Reachable w tr ∧ Started 2 q tr ∧ q.route = .logoutAll ∧
      (own 2 tr).length = q.route.budget + ((own 2 tr).map scanCredit).sum ∧
      spent tr ≤ 24 * arrivals tr + supplied (fun _ => 0) scanCredit tr := by
  have hplay : plays (fun _ _ => True) [alice]
      (.start 0 (login aliceLogin) :: steps 0 24 ++ .start 1 (login aliceLogin) :: steps 1 23 ++
        .start 2 (authorized "POST" "/auth/logout_all" "token-0" "") :: steps 2 9)
      (fun p => decide ((own 2 p.trace).length = 2 + ((own 2 p.trace).map scanCredit).sum) &&
        p.trace.any fun y => decide (y.tid = 2) && y.item.isStart fun (q : Request) =>
          decide (q.route = .logoutAll)) = true := by decide +kernel
  obtain ⟨p, hrun, hcheck⟩ := run_of_plays (world_initial (by decide) (by decide) (by decide)) hplay
  obtain ⟨hlength, hstart⟩ := Bool.and_eq_true_iff.mp hcheck
  obtain ⟨⟨t, w₀, item⟩, hy, hy'⟩ := List.any_eq_true.mp hstart
  obtain ⟨htid, hitem⟩ := Bool.and_eq_true_iff.mp hy'
  obtain rfl : t = 2 := of_decide_eq_true htid
  obtain ⟨q, rfl, hroute⟩ := Item.isStart_eq hitem
  have hroute := of_decide_eq_true hroute
  obtain ⟨hthreads, hall⟩ := work_bounded hrun
  have hlength := of_decide_eq_true hlength
  refine ⟨p.world, p.trace, q, hrun, ⟨w₀, hy⟩, hroute, ?_, hall⟩
  exact le_antisymm (hthreads 2 q ⟨w₀, hy⟩).1 (by rw [hlength, hroute]; rfl)

end Scenario

end ZeroTrustProxy
