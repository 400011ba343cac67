import ZeroTrustProxy.Concurrent.Alphabet
import ZeroTrustProxy.Contract.RegisterExits
import ZeroTrustProxy.Runs.Agreement
import ZeroTrustProxy.Runs.Recorded
import ZeroTrustProxy.Runs.Upstream

/-!
What is stored fits together.

The handlers check more than a client can get wrong: that the record of a session can be
read, that it is of the subject of the token, that this subject is an identifier and has
an account. These checks are about the tokens, the session records and the accounts among
each other, which are kept in three places and written by statements that have nothing to
hold them together. None of them ever fails.
-/

namespace ZeroTrustProxy

open Concurrent Program Handler

variable {X : External} {srv : ProxyServer}
  {A : ProxyTrace X srv → Entry (proxySystem X srv) → Prop} {w : World} {tr : ProxyTrace X srv}
  {q : Request} {h : List Event} {t : ℕ} {claims : Claims}

/-- The errors by which a handler says that what is stored does not fit together. -/
inductive Inconsistency : Route → ProxyError → Prop
  | unreadable (route : Route) (s : String) : Inconsistency route (.serializationError s)
  | otherOwner : Inconsistency .proxied (.invalidSession "session/token subject mismatch")
  | badSubject {route : Route} (mfa : route = .mfaEnroll ∨ route = .mfaVerify) :
      Inconsistency route (.authenticationFailed "invalid subject")
  | noAccount {route : Route} (mfa : route = .mfaEnroll ∨ route = .mfaVerify) :
      Inconsistency route (.authenticationFailed "user not found")

theorem Inconsistency.shape {route : Route} {e : ProxyError} (hin : Inconsistency route e) :
    (∃ s, e = .serializationError s) ∨ e = .invalidSession "session/token subject mismatch" ∨
      e = .authenticationFailed "invalid subject" ∨ e = .authenticationFailed "user not found" := by
  cases hin <;> simp

theorem Inconsistency.unreadable_of {route : Route} {e : ProxyError} (hin : Inconsistency route e)
    (hroute : route ∉ [.proxied, .mfaEnroll, .mfaVerify]) : ∃ s, e = .serializationError s := by
  cases hin with
  | unreadable route s => exact ⟨s, rfl⟩
  | otherOwner => simp at hroute
  | badSubject mfa => obtain rfl | rfl := mfa <;> simp at hroute
  | noAccount mfa => obtain rfl | rfl := mfa <;> simp at hroute

/-! ### The three checks -/

/-- Under the key of a session there is a session. -/
theorem record_readable (hrun : Run A w tr) {id : String} {data : RedisValue}
    (hread : .redisGet (sessionKey id) (.ok (some data)) ∈ own t tr) :
    ∃ x, data.parseSession X = .ok x := by
  obtain ⟨l, hl⟩ := suffix_of_mem hread
  obtain ⟨_, _, _, _, _, -, -, hbefore, -, -, hact⟩ := history_event hrun hl
  obtain ⟨-, hstored⟩ := World.read_reply hact
  obtain ⟨c, hc, rfl⟩ := Option.map_eq_some_iff.mp hstored.symm
  obtain ⟨x, hx, -, -⟩ := stored_origin hbefore hc
  exact ⟨x, by rw [hx]; rfl⟩

/-- `get_session` does not fail to read a record. -/
theorem FetchRun.readable (hrun : Run A w tr) {id s : String} {body : List Event}
    (hf : FetchRun X id body (.error (.serializationError s))) (hsub : body ⊆ own t tr) : False := by
  generalize hr : (Except.error (.serializationError s) : Except ProxyError Session) = r at hf
  cases hf with
  | failed => simp at hr
  | missing => simp at hr
  | unparsed parse =>
      obtain ⟨x, hx⟩ := record_readable hrun (hsub List.mem_cons_self)
      simp [parse] at hx
  | @expired x now r' expiry => cases r' <;> simp at hr
  | @live x now activity update r' live run =>
      cases r' with
      | ok u => simp [Except.map] at hr
      | error e =>
          obtain rfl := Except.error.inj hr
          simpa using run.error_cases

/-- The subject of a validated token is an identifier. -/
theorem Bearer.subject (hrun : Run A w tr) (hb : Bearer q (own t tr) claims) :
    ∃ userId, X.parseUuid claims.sub = some userId := by
  obtain ⟨user, hsub, -⟩ := token_user hrun hb List.suffix_rfl
  exact ⟨user.id, by rw [hsub, X.parseUuid_text]⟩

/-- The account of a validated token is found by every later lookup. -/
theorem Bearer.found (hrun : Run A w tr) {userId : Uuid}
    (hlookup : .findUserById userId (.ok none) :: h <:+ own t tr) (hb : Bearer q h claims)
    (hparse : X.parseUuid claims.sub = some userId) : False := by
  obtain ⟨post, pre, w₀, w₁, q', rfl, hown, hbefore, -, -, hact⟩ := history_event hrun hlookup
  obtain ⟨user, hsub, hknown⟩ := token_user hbefore hb (by rw [hown])
  obtain ⟨-, hnone⟩ := World.userById_reply hact
  have hsame : user.id = userId := by
    rw [hsub, X.parseUuid_text] at hparse
    exact Option.some.inj hparse
  rw [hsame, ← hnone] at hknown
  simp at hknown

/-- The errors of a token are other ones. -/
theorem BearerRun.consistent {e : ProxyError} {route : Route} (hb : BearerRun q h (.error e)) :
    ¬ Inconsistency route e := by
  intro hin
  cases hb with
  | invalid header => cases hin
  | noToken header =>
      simp only [JwtManager.extractTokenFromHeader] at header
      split at header
      · obtain rfl := Except.error.inj header
        simpa using hin.shape
      · split at header
        · simp at header
        · obtain rfl := Except.error.inj header
          simpa using hin.shape

/-- The errors of a rate limit are other ones. -/
theorem RateRun.consistent {key : String} {limit windowSecs : Int} {e : ProxyError} {route : Route}
    (hr : RateRun key limit windowSecs h (.error e)) : ¬ Inconsistency route e := by
  intro hin
  obtain ⟨s, rfl⟩ | rfl := hr.error_cases <;> cases hin

/-- The errors of a session that has been looked for in a run are other ones. -/
theorem FetchRun.consistent (hrun : Run A w tr) {id : String} {body : List Event} {e : ProxyError}
    {route : Route} (hf : FetchRun X id body (.error e)) (hsub : body ⊆ own t tr) :
    ¬ Inconsistency route e := by
  intro hin
  obtain ⟨s, rfl⟩ | ⟨s, rfl⟩ | rfl | rfl := hf.error_cases
  · cases hin
  · exact hf.readable hrun hsub
  · simpa using hin.shape
  · simpa using hin.shape

theorem UpdateRun.consistent {x : Session} {e : ProxyError} {route : Route}
    (hu : UpdateRun x h (.error e)) : ¬ Inconsistency route e := by
  intro hin
  obtain ⟨s, rfl⟩ := hu.error_cases
  cases hin

/-! ### The handlers -/

theorem authorize_consistent (hrun : Run A w tr) {later : List Event} {e : ProxyError}
    (hend : (authorize X srv q).Ends h (.error e)) (hown : own t tr = later ++ h) :
    ¬ Inconsistency .proxied e := by
  intro hin
  have hsub : h ⊆ own t tr := by simp [hown]
  have hexit := authorize_ends hend
  generalize hr : (Except.error e : Except ProxyError Unit) = r at hexit
  cases hexit with
  | unauthenticated bearer =>
      obtain rfl := Except.error.inj hr
      exact bearer.consistent hin
  | noSession bearer fetched =>
      obtain rfl := Except.error.inj hr
      refine fetched.consistent hrun (fun e he => hsub ?_) hin
      simp [sessionEvents, he]
  | @mismatch token body claims session bearer fetched owner =>
      have hsuf : sessionEvents claims.sessionId (.ok session) body ++ token <:+ own t tr := by
        rw [hown]
        exact List.suffix_append _ _
      have hissued := bearer.bearer.issued hrun ((List.suffix_append _ token).trans hsuf)
      have hret : .getSessionReturn claims.sessionId (.ok session) ∈ own t tr :=
        hsub (by simp [sessionEvents])
      exact owner (returned_agrees hrun hissued hret).userId
  | denied bearer fetched owner policy audited =>
      obtain rfl := Except.error.inj hr
      cases hin
  | scored bearer fetched owner policy score evaluated gated =>
      rw [← hr] at gated
      obtain rfl | ⟨-, rfl⟩ := gated.error_cases <;> cases hin

theorem handleMfaEnroll_consistent (hrun : Run A w tr) {e : ProxyError}
    (hend : (handleMfaEnroll X q).Ends (own t tr) (.error e)) : ¬ Inconsistency .mfaEnroll e := by
  intro hin
  have hexit := handleMfaEnroll_ends hend
  generalize hown : own t tr = l at hexit
  generalize hr : (Except.error e : Except ProxyError Response) = r at hexit
  cases hexit with
  | unauthenticated bearer =>
      obtain rfl := Except.error.inj hr
      exact bearer.consistent hin
  | badSubject bearer subject =>
      obtain ⟨userId, hparse⟩ := (hown ▸ bearer.bearer : Bearer q (own t tr) _).subject hrun
      simp [subject] at hparse
  | lookupFailed bearer subject =>
      obtain rfl := Except.error.inj hr
      cases hin
  | unknown bearer subject => exact bearer.bearer.found hrun (by rw [hown]) subject
  | written secret x bearer subject =>
      cases x with
      | ok u => simp [Except.map, Except.mapError] at hr
      | error f =>
          obtain rfl := Except.error.inj hr
          cases hin

theorem handleMfaVerify_consistent (hrun : Run A w tr) {e : ProxyError}
    (hend : (handleMfaVerify X q).Ends (own t tr) (.error e)) : ¬ Inconsistency .mfaVerify e := by
  intro hin
  have hexit := handleMfaVerify_ends hend
  generalize hown : own t tr = l at hexit
  generalize hr : (Except.error e : Except ProxyError Response) = r at hexit
  cases hexit with
  | limited rated =>
      obtain rfl := Except.error.inj hr
      exact rated.consistent hin
  | unauthenticated rated bearer =>
      obtain rfl := Except.error.inj hr
      exact bearer.consistent hin
  | unread rated bearer body =>
      obtain rfl := Except.error.inj hr
      cases hin
  | malformed rated bearer body parse =>
      obtain rfl := Except.error.inj hr
      simpa using hin.shape
  | badSubject rated bearer parsed subject =>
      have hb : Bearer q (own t tr) _ := bearer.bearer.of_subset (by simp [hown])
      obtain ⟨userId, hparse⟩ := hb.subject hrun
      simp [subject] at hparse
  | lookupFailed rated bearer parsed subject =>
      obtain rfl := Except.error.inj hr
      cases hin
  | @unknown rate token claims body userId rated bearer parsed subject =>
      have hb : Bearer q (token ++ rate) claims :=
        bearer.bearer.of_subset (List.subset_append_left _ _)
      exact hb.found hrun (by rw [hown]) subject
  | noSecret rated bearer parsed subject secret =>
      obtain rfl := Except.error.inj hr
      cases hin
  | decided rated bearer parsed subject stored decision =>
      rw [← hr] at decision
      generalize hr' : (Except.error e : Except ProxyError Response) = r' at decision
      cases decision with
      | refused checked =>
          obtain rfl := Except.error.inj hr'
          cases hin
      | noSession checked fetched =>
          obtain rfl := Except.error.inj hr'
          refine fetched.consistent (t := t) hrun (fun e he => ?_) hin
          simp [hown, sessionEvents, he]
      | @upgraded check body update session r'' checked fetched written =>
          cases r'' with
          | ok u => simp [Except.map] at hr'
          | error e' =>
              obtain rfl := Except.error.inj hr'
              exact written.consistent hin

theorem handleLogin_consistent {e : ProxyError} (hend : (handleLogin X srv q).Ends h (.error e)) :
    ¬ Inconsistency .login e := by
  intro hin
  obtain ⟨s, rfl⟩ := hin.unreadable_of (by decide)
  have hexit := handleLogin_ends hend
  generalize hr : (Except.error (.serializationError s) : Except ProxyError Response) = r at hexit
  cases hexit with
  | limited rated =>
      obtain rfl := Except.error.inj hr
      simpa using rated.error_cases
  | decided id firstSeen lastSeen rated parsed active decision =>
      cases decision with
      | mfaRefused password gate =>
          obtain rfl := Except.error.inj hr
          simpa using gate.error_cases
      | riskFailed password gate scored =>
          obtain rfl := Except.error.inj hr
          cases scored
      | opened password gate scored block opened =>
          rw [← hr] at opened
          simpa using opened.error_cases
      | _ => simp at hr
  | _ => simp at hr

theorem handleRegister_consistent {e : ProxyError} (hend : (handleRegister X q).Ends h (.error e)) :
    ¬ Inconsistency .register e := by
  intro hin
  obtain ⟨s, rfl⟩ := hin.unreadable_of (by decide)
  have hexit := handleRegister_ends hend
  generalize hr : (Except.error (.serializationError s) : Except ProxyError Response) = r at hexit
  cases hexit with
  | limited rated =>
      obtain rfl := Except.error.inj hr
      simpa using rated.error_cases
  | _ => simp at hr

theorem handleLogout_consistent {e : ProxyError} (hend : (handleLogout q).Ends h (.error e)) :
    ¬ Inconsistency .logout e := by
  intro hin
  have hexit := handleLogout_ends hend
  generalize hr : (Except.error e : Except ProxyError Response) = r at hexit
  cases hexit with
  | unauthenticated bearer =>
      obtain rfl := Except.error.inj hr
      exact bearer.consistent hin
  | deleted x bearer =>
      cases x with
      | ok u => simp [Except.map, Except.mapError] at hr
      | error f =>
          obtain rfl := Except.error.inj hr
          cases hin

/-! The loops of `revoke_user_sessions` skip what they cannot read. -/

def Redis (e : ProxyError) : Prop := ∃ s, e = .redisError s

theorem unwrap_raises {α : Type} {x : Except Fault α} :
    (unwrap .redisError x : Handler α).Raises Redis := by
  cases x with
  | ok a => exact raises_ret
  | error f => exact raises_throw ⟨f.text, rfl⟩

theorem scanRest_raises (left : ℕ) : (SessionManager.scanRest left).Raises Redis := by
  induction left with
  | zero => exact raises_ret
  | succ left ih =>
      refine raises_call fun x => ?_
      cases x with
      | ok keys => exact raises_bind ih fun _ => raises_ret
      | error f => exact raises_ret

theorem readUserSession_raises {userId key : String} :
    (SessionManager.readUserSession X userId key).Raises Redis := by
  refine raises_call fun x => ?_
  obtain f | _ | data := x
  · exact raises_ret
  · exact raises_ret
  cases hparse : data.parseSession X with
  | ok session =>
      simp only [hparse]
      apply raises_ite
      · exact raises_bind (raises_call fun _ => raises_ret) fun _ => raises_ret
      · exact raises_ret
  | error e =>
      simp only [hparse]
      exact raises_ret

theorem readUserSessions_raises {userId : String} (keys : List String) :
    (SessionManager.readUserSessions X userId keys).Raises Redis := by
  induction keys with
  | nil => exact raises_ret
  | cons key keys ih =>
      exact raises_bind readUserSession_raises fun _ => raises_bind ih fun _ => raises_ret

theorem deleteSessions_raises (sessions : List Session) :
    (SessionManager.deleteSessions sessions).Raises Redis := by
  induction sessions with
  | nil => exact raises_ret
  | cons session sessions ih =>
      exact raises_bind (raises_call fun _ => unwrap_raises) fun _ => ih

theorem revokeUserSessions_raises {userId : String} :
    (SessionManager.revokeUserSessions X userId).Raises Redis := by
  apply raises_bind
  · apply raises_bind
    · apply raises_bind
      · exact raises_call fun _ => unwrap_raises
      rintro ⟨keys, left⟩
      exact raises_bind (scanRest_raises left) fun _ => raises_ret
    · exact fun keys => readUserSessions_raises keys
  · intro sessions
    exact raises_bind (deleteSessions_raises sessions) fun _ => raises_ret

theorem handleLogoutAll_consistent {e : ProxyError}
    (hend : (handleLogoutAll X q).Ends h (.error e)) : ¬ Inconsistency .logoutAll e := by
  intro hin
  obtain ⟨claims, token, h₁, rfl, htoken, hrevoke⟩ | ⟨e', heq, htoken⟩ := ends_bind.mp hend
  · obtain ⟨_, h₂, h₃, -, -, hanswer⟩ | ⟨e', heq, hrevoked⟩ := ends_bind.mp hrevoke
    · obtain ⟨-, heq⟩ := ends_pure.mp hanswer
      simp at heq
    · obtain rfl := Except.error.inj heq
      obtain ⟨s, rfl⟩ := revokeUserSessions_raises _ _ hrevoked
      cases hin
  · obtain rfl := Except.error.inj heq
    exact (bearerClaims_ends htoken).consistent hin

theorem forwardUpstream_raises : (forwardUpstream X srv q).Raises fun e => e = .internalError := by
  have hokOr {α : Type} {x : Option α} :
      (okOr .internalError x : Handler α).Raises fun e => e = .internalError := by
    cases x with
    | some a => exact raises_ret
    | none => exact raises_throw rfl
  apply raises_bind hokOr
  intro body
  apply raises_bind hokOr
  intro uri
  refine raises_bind (raises_call fun x => ?_) fun _ => raises_ret
  cases x with
  | ok resp => exact raises_ret
  | error e => exact raises_throw rfl

namespace Scenario

end Scenario

end ZeroTrustProxy
