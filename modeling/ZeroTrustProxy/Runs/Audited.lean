import ZeroTrustProxy.Contract.Kinds
import ZeroTrustProxy.Runs.RiskRange
import ZeroTrustProxy.Runs.SecondFactor

/-!
What the audit log is told of a decision.

Each exit of `authorize` and of `handle_login` calls the audit log itself. The
refusals for want of a second factor, and the failure to check a password, do
not; every other decision is submitted once, with the outcome it has had.
-/

namespace ZeroTrustProxy

open Concurrent Program

variable {X : External} {srv : ProxyServer}
  {A : ProxyTrace X srv → Entry (proxySystem X srv) → Prop} {w : World} {tr : ProxyTrace X srv}
  {req : Request} {h : List Event}

/-! ### Submissions -/

def Event.audits (type : EventType) : Event → Bool
  | .insertAuditLog row _ => decide (row.eventType = type.jsonStr)
  | _ => false

/-- One event of the type has been submitted, and it reports a success exactly
where the request was `granted`. -/
def AuditedOnce (type : EventType) (h : List Event) (granted : Prop) : Prop :=
  ∃ row r, h.filter (Event.audits type) = [.insertAuditLog row r] ∧
    (row.outcome = Outcome.success.jsonStr ↔ granted)

theorem OfKinds.unaudited {ks : List EventKind} (hk : OfKinds ks h) (hks : .audit ∉ ks)
    (type : EventType) : h.filter (Event.audits type) = [] := by
  rw [List.filter_eq_nil_iff]
  intro e he haudits
  cases e with
  | insertAuditLog row r => exact hks (hk _ he)
  | _ => simp [Event.audits] at haudits

theorem AuditRun.submitted {type : EventType} {userId : String} {outcome : Outcome}
    (ha : AuditRun X type userId outcome h) : ∃ row r,
      h.filter (Event.audits type) = [.insertAuditLog row r] ∧ row.outcome = outcome.jsonStr := by
  cases ha with
  | @intro row r n id htype user result =>
      exact ⟨row, r, by simp [Event.audits, htype], result⟩

theorem AuditRun.unaudited {type type' : EventType} {userId : String} {outcome : Outcome}
    (ha : AuditRun X type userId outcome h) (hne : type.jsonStr ≠ type'.jsonStr) :
    h.filter (Event.audits type') = [] := by
  cases ha with
  | intro r n id htype user result => simp [Event.audits, htype, hne]

/-- A submission that comes with nothing else of its type. -/
theorem AuditRun.once {type : EventType} {userId : String} {outcome : Outcome}
    {audit later earlier : List Event} {granted : Prop}
    (ha : AuditRun X type userId outcome audit) (hlater : later.filter (Event.audits type) = [])
    (hearlier : earlier.filter (Event.audits type) = [])
    (hgranted : outcome.jsonStr = Outcome.success.jsonStr ↔ granted) :
    AuditedOnce type (later ++ (audit ++ earlier)) granted := by
  obtain ⟨row, r, hfilter, houtcome⟩ := ha.submitted
  refine ⟨row, r, ?_, by rw [houtcome, hgranted]⟩
  rw [List.filter_append, List.filter_append, hlater, hearlier, hfilter]
  rfl

theorem not_auditedOnce {type : EventType} {granted : Prop}
    (hnone : h.filter (Event.audits type) = []) : ¬ AuditedOnce type h granted := by
  rintro ⟨row, r, hfilter, -⟩
  simp [hnone] at hfilter

/-! ### Proxied requests -/

/-- `authorize` has let the request through. -/
def Authorized (X : External) (srv : ProxyServer) (req : Request) (h : List Event) : Prop :=
  ∃ h₁, h₁ <:+ h ∧ (authorize X srv req).Ends h₁ (.ok ())

theorem authorized_append {h₁ h₂ : List Event} (hend : (authorize X srv req).Ends h₁ (.ok ())) :
    Authorized X srv req (h₂ ++ h₁) := ⟨h₁, List.suffix_append _ _, hend⟩

theorem not_authorized {e : ProxyError} (hend : (authorize X srv req).Ends h (.error e)) :
    ¬ Authorized X srv req h := by
  rintro ⟨h₁, hsub, hok⟩
  have hsame := (hend.unique Cmd.event_inj hsub hok).2
  simp at hsame

theorem BearerRun.ok_inv {claims : Claims} (hb : BearerRun req h (.ok claims)) :
    ∃ token, h = [.jwtDecode token (.ok claims)] := by
  cases hb with
  | @valid token _ header => exact ⟨token, rfl⟩

theorem RequestRiskRun.unique {session : Session} {claims : Claims} {risk risk' : RiskScore}
    (hr : RequestRiskRun X srv req session claims h risk)
    (hr' : RequestRiskRun X srv req session claims h risk') : risk = risk' := by
  cases hr with
  | intro id firstSeen lastSeen ageAt timestamp now =>
      cases hr' with
      | intro => rfl

theorem RequestRiskRun.length {session : Session} {claims : Claims} {risk : RiskScore}
    (hr : RequestRiskRun X srv req session claims h risk) : h.length = 6 := by
  cases hr with
  | intro => rfl

theorem no_return {id : String} {token body : List Event} {claims : Claims}
    {r : Except ProxyError Session} (hbearer : BearerRun req token (.ok claims))
    (hfetch : FetchRun X id body r) :
    ∀ e ∈ (body ++ [Event.getSessionCall id]) ++ token, ¬ ∃ id r, e = .getSessionReturn id r := by
  rintro e he ⟨id', r', rfl⟩
  simp only [List.mem_append, List.mem_singleton, reduceCtorEq, or_false] at he
  obtain he | he := he
  · exact hfetch.kinds.not_mem (by simp [Event.kind]) he
  · exact hbearer.kinds.not_mem (by simp [Event.kind]) he

/-- A request has one risk score. -/
theorem AuthorizeScored.unique {risk risk' : RiskScore} (hs : AuthorizeScored X srv req h risk)
    (hs' : AuthorizeScored X srv req h risk') : risk = risk' := by
  obtain ⟨token, body, scores, claims, session, ⟨later, hlater⟩, hbearer, hfetch, hrisk⟩ := hs
  obtain ⟨token', body', scores', claims', session', ⟨later', hlater'⟩, hbearer', hfetch', hrisk'⟩ :=
    hs'
  -- both have taken the same return of `get_session`, and the same token
  have hsplit : (later ++ scores) ++ Event.getSessionReturn claims.sessionId (.ok session) ::
      ((body ++ [Event.getSessionCall claims.sessionId]) ++ token) =
      (later' ++ scores') ++ Event.getSessionReturn claims'.sessionId (.ok session') ::
        ((body' ++ [Event.getSessionCall claims'.sessionId]) ++ token') := by
    simp only [sessionEvents, List.append_assoc, List.cons_append] at hlater hlater' ⊢
    rw [hlater, hlater']
  obtain ⟨hreturn, hpre⟩ := split_eq (p := fun e : Event => ∃ id r, e = .getSessionReturn id r)
    hsplit ⟨_, _, rfl⟩ ⟨_, _, rfl⟩ (no_return hbearer hfetch) (no_return hbearer' hfetch')
  obtain rfl : session = session' := by
    simp only [Event.getSessionReturn.injEq, Except.ok.injEq] at hreturn
    exact hreturn.2
  obtain ⟨t, rfl⟩ := hbearer.ok_inv
  obtain ⟨t', rfl⟩ := hbearer'.ok_inv
  obtain rfl : claims = claims' := by
    have hlast := (List.append_inj' hpre rfl).2
    simp only [List.cons.injEq, Event.jwtDecode.injEq, Except.ok.injEq, and_true] at hlast
    exact hlast.2
  rw [hpre] at hsplit
  have hscores := (List.append_inj' (List.append_cancel_right hsplit)
    (hrisk.length.trans hrisk'.length.symm)).2
  rw [hscores] at hrisk
  exact hrisk.unique hrisk'

/-- `authorize` has refused the request, or has let it through to the backend. -/
theorem proxied_ends {r : Except ProxyError Response}
    (hend : (handleRoute X srv req .proxied).Ends h r) :
    (∃ e, r = .error e ∧ (authorize X srv req).Ends h (.error e)) ∨
      ∃ h₁ h₂, h = h₂ ++ h₁ ∧ OfKinds [.upstream] h₂ ∧ (authorize X srv req).Ends h₁ (.ok ()) := by
  obtain ⟨_, h₁, h₂, rfl, hauthorize, hforward⟩ | ⟨e, rfl, hauthorize⟩ := ends_bind.mp hend
  · exact .inr ⟨h₁, h₂, rfl, forwardUpstream_kinds hforward, hauthorize⟩
  · exact .inl ⟨e, rfl, hauthorize⟩

/-- A second factor is asked for and has not been given: `require_mfa` is set,
or the risk calls for it. -/
def FactorMissing (X : External) (srv : ProxyServer) (req : Request) (session : Session)
    (h : List Event) : Prop :=
  session.mfaVerified = false ∧
    (srv.config.requireMfa = true ∨
      ∃ risk, AuthorizeScored X srv req h risk ∧ risk.recommendation = .stepUpAuth)

/-- The return of `get_session` in the history of a gate. -/
theorem return_unique {ks : List EventKind} {later body token : List Event} {id id' : String}
    {claims : Claims} {r r' : Except ProxyError Session} (hlater : OfKinds ks later)
    (hks : .session ∉ ks) (hfetch : FetchRun X id body r) (hbearer : BearerRun req token (.ok claims))
    (hmem : .getSessionReturn id' r' ∈ later ++ (sessionEvents id r body ++ token)) : r' = r := by
  have hnot : Event.kind (.getSessionReturn id' r') ∉ ks := hks
  simp only [sessionEvents, List.mem_append, List.mem_cons, List.not_mem_nil, reduceCtorEq,
    or_false, Event.getSessionReturn.injEq] at hmem
  obtain hmem | (⟨-, rfl⟩ | hmem) | hmem := hmem
  · exact (hlater.not_mem hnot hmem).elim
  · rfl
  · exact (hfetch.kinds.not_mem (by simp [Event.kind]) hmem).elim
  · exact (hbearer.kinds.not_mem (by simp [Event.kind]) hmem).elim

theorem sessionEvents_unaudited {body token : List Event} {id : String} {claims : Claims}
    {r : Except ProxyError Session} (hfetch : FetchRun X id body r)
    (hbearer : BearerRun req token (.ok claims)) (type : EventType) :
    (sessionEvents id r body ++ token).filter (Event.audits type) = [] := by
  have hbody := hfetch.kinds.unaudited (by decide) type
  have htoken := hbearer.kinds.unaudited (by decide) type
  simp [sessionEvents, Event.audits, hbody, htoken]

/-- `authorize` submits its decision exactly where the policy denies the
request or no second factor is missing. -/
theorem AuthorizeRun.audited {h₂ : List Event} {claims : Claims} {session : Session}
    {r : Except ProxyError Unit} (ha : AuthorizeRun X srv req h r)
    (hend : (authorize X srv req).Ends h r) (hlater : OfKinds [.upstream] h₂)
    (hforward : ∀ e, r = .error e → h₂ = [])
    (hclaims : ∀ claims', Bearer req (h₂ ++ h) claims' → claims' = claims)
    (hreturn : .getSessionReturn claims.sessionId (.ok session) ∈ h₂ ++ h)
    (howner : session.userId = claims.sub) :
    AuditedOnce .authorization (h₂ ++ h) (Authorized X srv req (h₂ ++ h)) ↔
      (srv.policyEngine.evaluate X.floats (policyContext req claims)).allowed = false ∨
        ¬ FactorMissing X srv req session (h₂ ++ h) := by
  have hin : .getSessionReturn claims.sessionId (.ok session) ∈ h := by
    obtain hmem | hmem := List.mem_append.mp hreturn
    · exact (hlater.not_mem (by simp [Event.kind]) hmem).elim
    · exact hmem
  have hrefused (e : ProxyError) (hr : r = .error e) : ¬ Authorized X srv req (h₂ ++ h) := by
    rw [hforward e hr]
    exact not_authorized (hr ▸ hend)
  have hupstream := hlater.unaudited (by decide) .authorization
  have hsame {token : List Event} {claims' : Claims} (hb : BearerRun req token (.ok claims'))
      (hsub : token <:+ h) : claims' = claims :=
    hclaims claims' (hb.bearer.mono (hsub.trans (List.suffix_append _ _)))
  cases ha with
  | unauthenticated bearer => exact (bearer.kinds.not_mem (by simp [Event.kind]) hin).elim
  | @noSession token body claims' e bearer fetched =>
      have hnone : OfKinds [] ([] : List Event) := fun _ hmem => (List.not_mem_nil hmem).elim
      have hreturned := return_unique hnone (by decide) fetched bearer hin
      simp at hreturned
  | @mismatch token body claims' session' bearer fetched owner =>
      have hnone : OfKinds [] ([] : List Event) := fun _ hmem => (List.not_mem_nil hmem).elim
      obtain rfl := Except.ok.inj (return_unique hnone (by decide) fetched bearer hin)
      obtain rfl := hsame bearer (List.suffix_append _ _)
      exact (owner howner).elim
  | @denied token body audit claims' session' bearer fetched owner policy audited =>
      obtain rfl := hsame bearer
        ((List.suffix_append _ _).trans (List.suffix_append _ _))
      refine iff_of_true ?_ (.inl policy)
      apply audited.once hupstream (sessionEvents_unaudited fetched bearer _)
      exact iff_of_false (by decide) (hrefused _ rfl)
  | @scored token body scores evaluation gate claims' session' risk r bearer fetched owner policy
      score evaluated gated =>
      have htoken : token <:+ gate ++ (evaluation ++ (scores ++
          (sessionEvents claims'.sessionId (.ok session') body ++ token))) := by
        simp only [← List.append_assoc]
        exact List.suffix_append _ _
      obtain rfl := hsame bearer htoken
      have hlate : OfKinds [.audit, .clock, .uuid] (gate ++ (evaluation ++ scores)) :=
        gated.kinds.append (evaluated.kinds.append (score.kinds.mono (by decide)))
      obtain rfl : session = session' := by
        have hlast : .getSessionReturn claims'.sessionId (.ok session) ∈
            (gate ++ (evaluation ++ scores)) ++
              (sessionEvents claims'.sessionId (.ok session') body ++ token) := by
          simpa only [List.append_assoc] using hin
        exact Except.ok.inj (return_unique hlate (by decide) fetched bearer hlast)
      have hscored : AuthorizeScored X srv req (h₂ ++ (gate ++ (evaluation ++ (scores ++
          (sessionEvents claims'.sessionId (.ok session) body ++ token))))) risk := by
        refine ⟨token, body, scores, claims', session, ?_, bearer, fetched, score⟩
        exact ((List.suffix_append _ _).trans (List.suffix_append _ _)).trans
          (List.suffix_append _ _)
      have hrisk {risk' : RiskScore} (hs : AuthorizeScored X srv req _ risk') : risk' = risk :=
        hs.unique hscored
      have hearlier : (evaluation ++ (scores ++ (sessionEvents claims'.sessionId (.ok session)
          body ++ token))).filter (Event.audits .authorization) = [] := by
        rw [List.filter_append, List.filter_append, evaluated.unaudited (by decide),
          score.kinds.unaudited (by decide), sessionEvents_unaudited fetched bearer]
        rfl
      have hpolicy : ¬ (srv.policyEngine.evaluate X.floats
          (policyContext req claims')).allowed = false := by simp [policy]
      rw [or_iff_right hpolicy]
      cases gated with
      | unverified required mfa =>
          refine iff_of_false (not_auditedOnce ?_) fun hgiven => hgiven ⟨mfa, .inl required⟩
          rw [List.filter_append, hupstream, List.nil_append, List.nil_append, hearlier]
      | blocked mfa block audited =>
          refine iff_of_true ?_ ?_
          · apply audited.once hupstream hearlier
            exact iff_of_false (by decide) (hrefused _ rfl)
          · rintro ⟨hmfa, hrequired | ⟨risk', hs, hstep⟩⟩
            · simp [mfa hrequired] at hmfa
            · rw [hrisk hs, block] at hstep
              simp at hstep
      | stepUp required stepUp mfa =>
          refine iff_of_false (not_auditedOnce ?_) fun hgiven => hgiven ⟨mfa, .inr ⟨risk, hscored, stepUp⟩⟩
          rw [List.filter_append, hupstream, List.nil_append, List.nil_append, hearlier]
      | passed mfa block stepUp audited =>
          refine iff_of_true ?_ ?_
          · apply audited.once hupstream hearlier
            exact iff_of_true rfl (authorized_append hend)
          · rintro ⟨hmfa, hrequired | ⟨risk', hs, hstep⟩⟩
            · simp [mfa hrequired] at hmfa
            · rw [hrisk hs] at hstep
              simp [stepUp hstep] at hmfa

/-! ### Logins -/

/-- A session has been created and its token returned. -/
def LoggedIn (srv : ProxyServer) (user : UserRow) (h : List Event) (answer : Option Response) :
    Prop :=
  (∃ x secs, .redisSetEx (sessionKey x.id) (.session x) secs (.ok ()) ∈ h) ∧
    ∃ claims token mfa, .jwtEncode claims (.ok token) ∈ h ∧
      answer = some (loginAnswer srv user mfa token)

theorem not_loggedIn {user : UserRow} {e : ProxyError} :
    ¬ LoggedIn srv user h (some (respond (.error e))) := by
  rintro ⟨-, claims, token, mfa, -, hanswer⟩
  have hstatus : e.statusCode = 200 := congrArg Response.status (Option.some.inj hanswer)
  have herror := e.statusCode_ne_ok
  omega

/-- The account asks for no second factor, or one has been given. -/
def FactorGiven (X : External) (user : UserRow) (body : LoginBody) (h : List Event) : Prop :=
  user.mfaEnabled = false ∨ ∃ secret code, user.mfaSecret = some secret ∧
    body.mfaToken = some code ∧ CodeChecked X h secret code

theorem FactorGiven.mono {user : UserRow} {body : LoginBody} {h' : List Event}
    (hg : FactorGiven X user body h) (hsub : h ⊆ h') : FactorGiven X user body h' := by
  obtain hnone | ⟨secret, code, hsecret, hcode, bytes, hbytes, hmem⟩ := hg
  · exact .inl hnone
  · exact .inr ⟨secret, code, hsecret, hcode, bytes, hbytes, hsub hmem⟩

theorem MfaRun.given {user : UserRow} {body : LoginBody} {mfa : Bool}
    (hm : MfaRun X user body h (.ok mfa)) : FactorGiven X user body h := by
  generalize hr : (Except.ok mfa : Except ProxyError Bool) = r at hm
  cases hm with
  | notEnrolled enabled => exact .inl enabled
  | noSecret enabled secret => simp at hr
  | noCode enabled stored code => simp at hr
  | @decided secret code check valid enabled stored given checked =>
      cases valid with
      | false => simp at hr
      | true =>
          refine .inr ⟨secret, code, stored, given, ?_⟩
          generalize hvalid : true = valid at checked
          cases checked with
          | unusable decoded error => simp at hvalid
          | @checked bytes x decoded usable =>
              obtain rfl := of_decide_eq_true hvalid.symm
              exact ⟨bytes, decoded, List.mem_cons_self⟩

theorem MfaRun.not_given {user : UserRow} {body : LoginBody} {e : ProxyError} {ks : List EventKind}
    {earlier : List Event} (hm : MfaRun X user body h (.error e)) (hearlier : OfKinds ks earlier)
    (hks : .code ∉ ks) : ¬ FactorGiven X user body (h ++ earlier) := by
  generalize hr : (Except.error e : Except ProxyError Bool) = r at hm
  rintro (hnone | ⟨secret, code, hsecret, hcode, bytes, hbytes, hmem⟩)
  · cases hm with
    | notEnrolled enabled => simp at hr
    | noSecret enabled secret => simp [hnone] at enabled
    | noCode enabled stored code => simp [hnone] at enabled
    | decided enabled stored given checked => simp [hnone] at enabled
  have hin : .totpCheck (TotpManager.totpOf .default bytes) code (.ok true) ∈ h := by
    have hnot : Event.kind (.totpCheck (TotpManager.totpOf .default bytes) code (.ok true)) ∉ ks :=
      hks
    obtain hmem | hmem := List.mem_append.mp hmem
    · exact hmem
    · exact (hearlier.not_mem hnot hmem).elim
  cases hm with
  | notEnrolled enabled => simp at hr
  | noSecret enabled secret => simp [hsecret] at secret
  | noCode enabled stored code => simp [hcode] at code
  | @decided secret' code' check valid enabled stored given checked =>
      cases checked with
      | unusable decoded error => simp at hin
      | @checked bytes' x decoded usable =>
          simp only [List.mem_singleton, Event.totpCheck.injEq] at hin
          simp [← hin.2.2] at hr

/-- The storage has done what it was asked, save perhaps for the audit log. -/
def StorageSucceeds (h : List Event) : Prop := ∀ e ∈ h, e.failed = true → e.kind = .audit

theorem StorageSucceeds.of_subset {h' : List Event} (hs : StorageSucceeds h') (hsub : h ⊆ h') :
    StorageSucceeds h := fun e he => hs e (hsub he)

/-- A session that is opened is submitted as a success, and its token returned. -/
theorem StartRun.audited {user : UserRow} {deviceId userAgent : String} {mfa : Bool}
    {risk : RiskScore} {r : Except ProxyError Response}
    (hs : StartRun X srv req user deviceId userAgent mfa risk h r) (hstored : StorageSucceeds h)
    (hsigned : ∀ claims e, .jwtEncode claims (.error e) ∉ h) :
    (∃ row x, h.filter (Event.audits .authentication) = [.insertAuditLog row x] ∧
      row.outcome = Outcome.success.jsonStr) ∧ LoggedIn srv user h (some (respond r)) := by
  cases hs with
  | @uncreated create e created =>
      exfalso
      generalize hr : (Except.error e : Except ProxyError Session) = r at created
      cases created with
      | intro now id x bounds =>
          cases x with
          | ok u => simp [Except.map, Except.mapError] at hr
          | error f => simpa [Event.kind, createEvent] using hstored _ List.mem_cons_self rfl
  | @unwritten create update session e created written =>
      exfalso
      cases written with
      | failed left => simpa [Event.kind] using hstored _ List.mem_cons_self rfl
  | @signed create update audit session now jti x created written audited bounds =>
      cases x with
      | error e => exact (hsigned _ e List.mem_cons_self).elim
      | ok token =>
          obtain ⟨row, y, hfilter, houtcome⟩ := audited.submitted
          refine ⟨⟨row, y, ?_, houtcome⟩, ?_, _, token, mfa, List.mem_cons_self, rfl⟩
          · have hupdate := written.kinds.unaudited (by decide) .authentication
            have hcreate := created.kinds.unaudited (by decide) .authentication
            simp [Event.audits, hfilter, hupdate, hcreate]
          · generalize hr : (Except.ok session : Except ProxyError Session) = r at created
            cases created with
            | intro now' id x bounds' =>
                cases x with
                | error f => simp [Except.map, Except.mapError] at hr
                | ok u =>
                    refine ⟨Session.build now' id user.id.text deviceId req.remoteIp.text userAgent
                      srv.config.sessionDurationMinutes,
                      asU64 (srv.config.sessionDurationMinutes * 60), ?_⟩
                    refine List.mem_append_right [_, _, _] (List.mem_append_right audit
                      (List.mem_append_right update ?_))
                    exact List.mem_cons_self

theorem OpenRun.audited {body : LoginBody} {user : UserRow} {userAgent : String} {mfa : Bool}
    {risk : RiskScore} {r : Except ProxyError Response} {earlier : List Event}
    (ho : OpenRun X srv req body user userAgent mfa risk h r) (hstored : StorageSucceeds h)
    (hsigned : ∀ claims e, .jwtEncode claims (.error e) ∉ h)
    (hearlier : earlier.filter (Event.audits .authentication) = []) :
    AuditedOnce .authentication (h ++ earlier)
      (LoggedIn srv user (h ++ earlier) (some (respond r))) := by
  have hopened {session drawn : List Event} {deviceId : String}
      (hs : StartRun X srv req user deviceId userAgent mfa risk session r)
      (hdrawn : drawn.filter (Event.audits .authentication) = [])
      (hstored : StorageSucceeds (session ++ drawn))
      (hsigned : ∀ claims e, .jwtEncode claims (.error e) ∉ session ++ drawn) :
      AuditedOnce .authentication ((session ++ drawn) ++ earlier)
        (LoggedIn srv user ((session ++ drawn) ++ earlier) (some (respond r))) := by
    obtain ⟨⟨row, x, hfilter, houtcome⟩, ⟨y, secs, hcreated⟩, claims, token, mfa', hsign, hanswer⟩ :=
      hs.audited (hstored.of_subset (List.subset_append_left _ _))
        fun claims e hmem => hsigned claims e (List.mem_append_left _ hmem)
    refine ⟨row, x, ?_, iff_of_true houtcome ?_⟩
    · rw [List.filter_append, List.filter_append, hfilter, hdrawn, hearlier]
      rfl
    · exact ⟨⟨y, secs, List.mem_append_left _ (List.mem_append_left _ hcreated)⟩, claims, token, mfa',
        List.mem_append_left _ (List.mem_append_left _ hsign), hanswer⟩
  cases ho with
  | named given started =>
      have hdrawn : ([] : List Event).filter (Event.audits .authentication) = [] := rfl
      have hnone := hopened started hdrawn
      simp only [List.append_nil] at hnone
      exact hnone hstored hsigned
  | unnamed given started => exact hopened started rfl hstored hsigned

/-- `handle_login` submits its verdict on a known account exactly where the
password is wrong, or right and followed by the second factor asked for. -/
theorem LoginRun.audited {body : LoginBody} {user : UserRow} {r : Except ProxyError Response}
    (hl : LoginRun X srv req h r) (hparsed : ParsesLogin X req body)
    (hfound : .findUserByUsername body.username (.ok (some user)) ∈ h)
    (hactive : user.isActive = true) (hstored : StorageSucceeds h)
    (hsigned : ∀ claims e, .jwtEncode claims (.error e) ∉ h) :
    AuditedOnce .authentication h (LoggedIn srv user h (some (respond r))) ↔
      X.verifyPassword body.password user.passwordHash = .ok false ∨
        X.verifyPassword body.password user.passwordHash = .ok true ∧ FactorGiven X user body h := by
  have hfails {e : Event} (hmem : e ∈ h) (hfailed : e.failed = true) (hkind : e.kind ≠ .audit) :
      False := hkind (hstored e hmem hfailed)
  cases hl with
  | limited rated => exact (rated.kinds.not_mem (by simp [Event.kind]) hfound).elim
  | unread rated none => exact (rated.kinds.not_mem (by simp [Event.kind]) hfound).elim
  | malformed rated some parse => exact (rated.kinds.not_mem (by simp [Event.kind]) hfound).elim
  | lookupFailed rated parsed =>
      exact (hfails List.mem_cons_self rfl (by simp [Event.kind])).elim
  | @unknown rate body' found rated parsed inactive =>
      exfalso
      simp only [List.mem_cons, Event.findUserByUsername.injEq, Except.ok.injEq] at hfound
      obtain ⟨-, rfl⟩ | hmem := hfound
      · simp [Option.filter, hactive] at inactive
      · exact rated.kinds.not_mem (by simp [Event.kind]) hmem
  | deviceFailed id firstSeen lastSeen rated parsed active =>
      exact (hfails List.mem_cons_self rfl (by simp [Event.kind])).elim
  | @decided rate verdict body' u existing _ id firstSeen lastSeen rated parsed active decision =>
      obtain rfl := parsed.unique hparsed
      obtain rfl := Option.some.inj
        (loginLookups_account rated.kinds decision.kinds (by decide) hfound)
      have hlookups : OfKinds _ (loginLookups X req body' user id firstSeen lastSeen (.ok existing)
        rate) := loginLookups_kinds rated.kinds
      have hquiet := hlookups.unaudited (by decide) .authentication
      have hnothing : ([] : List Event).filter (Event.audits .authentication) = [] := rfl
      cases decision with
      | unverifiable password =>
          refine iff_of_false (not_auditedOnce hquiet) ?_
          simp [password]
      | refusalFailed password =>
          exact (hfails List.mem_cons_self rfl (by simp [Event.kind])).elim
      | @refused audit password audited =>
          refine iff_of_true ?_ (.inl password)
          have hearlier : ([Event.upsertDevice (upsertOf req user ((loginDevice X req id firstSeen lastSeen
              user existing).decreaseTrust 15)) (.ok ())] ++ loginLookups X req body' user id firstSeen
              lastSeen (.ok existing) rate).filter (Event.audits .authentication) = [] := by
            rw [List.filter_append, hquiet]
            rfl
          rw [List.append_assoc]
          exact audited.once hnothing hearlier (iff_of_false (by decide) not_loggedIn)
      | @mfaRefused check e password gate =>
          refine iff_of_false (not_auditedOnce ?_) ?_
          · rw [List.filter_append, gate.kinds.unaudited (by decide), hquiet]
            rfl
          · simp [password, gate.not_given hlookups (by decide)]
      | riskFailed password gate scored =>
          cases scored with
          | failed => exact (hfails List.mem_cons_self rfl (by simp [Event.kind])).elim
      | @blocked check scores audit mfa risk password gate scored block audited =>
          refine iff_of_true ?_ (.inr ⟨password, gate.given.mono ?_⟩)
          · have hearlier : ((scores ++ check) ++ loginLookups X req body' user id firstSeen lastSeen
                (.ok existing) rate).filter (Event.audits .authentication) = [] := by
              rw [List.filter_append, List.filter_append, scored.kinds.unaudited (by decide),
                gate.kinds.unaudited (by decide), hquiet]
              rfl
            rw [List.append_assoc]
            exact audited.once hnothing hearlier (iff_of_false (by decide) not_loggedIn)
          · intro e he
            simp [he]
      | @opened check scores session mfa risk _ password gate scored block opened =>
          refine iff_of_true ?_ (.inr ⟨password, gate.given.mono ?_⟩)
          · have hearlier : ((scores ++ check) ++ loginLookups X req body' user id firstSeen lastSeen
                (.ok existing) rate).filter (Event.audits .authentication) = [] := by
              rw [List.filter_append, List.filter_append, scored.kinds.unaudited (by decide),
                gate.kinds.unaudited (by decide), hquiet]
              rfl
            rw [List.append_assoc]
            refine opened.audited (hstored.of_subset ?_) (fun claims e hmem => hsigned claims e ?_)
              hearlier
            · rw [List.append_assoc]
              exact List.subset_append_left _ _
            · rw [List.append_assoc]
              exact List.mem_append_left _ hmem
          · intro e he
            simp [he]

/-! ### Logins that panic -/

theorem AuditedOnce.unique {type : EventType} {granted granted' : Prop}
    (ha : AuditedOnce type h granted) (ha' : AuditedOnce type h granted') : granted ↔ granted' := by
  obtain ⟨row, r, hfilter, houtcome⟩ := ha
  obtain ⟨row', r', hfilter', houtcome'⟩ := ha'
  have hsame := hfilter.symm.trans hfilter'
  simp only [List.cons.injEq, Event.insertAuditLog.injEq, and_true] at hsame
  rw [← houtcome, ← houtcome', hsame.1]

/-- A login that panics is submitted as a success or not at all. -/
theorem LoginPanic.audited {user : UserRow} (hp : LoginPanic X srv req h) :
    ¬ AuditedOnce .authentication h (LoggedIn srv user h none) := by
  have hunanswered : ¬ LoggedIn srv user h none := by
    rintro ⟨-, claims, token, mfa, -, hanswer⟩
    simp at hanswer
  cases hp with
  | code id firstSeen lastSeen rated parsed secret =>
      exact not_auditedOnce ((loginLookups_kinds rated.kinds).unaudited (by decide) _)
  | @start rate check scores drawn session body u existing mfa risk deviceId id firstSeen lastSeen
      rated parsed gate scored given started =>
      have hearlier : (drawn ++ (scores ++ (check ++ loginLookups X req body u id firstSeen lastSeen
          (.ok existing) rate))).filter (Event.audits .authentication) = [] := by
        have hdrawn : drawn.filter (Event.audits .authentication) = [] := by
          obtain rfl | ⟨id, rfl⟩ := given
          · rfl
          · rfl
        have hlookups : OfKinds _ (loginLookups X req body u id firstSeen lastSeen (.ok existing)
          rate) := loginLookups_kinds rated.kinds
        rw [List.filter_append, List.filter_append, List.filter_append, hdrawn,
          scored.kinds.unaudited (by decide), gate.kinds.unaudited (by decide),
          hlookups.unaudited (by decide)]
        rfl
      cases started with
      | session now id bounds =>
          apply not_auditedOnce
          rw [List.filter_append, hearlier]
          rfl
      | @token create update audit session now created written audited bounds =>
          intro hsubmitted
          have hbefore : ((update ++ create) ++ (drawn ++ (scores ++ (check ++ loginLookups X req body
              u id firstSeen lastSeen (.ok existing) rate)))).filter (Event.audits .authentication) =
              [] := by
            rw [List.filter_append, List.filter_append, written.kinds.unaudited (by decide),
              created.kinds.unaudited (by decide), hearlier]
            rfl
          have hlater : ([.utcNow .tokenIssue now] : List Event).filter
              (Event.audits .authentication) = [] := rfl
          have honce := audited.once hlater hbefore (iff_of_true rfl trivial)
          rw [← List.append_assoc audit] at honce
          exact hunanswered ((honce.unique hsubmitted).mp trivial)

/-- What makes a login panic: a lifetime that `chrono` cannot hold, or a stored
secret that does not decode. -/
theorem LoginPanic.cause {body : LoginBody} {user : UserRow} (hp : LoginPanic X srv req h)
    (hparsed : ParsesLogin X req body)
    (hfound : .findUserByUsername body.username (.ok (some user)) ∈ h) :
    Duration.inBounds (srv.config.sessionDurationMinutes * 60) = false ∨
      Duration.inBounds (srv.config.jwtExpirationHours * 3600) = false ∨ CodePanic X user body := by
  cases hp with
  | @code rate body' u existing id firstSeen lastSeen rated parsed secret =>
      obtain rfl := parsed.unique hparsed
      have hnone : OfKinds [] ([] : List Event) := fun _ hmem => (List.not_mem_nil hmem).elim
      obtain rfl := Option.some.inj (loginLookups_account rated.kinds hnone (by decide) hfound)
      exact .inr (.inr secret)
  | start id firstSeen lastSeen rated parsed gate scored given started =>
      cases started with
      | session now id bounds => exact .inl bounds
      | token now created written audited bounds => exact .inr (.inl bounds)

/-! ### Runs -/

/-- Thread `t` has come to the end of request `q`: it has answered, or it has
panicked and will not. -/
inductive Finished (tr : ProxyTrace X srv) (t : ℕ) (q : Request) : Option Response → Prop
  | answered {w₁ : World} {o : Response} (started : Started t q tr)
      (done : ⟨t, w₁, .done o⟩ ∈ tr) : Finished tr t q (some o)
  | panicked (started : Started t q tr) (calls : (handleRequest X srv q).Calls (own t tr) .panic) :
      Finished tr t q none

theorem handleRequest_panics {q : Request} (hcalls : (handleRequest X srv q).Calls h .panic) :
    (handleRoute X srv q q.route).Calls h .panic := by
  obtain hroute | ⟨r, -, h₂, -, -, hanswer⟩ := calls_bind.mp hcalls
  · exact calls_attempt.mp hroute
  · cases r with
    | ok resp => exact (calls_pure hanswer).elim
    | error err => exact (calls_pure hanswer).elim

/-- The bearer of a thread is one. -/
theorem bearer_unique (hrun : Run A w tr) {t : ℕ} {q : Request} {claims claims' : Claims}
    (hb : Bearer q (own t tr) claims) (hb' : Bearer q (own t tr) claims') : claims' = claims :=
  Bearer.unique hrun hb' (List.suffix_refl _) hb (List.suffix_refl _)

/-- Signing does not fail. -/
theorem signing_succeeds (hrun : Run A w tr) {t : ℕ} (claims : Claims) (e : String) :
    .jwtEncode claims (.error e) ∉ own t tr := by
  intro hmem
  obtain ⟨l, hl⟩ := suffix_of_mem hmem
  obtain ⟨_, _, _, _, _, -, -, -, -, -, hact⟩ := history_event hrun hl
  simp [World.act] at hact

/-- In the history of thread `t`, which serves a login of Alice without a code
and has answered, the account has been found as `user` and nothing has failed. -/
def loginPlayed (t : ℕ) (user : UserRow) (tr : ProxyTrace X srv) : Bool :=
  (tr.any fun x => match x.item with
    | .start q => decide (x.tid = t ∧ q.route = .login ∧ q.body = some Scenario.aliceLogin)
    | _ => false) &&
  (tr.any fun x => match x.item with
    | .done _ => decide (x.tid = t)
    | _ => false) &&
  (tr.any fun x => match x.item with
    | .act (.findUserByUsername username (.ok found)) =>
        decide (x.tid = t ∧ username = "alice" ∧ found = some user)
    | _ => false) &&
  tr.all fun x => match x.item with
    | .act e => !e.failed
    | _ => true

theorem exists_login {t : ℕ} {user : UserRow} (hplayed : loginPlayed t user tr = true) :
    ∃ q o, Finished tr t q (some o) ∧ q.route = .login ∧ q.body = some Scenario.aliceLogin ∧
      .findUserByUsername "alice" (.ok (some user)) ∈ own t tr ∧ StorageSucceeds (own t tr) := by
  simp only [loginPlayed, Bool.and_eq_true] at hplayed
  obtain ⟨⟨⟨hstart, hdone⟩, hfound⟩, hstored⟩ := hplayed
  obtain ⟨⟨t₁, w₁, item₁⟩, hmem₁, h₁⟩ := List.any_eq_true.mp hstart
  obtain ⟨⟨t₂, w₂, item₂⟩, hmem₂, h₂⟩ := List.any_eq_true.mp hdone
  obtain ⟨⟨t₃, w₃, item₃⟩, hmem₃, h₃⟩ := List.any_eq_true.mp hfound
  cases item₁ with
  | start q =>
      obtain ⟨rfl, hroute, hbody⟩ := of_decide_eq_true h₁
      cases item₂ with
      | done o =>
          obtain rfl := of_decide_eq_true h₂
          refine ⟨q, o, .answered ⟨w₁, hmem₁⟩ hmem₂, hroute, hbody, ?_, fun e he hfailed => ?_⟩
          · split at h₃
            · rename_i username found heq
              obtain ⟨rfl, rfl, rfl⟩ := of_decide_eq_true h₃
              obtain rfl : item₃ = .act (.findUserByUsername "alice" (.ok (some user))) := heq
              exact mem_own.mpr ⟨w₃, hmem₃⟩
            · simp at h₃
          · obtain ⟨w₄, hmem₄⟩ := mem_own.mp he
            have hsucceeds := List.all_eq_true.mp hstored _ hmem₄
            simp [hfailed] at hsucceeds
      | start q => simp at h₂
      | act e => simp at h₂
  | done o => simp at h₁
  | act e => simp at h₁

open Scenario in
theorem parses_aliceLogin {q : Request} (hbody : q.body = some aliceLogin) :
    ParsesLogin external q ⟨"alice", password, none, none⟩ :=
  ⟨aliceLogin, hbody, by simp [external]⟩

end ZeroTrustProxy
