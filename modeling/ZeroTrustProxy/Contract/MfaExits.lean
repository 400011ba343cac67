import ZeroTrustProxy.Contract.Panics

/-!
How `handle_mfa_enroll` and `handle_mfa_verify` end.
-/

namespace ZeroTrustProxy

open Concurrent Program Handler SessionManager JwtManager TotpManager

variable {X : External} {srv : ProxyServer} {req : Request} {h : List Event}

/-! ### Enrolment -/

/-- What an enrolment is answered. -/
def enrollAnswer (secret : String) (user : UserRow) : Response :=
  ⟨200, .enrollment secret (generateQrUrl secret user.email "zero-trust-proxy") secret⟩

/-- Every way in which an enrolment ends. -/
inductive EnrollRun (X : External) (req : Request) : List Event → Except ProxyError Response → Prop
  | unauthenticated {token : List Event} {e : ProxyError}
      (bearer : BearerRun req token (.error e)) : EnrollRun X req token (.error e)
  | badSubject {token : List Event} {claims : Claims} (bearer : BearerRun req token (.ok claims))
      (subject : X.parseUuid claims.sub = none) :
      EnrollRun X req token (.error (.authenticationFailed "invalid subject"))
  | lookupFailed {token : List Event} {claims : Claims} {userId : Uuid} {f : Fault}
      (bearer : BearerRun req token (.ok claims)) (subject : X.parseUuid claims.sub = some userId) :
      EnrollRun X req (.findUserById userId (.error f) :: token) (.error (.databaseError f.text))
  | unknown {token : List Event} {claims : Claims} {userId : Uuid}
      (bearer : BearerRun req token (.ok claims)) (subject : X.parseUuid claims.sub = some userId) :
      EnrollRun X req (.findUserById userId (.ok none) :: token)
        (.error (.authenticationFailed "user not found"))
  | written {token : List Event} {claims : Claims} {userId : Uuid} {user : UserRow}
      (secret : String) (x : Except Fault Unit) (bearer : BearerRun req token (.ok claims))
      (subject : X.parseUuid claims.sub = some userId) :
      EnrollRun X req
        (.setUserMfaSecret userId secret x :: .generateSecret secret ::
          .findUserById userId (.ok (some user)) :: token)
        ((x.mapError fun f => .databaseError f.text).map fun _ => enrollAnswer secret user)

theorem handleMfaEnroll_ends {r : Except ProxyError Response}
    (hend : (handleMfaEnroll X req).Ends h r) : EnrollRun X req h r := by
  obtain ⟨claims, token, h₁, rfl, htoken, hsubject⟩ | ⟨e, rfl, htoken⟩ := ends_bind.mp hend
  swap
  · exact .unauthenticated (bearerClaims_ends htoken)
  have hbearer := bearerClaims_ends htoken
  obtain ⟨userId, hparse, hlookup⟩ | ⟨hnone, rfl, rfl⟩ := ends_okOr_bind.mp hsubject
  swap
  · exact .badSubject hbearer hnone
  simp only [findUserById, call_bind, ends_call, ends_unwrap_bind] at hlookup
  obtain ⟨x, h₂, rfl, ⟨found, rfl, hfound⟩ | ⟨f, rfl, rfl, rfl⟩⟩ := hlookup
  swap
  · exact .lookupFailed hbearer hparse
  obtain ⟨user, rfl, hwrite⟩ | ⟨rfl, rfl, rfl⟩ := ends_okOr_bind.mp hfound
  swap
  · exact .unknown hbearer hparse
  simp only [generateSecret, setUserMfaSecret, call_bind, ret_bind, ends_call, ends_unwrap_bind,
    jsonResponse, ends_pure] at hwrite
  obtain ⟨secret, _, rfl, x, _, rfl, hlast⟩ := hwrite
  have hwritten := @EnrollRun.written X req token claims userId user secret x hbearer hparse
  obtain ⟨_, rfl, rfl, rfl⟩ | ⟨f, rfl, rfl, rfl⟩ := hlast
  · exact hwritten
  · exact hwritten

/-! ### Verification -/

/-- What a verification is answered. -/
def verifyAnswer : Response := ⟨200, .mfaVerified⟩

/-- The verdicts of `handle_mfa_verify` on a code, once the secret is known. -/
inductive VerifyVerdict (X : External) (claims : Claims) (secret code : String) :
    List Event → Except ProxyError Response → Prop
  | refused {check : List Event} (checked : CodeRun X secret code check false) :
      VerifyVerdict X claims secret code check (.error .invalidMfaToken)
  | noSession {check body : List Event} {e : ProxyError}
      (checked : CodeRun X secret code check true)
      (fetched : FetchRun X claims.sessionId body (.error e)) :
      VerifyVerdict X claims secret code (sessionEvents claims.sessionId (.error e) body ++ check)
        (.error e)
  | upgraded {check body update : List Event} {session : Session} {r : Except ProxyError Unit}
      (checked : CodeRun X secret code check true)
      (fetched : FetchRun X claims.sessionId body (.ok session))
      (written : UpdateRun (upgrade session) update r) :
      VerifyVerdict X claims secret code
        (update ++ (sessionEvents claims.sessionId (.ok session) body ++ check))
        (r.map fun _ => verifyAnswer)

/-- The body of the request is that of an `mfa/verify`. -/
def ParsesVerify (X : External) (req : Request) (body : MfaVerifyBody) : Prop :=
  ∃ bytes, req.body = some bytes ∧ X.parseMfaVerifyBody bytes = some body

theorem ParsesVerify.unique {body body' : MfaVerifyBody} (h : ParsesVerify X req body)
    (h' : ParsesVerify X req body') : body = body' := by
  obtain ⟨bytes, hbytes, hparse⟩ := h
  obtain ⟨bytes', hbytes', hparse'⟩ := h'
  obtain rfl := Option.some.inj (hbytes.symm.trans hbytes')
  exact Option.some.inj (hparse.symm.trans hparse')

/-- Every way in which an `mfa/verify` ends. `before` is what the rate limit and
the token have taken. -/
inductive VerifyRun (X : External) (req : Request) : List Event → Except ProxyError Response → Prop
  | limited {rate : List Event} {e : ProxyError}
      (rated : RateRun (rateLimitKey "mfa_verify" req.remoteIp) 10 300 rate (.error e)) :
      VerifyRun X req rate (.error e)
  | unauthenticated {rate token : List Event} {e : ProxyError}
      (rated : RateRun (rateLimitKey "mfa_verify" req.remoteIp) 10 300 rate (.ok ()))
      (bearer : BearerRun req token (.error e)) : VerifyRun X req (token ++ rate) (.error e)
  | unread {rate token : List Event} {claims : Claims}
      (rated : RateRun (rateLimitKey "mfa_verify" req.remoteIp) 10 300 rate (.ok ()))
      (bearer : BearerRun req token (.ok claims)) (body : req.body = none) :
      VerifyRun X req (token ++ rate) (.error .internalError)
  | malformed {rate token : List Event} {claims : Claims} {bytes : String}
      (rated : RateRun (rateLimitKey "mfa_verify" req.remoteIp) 10 300 rate (.ok ()))
      (bearer : BearerRun req token (.ok claims)) (body : req.body = some bytes)
      (parse : X.parseMfaVerifyBody bytes = none) :
      VerifyRun X req (token ++ rate) (.error (.authenticationFailed "invalid request body"))
  | badSubject {rate token : List Event} {claims : Claims} {body : MfaVerifyBody}
      (rated : RateRun (rateLimitKey "mfa_verify" req.remoteIp) 10 300 rate (.ok ()))
      (bearer : BearerRun req token (.ok claims)) (parsed : ParsesVerify X req body)
      (subject : X.parseUuid claims.sub = none) :
      VerifyRun X req (token ++ rate) (.error (.authenticationFailed "invalid subject"))
  | lookupFailed {rate token : List Event} {claims : Claims} {body : MfaVerifyBody} {userId : Uuid}
      {f : Fault} (rated : RateRun (rateLimitKey "mfa_verify" req.remoteIp) 10 300 rate (.ok ()))
      (bearer : BearerRun req token (.ok claims)) (parsed : ParsesVerify X req body)
      (subject : X.parseUuid claims.sub = some userId) :
      VerifyRun X req (.findUserById userId (.error f) :: (token ++ rate))
        (.error (.databaseError f.text))
  | unknown {rate token : List Event} {claims : Claims} {body : MfaVerifyBody} {userId : Uuid}
      (rated : RateRun (rateLimitKey "mfa_verify" req.remoteIp) 10 300 rate (.ok ()))
      (bearer : BearerRun req token (.ok claims)) (parsed : ParsesVerify X req body)
      (subject : X.parseUuid claims.sub = some userId) :
      VerifyRun X req (.findUserById userId (.ok none) :: (token ++ rate))
        (.error (.authenticationFailed "user not found"))
  | noSecret {rate token : List Event} {claims : Claims} {body : MfaVerifyBody} {userId : Uuid}
      {user : UserRow}
      (rated : RateRun (rateLimitKey "mfa_verify" req.remoteIp) 10 300 rate (.ok ()))
      (bearer : BearerRun req token (.ok claims)) (parsed : ParsesVerify X req body)
      (subject : X.parseUuid claims.sub = some userId) (secret : user.mfaSecret = none) :
      VerifyRun X req (.findUserById userId (.ok (some user)) :: (token ++ rate))
        (.error .mfaRequired)
  | decided {rate token verdict : List Event} {claims : Claims} {body : MfaVerifyBody}
      {userId : Uuid} {user : UserRow} {secret : String} {r : Except ProxyError Response}
      (rated : RateRun (rateLimitKey "mfa_verify" req.remoteIp) 10 300 rate (.ok ()))
      (bearer : BearerRun req token (.ok claims)) (parsed : ParsesVerify X req body)
      (subject : X.parseUuid claims.sub = some userId) (stored : user.mfaSecret = some secret)
      (decision : VerifyVerdict X claims secret body.mfaToken verdict r) :
      VerifyRun X req (verdict ++ .findUserById userId (.ok (some user)) :: (token ++ rate)) r

/-- The part of `handle_mfa_verify` after its lookups. -/
def decideVerify (X : External) (claims : Claims) (secret code : String) : Handler Response := do
  let valid ← verifyOrFalse X secret code
  if !valid then .throw .invalidMfaToken
  else do
    let session ← getSession X claims.sessionId
    updateSession { session with mfaVerified := true }
    jsonResponse 200 .mfaVerified

theorem decideVerify_ends {claims : Claims} {secret code : String}
    {r : Except ProxyError Response} (hend : (decideVerify X claims secret code).Ends h r) :
    VerifyVerdict X claims secret code h r := by
  obtain ⟨valid, check, h₁, rfl, hverify, hdecide⟩ | ⟨e, rfl, hverify⟩ := ends_bind.mp hend
  swap
  · obtain ⟨_, hok, -⟩ := verifyOrFalse_ends hverify
    simp at hok
  obtain ⟨valid', hsame, hchecked⟩ := verifyOrFalse_ends hverify
  obtain rfl := Except.ok.inj hsame
  cases valid with
  | false =>
      simp only [Bool.not_false, if_true, ends_throw] at hdecide
      obtain ⟨rfl, rfl⟩ := hdecide
      exact .refused hchecked
  | true =>
      simp only [Bool.not_true, Bool.false_eq_true, if_false] at hdecide
      obtain ⟨session, h₂, h₃, rfl, hsession, hupgrade⟩ | ⟨e, rfl, hsession⟩ :=
        ends_bind.mp hdecide
      swap
      · obtain ⟨body, hfetch, rfl⟩ := getSession_ends hsession
        exact .noSession hchecked hfetch
      obtain ⟨body, hfetch, rfl⟩ := getSession_ends hsession
      have hverdict {update : List Event} {x : Except ProxyError Unit}
          (hupdate : (updateSession (upgrade session)).Ends update x) :
          VerifyVerdict X claims secret code _ _ := .upgraded hchecked hfetch (updateSession_ends hupdate)
      rw [List.append_assoc]
      obtain ⟨_, h₄, h₅, rfl, hupdate, rfl, rfl⟩ | ⟨e, rfl, hupdate⟩ := ends_bind.mp hupgrade
      · exact hverdict hupdate
      · exact hverdict hupdate

theorem handleMfaVerify_ends {r : Except ProxyError Response}
    (hend : (handleMfaVerify X req).Ends h r) : VerifyRun X req h r := by
  obtain ⟨_, rate, h₁, rfl, hrate, hauth⟩ | ⟨e, rfl, hrate⟩ := ends_bind.mp hend
  swap
  · exact .limited (checkRateLimit_ends hrate)
  have hrated := checkRateLimit_ends hrate
  obtain ⟨claims, token, h₂, rfl, htoken, hread⟩ | ⟨e, rfl, htoken⟩ := ends_bind.mp hauth
  swap
  · exact .unauthenticated hrated (bearerClaims_ends htoken)
  have hbearer := bearerClaims_ends htoken
  rw [List.append_assoc]
  obtain ⟨bytes, hbytes, hparse⟩ | ⟨hnone, rfl, rfl⟩ := ends_okOr_bind.mp hread
  swap
  · show VerifyRun X req (token ++ rate) _
    exact .unread hrated hbearer hnone
  obtain ⟨body, hbody, hsubject⟩ | ⟨hnone, rfl, rfl⟩ := ends_okOr_bind.mp hparse
  swap
  · show VerifyRun X req (token ++ rate) _
    exact .malformed hrated hbearer hbytes hnone
  have hparsed : ParsesVerify X req body := ⟨bytes, hbytes, hbody⟩
  obtain ⟨userId, hid, hlookup⟩ | ⟨hnone, rfl, rfl⟩ := ends_okOr_bind.mp hsubject
  swap
  · show VerifyRun X req (token ++ rate) _
    exact .badSubject hrated hbearer hparsed hnone
  simp only [findUserById, call_bind, ends_call, ends_unwrap_bind] at hlookup
  obtain ⟨x, h₃, rfl, ⟨found, rfl, hfound⟩ | ⟨f, rfl, rfl, rfl⟩⟩ := hlookup
  swap
  · show VerifyRun X req (_ :: (token ++ rate)) _
    exact .lookupFailed hrated hbearer hparsed hid
  obtain ⟨user, rfl, hsecret⟩ | ⟨rfl, rfl, rfl⟩ := ends_okOr_bind.mp hfound
  swap
  · show VerifyRun X req (_ :: (token ++ rate)) _
    exact .unknown hrated hbearer hparsed hid
  obtain ⟨secret, hstored, hdecide⟩ | ⟨hnone, rfl, rfl⟩ := ends_okOr_bind.mp hsecret
  swap
  · show VerifyRun X req (_ :: (token ++ rate)) _
    exact .noSecret hrated hbearer hparsed hid hnone
  rw [List.append_assoc]
  show VerifyRun X req (_ ++ _ :: (token ++ rate)) _
  exact .decided hrated hbearer hparsed hid hstored (decideVerify_ends hdecide)

/-- A verification panics only where the secret does not decode. -/
theorem handleMfaVerify_panics (hcalls : (handleMfaVerify X req).Calls h .panic) :
    ∃ claims userId user secret body, Bearer req h claims ∧ X.parseUuid claims.sub = some userId ∧
      .findUserById userId (.ok (some user)) ∈ h ∧ user.mfaSecret = some secret ∧
      ParsesVerify X req body ∧ X.decodeSecret secret = none := by
  obtain hrate | ⟨_, rate, h₁, rfl, -, hauth⟩ := calls_bind.mp hcalls
  · exact (checkRateLimit_panicless _ hrate).elim
  obtain htoken | ⟨claims, token, h₂, rfl, htoken, hread⟩ := calls_bind.mp hauth
  · exact (bearerClaims_panicless _ htoken).elim
  have hbearer := (bearerClaims_ends htoken).bearer
  obtain ⟨bytes, hbytes, hparse⟩ := calls_okOr_bind.mp hread
  obtain ⟨body, hbody, hsubject⟩ := calls_okOr_bind.mp hparse
  obtain ⟨userId, hid, hlookup⟩ := calls_okOr_bind.mp hsubject
  obtain ⟨-, hne⟩ | ⟨x, h₃, rfl, hfound⟩ := hlookup
  · simp at hne
  obtain ⟨found, rfl, hfound⟩ := calls_unwrap_bind.mp hfound
  obtain ⟨user, rfl, hsecret⟩ := calls_okOr_bind.mp hfound
  obtain ⟨secret, hstored, hdecide⟩ := calls_okOr_bind.mp hsecret
  have hdecode : X.decodeSecret secret = none := by
    obtain hverify | ⟨valid, check, h₄, -, -, hdecide⟩ := calls_bind.mp hdecide
    · exact (verifyOrFalse_panics hverify).2
    · exfalso
      refine never_ite never_throw ?_ _ hdecide
      apply never_bind
      · exact getSession_panicless
      · exact fun _ => never_bind updateSession_panicless fun _ => never_ret
  refine ⟨claims, userId, user, secret, body, hbearer.of_subset ?_, hid, by simp [Cmd.event], hstored,
    ⟨bytes, hbytes, hbody⟩, hdecode⟩
  intro e he
  simp [he]

end ZeroTrustProxy
