import ZeroTrustProxy.Contract.MfaExits

/-!
How `handle_register` and `handle_logout` end.
-/

namespace ZeroTrustProxy

open Concurrent Program Handler SessionManager JwtManager

variable {X : External} {srv : ProxyServer} {req : Request} {h : List Event}

/-! ### Registration -/

/-- What a registration is answered. -/
def registerAnswer (row : UserRow) : Response := ⟨201, .user row.id.text row.username row.email⟩

/-- The body of the request is that of a registration. -/
def ParsesRegister (X : External) (req : Request) (body : RegisterBody) : Prop :=
  ∃ bytes, req.body = some bytes ∧ X.parseRegisterBody bytes = some body

theorem ParsesRegister.unique {body body' : RegisterBody} (h : ParsesRegister X req body)
    (h' : ParsesRegister X req body') : body = body' := by
  obtain ⟨bytes, hbytes, hparse⟩ := h
  obtain ⟨bytes', hbytes', hparse'⟩ := h'
  obtain rfl := Option.some.inj (hbytes.symm.trans hbytes')
  exact Option.some.inj (hparse.symm.trans hparse')

/-- Every way in which a registration ends. -/
inductive RegisterRun (X : External) (req : Request) :
    List Event → Except ProxyError Response → Prop
  | limited {rate : List Event} {e : ProxyError}
      (rated : RateRun (rateLimitKey "register" req.remoteIp) 10 300 rate (.error e)) :
      RegisterRun X req rate (.error e)
  | unread {rate : List Event}
      (rated : RateRun (rateLimitKey "register" req.remoteIp) 10 300 rate (.ok ()))
      (body : req.body = none) : RegisterRun X req rate (.error .internalError)
  | malformed {rate : List Event} {bytes : String}
      (rated : RateRun (rateLimitKey "register" req.remoteIp) 10 300 rate (.ok ()))
      (body : req.body = some bytes) (parse : X.parseRegisterBody bytes = none) :
      RegisterRun X req rate (.error (.authenticationFailed "invalid request body"))
  | short {rate : List Event} {body : RegisterBody}
      (rated : RateRun (rateLimitKey "register" req.remoteIp) 10 300 rate (.ok ()))
      (parsed : ParsesRegister X req body) (password : body.password.utf8ByteSize < 12) :
      RegisterRun X req rate
        (.error (.authenticationFailed "password must be at least 12 characters"))
  | lookupFailed {rate : List Event} {body : RegisterBody} {f : Fault}
      (rated : RateRun (rateLimitKey "register" req.remoteIp) 10 300 rate (.ok ()))
      (parsed : ParsesRegister X req body) :
      RegisterRun X req (.findUserByUsername body.username (.error f) :: rate)
        (.error (.databaseError f.text))
  | taken {rate : List Event} {body : RegisterBody} {user : UserRow}
      (rated : RateRun (rateLimitKey "register" req.remoteIp) 10 300 rate (.ok ()))
      (parsed : ParsesRegister X req body) :
      RegisterRun X req (.findUserByUsername body.username (.ok (some user)) :: rate)
        (.error (.authenticationFailed "username already exists"))
  | unhashed {rate : List Event} {body : RegisterBody} {e : String}
      (rated : RateRun (rateLimitKey "register" req.remoteIp) 10 300 rate (.ok ()))
      (parsed : ParsesRegister X req body) :
      RegisterRun X req
        (.hashPassword body.password (.error e) ::
          .findUserByUsername body.username (.ok none) :: rate)
        (.error (.authenticationFailed e))
  | refused {rate : List Event} {body : RegisterBody} {hash : String} {f : Fault} {row : UserRow}
      (rated : RateRun (rateLimitKey "register" req.remoteIp) 10 300 rate (.ok ()))
      (parsed : ParsesRegister X req body) :
      RegisterRun X req
        (.createUser body.username body.email hash (.error (f, row)) ::
          .hashPassword body.password (.ok hash) ::
          .findUserByUsername body.username (.ok none) :: rate)
        (.error (.databaseError f.text))
  | created {rate : List Event} {body : RegisterBody} {hash : String} {row : UserRow}
      (rated : RateRun (rateLimitKey "register" req.remoteIp) 10 300 rate (.ok ()))
      (parsed : ParsesRegister X req body) (password : 12 ≤ body.password.utf8ByteSize) :
      RegisterRun X req
        (.createUser body.username body.email hash (.ok row) ::
          .hashPassword body.password (.ok hash) ::
          .findUserByUsername body.username (.ok none) :: rate)
        (.ok (registerAnswer row))

theorem handleRegister_ends {r : Except ProxyError Response}
    (hend : (handleRegister X req).Ends h r) : RegisterRun X req h r := by
  obtain ⟨_, rate, h₁, rfl, hrate, hread⟩ | ⟨e, rfl, hrate⟩ := ends_bind.mp hend
  swap
  · exact .limited (checkRateLimit_ends hrate)
  have hrated := checkRateLimit_ends hrate
  obtain ⟨bytes, hbytes, hparse⟩ | ⟨hnone, rfl, rfl⟩ := ends_okOr_bind.mp hread
  swap
  · exact .unread hrated hnone
  obtain ⟨body, hbody, hcheck⟩ | ⟨hnone, rfl, rfl⟩ := ends_okOr_bind.mp hparse
  swap
  · exact .malformed hrated hbytes hnone
  have hparsed : ParsesRegister X req body := ⟨bytes, hbytes, hbody⟩
  obtain ⟨hshort, rfl, rfl⟩ | ⟨hlong, hlookup⟩ := ends_ite.mp hcheck
  · exact .short hrated hparsed hshort
  simp only [findUserByUsername, call_bind, ends_call, ends_unwrap_bind] at hlookup
  obtain ⟨x, h₂, rfl, ⟨found, rfl, hfound⟩ | ⟨f, rfl, rfl, rfl⟩⟩ := hlookup
  swap
  · exact .lookupFailed hrated hparsed
  cases found with
  | some user =>
      obtain ⟨rfl, rfl⟩ := hfound
      exact .taken hrated hparsed
  | none =>
      simp only [Option.isSome_none, Bool.false_eq_true, if_false, ends_call,
        ends_mapErr_bind] at hfound
      obtain ⟨x, h₃, rfl, ⟨hash, rfl, hcreate⟩ | ⟨e, rfl, rfl, rfl⟩⟩ := hfound
      swap
      · exact .unhashed hrated hparsed
      simp only [createUser, call_bind, ends_call] at hcreate
      obtain ⟨y, h₄, rfl, hlast⟩ := hcreate
      cases y with
      | error fault =>
          obtain ⟨rfl, rfl⟩ := hlast
          exact .refused hrated hparsed
      | ok row =>
          obtain ⟨rfl, rfl⟩ := hlast
          exact .created hrated hparsed (Nat.le_of_not_lt hlong)

/-! ### Logout -/

/-- What a logout is answered. -/
def logoutAnswer : Response := ⟨200, .ok⟩

/-- Every way in which a logout ends. -/
inductive LogoutRun (req : Request) : List Event → Except ProxyError Response → Prop
  | unauthenticated {token : List Event} {e : ProxyError}
      (bearer : BearerRun req token (.error e)) : LogoutRun req token (.error e)
  | deleted {token : List Event} {claims : Claims} (x : Except Fault Unit)
      (bearer : BearerRun req token (.ok claims)) :
      LogoutRun req (.redisDel (sessionKey claims.sessionId) x :: token)
        ((x.mapError fun f => .redisError f.text).map fun _ => logoutAnswer)

theorem handleLogout_ends {r : Except ProxyError Response}
    (hend : (handleLogout req).Ends h r) : LogoutRun req h r := by
  obtain ⟨claims, token, h₁, rfl, htoken, hdelete⟩ | ⟨e, rfl, htoken⟩ := ends_bind.mp hend
  swap
  · exact .unauthenticated (bearerClaims_ends htoken)
  have hbearer := bearerClaims_ends htoken
  simp only [deleteSession, redisDel, call_bind, ends_call, ends_unwrap_bind, jsonResponse,
    ends_pure] at hdelete
  obtain ⟨x, _, rfl, hlast⟩ := hdelete
  have hdeleted := LogoutRun.deleted x hbearer
  obtain ⟨_, rfl, rfl, rfl⟩ | ⟨f, rfl, rfl, rfl⟩ := hlast
  · exact hdeleted
  · exact hdeleted

end ZeroTrustProxy
