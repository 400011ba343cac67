import ZeroTrustProxy.Contract.Panics

/-!
Which collaborator an event belongs to.

The parts of a handler talk to different collaborators. Knowing which ones a
part talks to is often all that is needed of its events: a part that does not
write the audit log leaves no audit event behind.
-/

namespace ZeroTrustProxy

open Concurrent

/-- The collaborators of the handlers. -/
inductive EventKind where
  | redis
  | account
  | device
  | audit
  | clock
  | uuid
  | secret
  | code
  | token
  | upstream
  | session
  deriving DecidableEq

def Event.kind : Event → EventKind
  | .redisGet _ _ | .redisSetEx _ _ _ _ | .redisDel _ _ | .redisScan _ | .redisScanNext _ _
  | .redisIncr _ _ | .redisExpire _ _ _ => .redis
  | .findUserByUsername _ _ | .findUserById _ _ | .setUserMfaSecret _ _ _
  | .createUser _ _ _ _ => .account
  | .findDeviceByFingerprint _ _ _ | .upsertDevice _ _ => .device
  | .insertAuditLog _ _ => .audit
  | .utcNow _ _ => .clock
  | .newUuid _ => .uuid
  | .generateSecret _ | .hashPassword _ _ => .secret
  | .totpCheck _ _ _ => .code
  | .jwtEncode _ _ | .jwtDecode _ _ => .token
  | .upstream _ _ => .upstream
  | .getSessionCall _ | .getSessionReturn _ _ => .session

attribute [local simp] Event.kind

/-- The events of `h` belong to these collaborators. -/
def OfKinds (ks : List EventKind) (h : List Event) : Prop := ∀ e ∈ h, e.kind ∈ ks

variable {X : External} {srv : ProxyServer} {req : Request} {h h' : List Event}
  {ks : List EventKind}

theorem OfKinds.not_mem (hk : OfKinds ks h) {e : Event} (he : e.kind ∉ ks) : e ∉ h :=
  fun hmem => he (hk e hmem)

theorem OfKinds.append (hk : OfKinds ks h) (hk' : OfKinds ks h') : OfKinds ks (h ++ h') := by
  intro e he
  obtain he | he := List.mem_append.mp he
  · exact hk e he
  · exact hk' e he

theorem OfKinds.mono {ks' : List EventKind} (hk : OfKinds ks h) (hsub : ks ⊆ ks') : OfKinds ks' h :=
  fun e he => hsub (hk e he)

theorem RateRun.kinds {key : String} {limit windowSecs : Int} {r : Except ProxyError Unit}
    (hr : RateRun key limit windowSecs h r) : OfKinds [.redis] h := by
  cases hr with
  | failed => simp [OfKinds]
  | unset => simp [OfKinds]
  | counted opened =>
      obtain ⟨-, rfl⟩ | ⟨-, rfl⟩ := opened
      · simp [OfKinds]
      · simp [OfKinds]

theorem BearerRun.kinds {r : Except ProxyError Claims} (hb : BearerRun req h r) :
    OfKinds [.token] h := by
  cases hb with
  | noToken header => simp [OfKinds]
  | invalid header => simp [OfKinds]
  | valid header => simp [OfKinds]

theorem UpdateRun.kinds {x : Session} {r : Except ProxyError Unit} (hu : UpdateRun x h r) :
    OfKinds [.redis, .clock] h := by
  cases hu with
  | skipped none => simp [OfKinds]
  | written left => simp [OfKinds]
  | failed left => simp [OfKinds]

theorem FetchRun.kinds {id : String} {r : Except ProxyError Session} (hf : FetchRun X id h r) :
    OfKinds [.redis, .clock] h := by
  cases hf with
  | failed => simp [OfKinds]
  | missing => simp [OfKinds]
  | unparsed parse => simp [OfKinds]
  | expired expiry => simp [OfKinds]
  | live live run =>
      apply run.kinds.append
      simp [OfKinds]

theorem AuditRun.kinds {eventType : EventType} {userId : String} {outcome : Outcome}
    (ha : AuditRun X eventType userId outcome h) : OfKinds [.audit, .clock, .uuid] h := by
  cases ha with
  | intro r n id type user result => simp [OfKinds]

theorem RequestRiskRun.kinds {session : Session} {claims : Claims} {risk : RiskScore}
    (hr : RequestRiskRun X srv req session claims h risk) : OfKinds [.clock, .uuid] h := by
  cases hr with
  | intro id firstSeen lastSeen ageAt timestamp now => simp [OfKinds]

theorem GateRun.kinds {session : Session} {claims : Claims} {risk : RiskScore}
    {r : Except ProxyError Unit} (hg : GateRun X srv session claims risk h r) :
    OfKinds [.audit, .clock, .uuid] h := by
  cases hg with
  | unverified required mfa => simp [OfKinds]
  | blocked mfa block audited => exact audited.kinds
  | stepUp required stepUp mfa => simp [OfKinds]
  | passed mfa block stepUp audited => exact audited.kinds

theorem forwardUpstream_kinds {r : Except ProxyError Response}
    (hend : (forwardUpstream X srv req).Ends h r) : OfKinds [.upstream] h := by
  simp only [forwardUpstream, Program.call_bind, ends_okOr_bind, ends_mapErr_bind,
    Program.ends_call, Program.ends_pure] at hend
  obtain ⟨body, -, ⟨uri, -, x, h', rfl, hlast⟩ | ⟨-, rfl, -⟩⟩ | ⟨-, rfl, -⟩ := hend
  · obtain ⟨resp, -, rfl, -⟩ | ⟨e, -, rfl, -⟩ := hlast
    · simp [OfKinds, Cmd.event]
    · simp [OfKinds, Cmd.event]
  · simp [OfKinds]
  · simp [OfKinds]

theorem CodeRun.kinds {secret code : String} {valid : Bool} (hc : CodeRun X secret code h valid) :
    OfKinds [.code] h := by
  cases hc with
  | unusable decoded error => simp [OfKinds]
  | checked decoded usable => simp [OfKinds]

theorem MfaRun.kinds {user : UserRow} {body : LoginBody} {r : Except ProxyError Bool}
    (hm : MfaRun X user body h r) : OfKinds [.code] h := by
  cases hm with
  | notEnrolled enabled => simp [OfKinds]
  | noSecret enabled secret => simp [OfKinds]
  | noCode enabled stored code => simp [OfKinds]
  | decided enabled stored given checked => exact checked.kinds

theorem LoginRiskRun.kinds {user : UserRow} {device : DeviceFingerprint}
    {existing : Option DeviceRow} {r : Except ProxyError RiskScore}
    (hr : LoginRiskRun srv req user device existing h r) : OfKinds [.device, .clock] h := by
  cases hr with
  | failed => simp [OfKinds]
  | scored lastSeen timestamp now => simp [OfKinds]

theorem CreateRun.kinds {user : UserRow} {deviceId userAgent : String}
    {r : Except ProxyError Session} (hc : CreateRun srv req user deviceId userAgent h r) :
    OfKinds [.redis, .uuid, .clock] h := by
  cases hc with
  | intro now id x bounds => simp [OfKinds, createEvent]

theorem StartRun.kinds {user : UserRow} {deviceId userAgent : String} {mfa : Bool}
    {risk : RiskScore} {r : Except ProxyError Response}
    (hs : StartRun X srv req user deviceId userAgent mfa risk h r) :
    OfKinds [.audit, .clock, .uuid, .redis, .token] h := by
  cases hs with
  | uncreated created => exact created.kinds.mono (by decide)
  | unwritten created written =>
      exact (written.kinds.mono (by decide)).append (created.kinds.mono (by decide))
  | @signed create update audit session now jti x created written audited bounds =>
      have hearlier : OfKinds [.audit, .clock, .uuid, .redis, .token] (audit ++ (update ++ create)) :=
        (audited.kinds.mono (by decide)).append
          ((written.kinds.mono (by decide)).append (created.kinds.mono (by decide)))
      have hsign : OfKinds [.audit, .clock, .uuid, .redis, .token]
          [.jwtEncode (loginClaims srv user deviceId (stamp session mfa risk.totalScore) mfa now jti) x,
            .newUuid jti, .utcNow .tokenIssue now] := by simp [OfKinds]
      exact hsign.append hearlier

theorem OpenRun.kinds {body : LoginBody} {user : UserRow} {userAgent : String} {mfa : Bool}
    {risk : RiskScore} {r : Except ProxyError Response}
    (ho : OpenRun X srv req body user userAgent mfa risk h r) :
    OfKinds [.audit, .clock, .uuid, .redis, .token] h := by
  cases ho with
  | named given started => exact started.kinds
  | unnamed given started =>
      apply started.kinds.append
      simp [OfKinds]

theorem LoginVerdict.kinds {body : LoginBody} {user : UserRow} {device : DeviceFingerprint}
    {existing : Option DeviceRow} {r : Except ProxyError Response}
    (hv : LoginVerdict X srv req body user device existing h r) :
    OfKinds [.audit, .clock, .uuid, .redis, .token, .device, .code] h := by
  cases hv with
  | unverifiable password => simp [OfKinds]
  | refusalFailed password => simp [OfKinds]
  | refused password audited =>
      apply (audited.kinds.mono (by decide)).append
      simp [OfKinds]
  | mfaRefused password gate => exact gate.kinds.mono (by decide)
  | riskFailed password gate scored =>
      exact (scored.kinds.mono (by decide)).append (gate.kinds.mono (by decide))
  | blocked password gate scored block audited =>
      exact (audited.kinds.mono (by decide)).append
        ((scored.kinds.mono (by decide)).append (gate.kinds.mono (by decide)))
  | opened password gate scored block opened =>
      exact (opened.kinds.mono (by decide)).append
        ((scored.kinds.mono (by decide)).append (gate.kinds.mono (by decide)))

theorem loginLookups_kinds {body : LoginBody} {user : UserRow} {id : Uuid}
    {firstSeen lastSeen : Int} {found : Except Fault (Option DeviceRow)} {rate : List Event}
    (hrate : OfKinds [.redis] rate) :
    OfKinds [.redis, .account, .device, .clock, .uuid]
      (loginLookups X req body user id firstSeen lastSeen found rate) := by
  intro e he
  simp only [loginLookups, List.mem_cons] at he
  obtain rfl | rfl | rfl | rfl | rfl | he := he
  · simp
  · simp
  · simp
  · simp
  · simp
  · exact hrate.mono (by decide) e he

/-- A login looks one account up. -/
theorem loginLookups_account {body : LoginBody} {user : UserRow} {id : Uuid}
    {firstSeen lastSeen : Int} {existing : Except Fault (Option DeviceRow)} {rate later : List Event}
    {username : String} {found : Option UserRow} (hrate : OfKinds [.redis] rate)
    (hlater : OfKinds ks later) (hks : .account ∉ ks)
    (hmem : .findUserByUsername username (.ok found) ∈
      later ++ loginLookups X req body user id firstSeen lastSeen existing rate) :
    found = some user := by
  have hnot : Event.kind (.findUserByUsername username (.ok found)) ∉ ks := hks
  simp only [loginLookups, List.mem_append, List.mem_cons, reduceCtorEq, false_or,
    Event.findUserByUsername.injEq, Except.ok.injEq] at hmem
  obtain hmem | ⟨-, rfl⟩ | hmem := hmem
  · exact (hlater.not_mem hnot hmem).elim
  · rfl
  · exact (hrate.not_mem (by simp) hmem).elim

end ZeroTrustProxy
