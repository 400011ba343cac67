import ZeroTrustProxy.Runs.Agreement
import ZeroTrustProxy.Runs.Recorded
import ZeroTrustProxy.Runs.Unhindered
import ZeroTrustProxy.Runs.Updates

/-!
What a login says about the second factor.

The answer of a login has a flag `mfa_required`, and the gate of the next proxied
request decides for itself. The flag is never set, since a login of an enrolled
user only succeeds with a code. The gate asks for the flag of the session, which
a login sets on the record it completes and nobody else before its token is used.
-/

namespace ZeroTrustProxy

open Concurrent Program

variable {X : External} {srv : ProxyServer}
  {A : ProxyTrace X srv → Entry (proxySystem X srv) → Prop} {w : World} {tr tr' : ProxyTrace X srv}
  {req : Request} {h : List Event} {risk : RiskScore}

/-! ### The flag of a session -/

/-- The flag of a session has been raised: by the login that has completed its
record, or by a verification with its token. -/
inductive Raised (tr : ProxyTrace X srv) (id : String) : Prop
  | stamped {t : ℕ} {q : Request} {h : List Event} {user : UserRow} {x : Session} {n : Int}
      {risk secs : ℕ} {r : Except Fault Unit} (started : Started t q tr)
      (built : SessionBuilt X srv q h user true x) (left : 0 < x.ttl n)
      (history : .redisSetEx (sessionKey x.id) (.session (stamp x true risk)) secs r ::
        .utcNow .sessionTtl n :: createEvent srv x (.ok ()) :: h <:+ own t tr)
      (named : x.id = id)
  | verified {t : ℕ} {q : Request} {h : List Event} {claims : Claims} {user : UserRow}
      (started : Started t q tr) (history : h <:+ own t tr) (passed : MfaPassed X q h claims user)
      (named : claims.sessionId = id)

theorem Raised.mono {id : String} (hr : Raised tr id) (hsub : tr <:+ tr') : Raised tr' id := by
  cases hr with
  | stamped started built left history named =>
      exact .stamped (started.mono hsub.subset) built left (history.trans (own_suffix hsub _)) named
  | verified started history passed named =>
      exact .verified (started.mono hsub.subset) (history.trans (own_suffix hsub _)) passed named

/-- The flags of the stored records have been raised. -/
def StoredRaised (w : World) (tr : ProxyTrace X srv) : Prop :=
  ∀ id c y, w.redis.lookup (sessionKey id) = some c → c.value = .session y →
    y.mfaVerified = true → Raised tr id

/-- The flag of a record that has been read has been raised. -/
theorem read_raised_of_past (hrun : Run A w tr) (hpast : Past StoredRaised tr) {t : ℕ}
    {id : String} {y : Session}
    (hread : .redisGet (sessionKey id) (.ok (some (.session y))) ∈ own t tr)
    (hflag : y.mfaVerified = true) : Raised tr id := by
  obtain ⟨l, hl⟩ := suffix_of_mem hread
  obtain ⟨post, pre, w₀, w₁, q, rfl, -, -, -, -, hact⟩ := history_event hrun hl
  obtain ⟨-, hstored⟩ := World.read_reply hact
  obtain ⟨c, hc, hvalue⟩ := Option.map_eq_some_iff.mp hstored.symm
  have hraised := hpast _ pre (List.suffix_append _ _) id c y hc hvalue hflag
  exact hraised.mono ((List.suffix_cons _ _).trans (List.suffix_append _ _))

theorem SessionWrite.raised (hrun : Run A w tr) (hpast : Past StoredRaised tr) {t : ℕ}
    {q : Request} {y : Session} {secs : ℕ} {r : Except Fault Unit} {w₀ : World}
    (hq : Started t q tr) (hwrite : SessionWrite X srv q (own t tr) y secs)
    (hflag : y.mfaVerified = true) :
    Raised (⟨t, w₀, .act (.redisSetEx (sessionKey y.id) (.session y) secs r)⟩ :: tr) y.id := by
  have hlater := List.suffix_cons (⟨t, w₀, .act (.redisSetEx (sessionKey y.id) (.session y) secs r)⟩ :
    Entry (proxySystem X srv)) tr
  generalize hown : own t tr = l at hwrite
  cases hwrite with
  | created built =>
      rw [built.mfaVerified] at hflag
      exact (Bool.false_ne_true hflag).elim
  | @stamped h user mfa x n risk built left =>
      obtain rfl : mfa = true := hflag
      have hlast : .redisSetEx (sessionKey x.id) (.session (stamp x true risk)) (asU64 (x.ttl n)) r ::
          .utcNow .sessionTtl n :: createEvent srv x (.ok ()) :: h <:+
            own t ((⟨t, w₀, .act (.redisSetEx (sessionKey x.id) (.session (stamp x true risk))
              (asU64 (x.ttl n)) r)⟩ : Entry (proxySystem X srv)) :: tr) := by
        rw [own_act_self, hown]
      exact .stamped (hq.mono hlater.subset) built left hlast rfl
  | @touched h claims x n activity now bearer live left =>
      have hread : .redisGet (sessionKey claims.sessionId) (.ok (some (.session x))) ∈ own t tr := by
        rw [hown]
        simp
      have hraised := read_raised_of_past hrun hpast hread hflag
      have hid : x.id = claims.sessionId := (read_origin hrun hread).1
      refine Raised.mono ?_ hlater
      show Raised tr x.id
      rw [hid]
      exact hraised
  | @upgraded h claims user x n passed left =>
      have hret : .getSessionReturn claims.sessionId (.ok x) ∈ own t tr := by
        rw [hown]
        simp
      have hsub : h <:+ own t tr := hown ▸ List.suffix_append [_, _] h
      have hagrees := returned_agrees hrun (passed.bearer.issued hrun hsub) hret
      exact (Raised.verified hq hsub passed hagrees.id.symm).mono hlater

theorem stored_raised (hrun : Run A w tr) : StoredRaised w tr ∧ Past StoredRaised tr := by
  refine hrun.invariant (proxy_contract X srv) StoredRaised ?_ ?_ ?_ ?_ ?_
  · intro w hinit id c y hc
    simp [hinit.redis] at hc
  · intro w w' tr m _ hJ henv id c y hc
    obtain ⟨-, rfl⟩ : w.clock ≤ m ∧ w.advance m = w' := by simpa using henv
    exact hJ id c y (ExpiringStore.lookup_advance_eq_some.mp hc).1
  · intro w tr t q hJ _ id c y hc hvalue hflag
    exact (hJ id c y hc hvalue hflag).mono (List.suffix_cons _ _)
  · intro w w' tr t q e hrun hJ hpast hq hL hact _ id c y hc hvalue hflag
    obtain hsame | ⟨x, secs, r, rfl, rfl, hwrite, -, hnew⟩ | ⟨r, rfl, -, rfl⟩ :=
      sessionKey_step hL hact id
    · rw [hsame] at hc
      exact (hJ id c y hc hvalue hflag).mono (List.suffix_cons _ _)
    · obtain rfl := Option.some.inj (hnew.symm.trans hc)
      obtain rfl : x = y := RedisValue.session.inj hvalue
      exact hwrite.raised hrun hpast hq hflag
    · simp [World.del] at hc
  · intro w tr t q o _ hJ _ _ _ id c y hc hvalue hflag
    exact (hJ id c y hc hvalue hflag).mono (List.suffix_cons _ _)

theorem read_raised (hrun : Run A w tr) {t : ℕ} {id : String} {y : Session}
    (hread : .redisGet (sessionKey id) (.ok (some (.session y))) ∈ own t tr)
    (hflag : y.mfaVerified = true) : Raised tr id :=
  read_raised_of_past hrun (stored_raised hrun).2 hread hflag

/-! ### The token of a login -/

theorem StartRun.signs {user : UserRow} {deviceId userAgent : String} {mfa : Bool} {o : Response}
    (hs : StartRun X srv req user deviceId userAgent mfa risk h (.ok o)) :
    ∃ claims token rest, h = .jwtEncode claims (.ok token) :: rest ∧
      OfKinds [.audit, .clock, .uuid, .redis] rest ∧ o = loginAnswer srv user mfa token := by
  generalize hr : (Except.ok o : Except ProxyError Response) = r at hs
  cases hs with
  | uncreated created => simp at hr
  | unwritten created written => simp at hr
  | @signed create update audit session now jti x created written audited bounds =>
      cases x with
      | error e => simp [Except.map, Except.mapError] at hr
      | ok token =>
          refine ⟨_, token, _, rfl, ?_, Except.ok.inj hr⟩
          have hearlier : OfKinds [.audit, .clock, .uuid, .redis] (audit ++ (update ++ create)) :=
            (audited.kinds.mono (by decide)).append
              ((written.kinds.mono (by decide)).append (created.kinds.mono (by decide)))
          intro e he
          obtain rfl | rfl | he := by simpa only [List.mem_cons] using he
          · simp [Event.kind]
          · simp [Event.kind]
          · exact hearlier e he

theorem OpenRun.signs {body : LoginBody} {user : UserRow} {userAgent : String} {mfa : Bool}
    {o : Response} (ho : OpenRun X srv req body user userAgent mfa risk h (.ok o)) :
    ∃ claims token rest, h = .jwtEncode claims (.ok token) :: rest ∧
      OfKinds [.audit, .clock, .uuid, .redis] rest ∧ o = loginAnswer srv user mfa token := by
  cases ho with
  | named given started => exact started.signs
  | @unnamed id session _ given started =>
      obtain ⟨claims, token, rest, rfl, hrest, ho⟩ := started.signs
      refine ⟨claims, token, _, rfl, hrest.append ?_, ho⟩
      simp [OfKinds, Event.kind]

/-- A login with an answer has asked an enrolled user for a code. -/
theorem MfaRun.factor {user : UserRow} {body : LoginBody} {mfa : Bool}
    (hm : MfaRun X user body h (.ok mfa)) : (user.mfaEnabled && !mfa) = false := by
  generalize hr : (Except.ok mfa : Except ProxyError Bool) = r at hm
  cases hm with
  | notEnrolled enabled => rw [enabled, Bool.false_and]
  | noSecret enabled secret => simp at hr
  | noCode enabled stored code => simp at hr
  | @decided secret code check valid enabled stored given checked =>
      cases valid with
      | true =>
          obtain rfl : mfa = true := by simpa using hr
          exact Bool.and_false _
      | false => simp at hr

/-- A login that is answered has signed one token at its end, and says that no
second factor is missing. -/
theorem LoginRun.signs {o : Response} (hl : LoginRun X srv req h (.ok o)) :
    ∃ claims token rest answer, h = .jwtEncode claims (.ok token) :: rest ∧
      OfKinds [.redis, .account, .device, .audit, .clock, .uuid, .code] rest ∧
      o = ⟨200, .login answer⟩ ∧ answer.accessToken = token ∧ answer.mfaRequired = false := by
  cases hl with
  | @decided rate verdict body user existing _ id firstSeen lastSeen rated parsed active decision =>
      cases decision with
      | @opened check scores session mfa risk _ password gate scored block opened =>
          obtain ⟨claims, token, rest, rfl, hrest, rfl⟩ := opened.signs
          refine ⟨claims, token, _, _, rfl, ?_, rfl, rfl, gate.factor⟩
          exact ((hrest.mono (by decide)).append ((scored.kinds.mono (by decide)).append
            (gate.kinds.mono (by decide)))).append
              ((loginLookups_kinds rated.kinds).mono (by decide))

/-- A token that is known has been signed. -/
theorem token_signed (hrun : Run A w tr) {token : String} {claims : Claims}
    (htoken : w.tokens.lookup token = some claims) :
    ∃ t, .jwtEncode claims (.ok token) ∈ own t tr := by
  refine (hrun.invariant (proxy_contract X srv) (fun w tr => ∀ token claims,
    w.tokens.lookup token = some claims → ∃ t, .jwtEncode claims (.ok token) ∈ own t tr)
    ?_ ?_ ?_ ?_ ?_).1 token claims htoken
  · intro w hinit token claims htoken
    simp [hinit.tokens] at htoken
  · intro w w' tr m _ hJ henv
    obtain ⟨-, rfl⟩ : w.clock ≤ m ∧ w.advance m = w' := by simpa using henv
    exact hJ
  · exact fun _ hJ _ => hJ
  · intro w w' tr t q e _ hJ _ _ _ hact _ token claims htoken
    obtain hsame | ⟨claims', token', rfl, -, htokens⟩ := World.act_tokens hact
    · rw [hsame] at htoken
      obtain ⟨t', hmem⟩ := hJ token claims htoken
      exact ⟨t', (own_suffix (List.suffix_cons _ _) t').subset hmem⟩
    · rw [htokens, List.lookup_cons] at htoken
      split at htoken
      · rename_i heq
        obtain rfl : token = token' := by simpa using heq
        obtain rfl := Option.some.inj htoken
        refine ⟨t, ?_⟩
        rw [own_act_self]
        exact List.mem_cons_self
      · obtain ⟨t', hmem⟩ := hJ token claims htoken
        exact ⟨t', (own_suffix (List.suffix_cons _ _) t').subset hmem⟩
  · exact fun _ hJ _ _ _ => hJ

/-! ### Requests that come to the gate -/

/-- Only the risk of a request asks for the age of its device. -/
theorem UpdateRun.no_age {x : Session} {r : Except ProxyError Unit} (hu : UpdateRun x h r)
    (now : Int) : .utcNow .deviceAge now ∉ h := by
  cases hu with
  | skipped none => simp
  | written left => simp
  | failed left => simp

theorem FetchRun.no_age {id : String} {r : Except ProxyError Session} (hf : FetchRun X id h r)
    (now : Int) : .utcNow .deviceAge now ∉ h := by
  cases hf with
  | failed => simp
  | missing => simp
  | unparsed parse => simp
  | expired expiry => simp
  | live live run =>
      have hupdate := run.no_age now
      simp [hupdate]

theorem AuditRun.no_age {eventType : EventType} {userId : String} {outcome : Outcome}
    (ha : AuditRun X eventType userId outcome h) (now : Int) : .utcNow .deviceAge now ∉ h := by
  cases ha with
  | intro r n id type user result => simp

theorem AuthorizeScored.age (hs : AuthorizeScored X srv req h risk) :
    ∃ now, .utcNow .deviceAge now ∈ h := by
  obtain ⟨_, _, scores, _, _, hsub, -, -, hrisk⟩ := hs
  cases hrisk with
  | intro id firstSeen lastSeen ageAt timestamp now => exact ⟨now, hsub.subset (by simp)⟩

/-- A request that has asked for the age of its device has come to the gate. -/
theorem AuthorizeRun.gated {r : Except ProxyError Unit} (hrun : AuthorizeRun X srv req h r)
    {now : Int} (hage : .utcNow .deviceAge now ∈ h) :
    ∃ risk claims session gate body token, AuthorizeScored X srv req h risk ∧
      GateRun X srv session claims risk gate r ∧ BearerRun req token (.ok claims) ∧
      FetchRun X claims.sessionId body (.ok session) ∧ body ⊆ h ∧ token ⊆ h := by
  have hbearer {token : List Event} {r : Except ProxyError Claims} (hb : BearerRun req token r) :
      .utcNow .deviceAge now ∉ token := hb.kinds.not_mem (by simp [Event.kind])
  cases hrun with
  | unauthenticated bearer => exact (hbearer bearer hage).elim
  | noSession bearer fetched =>
      simp [sessionEvents, hbearer bearer, fetched.no_age] at hage
  | mismatch bearer fetched owner =>
      simp [sessionEvents, hbearer bearer, fetched.no_age] at hage
  | denied bearer fetched owner policy audited =>
      simp [sessionEvents, hbearer bearer, fetched.no_age, audited.no_age] at hage
  | @scored token body scores evaluation gate claims session risk _ bearer fetched owner policy
      score evaluated gated =>
      refine ⟨risk, claims, session, gate, body, token, ?_, gated, bearer, fetched, ?_, ?_⟩
      · refine ⟨token, body, scores, claims, session, ?_, bearer, fetched, score⟩
        rw [← List.append_assoc gate]
        exact List.suffix_append _ _
      · intro e he
        simp [sessionEvents, he]
      · intro e he
        simp [he]

/-- A request that has a risk score has come to the gate with it. -/
theorem AuthorizeScored.gated (hs : AuthorizeScored X srv req h risk)
    {r : Except ProxyError Unit} (hrun : AuthorizeRun X srv req h r) :
    ∃ claims session gate body token, GateRun X srv session claims risk gate r ∧
      BearerRun req token (.ok claims) ∧ FetchRun X claims.sessionId body (.ok session) ∧
      body ⊆ h ∧ token ⊆ h := by
  obtain ⟨now, hage⟩ := hs.age
  obtain ⟨risk', claims, session, gate, body, token, hs', hgated⟩ := hrun.gated hage
  obtain rfl := hs.unique hs'
  exact ⟨claims, session, gate, body, token, hgated⟩

/-- The advice on a score below the threshold of a block. -/
theorem recommend_below {n : ℕ} (hbelow : n < srv.config.blockThreshold) :
    srv.riskEngine.recommend n =
      if srv.config.stepUpThreshold ≤ n then .stepUpAuth else .allow :=
  if_neg (Nat.not_le.mpr hbelow)

/-- When the gate asks a request that the risk does not block for a second
factor. -/
theorem GateRun.refuses_iff {session : Session} {claims : Claims} {r : Except ProxyError Unit}
    (hg : GateRun X srv session claims risk h r) (hbelow : risk.totalScore < srv.config.blockThreshold)
    (hrecommend : risk.recommendation = srv.riskEngine.recommend risk.totalScore) :
    r = .error .mfaRequired ↔ session.mfaVerified = false ∧
      (srv.config.requireMfa = true ∨ srv.config.stepUpThreshold ≤ risk.totalScore) := by
  rw [recommend_below hbelow] at hrecommend
  cases hg with
  | unverified required mfa => exact iff_of_true rfl ⟨mfa, .inl required⟩
  | blocked mfa block audited =>
      exfalso
      rw [hrecommend] at block
      split at block
      · simp at block
      · simp at block
  | stepUp required stepUp mfa =>
      refine iff_of_true rfl ⟨mfa, .inr ?_⟩
      rw [hrecommend] at stepUp
      by_contra hlow
      rw [if_neg hlow] at stepUp
      simp at stepUp
  | passed mfa block stepUp audited =>
      apply iff_of_false (by simp)
      rintro ⟨hflag, hrequired | hhigh⟩
      · exact Bool.false_ne_true (hflag.symm.trans (mfa hrequired))
      · rw [if_pos hhigh] at hrecommend
        exact Bool.false_ne_true (hflag.symm.trans (stepUp hrecommend))

/-! ### A request that is sent at once -/

/-- The login has completed its session a second or more before its expiry. -/
def CompletedInTime (update : List Event) (x : Session) : Prop :=
  ∀ n, .utcNow .sessionTtl n ∈ update → n + Duration.second ≤ x.expiresAt

section AtOnce

variable {seg tr₀ : ProxyTrace X srv} {t₀ t : ℕ} {w₀ : World} {token : String}
  {q₀ q : Request} {claims : Claims} {h₀ update : List Event} {user : UserRow} {mfa : Bool}
  {x : Session}

/-- The flag that a login has set on the record of its session is there when the
token is used. -/
theorem TokenIssue.keeps (hissue : TokenIssue X srv q₀ h claims h₀ update user mfa x)
    (hrun : Run A w tr) (hq₀ : Started t₀ q₀ tr) (hh : h <:+ own t₀ tr) (hmfa : mfa = true)
    (htimely : CompletedInTime update x) : StoresUpgraded x.id w tr := by
  obtain ⟨risk, hupdate, hsuffix, -⟩ := hissue.created
  subst hmfa
  cases hupdate with
  | @skipped n none =>
      have hpos : 0 < x.ttl n := Session.ttl_pos_iff.mpr (htimely n (by simp))
      exact absurd hpos (by simpa [Session.ttl, stamp] using none)
  | @written n left => exact stamped_verified hrun hq₀ hissue.built left (hsuffix.trans hh)

/-- A session that a login has created, and completed afterwards. -/
theorem TokenIssue.creation (hissue : TokenIssue X srv q₀ h claims h₀ update user mfa x)
    (hq₀ : Started t₀ q₀ tr) (hh : h <:+ own t₀ tr) : Creation tr t₀ q₀ h₀ user mfa x := by
  obtain ⟨risk, -, hsuffix, -⟩ := hissue.created
  exact ⟨hq₀, hissue.built, .ok (), (List.suffix_append _ _).trans (hsuffix.trans hh)⟩

/-- Until the token is used the flag of the session is the one its login has set. -/
theorem Raised.completed (hr : Raised tr x.id) (hrun : Run A w tr) (hq₀ : Started t₀ q₀ tr)
    (hh : h <:+ own t₀ tr) (hissue : TokenIssue X srv q₀ h claims h₀ update user mfa x)
    (hunused : ∀ t q claims', Started t q tr → q.route = .mfaVerify → Bearer q (own t tr) claims' →
      claims'.sessionId ≠ x.id) :
    mfa = true ∧ CompletedInTime update x := by
  cases hr with
  | verified started history passed named =>
      exact (hunused _ _ _ started passed.route (passed.bearer.mono history) named).elim
  | @stamped t q h' user' x' n risk secs r started built left history named =>
      have hc' : Creation tr t q h' user' true x' :=
        ⟨started, built, .ok (), (List.suffix_append [_, _] _).trans history⟩
      obtain ⟨rfl, rfl, rfl⟩ := hc'.unique hrun (hissue.creation hq₀ hh) named
      obtain ⟨risk', hupdate, hsuffix, -⟩ := hissue.created
      have hupdated := hsuffix.trans hh
      -- both histories go on from the creation of the session
      have hreading : .utcNow .sessionTtl n :: createEvent srv x' (.ok ()) :: h' <:+ own t tr :=
        (List.suffix_cons _ _).trans history
      cases hupdate with
      | @skipped n' none =>
          exfalso
          have heq := List.IsSuffix.eq_of_length
            (List.suffix_of_suffix_length_le hreading hupdated (by simp)) (by simp)
          simp only [List.singleton_append, List.cons.injEq, Event.utcNow.injEq, true_and,
            and_true] at heq
          have hnone : x'.ttl n' ≤ 0 := none
          rw [← heq] at hnone
          omega
      | @written n' left' =>
          have heq := List.IsSuffix.eq_of_length
            (List.suffix_of_suffix_length_le history hupdated (by simp)) (by simp)
          simp only [List.cons_append, List.nil_append, List.cons.injEq, Event.redisSetEx.injEq,
            RedisValue.session.injEq, Event.utcNow.injEq, true_and, and_true] at heq
          obtain ⟨⟨-, hstamp, -, -⟩, rfl⟩ := heq
          refine ⟨(congrArg Session.mfaVerified hstamp).symm, fun n hn => ?_⟩
          obtain rfl : n = _ := by simpa using hn
          exact Session.ttl_pos_iff.mp left

/-- The login of a token, as it stands when it signs. -/
theorem signing_entry
    (hrun : Run A w (seg ++ ⟨t₀, w₀, .act (.jwtEncode claims (.ok token))⟩ :: tr₀)) :
    ∃ q₀ h₀ update user mfa x, Run A w₀ tr₀ ∧ Started t₀ q₀ tr₀ ∧ q₀.route = .login ∧
      mfa = user.mfaEnabled ∧ TokenIssue X srv q₀ (own t₀ tr₀) claims h₀ update user mfa x := by
  obtain ⟨hrun₀, -, q₀, w₁, hq₀, hL, -⟩ := event_entry hrun
  obtain ⟨h₀, update, user, mfa, x, hissue⟩ := hL
  refine ⟨q₀, h₀, update, user, mfa, x, hrun₀, hq₀, ?_, ?_, hissue⟩
  · cases hissue.built with
    | intro now id deviceId userAgent login bounds => exact login.route
  · cases hissue.built with
    | intro now id deviceId userAgent login bounds => exact login.mfa

/-- The answer of a login holds the token that has been signed, and it was the
first one. -/
theorem signed_answer (hrun : Run A w (seg ++ ⟨t₀, w₀, .act (.jwtEncode claims (.ok token))⟩ :: tr₀))
    (hq₀ : Started t₀ q₀ tr₀) (hroute₀ : q₀.route = .login) {w₁ : World} {answer : LoginResponse}
    (hdone : ⟨t₀, w₁, .done ⟨200, .login answer⟩⟩ ∈ seg) :
    answer.accessToken = token ∧ answer.mfaRequired = false ∧
      ∀ claims' r, .jwtEncode claims' r ∉ own t₀ tr₀ := by
  have hsub : tr₀ ⊆ seg ++ (⟨t₀, w₀, .act (.jwtEncode claims (.ok token))⟩ :
      Entry (proxySystem X srv)) :: tr₀ :=
    fun y hy => List.mem_append_right _ (List.mem_cons_of_mem _ hy)
  obtain ⟨r, hend, ho⟩ := answered_own hrun (hq₀.mono hsub) (List.mem_append_left _ hdone)
  obtain ⟨o, rfl⟩ := respond_ok (r := r) (by rw [← ho])
  obtain rfl : ⟨200, .login answer⟩ = o := ho
  rw [hroute₀] at hend
  obtain ⟨claims', token', rest, answer', hown, hrest, heq, htoken, hflag⟩ :=
    (handleLogin_ends hend).signs
  obtain rfl : answer = answer' := by simpa using heq
  rw [own_append, own_act_self] at hown
  cases hlater : own t₀ seg with
  | nil =>
      rw [hlater, List.nil_append] at hown
      obtain ⟨hsign, rfl⟩ := List.cons.inj hown
      obtain ⟨-, hsame⟩ := Event.jwtEncode.inj hsign
      refine ⟨htoken.trans (Except.ok.inj hsame).symm, hflag, fun claims' r => ?_⟩
      exact hrest.not_mem (by simp [Event.kind])
  | cons e later =>
      rw [hlater, List.cons_append] at hown
      obtain ⟨-, rfl⟩ := List.cons.inj hown
      exfalso
      refine hrest.not_mem (e := .jwtEncode claims (.ok token)) (by simp [Event.kind]) ?_
      simp

/-- While nobody else takes a step, the token of a login is not used for a
verification. -/
theorem unverified_at_once
    (hrun : Run A w (seg ++ ⟨t₀, w₀, .act (.jwtEncode claims (.ok token))⟩ :: tr₀))
    (honly : ∀ y ∈ seg, y.tid = t₀ ∨ y.tid = t) (hrun₀ : Run A w₀ tr₀) (hq₀ : Started t₀ q₀ tr₀)
    (hroute₀ : q₀.route = .login) (hq : Started t q seg) (hroute : q.route = .proxied)
    (hissue : TokenIssue X srv q₀ (own t₀ tr₀) claims h₀ update user mfa x)
    (hfirst : ∀ claims' r, .jwtEncode claims' r ∉ own t₀ tr₀) {t' : ℕ} {q' : Request}
    {claims' : Claims}
    (hq' : Started t' q' (seg ++ ⟨t₀, w₀, .act (.jwtEncode claims (.ok token))⟩ :: tr₀))
    (hroute' : q'.route = .mfaVerify)
    (hb : Bearer q' (own t' (seg ++ ⟨t₀, w₀, .act (.jwtEncode claims (.ok token))⟩ :: tr₀)) claims') :
    claims'.sessionId ≠ x.id := by
  intro hid
  obtain ⟨token', -, hdecode⟩ := hb
  obtain ⟨w', hentry⟩ := mem_own.mp hdecode
  obtain hseg | hold := List.mem_append.mp hentry
  · obtain rfl | rfl := honly _ hseg
    · obtain rfl := hrun.started_unique hq' (hq₀.mono fun y hy =>
        List.mem_append_right _ (List.mem_cons_of_mem _ hy))
      simp [hroute₀] at hroute'
    · obtain rfl := hrun.started_unique hq' (hq.mono (List.subset_append_left _ _))
      simp [hroute] at hroute'
  · obtain hsame | hold := List.mem_cons.mp hold
    · simp at hsame
    · -- the token would have been signed before, by the same login
      have htoken := decoded_lookup hrun₀ (mem_own.mpr ⟨w', hold⟩)
      obtain ⟨t₁, hsigned⟩ := token_signed hrun₀ htoken
      obtain ⟨l, hl⟩ := suffix_of_mem hsigned
      obtain ⟨post, pre, w₁, w₂, q₁, htr, hown, -, hq₁, hL, -⟩ := history_event hrun₀ hl
      obtain ⟨h₁, update₁, user₁, mfa₁, x₁, hissue₁⟩ := hL
      have hsuf : l <:+ own t₁ tr₀ := (List.suffix_cons _ _).trans hl
      have hpre : pre ⊆ tr₀ := by
        rw [htr]
        exact fun y hy => List.mem_append_right _ (List.mem_cons_of_mem _ hy)
      have hc₁ := hissue₁.creation (hq₁.mono hpre) hsuf
      have hc := hissue.creation hq₀ List.suffix_rfl
      obtain ⟨rfl, -, -⟩ := hc₁.unique hrun₀ hc (hissue₁.sessionId.symm.trans hid)
      exact hfirst _ _ hsigned

/-- **What a login says about the second factor.** A login never says that a
second factor is missing. For a request that is sent at once with its token, and
that comes to the gate with a risk score below that of a block, this is right
exactly when the user is enrolled and the login has completed its session in
time, or when no second factor is required and the risk does not call for one. -/
theorem login_predicts_gate
    (hrun : Run A w (seg ++ ⟨t₀, w₀, .act (.jwtEncode claims (.ok token))⟩ :: tr₀))
    (honly : ∀ y ∈ seg, y.tid = t₀ ∨ y.tid = t) {w₁ : World} {answer : LoginResponse}
    (hdone : ⟨t₀, w₁, .done ⟨200, .login answer⟩⟩ ∈ seg) (hq : Started t q seg)
    (hroute : q.route = .proxied)
    (hheader : JwtManager.extractTokenFromHeader ((q.header "authorization").getD "") =
      .ok answer.accessToken)
    {r : Except ProxyError Unit} (hend : (authorize X srv q).Ends h r) (hsub : h <:+ own t seg)
    (hscored : AuthorizeScored X srv q h risk)
    (hbelow : risk.totalScore < srv.config.blockThreshold) :
    ∃ q₀ h₀ update user x, Started t₀ q₀ tr₀ ∧
      TokenIssue X srv q₀ (own t₀ tr₀) claims h₀ update user user.mfaEnabled x ∧
      ((answer.mfaRequired = true ↔ r = .error .mfaRequired) ↔
        user.mfaEnabled = true ∧ CompletedInTime update x ∨
          srv.config.requireMfa = false ∧ risk.totalScore < srv.config.stepUpThreshold) := by
  obtain ⟨q₀, h₀, update, user, mfa, x, hrun₀, hq₀, hroute₀, rfl, hissue⟩ := signing_entry hrun
  obtain ⟨rfl, hflag, hfirst⟩ := signed_answer hrun hq₀ hroute₀ hdone
  refine ⟨q₀, h₀, update, user, x, hq₀, hissue, ?_⟩
  obtain ⟨claims', session, gate, body, bearer, hgate, hbearer, hfetch, hbody, htoken⟩ :=
    hscored.gated (authorize_ends hend)
  have hown : own t (seg ++ ⟨t₀, w₀, .act (.jwtEncode claims (.ok answer.accessToken))⟩ :: tr₀) =
      own t seg := hrun.own_of_started hq
  have hin : h ⊆ own t (seg ++
      ⟨t₀, w₀, .act (.jwtEncode claims (.ok answer.accessToken))⟩ :: tr₀) := by
    rw [hown]
    exact hsub.subset
  -- the request finds the session of the login
  have hearlier : tr₀ <:+ seg ++ (⟨t₀, w₀, .act (.jwtEncode claims (.ok answer.accessToken))⟩ :
      Entry (proxySystem X srv)) :: tr₀ := (List.suffix_cons _ _).trans (List.suffix_append _ _)
  obtain rfl : claims' = claims := by
    cases hbearer with
    | @valid token' _ header =>
        obtain rfl := Except.ok.inj (hheader.symm.trans header)
        have hdecoded := decoded_lookup hrun (hin (htoken List.mem_cons_self))
        have hsigned : .jwtEncode claims (.ok answer.accessToken) ∈ own t₀ (seg ++
            ⟨t₀, w₀, .act (.jwtEncode claims (.ok answer.accessToken))⟩ :: tr₀) := by
          rw [own_append, own_act_self]
          exact List.mem_append_right _ List.mem_cons_self
        exact Option.some.inj (hdecoded.symm.trans (signed_lookup hrun hsigned))
  obtain ⟨y, now, activity, written, -, rfl, -, rfl⟩ := hfetch.ok_inv
  rw [hissue.sessionId] at hbody
  have hread : .redisGet (sessionKey x.id) (.ok (some (.session y))) ∈ own t (seg ++
      ⟨t₀, w₀, .act (.jwtEncode claims' (.ok answer.accessToken))⟩ :: tr₀) :=
    hin (hbody (by simp))
  have hkept : y.mfaVerified = true ↔ user.mfaEnabled = true ∧ CompletedInTime update x := by
    constructor
    · intro hverified
      exact (read_raised hrun hread hverified).completed hrun (hq₀.mono hearlier.subset)
        (own_suffix hearlier _) hissue fun t' q' claims' hq' hroute' hb =>
          unverified_at_once hrun honly hrun₀ hq₀ hroute₀ hq hroute hissue hfirst hq' hroute' hb
    · rintro ⟨henabled, htimely⟩
      obtain ⟨post, w₂, pre, w₃, -, hrun₂, -, hact⟩ :=
        event_after hrun (hrun.fresh_of_started hq) hread
      have hpre : tr₀ <:+ pre ++ (⟨t₀, w₀, .act (.jwtEncode claims' (.ok answer.accessToken))⟩ :
          Entry (proxySystem X srv)) :: tr₀ := (List.suffix_cons _ _).trans (List.suffix_append _ _)
      have hstored := hissue.keeps hrun₂ (hq₀.mono hpre.subset) (own_suffix hpre _) henabled htimely
      obtain ⟨c, hc, hvalue⟩ := Option.map_eq_some_iff.mp (World.read_reply hact).2.symm
      obtain ⟨y', hy', hverified⟩ := hstored c hc
      obtain rfl : y = y' := RedisValue.session.inj (hvalue.symm.trans hy')
      exact hverified
  have htouched : (y.updateActivity activity).mfaVerified = y.mfaVerified := rfl
  rw [hflag, hgate.refuses_iff hbelow hscored.recommendation, htouched, ← hkept]
  cases y.mfaVerified with
  | true => simp
  | false =>
      cases srv.config.requireMfa with
      | true => simp
      | false => simp

end AtOnce

/-! ### Particular runs -/

/-- What `forward_upstream` answers without the backend is an internal error. -/
theorem forwardUpstream_unsent {r : Except ProxyError Response}
    (hend : (forwardUpstream X srv req).Ends h r) (hunsent : ∀ u a, .upstream u a ∉ h) :
    r = .error .internalError := by
  simp only [forwardUpstream, Program.call_bind, ends_okOr_bind, ends_mapErr_bind,
    Program.ends_call, Program.ends_pure] at hend
  obtain ⟨body, -, ⟨uri, -, a, h', rfl, -⟩ | ⟨-, -, hr⟩⟩ | ⟨-, -, hr⟩ := hend
  · exact (hunsent _ a (List.mem_append_right _ List.mem_cons_self)).elim
  · exact hr
  · exact hr

/-- A request that has come to the gate, and is answered 401 without the backend,
is refused for a second factor. -/
theorem unauthorized_refused (hrun : Run A w tr) {t : ℕ} {w₁ : World} {o : Response} {now : Int}
    (hq : Started t req tr) (hroute : req.route = .proxied) (hdone : ⟨t, w₁, .done o⟩ ∈ tr)
    (hstatus : o.status = 401) (hage : .utcNow .deviceAge now ∈ own t tr)
    (hunsent : ∀ u a, .upstream u a ∉ own t tr) :
    ∃ risk, (authorize X srv req).Ends (own t tr) (.error .mfaRequired) ∧
      AuthorizeScored X srv req (own t tr) risk := by
  obtain ⟨r, hend, rfl⟩ := answered_own hrun hq hdone
  rw [hroute] at hend
  obtain ⟨_, h₁, h₂, hown, -, hforward⟩ | ⟨e, rfl, hauthorize⟩ := ends_bind.mp hend
  · have hunsent₂ (u : UpstreamRequest) (a : Except String UpstreamResponse) : .upstream u a ∉ h₂ :=
      fun hmem => hunsent u a (hown ▸ List.mem_append_left _ hmem)
    obtain rfl := forwardUpstream_unsent hforward hunsent₂
    exact absurd hstatus (by simp [respond, errorResponse, ProxyError.statusCode])
  · obtain ⟨risk, claims, session, gate, body, token, hscored, hgate, -⟩ :=
      (authorize_ends hauthorize).gated hage
    obtain rfl | ⟨-, rfl⟩ := hgate.error_cases
    · exact ⟨risk, hauthorize, hscored⟩
    · exact absurd hstatus (by simp [respond, errorResponse, ProxyError.statusCode])

namespace Scenario

/-- Thread `t` has just signed this token. -/
def justSigned (t : ℕ) (token : String) (tr : ProxyTrace X srv) : Bool :=
  match tr with
  | ⟨t₀, _, .act (.jwtEncode _ (.ok token'))⟩ :: _ => decide (t₀ = t ∧ token' = token)
  | _ => false

theorem exists_justSigned {t : ℕ} {token : String} (h : justSigned t token tr = true) :
    ∃ w₀ claims tr₀, tr = ⟨t, w₀, .act (.jwtEncode claims (.ok token))⟩ :: tr₀ := by
  unfold justSigned at h
  split at h
  · rename_i t₀ w₀ claims token' tr₀
    obtain ⟨rfl, rfl⟩ := of_decide_eq_true h
    exact ⟨w₀, claims, tr₀, rfl⟩
  · simp at h

/-- The login of thread `t` is answered with this token and says that no second
factor is missing. -/
def answersLogin (t : ℕ) (token : String) (tr : ProxyTrace X srv) : Bool :=
  tr.any fun x => match x.item with
    | .done ⟨200, .login answer⟩ =>
        decide (x.tid = t ∧ answer.accessToken = token ∧ answer.mfaRequired = false)
    | _ => false

theorem exists_login_answer {t : ℕ} {token : String} (h : answersLogin t token tr = true) :
    ∃ w₁ answer, ⟨t, w₁, .done ⟨200, .login answer⟩⟩ ∈ tr ∧ answer.accessToken = token ∧
      answer.mfaRequired = false := by
  obtain ⟨⟨t₁, w₁, item⟩, hmem, hitem⟩ := List.any_eq_true.mp h
  split at hitem
  · rename_i answer heq
    obtain ⟨rfl, htoken, hflag⟩ := of_decide_eq_true hitem
    obtain rfl : item = .done ⟨200, .login answer⟩ := heq
    exact ⟨w₁, answer, hmem, htoken, hflag⟩
  · simp at hitem

/-- Thread `t` takes up a proxied request from this address that carries this
token. -/
def presents (t : ℕ) (token : String) (address : IpAddr) (tr : ProxyTrace X srv) : Bool :=
  tr.any fun x => match x.item with
    | .start q => decide (x.tid = t ∧ q.route = .proxied ∧ q.remoteIp = address) &&
        (match JwtManager.extractTokenFromHeader ((q.header "authorization").getD "") with
          | .ok token' => decide (token' = token)
          | .error _ => false)
    | _ => false

theorem exists_presented {t : ℕ} {token : String} {address : IpAddr}
    (h : presents t token address tr = true) :
    ∃ q, Started t q tr ∧ q.route = .proxied ∧ q.remoteIp = address ∧
      JwtManager.extractTokenFromHeader ((q.header "authorization").getD "") = .ok token := by
  obtain ⟨⟨t₁, w₁, item⟩, hmem, hitem⟩ := List.any_eq_true.mp h
  split at hitem
  · rename_i q heq
    obtain ⟨hrequest, htoken⟩ := Bool.and_eq_true_iff.mp hitem
    obtain ⟨rfl, hroute, haddress⟩ := of_decide_eq_true hrequest
    obtain rfl : item = .start q := heq
    split at htoken
    · rename_i token' hextract
      obtain rfl := of_decide_eq_true htoken
      exact ⟨q, ⟨w₁, hmem⟩, hroute, haddress, hextract⟩
    · simp at htoken
  · simp at hitem

/-- Thread `t` has come to the risk of its request, has sent nothing to the
backend and is answered 401. -/
def unauthorized (t : ℕ) (tr : ProxyTrace X srv) : Bool :=
  (tr.any fun x => match x.item with
    | .done o => decide (x.tid = t ∧ o.status = 401)
    | _ => false) &&
  (tr.any fun x => match x.item with
    | .act (.utcNow .deviceAge _) => decide (x.tid = t)
    | _ => false) &&
  tr.all fun x => match x.item with
    | .act (.upstream _ _) => decide (x.tid ≠ t)
    | _ => true

theorem exists_unauthorized {t : ℕ} (h : unauthorized t tr = true) :
    ∃ w₁ o now, ⟨t, w₁, .done o⟩ ∈ tr ∧ o.status = 401 ∧ .utcNow .deviceAge now ∈ own t tr ∧
      ∀ u a, .upstream u a ∉ own t tr := by
  obtain ⟨hplayed, hunsent⟩ := Bool.and_eq_true_iff.mp h
  obtain ⟨hdone, hage⟩ := Bool.and_eq_true_iff.mp hplayed
  obtain ⟨⟨t₁, w₁, item₁⟩, hmem₁, h₁⟩ := List.any_eq_true.mp hdone
  obtain ⟨⟨t₂, w₂, item₂⟩, hmem₂, h₂⟩ := List.any_eq_true.mp hage
  split at h₁
  swap
  · simp at h₁
  rename_i o heq₁
  split at h₂
  swap
  · simp at h₂
  rename_i now heq₂
  obtain ⟨rfl, hstatus⟩ := of_decide_eq_true h₁
  obtain rfl := of_decide_eq_true h₂
  obtain rfl : item₁ = .done o := heq₁
  obtain rfl : item₂ = .act (.utcNow .deviceAge now) := heq₂
  refine ⟨w₁, o, now, hmem₁, hstatus, mem_own.mpr ⟨w₂, hmem₂⟩, fun u a hsent => ?_⟩
  obtain ⟨w₃, hmem₃⟩ := mem_own.mp hsent
  exact of_decide_eq_true (List.all_eq_true.mp hunsent _ hmem₃) rfl

/-- Where no second factor is required the login of an unenrolled user is right:
her next request is let through. -/
theorem login_predicts_gate_run : ∃ (w : World) (tr : ProxyTrace external server)
    (q : Request) (answer : LoginResponse) (r : Except ProxyError Unit) (h : List Event),
      Reachable w tr ∧ Started 1 q tr ∧ (authorize external server q).Ends h r ∧
      (answer.mfaRequired = true ↔ r = .error .mfaRequired) := by
  have hplay : playsThen (fun _ _ => True) [alice]
      (.start 0 (login aliceLogin) :: steps 0 23)
      (fun p => justSigned 0 "token-0" p.trace &&
        p.trace.all (Entry.readsAt (Duration.seconds 59)))
      (steps 0 1 ++ .start 1 (authorized "GET" "/data" "token-0" "") :: steps 1 22)
      (fun _ seg => answersLogin 0 "token-0" seg && (presents 1 "token-0" home seg &&
        (answered 1 seg && (seg.all (Entry.readsAt (Duration.seconds 59)) &&
          seg.all fun y => decide (y.tid = 0 ∨ y.tid = 1))))) = true := by decide +kernel
  obtain ⟨p, p', seg, -, hcheck, htrace, hrun, hcheck'⟩ :=
    run_of_playsThen (world_initial (by simp) (by simp) (by simp)) hplay
  obtain ⟨hhead, hreads₀⟩ := Bool.and_eq_true_iff.mp hcheck
  obtain ⟨w₀, claims, tr₀, htr⟩ := exists_justSigned hhead
  obtain ⟨hlogin, hcheck'⟩ := Bool.and_eq_true_iff.mp hcheck'
  obtain ⟨hpresented, hcheck'⟩ := Bool.and_eq_true_iff.mp hcheck'
  obtain ⟨hanswered, hcheck'⟩ := Bool.and_eq_true_iff.mp hcheck'
  obtain ⟨hreads, honly⟩ := Bool.and_eq_true_iff.mp hcheck'
  obtain ⟨w₁, answer, hdone, htoken, -⟩ := exists_login_answer hlogin
  obtain ⟨q, hq, hroute, -, hheader⟩ := exists_presented hpresented
  obtain ⟨w₂, o, hdone', hok⟩ := exists_answer hanswered
  have hall : p'.trace.all (Entry.readsAt (Duration.seconds 59)) = true := by
    rw [htrace, List.all_append, hreads, hreads₀]
    rfl
  rw [htrace, htr] at hrun hall
  rw [← htoken] at hheader
  have hq' := hq.mono (List.subset_append_left seg
    (⟨0, w₀, .act (.jwtEncode claims (.ok "token-0"))⟩ :: tr₀))
  obtain ⟨h, hsub, hend⟩ :=
    authorized_of_answered hrun hq' hroute (List.mem_append_left _ hdone') hok
  rw [hrun.own_of_started hq] at hsub
  obtain ⟨risk, hscored⟩ := (authorize_ends hend).ok_scored
  have hscored' := hscored.mono hsub
  rw [← hrun.own_of_started hq] at hscored'
  have hrange := authorize_score_range hrun (oneReading_of_readsAt hall 1) hscored'
  have hshort := hrange.2.2.2 (by decide)
  have hbelow : risk.totalScore < server.config.blockThreshold := by
    show risk.totalScore < 85
    omega
  have honly' : ∀ y ∈ seg, y.tid = 0 ∨ y.tid = 1 :=
    fun y hy => of_decide_eq_true (List.all_eq_true.mp honly y hy)
  obtain ⟨_, _, _, user, x, -, -, hiff⟩ :=
    login_predicts_gate hrun honly' hdone hq hroute hheader hend hsub hscored hbelow
  refine ⟨_, _, q, answer, .ok (), h, hrun.reachable, hq', hend, hiff.mpr (.inr ⟨rfl, ?_⟩)⟩
  show risk.totalScore < 60
  omega

/-- A server that requires a second factor of everybody. -/
def requiring : ProxyServer := .new { config with requireMfa := true }

def requiringSteps (t n : ℕ) : List (Move (proxySystem external requiring)) :=
  List.replicate n (.step t 0)

def requiringStart (t : ℕ) (q : Request) : Move (proxySystem external requiring) := .start t q

/-- Alice has not enrolled. Her login says that no second factor is missing, and
her next request is refused for one. -/
theorem login_mispredicts : ∃ (w w₁ : World) (tr : ProxyTrace external requiring)
    (answer : LoginResponse) (q : Request) (risk : RiskScore), Reachable w tr ∧
      (∀ y ∈ tr, y.tid = 0 ∨ y.tid = 1) ∧ ⟨0, w₁, .done ⟨200, .login answer⟩⟩ ∈ tr ∧
      answer.mfaRequired = false ∧ Started 1 q tr ∧ q.route = .proxied ∧ q.remoteIp = home ∧
      JwtManager.extractTokenFromHeader ((q.header "authorization").getD "") =
        .ok answer.accessToken ∧
      (authorize external requiring q).Ends (own 1 tr) (.error .mfaRequired) ∧
      AuthorizeScored external requiring q (own 1 tr) risk ∧
      risk.totalScore < requiring.config.blockThreshold := by
  have hplay : ((Play.start (world [alice])).run (World.reply external)
      (fun (_ : ProxyTrace external requiring) _ => True)
      (requiringStart 0 (login aliceLogin) :: requiringSteps 0 24 ++
        requiringStart 1 (authorized "GET" "/data" "token-0" "") :: requiringSteps 1 18)).any
      (fun p => answersLogin 0 "token-0" p.trace && (presents 1 "token-0" home p.trace &&
        (unauthorized 1 p.trace && (p.trace.all (Entry.readsAt (Duration.seconds 59)) &&
          p.trace.all fun y => decide (y.tid = 0 ∨ y.tid = 1))))) = true := by decide +kernel
  obtain ⟨p, hp, hcheck⟩ := (Option.any_eq_true _ _).mp hplay
  have hrun := (Play.run_sound (world_initial (by simp) (by simp) (by simp)) hp).reached
  obtain ⟨hlogin, hcheck⟩ := Bool.and_eq_true_iff.mp hcheck
  obtain ⟨hpresented, hcheck⟩ := Bool.and_eq_true_iff.mp hcheck
  obtain ⟨hrefused, hcheck⟩ := Bool.and_eq_true_iff.mp hcheck
  obtain ⟨hreads, honly⟩ := Bool.and_eq_true_iff.mp hcheck
  obtain ⟨w₁, answer, hdone, htoken, hflag⟩ := exists_login_answer hlogin
  obtain ⟨q, hq, hroute, haddress, hheader⟩ := exists_presented hpresented
  obtain ⟨w₂, o, now, hdone', hstatus, hage, hunsent⟩ := exists_unauthorized hrefused
  obtain ⟨risk, hend, hscored⟩ := unauthorized_refused hrun hq hroute hdone' hstatus hage hunsent
  rw [← htoken] at hheader
  refine ⟨p.world, w₁, p.trace, answer, q, risk, hrun.reachable, ?_, hdone, hflag, hq, hroute,
    haddress, hheader, hend, hscored, ?_⟩
  · intro y hy
    exact of_decide_eq_true (List.all_eq_true.mp honly y hy)
  · have hrange := authorize_score_range hrun (oneReading_of_readsAt hreads 1) hscored
    have hshort := hrange.2.2.2 (by decide)
    show risk.totalScore < 85
    omega

end Scenario

end ZeroTrustProxy
