import ZeroTrustProxy.Concurrent.Serial
import ZeroTrustProxy.Model.Passkey
import ZeroTrustProxy.Runs.RevokeAll
import ZeroTrustProxy.Runs.Rewards

/-!
Signing in with a passkey.

The ceremony ends with a session of `create_session` and a token of
`mint_passkey_jwt`, which says that the second factor has been verified. The gate
does not ask the token: it reads the flag of the session record, which the
ceremony leaves as it was made. Every request writes the record back, and only an
`mfa/verify` of the session sets the flag in it.
-/

namespace ZeroTrustProxy

open Concurrent Program Handler

variable {X : External} {srv : ProxyServer} {w w' : World} {h : List Event}

/-! ### Steps around a sign-in -/

/-- A request is served, or one of the two calls is made that end a ceremony. No
route makes them: the code around the proxy does. -/
inductive SignInStep where
  | serve (req : Request)
  | createSession (userId deviceId ipAddress userAgent : String)
  | mintPasskeyJwt (userId deviceId sessionId : String) (riskScore : ℕ)

namespace SignInStep

def program (X : External) (srv : ProxyServer) : SignInStep → Handler Unit
  | serve req => do
      let _ ← ((handleRequest X srv req).attempt : Handler (Except Empty Response))
      pure ()
  | createSession userId deviceId ipAddress userAgent =>
      ignore (SessionManager.createSession srv.config.sessionDurationMinutes userId deviceId
        ipAddress userAgent)
  | mintPasskeyJwt userId deviceId sessionId riskScore =>
      ignore (ZeroTrustProxy.mintPasskeyJwt srv.config.jwtExpirationHours userId deviceId sessionId
        riskScore)

/-- The step is an `mfa/verify`. -/
def Verifies : SignInStep → Prop
  | serve req => req.route = .mfaVerify
  | _ => False

/-- The session records a step writes: a new one, a copy of what it has read, or,
in an `mfa/verify`, one with the flag. -/
inductive RecordWrite (step : SignInStep) : List Event → Session → Prop
  | new {h : List Event} {y : Session} (id : Uuid) (drawn : .newUuid id ∈ h)
      (own : y.id = id.text) : RecordWrite step h y
  | copied {h : List Event} {y : Session} (key : String) (n activity now : Int) :
      RecordWrite step
        (.utcNow .sessionTtl n :: .utcNow .updateActivity activity :: .utcNow .isExpired now ::
          .redisGet key (.ok (some (.session y))) :: h)
        (y.updateActivity activity)
  | flagged {h : List Event} {y : Session} (verifies : step.Verifies)
      (flag : y.mfaVerified = true) : RecordWrite step h y

/-- What a step may write under an expiry. -/
def Licence (step : SignInStep) (h : List Event) (c : Cmd) : Prop :=
  ∀ key value secs, c = .redisSetEx key value secs →
    ∃ y, key = sessionKey y.id ∧ value = .session y ∧ step.RecordWrite h y

theorem RecordWrite.of_sessionWrite {req : Request} {y : Session} {secs : ℕ}
    (hwrite : SessionWrite X srv req h y secs) : (serve req).RecordWrite h y := by
  cases hwrite with
  | created built =>
      obtain ⟨id, now, l, rfl, hid, -, -⟩ := built.drawn
      exact .new id List.mem_cons_self hid
  | stamped n risk built left =>
      obtain ⟨id, now, l, rfl, hid, -, -⟩ := built.drawn
      exact .new id (by simp) hid
  | touched n activity now bearer live left => exact .copied _ n activity now
  | upgraded n passed left => exact .flagged passed.route rfl

theorem program_obeys (step : SignInStep) :
    (step.program X srv).Obeys step.Licence [] (fun _ _ => True) fun _ _ => True := by
  cases step with
  | serve req =>
      have hobeys := proxy_contract X srv req
      refine obeys_bind.mpr (obeys_attempt.mpr (hobeys.mono ?_ (by simp) (by simp)))
      rintro h c hL key value secs rfl
      obtain ⟨y, hkey, hvalue, hwrite⟩ := hL
      exact ⟨y, hkey, hvalue, .of_sessionWrite hwrite⟩
  | createSession userId deviceId ipAddress userAgent =>
      simp only [program, obeys_ignore, SessionManager.createSession, SessionManager.newSession,
        utcNow, newUuid, redisSetEx, obeys_bind, obeys_call, obeys_ite, obeys_unwrap, obeys_panic,
        obeys_ret, obeys_pure]
      refine ⟨by simp [Licence], fun now => ⟨by simp [Licence], fun id => ⟨fun _ => ?_, ?_⟩⟩⟩
      · refine ⟨?_, by simp⟩
        rintro key value secs ⟨⟩
        exact ⟨_, rfl, rfl, .new id List.mem_cons_self rfl⟩
      · simp [Licence]
  | mintPasskeyJwt userId deviceId sessionId riskScore =>
      simp only [program, obeys_ignore, ZeroTrustProxy.mintPasskeyJwt, JwtManager.generateToken,
        utcNow, newUuid, obeys_bind, obeys_call, obeys_ite, obeys_mapErr, obeys_panic, obeys_ret]
      simp [Licence]

end SignInStep

/-! ### The flag of a session -/

theorem World.read_advance {m : Int} {key : String} {v : RedisValue}
    (h : (w.advance m).read key = some v) : w.read key = some v := by
  obtain ⟨c, hc, rfl⟩ := Option.map_eq_some_iff.mp h
  rw [World.read, (ExpiringStore.lookup_advance_eq_some.mp hc).1, Option.map_some]

/-- A write under an expiry takes effect, or changes nothing. -/
theorem World.setEx_cases {t : ℕ} {key : String} {value : RedisValue} {secs : ℕ}
    {r : Except Fault Unit} (h : World.act X t (.redisSetEx key value secs r) w = some w') :
    (expiryAccepted secs = true ∧ CarriedOut r ∧ w' = w.setEx key value secs) ∨
      ¬ (expiryAccepted secs = true ∧ CarriedOut r) ∧ w' = w := by
  have hwrite : w.write (if expiryAccepted secs then some (w.setEx key value secs) else none) r =
      some w' := h
  cases r with
  | ok u =>
      obtain ⟨haccepted, rfl⟩ := World.setEx_reply h
      exact .inl ⟨haccepted, by simp [CarriedOut], rfl⟩
  | error f =>
      cases haccepted : expiryAccepted secs with
      | false =>
          have hsame : w = w' := by simpa [World.write, haccepted] using hwrite
          exact .inr ⟨by simp, hsame.symm⟩
      | true =>
          cases hexecuted : f.executed with
          | false =>
              have hsame : w = w' := by simpa [World.write, hexecuted] using hwrite
              exact .inr ⟨by simp [CarriedOut, hexecuted], hsame.symm⟩
          | true =>
              have hset : w.setEx key value secs = w' := by
                simpa [World.write, hexecuted, haccepted] using hwrite
              exact .inl ⟨rfl, by simp [CarriedOut, hexecuted], hset.symm⟩

/-- The event has written the record of the session with the flag. -/
def Event.setsFlag (id : String) (e : Event) : Prop :=
  ∃ y secs r, e = .redisSetEx (sessionKey id) (.session y) secs r ∧ y.mfaVerified = true ∧
    World.expiryAccepted secs = true ∧ CarriedOut r

/-- The step is an `mfa/verify` that has set the flag of the session. -/
def Upgraded (id : String) (x : Episode proxyInterface SignInStep) : Prop :=
  x.req.Verifies ∧ ∃ e ∈ x.history, Event.setsFlag id e

/-- What is known of a record of the session `x`: it has the flag if and only if
`marked`, and nothing but an upgrade gives it another owner. -/
structure Shows (x : Session) (marked : Prop) (y : Session) : Prop where
  flag : y.mfaVerified = true ↔ marked
  owner : ¬ marked → y.userId = x.userId

theorem Shows.congr {x y : Session} {marked marked' : Prop} (h : Shows x marked y)
    (hiff : marked ↔ marked') : Shows x marked' y :=
  ⟨h.flag.trans hiff, fun hnot => h.owner (mt hiff.mp hnot)⟩

/-- What the store has for the session `x`, where `marked` says whether an
`mfa/verify` has set its flag. -/
structure Tracks (x : Session) (marked : Prop) (w : World) : Prop where
  keyed : Keyed w
  drawn : ⟨x.id⟩ ∈ w.drawn
  stored : ∀ y, w.read (sessionKey x.id) = some (.session y) → Shows x marked y

/-- The same in the middle of a step, with what the step has read. -/
structure StepTracks (x : Session) (marked : Prop) (step : SignInStep) (h : List Event)
    (w : World) : Prop where
  tracks : Tracks x (marked ∨ Upgraded x.id ⟨step, h⟩) w
  fresh : .newUuid ⟨x.id⟩ ∉ h
  reads : ∀ h₁ key y, .redisGet key (.ok (some (.session y))) :: h₁ <:+ h →
    key = sessionKey y.id ∧ (y.id = x.id → Shows x (marked ∨ Upgraded x.id ⟨step, h₁⟩) y)

theorem upgraded_cons {id : String} {step : SignInStep} {e : Event} :
    Upgraded id ⟨step, e :: h⟩ ↔
      step.Verifies ∧ Event.setsFlag id e ∨ Upgraded id ⟨step, h⟩ := by
  simp only [Upgraded, List.mem_cons, exists_eq_or_imp]
  tauto

/-- Events that set no flag make no difference. -/
theorem upgraded_append {id : String} {step : SignInStep} {h' : List Event}
    (hnot : ∀ e ∈ h', ¬ Event.setsFlag id e) :
    Upgraded id ⟨step, h' ++ h⟩ ↔ Upgraded id ⟨step, h⟩ := by
  induction h' with
  | nil => rfl
  | cons e h' ih =>
      rw [List.cons_append, upgraded_cons, ih fun e he => hnot e (List.mem_cons_of_mem _ he)]
      exact or_iff_right fun hset => hnot e List.mem_cons_self hset.2

variable {x y : Session} {marked : Prop} {step : SignInStep} {e : Event} {t : ℕ}

theorem Keyed.act (hkeyed : Keyed w) (hL : step.Licence h e.command)
    (hact : World.act X t e w = some w') : Keyed w' := by
  intro key y hread
  obtain hbefore | ⟨secs, r, rfl⟩ := World.session_act hact hread
  · exact hkeyed key y hbefore
  · obtain ⟨y', hkey, hvalue, -⟩ := hL _ _ _ rfl
    rw [hkey, RedisValue.session.inj hvalue]

theorem Keyed.advance {m : Int} (hkeyed : Keyed w) : Keyed (w.advance m) :=
  fun key y hread => hkeyed key y (World.read_advance hread)

theorem Tracks.advance {m : Int} (htracks : Tracks x marked w) : Tracks x marked (w.advance m) where
  keyed := htracks.keyed.advance
  drawn := htracks.drawn
  stored y hread := htracks.stored y (World.read_advance hread)

/-- A record that a step writes for the session shows what has been done. -/
theorem SignInStep.RecordWrite.shows (hwrite : step.RecordWrite h y) (hid : y.id = x.id)
    (hJ : StepTracks x marked step h w) (hset : Event.setsFlag x.id e ↔ y.mfaVerified = true) :
    Shows x (marked ∨ Upgraded x.id ⟨step, e :: h⟩) y := by
  cases hwrite with
  | new id drawn own =>
      obtain rfl : id = ⟨x.id⟩ := by rw [← hid, own]
      exact (hJ.fresh drawn).elim
  | @copied h₀ y key n activity now =>
      obtain ⟨-, hshows⟩ := hJ.reads h₀ key y (List.suffix_append [_, _, _] _)
      -- the events between the read and the write set no flag
      have hsame : Upgraded x.id ⟨step, [.utcNow .sessionTtl n, .utcNow .updateActivity activity,
          .utcNow .isExpired now, .redisGet key (.ok (some (.session y)))] ++ h₀⟩ ↔
          Upgraded x.id ⟨step, h₀⟩ := upgraded_append (by simp [Event.setsFlag])
      obtain ⟨hflag, howner⟩ := (hshows hid).congr (or_congr_right hsame.symm)
      rw [upgraded_cons]
      refine ⟨⟨fun hy => (hflag.mp hy).imp_right .inr, ?_⟩, fun hnot => ?_⟩
      · rintro (hmarked | ⟨-, hsets⟩ | hearlier)
        · exact hflag.mpr (.inl hmarked)
        · exact hset.mp hsets
        · exact hflag.mpr (.inr hearlier)
      · exact howner fun hmarked => hnot (hmarked.imp_right .inr)
  | flagged verifies flag =>
      have hmarked : marked ∨ Upgraded x.id ⟨step, e :: h⟩ :=
        .inr (upgraded_cons.mpr (.inl ⟨verifies, hset.mpr flag⟩))
      exact ⟨iff_of_true flag hmarked, fun hnot => (hnot hmarked).elim⟩

/-- What is stored for the session after one event of a step. -/
theorem StepTracks.stored_act (hJ : StepTracks x marked step h w)
    (hL : step.Licence h e.command) (hact : World.act X t e w = some w')
    (hread : w'.read (sessionKey x.id) = some (.session y)) :
    Shows x (marked ∨ Upgraded x.id ⟨step, e :: h⟩) y := by
  by_cases hset : ∃ v secs r, e = .redisSetEx (sessionKey x.id) v secs r ∧
      World.expiryAccepted secs = true ∧ CarriedOut r
  · obtain ⟨v, secs, r, rfl, hdone⟩ := hset
    obtain ⟨-, -, rfl⟩ | ⟨hnot, -⟩ := World.setEx_cases hact
    · obtain ⟨y', hkey, rfl, hwrite⟩ := hL _ _ _ rfl
      rw [World.setEx, World.read_insert, if_pos rfl] at hread
      obtain rfl := RedisValue.session.inj (Option.some.inj hread)
      refine hwrite.shows (sessionKey_inj.mp hkey).symm hJ ⟨?_, fun hflag => ?_⟩
      · rintro ⟨_, _, _, ⟨⟩, hflag, -⟩
        exact hflag
      · exact ⟨_, _, _, rfl, hflag, hdone⟩
    · exact (hnot hdone).elim
  · have hnot : ¬ Event.setsFlag x.id e := by
      rintro ⟨y', secs, r, rfl, -, hdone⟩
      exact hset ⟨_, secs, r, rfl, hdone⟩
    have hsame : Upgraded x.id ⟨step, [e] ++ h⟩ ↔ Upgraded x.id ⟨step, h⟩ :=
      upgraded_append (by simpa using hnot)
    have hbefore : w.read (sessionKey x.id) = some (.session y) := by
      obtain hbefore | ⟨secs, r, rfl⟩ := World.session_act hact hread
      · exact hbefore
      · obtain ⟨haccepted, hdone, -⟩ | ⟨-, rfl⟩ := World.setEx_cases hact
        · exact (hset ⟨_, secs, r, rfl, haccepted, hdone⟩).elim
        · exact hread
    exact (hJ.tracks.stored y hbefore).congr (or_congr_right hsame.symm)

theorem StepTracks.act (hJ : StepTracks x marked step h w) (hL : step.Licence h e.command)
    (hact : World.act X t e w = some w') : StepTracks x marked step (e :: h) w' where
  tracks :=
    { keyed := hJ.tracks.keyed.act hL hact
      drawn := by
        obtain hsame | ⟨id, -, -, hdrawn⟩ := World.act_drawn hact
        · exact hsame ▸ hJ.tracks.drawn
        · exact hdrawn ▸ List.mem_cons_of_mem _ hJ.tracks.drawn
      stored := fun _ hread => hJ.stored_act hL hact hread }
  fresh hmem := by
    obtain rfl | hmem := List.mem_cons.mp hmem
    · exact (World.uuid_reply hact).1 hJ.tracks.drawn
    · exact hJ.fresh hmem
  reads h₁ key y hsub := by
    obtain heq | hsub := List.suffix_cons_iff.mp hsub
    · obtain ⟨rfl, rfl⟩ := List.cons.inj heq
      obtain ⟨-, hread⟩ := World.read_reply hact
      have hkey := hJ.tracks.keyed key y hread.symm
      refine ⟨hkey, fun hid => hJ.tracks.stored y ?_⟩
      rw [← hid, ← hkey, ← hread]
    · exact hJ.reads h₁ key y hsub

/-- **One step**: the record follows what the step has done. -/
theorem Tracks.perform (htracks : Tracks x marked w)
    (hperf : Performs (proxySystem X srv) (step.program X srv) w h w') :
    Tracks x (marked ∨ Upgraded x.id ⟨step, h⟩) w' := by
  refine (hperf.invariant step.program_obeys (StepTracks x marked step) ?_ ?_ ?_).tracks
  · refine ⟨⟨htracks.keyed, htracks.drawn, fun y hread => ?_⟩, by simp, by simp⟩
    exact (htracks.stored y hread).congr (by simp [Upgraded])
  · intro m h₁ w₁ w₂ henv hJ
    obtain ⟨-, rfl⟩ : w₁.clock ≤ m ∧ w₁.advance m = w₂ := by simpa using henv
    exact ⟨hJ.tracks.advance, hJ.fresh, hJ.reads⟩
  · exact fun t e h₁ w₁ w₂ hL hact hJ => hJ.act hL hact

/-- Where nothing happens, the record stays what it is. -/
theorem Tracks.idle (htracks : Tracks x marked w)
    (hseq : Sequential ((proxySystem X srv).only t) w [] w') : Tracks x marked w' := by
  refine hseq.invariant (Tracks x marked) htracks ?_ (by simp)
  intro m w₁ w₂ henv htracks
  obtain ⟨-, rfl⟩ : w₁.clock ≤ m ∧ w₁.advance m = w₂ := by simpa using henv
  exact htracks.advance

/-! ### Signing in -/

/-- A state that steps lead to, after any run of the proxy. -/
inductive Attained (X : External) (srv : ProxyServer) : World → Prop
  | run {w : World} {tr : ProxyTrace X srv} (hreach : Reachable w tr) : Attained X srv w
  | step {w w' : World} {h : List Event} (step : SignInStep) (hbefore : Attained X srv w)
      (hperf : Performs (proxySystem X srv) (step.program X srv) w h w') : Attained X srv w'

/-- The end of a ceremony: the session `x` is created for a user and a device, and
a token is minted for it. The list has what else has been done since the session
has been there, newest first. -/
inductive SignedIn (X : External) (srv : ProxyServer) (userId deviceId : String) (riskScore : ℕ)
    (x : Session) : Option String → List (Episode proxyInterface SignInStep) → World → Prop
  | created {w w' : World} {h : List Event} {ipAddress userAgent : String}
      (hbefore : Attained X srv w)
      (hexec : Executes (proxySystem X srv) (SessionManager.createSession
        srv.config.sessionDurationMinutes userId deviceId ipAddress userAgent) w h (.ok x) w') :
      SignedIn X srv userId deviceId riskScore x none [] w'
  | minted {w w' : World} {h : List Event} {l : List (Episode proxyInterface SignInStep)}
      {token : String} (hearlier : SignedIn X srv userId deviceId riskScore x none l w)
      (hexec : Executes (proxySystem X srv) (mintPasskeyJwt srv.config.jwtExpirationHours userId
        deviceId x.id riskScore) w h (.ok token) w') :
      SignedIn X srv userId deviceId riskScore x (some token) l w'
  | next {w w' : World} {h : List Event} {l : List (Episode proxyInterface SignInStep)}
      {token : Option String} {step : SignInStep}
      (hearlier : SignedIn X srv userId deviceId riskScore x token l w)
      (hperf : Performs (proxySystem X srv) (step.program X srv) w h w') :
      SignedIn X srv userId deviceId riskScore x token (⟨step, h⟩ :: l) w'

theorem Attained.keyed (hw : Attained X srv w) : Keyed w := by
  induction hw with
  | run hreach => exact fun key y hread => session_keyed hreach hread
  | step step _ hperf ih =>
      refine hperf.invariant step.program_obeys (fun _ w => Keyed w) ih ?_ ?_
      · intro m h₁ w₁ w₂ henv hkeyed
        obtain ⟨-, rfl⟩ : w₁.clock ≤ m ∧ w₁.advance m = w₂ := by simpa using henv
        exact hkeyed.advance
      · exact fun t e h₁ w₁ w₂ hL hact hkeyed => hkeyed.act hL hact

/-- A program is executed as a step is, with its outcome thrown away. -/
theorem performs_ignored {α : Type} {p : Handler α} {r : Except ProxyError α}
    (hexec : Executes (proxySystem X srv) p w h r w') :
    Performs (proxySystem X srv) (ignore p) w h w' := by
  obtain ⟨t, hseq, hend⟩ := hexec
  have hignored : (ignore p).Ends h (.ok ()) :=
    ends_bind.mpr (.inl ⟨r, h, [], rfl, ends_attempt.mpr ⟨r, rfl, hend⟩, rfl, rfl⟩)
  exact Executes.performs ⟨t, hseq, hignored⟩

theorem createSession_ok {minutes : Int} {userId deviceId ipAddress userAgent : String}
    (hend : (SessionManager.createSession minutes userId deviceId ipAddress userAgent).Ends h
      (.ok x)) :
    ∃ now id, x = Session.build now id userId deviceId ipAddress userAgent minutes ∧
      h = [.redisSetEx (sessionKey x.id) (.session x) (asU64 (minutes * 60)) (.ok ()), .newUuid id,
        .utcNow .sessionNew now] := by
  simp only [SessionManager.createSession, SessionManager.newSession, utcNow, newUuid, redisSetEx,
    call_bind, ret_bind, ends_call] at hend
  obtain ⟨now, _, rfl, id, _, rfl, hrest⟩ := hend
  by_cases hbounds : Duration.inBounds (minutes * 60) = true
  · rw [if_pos hbounds] at hrest
    obtain ⟨r, _, rfl, hlast⟩ := hrest
    obtain ⟨u, rfl, rfl, hx⟩ | ⟨f, -, -, herror⟩ := ends_unwrap_bind.mp hlast
    · obtain rfl := Except.ok.inj hx
      exact ⟨now, id, rfl, rfl⟩
    · simp at herror
  · rw [if_neg hbounds] at hrest
    obtain ⟨r, -⟩ := hrest
    exact r.elim

theorem mintPasskeyJwt_ok {hours : Int} {userId deviceId sessionId token : String} {riskScore : ℕ}
    (hend : (mintPasskeyJwt hours userId deviceId sessionId riskScore).Ends h (.ok token)) :
    ∃ claims h₁, h = .jwtEncode claims (.ok token) :: h₁ ∧ claims.sub = userId ∧
      claims.sessionId = sessionId ∧ claims.mfaVerified = true := by
  simp only [mintPasskeyJwt, JwtManager.generateToken, utcNow, newUuid, call_bind, ret_bind,
    ends_call] at hend
  obtain ⟨now, _, rfl, hrest⟩ := hend
  by_cases hbounds : Duration.inBounds (hours * 3600) = true
  · rw [if_pos hbounds] at hrest
    obtain ⟨jti, _, rfl, r, _, rfl, hlast⟩ := hrest
    cases r with
    | error e =>
        obtain ⟨-, herror⟩ := ends_throw.mp hlast
        simp at herror
    | ok token' =>
        obtain ⟨rfl, htoken⟩ := ends_ret.mp hlast
        obtain rfl := Except.ok.inj htoken
        exact ⟨_, _, rfl, rfl, rfl, rfl⟩
  · rw [if_neg hbounds] at hrest
    obtain ⟨r, -⟩ := hrest
    exact r.elim

section SignedIn

variable {userId deviceId : String} {riskScore : ℕ} {token : Option String}
  {l : List (Episode proxyInterface SignInStep)}

/-- A session that has just been created is stored without the flag. -/
theorem tracks_created {ipAddress userAgent : String} (hkeyed : Keyed w)
    (hexec : Executes (proxySystem X srv) (SessionManager.createSession
      srv.config.sessionDurationMinutes userId deviceId ipAddress userAgent) w h (.ok x) w') :
    Tracks x False w' ∧ x.userId = userId := by
  have hstep : Performs (proxySystem X srv)
      ((SignInStep.createSession userId deviceId ipAddress userAgent).program X srv) w h w' :=
    performs_ignored hexec
  have hboth : Keyed w' ∧ ∀ id, .newUuid id ∈ h → id ∈ w'.drawn := by
    refine hstep.invariant (SignInStep.program_obeys _)
      (fun h w => Keyed w ∧ ∀ id, .newUuid id ∈ h → id ∈ World.drawn w) ⟨hkeyed, by simp⟩ ?_ ?_
    · rintro m h₁ w₁ w₂ henv ⟨hkeyed, hdrawn⟩
      obtain ⟨-, rfl⟩ : w₁.clock ≤ m ∧ w₁.advance m = w₂ := by simpa using henv
      exact ⟨hkeyed.advance, hdrawn⟩
    · rintro t e h₁ w₁ w₂ hL hact ⟨hkeyed, hdrawn⟩
      have hevent : World.act X t e w₁ = some w₂ := hact
      refine ⟨hkeyed.act hL hevent, fun id hmem => ?_⟩
      obtain rfl | hmem := List.mem_cons.mp hmem
      · rw [(World.uuid_reply hevent).2]
        exact List.mem_cons_self
      · obtain hsame | ⟨id', -, -, hnew⟩ := World.act_drawn hevent
        · exact hsame ▸ hdrawn id hmem
        · exact hnew ▸ List.mem_cons_of_mem _ (hdrawn id hmem)
  obtain ⟨hkeyed', hdrawn⟩ := hboth
  obtain ⟨t, hseq, hend⟩ := hexec
  obtain ⟨now, id, hx, rfl⟩ := createSession_ok hend
  obtain ⟨t', w₁, w₂, -, hact, hidle⟩ := hseq.last
  have hset : World.act X t (.redisSetEx (sessionKey x.id) (.session x)
      (asU64 (srv.config.sessionDurationMinutes * 60)) (.ok ())) w₁ = some w₂ := hact
  obtain ⟨-, rfl⟩ := World.setEx_reply hset
  have hflag : x.mfaVerified = false := by rw [hx]; rfl
  refine ⟨⟨hkeyed', ?_, ?_⟩, by rw [hx]; rfl⟩
  · have hid : (⟨x.id⟩ : Uuid) = id := by rw [hx]; rfl
    exact hdrawn _ (by simp [hid])
  · refine hidle.invariant (fun w => ∀ y, World.read w (sessionKey x.id) = some (.session y) →
      Shows x False y) ?_ ?_ (by simp)
    · intro y hread
      rw [World.setEx, World.read_insert, if_pos rfl] at hread
      obtain rfl := RedisValue.session.inj (Option.some.inj hread)
      exact ⟨by simp [hflag], fun _ => rfl⟩
    · intro m w₁ w₂ henv hshows y hread
      obtain ⟨-, rfl⟩ : w₁.clock ≤ m ∧ w₁.advance m = w₂ := by simpa using henv
      exact hshows y (World.read_advance hread)

/-- The token stands for the session and its user. -/
def Stands (x : Session) (token : String) (w : World) : Prop :=
  ∃ claims, w.tokens.lookup token = some claims ∧ claims.sub = x.userId ∧ claims.sessionId = x.id

theorem Stands.perform {token : String} (hstands : Stands x token w)
    (hperf : Performs (proxySystem X srv) (step.program X srv) w h w') : Stands x token w' := by
  obtain ⟨claims, hlookup, hsub, hid⟩ := hstands
  refine ⟨claims, ?_, hsub, hid⟩
  refine hperf.invariant step.program_obeys
    (fun _ w => (World.tokens w).lookup token = some claims) hlookup ?_ ?_
  · intro m h₁ w₁ w₂ henv hlookup
    obtain ⟨-, rfl⟩ : w₁.clock ≤ m ∧ w₁.advance m = w₂ := by simpa using henv
    exact hlookup
  · exact fun t e h₁ w₁ w₂ _ hact hlookup => lookup_act hact hlookup

/-- A token that has just been minted stands for what it was minted for. -/
theorem stands_minted {token : String} (hexec : Executes (proxySystem X srv)
      (mintPasskeyJwt srv.config.jwtExpirationHours x.userId deviceId x.id riskScore) w h
      (.ok token) w') : Stands x token w' := by
  obtain ⟨t, hseq, hend⟩ := hexec
  obtain ⟨claims, h₁, rfl, hsub, hid, -⟩ := mintPasskeyJwt_ok hend
  obtain ⟨t', w₁, w₂, -, hact, hidle⟩ := hseq.last
  obtain ⟨-, rfl⟩ := World.accept_eq_some.mp hact
  refine ⟨claims, ?_, hsub, hid⟩
  refine hidle.invariant (fun w => (World.tokens w).lookup token = some claims) (by simp) ?_
    (by simp)
  intro m w₁ w₂ henv hlookup
  obtain ⟨-, rfl⟩ : w₁.clock ≤ m ∧ w₁.advance m = w₂ := by simpa using henv
  exact hlookup

/-- **A signed-in session** has the flag exactly when an `mfa/verify` has set it,
and the minted token stands for it. -/
theorem SignedIn.tracks (hsigned : SignedIn X srv userId deviceId riskScore x token l w) :
    Tracks x (∃ e ∈ l, Upgraded x.id e) w ∧ x.userId = userId ∧
      ∀ token', token = some token' → Stands x token' w := by
  induction hsigned with
  | created hbefore hexec =>
      obtain ⟨htracks, howner⟩ := tracks_created hbefore.keyed hexec
      exact ⟨by simpa using htracks, howner, by simp⟩
  | minted _ hexec ih =>
      obtain ⟨htracks, rfl, -⟩ := ih
      have hstep : Performs (proxySystem X srv)
          ((SignInStep.mintPasskeyJwt x.userId deviceId x.id riskScore).program X srv) _ _ _ :=
        performs_ignored hexec
      refine ⟨by simpa [Upgraded, SignInStep.Verifies] using htracks.perform hstep, rfl, ?_⟩
      rintro _ ⟨⟩
      exact stands_minted hexec
  | next _ hperf ih =>
      obtain ⟨htracks, rfl, hstands⟩ := ih
      refine ⟨?_, rfl, fun token' htoken => (hstands token' htoken).perform hperf⟩
      simpa only [List.exists_mem_cons_iff, or_comm] using htracks.perform hperf

end SignedIn

/-! ### The gate -/

/-- What becomes of a request whose session has been found. -/
inductive Verdict (X : External) (srv : ProxyServer) (req : Request) (session : Session)
    (claims : Claims) : Except ProxyError Unit → Prop
  | mismatch (owner : session.userId ≠ claims.sub) :
      Verdict X srv req session claims (.error (.invalidSession "session/token subject mismatch"))
  | denied
      (policy : (srv.policyEngine.evaluate X.floats (policyContext req claims)).allowed = false) :
      Verdict X srv req session claims (.error (.authorizationDenied
        (srv.policyEngine.evaluate X.floats (policyContext req claims)).reason))
  | gated {risk : RiskScore} {gate : List Event} {r : Except ProxyError Unit}
      (policy : (srv.policyEngine.evaluate X.floats (policyContext req claims)).allowed = true)
      (run : GateRun X srv session claims risk gate r) : Verdict X srv req session claims r

variable {req : Request} {r : Except ProxyError Unit} {claims : Claims} {s : Session}

theorem BearerRun.no_return {r' : Except ProxyError Claims} {id : String} (hb : BearerRun req h r') :
    .getSessionReturn id (.ok s) ∉ h :=
  hb.kinds.not_mem (by simp [Event.kind])

theorem FetchRun.no_return {id id' : String} {r' : Except ProxyError Session}
    (hf : FetchRun X id h r') : .getSessionReturn id' (.ok s) ∉ h :=
  hf.kinds.not_mem (by simp [Event.kind])

theorem AuditRun.no_return {id userId : String} {eventType : EventType} {outcome : Outcome}
    (ha : AuditRun X eventType userId outcome h) : .getSessionReturn id (.ok s) ∉ h :=
  ha.kinds.not_mem (by simp [Event.kind])

/-- An `authorize` that has found a session has read it first of all. -/
theorem AuthorizeRun.found {id : String} (hrun : AuthorizeRun X srv req h r)
    (hlive : .getSessionReturn id (.ok s) ∈ h) :
    ∃ post token body claims, h = post ++ (sessionEvents claims.sessionId (.ok s) body ++ token) ∧
      BearerRun req token (.ok claims) ∧ FetchRun X claims.sessionId body (.ok s) ∧
      Verdict X srv req s claims r := by
  cases hrun with
  | unauthenticated bearer => exact (bearer.no_return hlive).elim
  | noSession bearer fetched =>
      simp [sessionEvents, bearer.no_return, fetched.no_return] at hlive
  | @mismatch token body claims session bearer fetched owner =>
      obtain ⟨-, rfl⟩ : id = claims.sessionId ∧ s = session := by
        simpa [sessionEvents, bearer.no_return, fetched.no_return] using hlive
      exact ⟨[], token, body, claims, rfl, bearer, fetched, .mismatch owner⟩
  | @denied token body audit claims session bearer fetched owner policy audited =>
      obtain ⟨-, rfl⟩ : id = claims.sessionId ∧ s = session := by
        simpa [sessionEvents, bearer.no_return, fetched.no_return, audited.no_return] using hlive
      exact ⟨audit, token, body, claims, rfl, bearer, fetched, .denied policy⟩
  | @scored token body scores evaluation gate claims session risk _ bearer fetched owner policy
      score evaluated gated =>
      have hscores : .getSessionReturn id (.ok s) ∉ scores :=
        score.kinds.not_mem (by simp [Event.kind])
      have hgate : .getSessionReturn id (.ok s) ∉ gate := gated.kinds.not_mem (by simp [Event.kind])
      obtain ⟨-, rfl⟩ : id = claims.sessionId ∧ s = session := by
        simpa [sessionEvents, bearer.no_return, fetched.no_return, evaluated.no_return, hscores,
          hgate] using hlive
      exact ⟨gate ++ (evaluation ++ scores), token, body, claims, by simp, bearer, fetched,
        .gated policy gated⟩

/-- Where a second factor is required, the gate asks the session for it. -/
theorem GateRun.required_iff {risk : RiskScore} (hg : GateRun X srv s claims risk h r)
    (hmfa : srv.config.requireMfa = true) : r = .error .mfaRequired ↔ s.mfaVerified = false := by
  cases hg with
  | unverified required mfa => exact iff_of_true rfl mfa
  | blocked mfa block audited => simp [mfa hmfa]
  | stepUp required stepUp mfa => simp [hmfa] at required
  | passed mfa block stepUp audited => simp [mfa hmfa]

/-- Until the session is read, only the token is validated. -/
theorem Tracks.before_read {token : String} {claims₀ : Claims} (htracks : Tracks x marked w)
    (hlookup : w.tokens.lookup token = some claims₀)
    (hseq : Sequential ((proxySystem X srv).only t) w
      [.getSessionCall claims.sessionId, .jwtDecode token (.ok claims)] w') :
    Tracks x marked w' ∧ claims = claims₀ := by
  have hall : Tracks x marked w' ∧ w'.tokens.lookup token = some claims₀ ∧
      ∀ c, .jwtDecode token (.ok c) ∈
        ([.getSessionCall claims.sessionId, .jwtDecode token (.ok claims)] : List Event) →
        c = claims₀ := by
    refine hseq.history_invariant (fun h w => Tracks x marked w ∧
      (World.tokens w).lookup token = some claims₀ ∧ ∀ c, .jwtDecode token (.ok c) ∈ h →
        c = claims₀) ⟨htracks, hlookup, by simp⟩ ?_ ?_
    · rintro m h₁ w₁ w₂ henv ⟨htracks, hlookup, hdecoded⟩
      obtain ⟨-, rfl⟩ : w₁.clock ≤ m ∧ w₁.advance m = w₂ := by simpa using henv
      exact ⟨htracks.advance, hlookup, hdecoded⟩
    · rintro t' e h₁ w₁ w₂ hsub hact ⟨htracks, hlookup, hdecoded⟩
      have hevent : World.act X t e w₁ = some w₂ := hact
      have he := hsub.subset List.mem_cons_self
      simp only [List.mem_cons, List.not_mem_nil, or_false] at he
      obtain rfl | rfl := he
      · obtain rfl := Option.some.inj hevent
        exact ⟨htracks, hlookup, by simpa using hdecoded⟩
      · obtain ⟨rfl, hfound, -⟩ := World.decode_reply hevent
        refine ⟨htracks, hlookup, fun c hc => ?_⟩
        obtain heq | hc := List.mem_cons.mp hc
        · obtain ⟨-, hc⟩ := Event.jwtDecode.inj heq
          rw [Except.ok.inj hc]
          exact Option.some.inj (hfound.symm.trans hlookup)
        · exact hdecoded c hc
  exact ⟨hall.1, hall.2.2 claims (by simp)⟩

/-- The session that the gate finds for a token that stands for it. -/
theorem Tracks.found {token : String} {post tokens body : List Event} (htracks : Tracks x marked w)
    (hstands : Stands x token w)
    (htoken : JwtManager.extractTokenFromHeader ((req.header "authorization").getD "") = .ok token)
    (hseq : Sequential ((proxySystem X srv).only t) w
      (post ++ (sessionEvents claims.sessionId (.ok s) body ++ tokens)) w')
    (hbearer : BearerRun req tokens (.ok claims))
    (hfetch : FetchRun X claims.sessionId body (.ok s)) :
    claims.sub = x.userId ∧ Shows x marked s := by
  obtain ⟨y, now, activity, update, -, rfl, -, rfl⟩ := hfetch.ok_inv
  cases hbearer with
  | @valid token' _ header =>
      obtain rfl : token' = token := Except.ok.inj (header.symm.trans htoken)
      have hsplit : post ++ (sessionEvents claims.sessionId (.ok (y.updateActivity activity))
          (update ++ [Event.utcNow .updateActivity activity, .utcNow .isExpired now,
            .redisGet (sessionKey claims.sessionId) (.ok (some (.session y)))]) ++
          [Event.jwtDecode token' (.ok claims)]) =
        (post ++ (Event.getSessionReturn claims.sessionId (.ok (y.updateActivity activity)) ::
          (update ++ [Event.utcNow .updateActivity activity, .utcNow .isExpired now]))) ++
          Event.redisGet (sessionKey claims.sessionId) (.ok (some (.session y))) ::
            [.getSessionCall claims.sessionId, .jwtDecode token' (.ok claims)] := by
        simp [sessionEvents]
      rw [hsplit, Sequential.append_iff] at hseq
      obtain ⟨w₁, hread, -⟩ := hseq
      obtain ⟨_, w₂, w₃, hbefore, hget, -⟩ := hread.last
      obtain ⟨claims₀, hlookup, hsub, hid⟩ := hstands
      obtain ⟨htracks', rfl⟩ := htracks.before_read hlookup hbefore
      have hevent : World.act X t (.redisGet (sessionKey claims.sessionId)
        (.ok (some (.session y)))) w₂ = some w₃ := hget
      obtain ⟨-, hstored⟩ := World.read_reply hevent
      rw [hid] at hstored
      obtain ⟨hflag, howner⟩ := htracks'.stored y hstored.symm
      exact ⟨hsub, hflag, howner⟩

/-- **A passkey sign-in at the gate.** Where a second factor is required, a request
with the token of a passkey sign-in is let off with it if the policies deny the
request anyway, or if an `mfa/verify` has set the flag of the session; and only
then. -/
theorem passkey_gate {userId deviceId token : String} {riskScore : ℕ}
    {l : List (Episode proxyInterface SignInStep)} (hmfa : srv.config.requireMfa = true)
    (hsigned : SignedIn X srv userId deviceId riskScore x (some token) l w)
    (htoken : JwtManager.extractTokenFromHeader ((req.header "authorization").getD "") = .ok token)
    (hexec : Executes (proxySystem X srv) (authorize X srv req) w h r w')
    (hlive : .getSessionReturn x.id (.ok s) ∈ h) :
    r ≠ .error .mfaRequired ↔
      (srv.policyEngine.evaluate X.floats
          ⟨userId, req.uri.path, toLowercase req.method, []⟩).allowed = false ∨
        ∃ e ∈ l, Upgraded x.id e := by
  obtain ⟨htracks, rfl, hstands⟩ := hsigned.tracks
  obtain ⟨t, hseq, hend⟩ := hexec
  obtain ⟨post, tokens, body, claims, rfl, hbearer, hfetch, hverdict⟩ :=
    (authorize_ends hend).found hlive
  obtain ⟨hsub, hflag, howner⟩ := htracks.found (hstands token rfl) htoken hseq hbearer hfetch
  rw [← hsub]
  cases hverdict with
  | mismatch hother =>
      -- only an upgrade can have given the session to somebody else
      refine iff_of_true (by simp) (.inr (by_contra fun hnot => hother ?_))
      rw [howner hnot, hsub]
  | denied policy => exact iff_of_true (by simp) (.inl policy)
  | gated policy run =>
      have hallowed : ¬ (srv.policyEngine.evaluate X.floats
          ⟨claims.sub, req.uri.path, toLowercase req.method, []⟩).allowed = false := by
        simpa [policyContext] using policy
      rw [Ne, run.required_iff hmfa, Bool.not_eq_false, hflag, or_iff_right hallowed]

namespace Scenario

/-- A backend that requires a second factor. -/
def strictServer : ProxyServer := .new { config with requireMfa := true }

/-- Alice with an authenticator of her own besides the passkey. -/
def enrolledAlice : UserRow := { alice with mfaEnabled := true, mfaSecret := some secret }

def dataRequest : Request := authorized "GET" "/data" "token-0" ""

/-- Alice signs in with a passkey, the steps are taken, newest first, and the gate
answers a request with the token like this. -/
def gateAnswers (steps : List SignInStep) (r : Except ProxyError Unit) : Bool :=
  let S := proxySystem external strictServer
  let reply := World.reply external 0 0
  ((SessionManager.createSession 15 alice.id.text "laptop" home.text userAgent).exec S reply
    (world [enrolledAlice])).any fun y => match y.2.1 with
    | .error _ => false
    | .ok x =>
        ((mintPasskeyJwt 24 alice.id.text "laptop" x.id 10).exec S reply y.2.2).any fun y =>
          decide (y.2.1 = .ok "token-0") &&
            (execAll S reply (SignInStep.program external strictServer) y.2.2 steps).any fun y =>
              ((authorize external strictServer dataRequest).exec S reply y.2).any fun y =>
                decide (y.2.1 = r) && y.1.any fun e => match e with
                  | .getSessionReturn id (.ok _) => decide (id = x.id)
                  | _ => false

/-- Steps that are executed to their ends follow a sign-in. -/
theorem signedIn_serial {userId deviceId : String} {riskScore : ℕ} {token : Option String}
    {l : List (Execution proxyInterface SignInStep ProxyError Unit)}
    (hsigned : SignedIn X srv userId deviceId riskScore x token [] w)
    (hserial : Serial (proxySystem X srv) (SignInStep.program X srv) w l w') :
    ∃ l', SignedIn X srv userId deviceId riskScore x token l' w' := by
  refine hserial.invariant (fun _ w => ∃ l', SignedIn X srv userId deviceId riskScore x token l' w)
    ⟨[], hsigned⟩ ?_
  rintro l q h r w₁ w₂ hexec ⟨l', hearlier⟩
  exact ⟨_, hearlier.next hexec.performs⟩

theorem of_gateAnswers {steps : List SignInStep} {r : Except ProxyError Unit}
    (h : gateAnswers steps r = true) :
    ∃ (x s : Session) (l : List (Episode proxyInterface SignInStep)) (w w' : World)
      (h : List Event),
      SignedIn external strictServer alice.id.text "laptop" 10 x (some "token-0") l w ∧
      Executes (proxySystem external strictServer) (authorize external strictServer dataRequest) w
        h r w' ∧ .getSessionReturn x.id (.ok s) ∈ h := by
  have hinit : InitialWorld (world [enrolledAlice]) :=
    world_initial (by simp) (by simp) (by simp)
  have hreach : Reachable (S := proxySystem external strictServer) (world [enrolledAlice]) [] :=
    .init hinit
  unfold gateAnswers at h
  obtain ⟨⟨h₁, r₁, w₁⟩, hcreate, hcheck⟩ := (Option.any_eq_true _ _).mp h
  cases r₁ with
  | error e => simp at hcheck
  | ok x =>
      obtain ⟨⟨h₂, r₂, w₂⟩, hmint, hcheck⟩ := (Option.any_eq_true _ _).mp hcheck
      obtain ⟨htoken, hcheck⟩ := Bool.and_eq_true_iff.mp hcheck
      obtain rfl : r₂ = .ok "token-0" := of_decide_eq_true htoken
      obtain ⟨⟨l, w₃⟩, hsteps, hcheck⟩ := (Option.any_eq_true _ _).mp hcheck
      obtain ⟨⟨h₄, r₄, w₄⟩, hgate, hcheck⟩ := (Option.any_eq_true _ _).mp hcheck
      obtain ⟨hanswer, hreturn⟩ := Bool.and_eq_true_iff.mp hcheck
      obtain rfl : r₄ = r := of_decide_eq_true hanswer
      obtain ⟨e, he, hfound⟩ := List.any_eq_true.mp hreturn
      split at hfound
      · rename_i id s
        obtain rfl := of_decide_eq_true hfound
        have hsigned : SignedIn external strictServer alice.id.text "laptop" 10 x (some "token-0")
            [] w₂ :=
          .minted (.created (.run hreach) (Program.exec_sound hcreate)) (Program.exec_sound hmint)
        obtain ⟨l', hsigned'⟩ := signedIn_serial hsigned (execAll_sound hsteps)
        exact ⟨x, s, l', w₃, w₄, h₄, hsigned', Program.exec_sound hgate, he⟩
      · simp at hfound

end Scenario

open Scenario in
/-- With an `mfa/verify` after the sign-in, the request passes. -/
theorem passkey_gate_run : ∃ (x : Session) (l : List (Episode proxyInterface SignInStep))
    (w w' : World) (h : List Event),
    SignedIn external strictServer alice.id.text "laptop" 10 x (some "token-0") l w ∧
      Executes (proxySystem external strictServer) (authorize external strictServer dataRequest) w
        h (.ok ()) w' ∧ ∃ e ∈ l, Upgraded x.id e := by
  have hanswers : gateAnswers
      [.serve (authorized "POST" "/auth/mfa/verify" "token-0" verifyBody)] (.ok ()) = true := by
    decide +kernel
  obtain ⟨x, s, l, w, w', h, hsigned, hexec, hlive⟩ := of_gateAnswers hanswers
  have hpassed := (passkey_gate rfl hsigned (by decide) hexec hlive).mp (by simp)
  obtain hdenied | hupgraded := hpassed
  · have hallowed : (strictServer.policyEngine.evaluate external.floats
        ⟨alice.id.text, dataRequest.uri.path, toLowercase dataRequest.method, []⟩).allowed = true := by
      decide +kernel
    rw [hallowed] at hdenied
    simp at hdenied
  · exact ⟨x, l, w, w', h, hsigned, hexec, hupgraded⟩

open Scenario in
/-- A passkey sign-in by itself is refused for want of a second factor. -/
theorem passkey_refused : ¬ ∀ (userId deviceId token : String) (riskScore : ℕ) (x s : Session)
    (l : List (Episode proxyInterface SignInStep)) (w w' : World) (req : Request) (h : List Event)
    (r : Except ProxyError Unit), strictServer.config.requireMfa = true →
    SignedIn external strictServer userId deviceId riskScore x (some token) l w →
    JwtManager.extractTokenFromHeader ((req.header "authorization").getD "") = .ok token →
    Executes (proxySystem external strictServer) (authorize external strictServer req) w h r w' →
    .getSessionReturn x.id (.ok s) ∈ h → r ≠ .error .mfaRequired := by
  intro hclaim
  have hanswers : gateAnswers [] (.error .mfaRequired) = true := by decide +kernel
  obtain ⟨x, s, l, w, w', h, hsigned, hexec, hlive⟩ := of_gateAnswers hanswers
  exact hclaim _ _ _ _ x s l w w' dataRequest h _ rfl hsigned (by decide) hexec hlive rfl

end ZeroTrustProxy
