import ZeroTrustProxy.Concurrent.Sequential
import ZeroTrustProxy.Contract.Kinds
import ZeroTrustProxy.Contract.MfaExits
import ZeroTrustProxy.Runs.Upgrade

/-!
When an update of a session can be seen.

`update_session` writes a record with the whole seconds it has left, and when
there are none it writes nothing and succeeds all the same. The key keeps the
deadline of an earlier write, which may lie beyond. So in the last second
before its expiry a record can still be read that an update has been reported
for and that does not show it.
-/

namespace ZeroTrustProxy

open Concurrent Program SessionManager

variable {X : External} {srv : ProxyServer} {w w' w₁ w₂ w₃ : World} {h : List Event}

/-- The two records differ in their last activity at most. -/
def Session.Matches (x y : Session) : Prop := x.updateActivity 0 = y.updateActivity 0

/-- Whenever the history computes a TTL, the record has a whole second left. -/
def Timely (h : List Event) (x : Session) : Prop :=
  ∀ n, .utcNow .sessionTtl n ∈ h → n + Duration.second ≤ x.expiresAt

/-- The history writes no record under the key of the session. -/
def Unwritten (id : String) (h : List Event) : Prop :=
  ∀ v secs r, .redisSetEx (sessionKey id) v secs r ∉ h

theorem Unwritten.of_kinds {ks : List EventKind} (hk : OfKinds ks h) (hredis : .redis ∉ ks)
    (id : String) : Unwritten id h := fun _ _ _ => hk.not_mem hredis

theorem Unwritten.append {id : String} {h' : List Event} (hno : Unwritten id h)
    (hno' : Unwritten id h') : Unwritten id (h ++ h') := by
  intro v secs r hmem
  obtain hmem | hmem := List.mem_append.mp hmem
  · exact hno v secs r hmem
  · exact hno' v secs r hmem

theorem Session.ttl_pos_iff {x : Session} {n : Int} :
    0 < x.ttl n ↔ n + Duration.second ≤ x.expiresAt := by
  constructor
  · intro hleft
    have hbound := (Duration.numSeconds_pos_bounds hleft).1
    simp only [Session.ttl] at hleft
    simp only [Duration.seconds, Duration.second] at hbound ⊢
    omega
  · intro hleft
    apply Duration.numSeconds_pos
    omega

/-! ### What is read later -/

/-- The last event of a history, as an event of the proxy. -/
theorem last_event {e : Event} (hseq : Sequential (proxySystem X srv) w (e :: h) w') :
    ∃ t w₁ w₂, Sequential (proxySystem X srv) w h w₁ ∧ World.act X t e w₁ = some w₂ ∧
      Sequential (proxySystem X srv) w₂ [] w' := hseq.last

theorem World.read_of_advance {m : Int} {key : String} {v : RedisValue}
    (hread : (w.advance m).read key = some v) : w.read key = some v := by
  obtain ⟨c, hc, rfl⟩ := Option.map_eq_some_iff.mp hread
  obtain ⟨hbefore, -⟩ := ExpiringStore.lookup_advance_eq_some.mp hc
  exact Option.map_eq_some_iff.mpr ⟨c, hbefore, rfl⟩

/-- A record that is read after a history without writes of it was there
before. -/
theorem read_back (hseq : Sequential (proxySystem X srv) w h w') {id : String}
    (hno : Unwritten id h) {y : Session} (hread : w'.read (sessionKey id) = some (.session y)) :
    w.read (sessionKey id) = some (.session y) := by
  refine hseq.invariant (fun w' => w'.read (sessionKey id) = some (.session y) →
    w.read (sessionKey id) = some (.session y)) (fun hread => hread) ?_ ?_ hread
  · intro m w₁ w₂ henv hJ hread
    obtain ⟨-, rfl⟩ : w₁.clock ≤ m ∧ w₁.advance m = w₂ := by simpa using henv
    exact hJ (World.read_of_advance hread)
  · intro t e w₁ w₂ he hact hJ hread
    have hact' : World.act X t e w₁ = some w₂ := hact
    obtain hbefore | ⟨secs, r, rfl⟩ := World.session_act hact' hread
    · exact hJ hbefore
    · exact (hno _ _ _ he).elim

/-- The clock goes on. -/
theorem clock_sequential (hseq : Sequential (proxySystem X srv) w h w') : w.clock ≤ w'.clock := by
  refine hseq.invariant (fun w' => w.clock ≤ w'.clock) le_rfl ?_ ?_
  · intro m w₁ w₂ henv hJ
    obtain ⟨hle, rfl⟩ : w₁.clock ≤ m ∧ w₁.advance m = w₂ := by simpa using henv
    exact hJ.trans hle
  · intro t e w₁ w₂ _ hact hJ
    have hact' : World.act X t e w₁ = some w₂ := hact
    rw [World.act_clock hact']
    exact hJ

/-- A reading of the clock lies between the ends of the history. -/
theorem reading_sequential (hseq : Sequential (proxySystem X srv) w h w') {use : ClockUse} {n : Int}
    (hread : .utcNow use n ∈ h) : w.clock ≤ n ∧ n ≤ w'.clock := by
  obtain ⟨h₂, h₁, rfl⟩ := List.append_of_mem hread
  obtain ⟨wm, hfirst, hrest⟩ := Sequential.append_iff.mp hseq
  obtain ⟨t, w₁, w₂, hbefore, hact, hafter⟩ := last_event hfirst
  obtain ⟨rfl, rfl⟩ := World.clock_reply hact
  refine ⟨clock_sequential hbefore, ?_⟩
  exact (clock_sequential hafter).trans (clock_sequential hrest)

/-! ### The three operations -/

/-- After a successful `update_session` the record can be read if there was a
second left, and otherwise only what was there before. -/
theorem UpdateRun.read {s x : Session} {update : List Event} (hu : UpdateRun s update (.ok ()))
    (hseq : Sequential (proxySystem X srv) w update w')
    (hread : w'.read (sessionKey s.id) = some (.session x)) :
    (Timely update s ∧ x = s) ∨
      (¬ Timely update s ∧ w.read (sessionKey s.id) = some (.session x)) := by
  cases hu with
  | @skipped n none =>
      refine .inr ⟨fun htimely => ?_, read_back hseq (by simp [Unwritten]) hread⟩
      have hleft := Session.ttl_pos_iff.mpr (htimely n (by simp))
      omega
  | @written n left =>
      refine .inl ⟨fun n' hmem => ?_, ?_⟩
      · obtain rfl : n' = n := by simpa using hmem
        exact Session.ttl_pos_iff.mp left
      · obtain ⟨t, w₁, w₂, -, hact, hafter⟩ := last_event hseq
        obtain ⟨-, rfl⟩ := World.setEx_reply hact
        have hstored := read_back hafter (by simp [Unwritten]) hread
        rw [World.setEx, World.read_insert, if_pos rfl] at hstored
        exact (RedisValue.session.inj (Option.some.inj hstored)).symm

/-- An `update_session` reads the clock. -/
theorem UpdateRun.reading {s : Session} {update : List Event} {r : Except ProxyError Unit}
    (hu : UpdateRun s update r) : ∃ n, .utcNow .sessionTtl n ∈ update := by
  cases hu with
  | skipped none => exact ⟨_, List.mem_cons_self⟩
  | written left => exact ⟨_, List.mem_cons_of_mem _ List.mem_cons_self⟩
  | failed left => exact ⟨_, List.mem_cons_of_mem _ List.mem_cons_self⟩

/-- A `get_session` returns, touched, what can be read before it. -/
theorem FetchRun.read {id : String} {y : Session} {body : List Event}
    (hf : FetchRun X id body (.ok y))
    (hseq : Sequential (proxySystem X srv) w (sessionEvents id (.ok y) body) w') :
    ∃ x activity, w.read (sessionKey id) = some (.session x) ∧ y = x.updateActivity activity ∧
      ∀ z, x.id = id → w'.read (sessionKey id) = some (.session z) → z = y ∨ z = x := by
  obtain ⟨x, now, activity, update, -, rfl, hupdate, rfl⟩ := hf.ok_inv
  have hcut : sessionEvents id (.ok (x.updateActivity activity))
      (update ++ [Event.utcNow .updateActivity activity, .utcNow .isExpired now,
        .redisGet (sessionKey id) (.ok (some (.session x)))]) =
      [Event.getSessionReturn id (.ok (x.updateActivity activity))] ++ (update ++
        ([Event.utcNow .updateActivity activity, .utcNow .isExpired now] ++
          [Event.redisGet (sessionKey id) (.ok (some (.session x))), .getSessionCall id])) := by
    simp [sessionEvents]
  rw [hcut] at hseq
  obtain ⟨wd, hbody, hreturn⟩ := Sequential.append_iff.mp hseq
  obtain ⟨wc, hchecked, hupdated⟩ := Sequential.append_iff.mp hbody
  obtain ⟨wb, hgot, hclocks⟩ := Sequential.append_iff.mp hchecked
  obtain ⟨t, wa, wa', hcall, hget, hafter⟩ := last_event hgot
  obtain ⟨rfl, hfound⟩ := World.read_reply hget
  refine ⟨x, activity, read_back hcall (by simp [Unwritten]) hfound.symm, rfl, fun z hid hread => ?_⟩
  have hupdated' := read_back hreturn (by simp [Unwritten]) hread
  rw [← hid] at hupdated'
  obtain ⟨-, rfl⟩ | ⟨-, hbefore⟩ := hupdate.read hupdated hupdated'
  · exact .inl rfl
  · rw [Session.updateActivity_id, hid] at hbefore
    have hold := read_back hafter (by simp [Unwritten])
      (read_back hclocks (by simp [Unwritten]) hbefore)
    rw [hold] at hfound
    exact .inr (RedisValue.session.inj (Option.some.inj hfound)).symm

/-! ### Updates -/

/-- What the next `get_session` returns after an update that has reported
success. -/
theorem UpdateRun.matches {s y : Session} {update others body : List Event}
    (hu : UpdateRun s update (.ok ())) (hupdate : Sequential (proxySystem X srv) w update w₁)
    (hothers : Sequential (proxySystem X srv) w₁ others w₂) (hno : Unwritten s.id others)
    (hf : FetchRun X s.id body (.ok y))
    (hfetch : Sequential (proxySystem X srv) w₂ (sessionEvents s.id (.ok y) body) w₃) :
    y.Matches s ↔ Timely update s ∨
      ∃ x, w.read (sessionKey s.id) = some (.session x) ∧ x.Matches s := by
  obtain ⟨x, activity, hread, rfl, -⟩ := hf.read hfetch
  have htouched : (x.updateActivity activity).Matches s ↔ x.Matches s := Iff.rfl
  obtain ⟨htimely, rfl⟩ | ⟨hlate, hbefore⟩ := hu.read hupdate (read_back hothers hno hread)
  · exact ⟨fun _ => .inl htimely, fun _ => rfl⟩
  · rw [htouched]
    constructor
    · exact fun hmatches => .inr ⟨x, hbefore, hmatches⟩
    · rintro (htimely | ⟨x', hbefore', hmatches⟩)
      · exact (hlate htimely).elim
      · rw [hbefore] at hbefore'
        obtain rfl := RedisValue.session.inj (Option.some.inj hbefore')
        exact hmatches

theorem RateRun.unwritten {key : String} {limit windowSecs : Int} {r : Except ProxyError Unit}
    (hr : RateRun key limit windowSecs h r) (id : String) : Unwritten id h := by
  cases hr with
  | failed => simp [Unwritten]
  | unset => simp [Unwritten]
  | counted opened =>
      obtain ⟨-, rfl⟩ | ⟨-, rfl⟩ := opened
      · simp [Unwritten]
      · simp [Unwritten]

theorem sessionEvents_kinds {id : String} {r : Except ProxyError Session} {body : List Event}
    (hf : FetchRun X id body r) : OfKinds [.session, .redis, .clock] (sessionEvents id r body) := by
  intro e he
  simp only [sessionEvents, List.mem_cons, List.mem_append, List.not_mem_nil, or_false] at he
  obtain rfl | he | rfl := he
  · simp [Event.kind]
  · exact (hf.kinds.mono (by simp)) e he
  · simp [Event.kind]

theorem BearerRun.claims_eq {req : Request} {claims claims' : Claims} {token : String}
    (hb : BearerRun req h (.ok claims)) (hmem : .jwtDecode token (.ok claims') ∈ h) :
    claims' = claims := by
  cases hb with
  | valid header =>
      obtain ⟨-, heq⟩ := Event.jwtDecode.inj (List.mem_singleton.mp hmem)
      exact Except.ok.inj heq

/-- A verification that answers 200 has taken the session that its token names
and ends with the update of its upgrade. -/
theorem VerifyRun.upgrades {q : Request} {claims : Claims} {verify : List Event} {o : Response}
    (hv : VerifyRun X q verify (.ok o)) (hbearer : Bearer q verify claims) :
    ∃ before body update session, verify = update ++
        (sessionEvents claims.sessionId (.ok session) body ++ before) ∧
      FetchRun X claims.sessionId body (.ok session) ∧
      UpdateRun (upgrade session) update (.ok ()) ∧ Unwritten claims.sessionId before ∧
      ∀ use n, .utcNow use n ∉ before := by
  generalize hr : (Except.ok o : Except ProxyError Response) = r at hv
  cases hv with
  | @decided rate token verdict claims' _ userId user secret r rated bearer parsed subject stored
      decision =>
      cases decision with
      | @upgraded check body update session r checked fetched written =>
          obtain rfl : r = .ok () := by
            cases r with
            | ok u => rfl
            | error e => simp [Except.map] at hr
          have hfind : OfKinds [.account] [Event.findUserById userId (.ok (some user))] := by
            simp [OfKinds, Event.kind]
          have hbefore : OfKinds [.code, .account, .token, .redis] (check ++
              ([Event.findUserById userId (.ok (some user))] ++ (token ++ rate))) := by
            apply (checked.kinds.mono (by simp)).append
            apply (hfind.mono (by simp)).append
            exact (bearer.kinds.mono (by simp)).append (rated.kinds.mono (by simp))
          have hverdict : OfKinds [.redis, .clock, .session, .code] (update ++
              (sessionEvents claims'.sessionId (.ok session) body ++ check)) := by
            apply (written.kinds.mono (by simp)).append
            exact ((sessionEvents_kinds fetched).mono (by simp)).append (checked.kinds.mono (by simp))
          obtain rfl : claims = claims' := by
            obtain ⟨token₀, hextract, hmem⟩ := hbearer
            obtain hmem | hmem := List.mem_append.mp hmem
            · exact (hverdict.not_mem (by simp [Event.kind]) hmem).elim
            obtain hmem | hmem := List.mem_append.mp (List.mem_of_ne_of_mem (by simp) hmem)
            · exact bearer.claims_eq hmem
            · exact (rated.kinds.not_mem (by simp [Event.kind]) hmem).elim
          refine ⟨check ++ ([Event.findUserById userId (.ok (some user))] ++ (token ++ rate)), body,
            update, session, by simp, fetched, written, ?_, fun _ _ => hbefore.not_mem (by simp [Event.kind])⟩
          apply (Unwritten.of_kinds checked.kinds (by decide) _).append
          apply (Unwritten.of_kinds hfind (by decide) _).append
          exact (Unwritten.of_kinds bearer.kinds (by decide) _).append (rated.unwritten _)
      | _ => simp at hr
  | _ => simp at hr

/-- What the next `get_session` returns after a verification that has answered
200, for a session that is stored under its own id. -/
theorem VerifyRun.verified {q : Request} {claims : Claims} {verify others body : List Event}
    {o : Response} {y : Session} (hv : VerifyRun X q verify (.ok o))
    (hbearer : Bearer q verify claims) (hverify : Sequential (proxySystem X srv) w verify w₁)
    (hothers : Sequential (proxySystem X srv) w₁ others w₂)
    (hno : Unwritten claims.sessionId others) (hf : FetchRun X claims.sessionId body (.ok y))
    (hfetch : Sequential (proxySystem X srv) w₂ (sessionEvents claims.sessionId (.ok y) body) w₃)
    (hkeyed : ∀ x, w.read (sessionKey claims.sessionId) = some (.session x) →
      x.id = claims.sessionId) :
    ∃ x, w.read (sessionKey claims.sessionId) = some (.session x) ∧
      (y.mfaVerified = true ↔ Timely verify x ∨ x.mfaVerified = true) := by
  obtain ⟨before, body', update, session, rfl, hf', hwritten, hunwritten, hunread⟩ :=
    hv.upgrades hbearer
  obtain ⟨wb, hfetched, hupdated⟩ := Sequential.append_iff.mp hverify
  obtain ⟨wa, hbefore, hsession⟩ := Sequential.append_iff.mp hfetched
  obtain ⟨x, activity, hread, rfl, hafter⟩ := hf'.read hsession
  have hstored := read_back hbefore hunwritten hread
  have hid := hkeyed x hstored
  refine ⟨x, hstored, ?_⟩
  obtain ⟨z, activity', hreadz, rfl, -⟩ := hf.read hfetch
  have hlast := read_back hothers hno hreadz
  -- the readings before the update are not later than its own
  have htimely : Timely update (upgrade (x.updateActivity activity)) ↔
      Timely (update ++ (sessionEvents claims.sessionId (.ok (x.updateActivity activity)) body' ++
        before)) x := by
    constructor
    · intro htimely n hmem
      obtain hmem | hmem := List.mem_append.mp hmem
      · exact htimely n hmem
      obtain hmem | hmem := List.mem_append.mp hmem
      · obtain ⟨n', hmem'⟩ := hwritten.reading
        have hle := (reading_sequential hsession hmem).2
        have hge := (reading_sequential hupdated hmem').1
        have hleft : n' + Duration.second ≤ x.expiresAt := htimely n' hmem'
        omega
      · exact (hunread _ n hmem).elim
    · exact fun htimely n hmem => htimely n (List.mem_append_left _ hmem)
  have hkey : (upgrade (x.updateActivity activity)).id = claims.sessionId := hid
  rw [← hkey] at hlast
  obtain ⟨hleft, rfl⟩ | ⟨hlate, hold⟩ := hwritten.read hupdated hlast
  · exact ⟨fun _ => .inl (htimely.mp hleft), fun _ => rfl⟩
  · rw [hkey] at hold
    have hflag : z.mfaVerified = x.mfaVerified := by
      obtain rfl | rfl := hafter z hid hold
      · rfl
      · rfl
    rw [Session.updateActivity_mfaVerified, hflag]
    constructor
    · exact .inr
    · rintro (hleft | hflag)
      · exact (hlate (htimely.mpr hleft)).elim
      · exact hflag

/-- **What a reported update shows.** One operation after another, the next
`get_session` after a successful `update_session` returns what was to be written,
up to the last activity, exactly when a whole second was left before the expiry or
the record that was there before had the same fields. So after an `mfa/verify` the
session reads as verified exactly when it was before, or a whole second was left
whenever the handler updated it. -/
theorem update_visible (X : External) (srv : ProxyServer) :
    (∀ {w w₁ w₂ w₃ : World} {s y : Session} {update others get : List Event},
      (updateSession s).Ends update (.ok ()) → Sequential (proxySystem X srv) w update w₁ →
      Sequential (proxySystem X srv) w₁ others w₂ → Unwritten s.id others →
      (getSession X s.id).Ends get (.ok y) → Sequential (proxySystem X srv) w₂ get w₃ →
      (y.Matches s ↔ Timely update s ∨
        ∃ x, w.read (sessionKey s.id) = some (.session x) ∧ x.Matches s)) ∧
    ∀ {w w₁ w₂ w₃ : World} {tr : ProxyTrace X srv} {q : Request} {claims : Claims} {o : Response}
      {y : Session} {verify others get : List Event}, Reachable w tr →
      (handleMfaVerify X q).Ends verify (.ok o) → Bearer q verify claims →
      Sequential (proxySystem X srv) w verify w₁ → Sequential (proxySystem X srv) w₁ others w₂ →
      Unwritten claims.sessionId others → (getSession X claims.sessionId).Ends get (.ok y) →
      Sequential (proxySystem X srv) w₂ get w₃ →
      ∃ x, w.read (sessionKey claims.sessionId) = some (.session x) ∧
        (y.mfaVerified = true ↔ Timely verify x ∨ x.mfaVerified = true) := by
  constructor
  · intro w w₁ w₂ w₃ s y update others get hupdate hseq hothers hno hget hfetch
    obtain ⟨body, hf, rfl⟩ := getSession_ends hget
    exact (updateSession_ends hupdate).matches hseq hothers hno hf hfetch
  · intro w w₁ w₂ w₃ tr q claims o y verify others get hrun hend hbearer hverify hothers hno hget hfetch
    obtain ⟨body, hf, rfl⟩ := getSession_ends hget
    apply (handleMfaVerify_ends hend).verified hbearer hverify hothers hno hf hfetch
    intro x hread
    obtain ⟨c, hc, hvalue⟩ := Option.map_eq_some_iff.mp hread
    obtain ⟨x', hx', hid, -⟩ := stored_origin hrun hc
    obtain rfl := RedisValue.session.inj (hvalue.symm.trans hx')
    exact hid

/-! ### Particular runs -/

theorem sequential_act {e : Event} (hseq : Sequential (proxySystem X srv) w h w₁)
    (hact : World.act X 0 e w₁ = some w₂) : Sequential (proxySystem X srv) w (e :: h) w₂ :=
  .act 0 hseq hact

/-- A live record can be fetched. -/
theorem getSession_succeeds {id : String} {x : Session}
    (hread : w.read (sessionKey id) = some (.session x)) (hlive : x.isExpired w.clock = false)
    (haccepted : 0 < x.ttl w.clock → World.expiryAccepted (asU64 (x.ttl w.clock)) = true) :
    ∃ get w₁, (getSession X id).Ends get (.ok (x.updateActivity w.clock)) ∧
      Sequential (proxySystem X srv) w get w₁ ∧ w₁.clock = w.clock ∧ ∀ e ∈ get, e.failed = false := by
  have hbody : Sequential (proxySystem X srv) w [.utcNow .sessionTtl w.clock,
      .utcNow .updateActivity w.clock, .utcNow .isExpired w.clock,
      .redisGet (sessionKey id) (.ok (some (.session x))), .getSessionCall id] w := by
    have hclock (use : ClockUse) : World.act X 0 (.utcNow use w.clock) w = some w := by
      simp [World.act, World.accept]
    have hget : World.act X 0 (.redisGet (sessionKey id) (.ok (some (.session x)))) w = some w := by
      simp [World.act, World.answer, World.accept, hread]
    have hcall : Sequential (proxySystem X srv) w [.getSessionCall id] w :=
      sequential_act .start rfl
    have hread := sequential_act hcall hget
    exact sequential_act (sequential_act (sequential_act hread (hclock .isExpired))
      (hclock .updateActivity)) (hclock .sessionTtl)
  have hends (update : List Event)
      (hupdate : (updateSession (x.updateActivity w.clock)).Ends update (.ok ())) :
      (getSession X id).Ends (sessionEvents id (.ok (x.updateActivity w.clock)) (update ++
        [Event.utcNow .updateActivity w.clock, .utcNow .isExpired w.clock,
          .redisGet (sessionKey id) (.ok (some (.session x)))])) (.ok (x.updateActivity w.clock)) := by
    have hfetch : (fetchSession X id).Ends (update ++ [Event.utcNow .updateActivity w.clock,
        .utcNow .isExpired w.clock, .redisGet (sessionKey id) (.ok (some (.session x)))])
        (.ok (x.updateActivity w.clock)) := by
      simp only [fetchSession, Handler.redisGet, call_bind, ends_call, ends_unwrap_bind]
      refine ⟨.ok (some (.session x)), update ++ [Event.utcNow .updateActivity w.clock,
        .utcNow .isExpired w.clock], by simp [Cmd.event], .inl ⟨_, rfl, ?_⟩⟩
      simp only [RedisValue.parseSession, ends_mapErr_bind, Handler.utcNow, call_bind, ret_bind, ends_call]
      refine .inl ⟨x, rfl, w.clock, update ++ [Event.utcNow .updateActivity w.clock],
        by simp [Cmd.event], ?_⟩
      rw [hlive]
      refine ⟨w.clock, update, rfl, ends_bind.mpr (.inl ⟨(), update, [], rfl, hupdate, rfl, rfl⟩)⟩
    refine ends_call.mpr ⟨(), _ ++ _, ?_, ends_bind.mpr (.inl ⟨_, _, [.getSessionReturn id _], rfl,
      ends_attempt.mpr ⟨_, rfl, hfetch⟩, (), [], rfl, rfl, rfl⟩)⟩
    rfl
  by_cases hleft : 0 < x.ttl w.clock
  · have hset : World.act X 0 (.redisSetEx (sessionKey x.id)
        (.session (x.updateActivity w.clock)) (asU64 (x.ttl w.clock)) (.ok ())) w =
        some (w.setEx (sessionKey x.id) (.session (x.updateActivity w.clock))
          (asU64 (x.ttl w.clock))) := by
      simp [World.act, World.write, haccepted hleft]
    refine ⟨_, _, hends [.redisSetEx (sessionKey x.id)
      (.session (x.updateActivity w.clock)) (asU64 (x.ttl w.clock)) (.ok ()),
      .utcNow .sessionTtl w.clock] ?_,
      sequential_act (sequential_act hbody hset) rfl, rfl, by simp [sessionEvents, Event.failed]⟩
    simp only [updateSession, Handler.utcNow, Handler.redisSetEx, call_bind, ret_bind, ends_call,
      ends_ite]
    exact ⟨w.clock, [_], rfl, .inl ⟨hleft, .ok (), [], rfl, rfl, rfl⟩⟩
  · refine ⟨_, w, hends [.utcNow .sessionTtl w.clock] ?_,
      sequential_act hbody rfl, rfl, by simp [sessionEvents, Event.failed]⟩
    simp only [updateSession, Handler.utcNow, call_bind, ret_bind, ends_call, ends_ite]
    exact ⟨w.clock, [], rfl, .inr ⟨by simpa [Session.ttl] using hleft, rfl, rfl⟩⟩

namespace Scenario

/-- A server whose sessions last a minute. -/
def brief : ProxyServer := .new { config with sessionDurationMinutes := 1 }

def briefSteps (t n : ℕ) : List (Move (proxySystem external brief)) :=
  List.replicate n (.step t 0)

def briefStart (t : ℕ) (q : Request) : Move (proxySystem external brief) := .start t q

/-- Alice logs in at second 25 and enrols; at `now` she verifies, in `n` steps. -/
def verifiesAt (now : Int) (n : ℕ) (f : World → Bool) : Bool :=
  Play.playsThen (World.reply external) (fun (_ : ProxyTrace external brief) _ => True)
    { world [alice] with clock := Duration.seconds 25 }
    (briefStart 0 (login aliceLogin) :: briefSteps 0 24 ++
      briefStart 1 (authorized "POST" "/auth/mfa/enroll" "token-0" "") :: briefSteps 1 5 ++
      [.env now])
    (fun p => p.trace.all fun x => decide (x.tid ≠ 2))
    (briefStart 2 (authorized "POST" "/auth/mfa/verify" "token-0" enrolledBody) :: briefSteps 2 n)
    (fun p seg => seg.all (fun x => decide (x.tid = 2) && Entry.succeeds x) &&
      serves 2 .mfaVerify "token-0" (scriptUuid 2).text p.trace &&
      (p.trace.any fun x => match x.item with
        | .done o => decide (x.tid = 2 ∧ o = verifyAnswer)
        | _ => false) && f p.world)

theorem exists_verification {now : Int} {n : ℕ} {f : World → Bool} (h : verifiesAt now n f = true) :
    ∃ (w w₁ : World) (tr : ProxyTrace external brief) (q : Request) (claims : Claims)
      (verify : List Event), Reachable w tr ∧
      (handleMfaVerify external q).Ends verify (.ok verifyAnswer) ∧ Bearer q verify claims ∧
      claims.sessionId = (scriptUuid 2).text ∧
      Sequential (proxySystem external brief) w verify w₁ ∧ (∀ e ∈ verify, e.failed = false) ∧
      f w₁ = true := by
  have hinit : InitialWorld { world [alice] with clock := Duration.seconds 25 } := by
    constructor <;> simp [world]
  obtain ⟨p, p', seg, -, hbefore, htrace, hrun, hcheck⟩ := Play.of_playsThen hinit h
  simp only [Bool.and_eq_true, List.all_eq_true, decide_eq_true_eq] at hbefore hcheck
  obtain ⟨⟨⟨halone, hserves⟩, hdone⟩, hf⟩ := hcheck
  obtain ⟨q, claims, hq, hroute, hbearer, hid⟩ := exists_bearer hserves
  obtain ⟨⟨t, w₁, item⟩, hmem, hitem⟩ := List.any_eq_true.mp hdone
  split at hitem
  swap
  · simp at hitem
  rename_i o heq
  obtain rfl : item = .done o := heq
  obtain ⟨rfl, rfl⟩ := of_decide_eq_true hitem
  obtain ⟨r, hend, ho⟩ := answered_own hrun hq hmem
  rw [htrace] at hrun
  obtain ⟨w, hreach, hseq⟩ := hrun.sequential
  have hown : own 2 p'.trace = performed seg := by
    rw [htrace, own_append, own_eq_nil hbefore, List.append_nil, own_eq_performed fun x hx => (halone x hx).1]
  have hok : ∀ e ∈ performed seg, e.failed = false := by
    intro e he
    obtain ⟨t, w, hmem⟩ := mem_performed.mp he
    simpa [Entry.succeeds] using (halone _ hmem).2
  rw [hown] at hend hbearer
  rw [hroute] at hend
  obtain ⟨o, rfl⟩ := respond_ok (r := r) (by rw [← ho]; rfl)
  obtain rfl : verifyAnswer = o := ho
  exact ⟨w, p'.world, p.trace, q, claims, performed seg, hreach, hend, hbearer, hid, hseq,
    hok, hf⟩

/-- The session can be read, is live, has its flag as given and `left` whole
seconds left. -/
def readable (flag : Bool) (left : Int) (w : World) : Bool :=
  match w.read (sessionKey (scriptUuid 2).text) with
  | some (.session x) => decide (x.mfaVerified = flag) && !x.isExpired w.clock &&
      decide (x.ttl w.clock = left)
  | _ => false

theorem readable_inv {flag : Bool} {left : Int} {w : World} (h : readable flag left w = true) :
    ∃ x, w.read (sessionKey (scriptUuid 2).text) = some (.session x) ∧ x.mfaVerified = flag ∧
      x.isExpired w.clock = false ∧ x.ttl w.clock = left := by
  unfold readable at h
  split at h
  · rename_i x hread
    simp only [Bool.and_eq_true, Bool.not_eq_true', decide_eq_true_eq] at h
    obtain ⟨⟨hflag, hlive⟩, hleft⟩ := h
    exact ⟨x, hread, hflag, hlive, hleft⟩
  · simp at h

/-- Half a second before her session expires, Alice's code is accepted and the
session stays unverified. -/
theorem update_unseen : ∃ (w w₁ w₂ : World) (tr : ProxyTrace external brief) (q : Request)
    (claims : Claims) (y : Session) (verify get : List Event), Reachable w tr ∧
      (handleMfaVerify external q).Ends verify (.ok verifyAnswer) ∧ Bearer q verify claims ∧
      Sequential (proxySystem external brief) w verify w₁ ∧
      (getSession external claims.sessionId).Ends get (.ok y) ∧
      Sequential (proxySystem external brief) w₁ get w₂ ∧
      (∀ e ∈ get ++ verify, e.failed = false) ∧ w₂.clock ≤ y.expiresAt ∧
      y.mfaVerified = false := by
  have hplay : verifiesAt 84500000000 13 (readable false 0) = true := by decide +kernel
  obtain ⟨w, w₁, tr, q, claims, verify, hrun, hend, hbearer, hid, hseq, hok, hf⟩ :=
    exists_verification hplay
  obtain ⟨x, hread, hflag, hlive, hleft⟩ := readable_inv hf
  rw [← hid] at hread
  obtain ⟨get, w₂, hget, hfetch, hclock, hok'⟩ :=
    getSession_succeeds (X := external) hread hlive (by omega)
  refine ⟨w, w₁, w₂, tr, q, claims, _, verify, get, hrun, hend, hbearer, hseq, hget, hfetch, ?_, ?_,
    hflag⟩
  · exact fun e he => (List.mem_append.mp he).elim (hok' e) (hok e)
  · rw [hclock]
    simpa [Session.isExpired] using hlive

/-- At second 60 the verification shows. -/
theorem update_visible_run : ∃ (w w₁ w₂ : World) (q : Request) (claims : Claims) (x y : Session)
    (verify get : List Event), (handleMfaVerify external q).Ends verify (.ok verifyAnswer) ∧
      Sequential (proxySystem external brief) w verify w₁ ∧
      (getSession external claims.sessionId).Ends get (.ok y) ∧
      Sequential (proxySystem external brief) w₁ get w₂ ∧ y.mfaVerified = true ∧
      w.read (sessionKey claims.sessionId) = some (.session x) ∧
      (Timely verify x ∨ x.mfaVerified = true) := by
  have hplay : verifiesAt 60000000000 15 (readable true 25) = true := by decide +kernel
  obtain ⟨w, w₁, tr, q, claims, verify, hrun, hend, hbearer, hid, hseq, -, hf⟩ :=
    exists_verification hplay
  obtain ⟨x, hread, hflag, hlive, hleft⟩ := readable_inv hf
  rw [← hid] at hread
  obtain ⟨get, w₂, hget, hfetch, -⟩ := getSession_succeeds (X := external) hread hlive
    (fun _ => by rw [hleft]; decide)
  obtain ⟨x', hbefore, hiff⟩ := (update_visible external brief).2 hrun hend hbearer hseq .start
    (fun _ _ _ => List.not_mem_nil) hget hfetch
  exact ⟨w, w₁, w₂, q, claims, x', _, verify, get, hend, hseq, hget, hfetch, hflag, hbefore,
    hiff.mp hflag⟩

end Scenario

end ZeroTrustProxy
