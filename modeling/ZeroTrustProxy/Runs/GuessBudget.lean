import ZeroTrustProxy.Concurrent.Projection
import ZeroTrustProxy.Contract.Alphabet
import ZeroTrustProxy.Runs.RateLimit
import ZeroTrustProxy.Runs.Audited

/-!
How many guesses an address has.

Logins, registrations and the verification of codes go through `check_rate_limit`
before they do anything else, and nothing else touches its counters. So the calls of
`check_rate_limit` in a run of the proxy are a run of the component that
`Runs.RateLimit` is about, and its bound holds of the proxy: an address gets past the
limit twice ten times at most in any five minutes, with whatever it sends and however
its requests interleave with each other and with those of everybody else.
-/

namespace ZeroTrustProxy

open Concurrent Program Handler

variable {X : External} {srv : ProxyServer} {w w' w₁ : World} {tr : ProxyTrace X srv}
  {q : Request} {h : List Event} {t : ℕ} {c : RateCall}

/-! ### The handlers with a limit -/

/-- The bucket a request is counted in. -/
def Route.bucket : Route → Option Bucket
  | .login => some .login
  | .register => some .register
  | .mfaVerify => some .mfaVerify
  | _ => none

/-- The groups of all the calls that a handler makes besides those of the limit. -/
def uncounted : List CmdGroup :=
  [.session, .account, .device, .audit, .upstream, .panic, .opening, .signing, .ambient]

theorem limited {b : Bucket} (hb : q.route.bucket = some b) :
    Limited uncounted b.name q (handleRoute X srv q q.route) := by
  cases hroute : q.route <;> rw [hroute] at hb
  case login =>
    obtain rfl := Option.some.inj hb
    exact handleLogin_limited.mono (by decide)
  case register =>
    obtain rfl := Option.some.inj hb
    exact handleRegister_limited.mono (by decide)
  case mfaVerify =>
    obtain rfl := Option.some.inj hb
    exact handleMfaVerify_limited.mono (by decide)
  all_goals simp [Route.bucket] at hb

/-- The other handlers do not call the counters. -/
theorem unlimited (hb : q.route.bucket = none) :
    Confined uncounted (handleRoute X srv q q.route) := by
  cases hroute : q.route <;> rw [hroute] at hb <;> try simp [Route.bucket] at hb
  case health => exact uses_ret
  case metrics => exact uses_ret
  case mfaEnroll => exact handleMfaEnroll_confined.mono (by decide)
  case logout => exact handleLogout_confined.mono (by decide)
  case logoutAll => exact handleLogoutAll_confined.mono (by decide)
  case proxied =>
    exact uses_bind (authorize_confined.mono (by decide))
      fun _ => forwardUpstream_confined.mono (by decide)

/-- A counter is called by `check_rate_limit`, at the beginning of a handler. -/
theorem counter_calls {cmd : Cmd} (hcalls : (handleRequest X srv q).Calls h cmd)
    (hcmd : cmd.group = .counter) : ∃ b, q.route.bucket = some b ∧
      (checkRateLimit q.remoteIp b.name 10 300).Calls h cmd := by
  have hroute := handleRequest_calls hcalls
  cases hb : q.route.bucket with
  | none =>
      have hgroup := (unlimited hb).elim hroute
      simp [hcmd, uncounted] at hgroup
  | some b =>
      refine ⟨b, rfl, ?_⟩
      obtain ⟨rest, hsplit, hrest⟩ : Limited uncounted b.name q (handleRoute X srv q q.route) := limited hb
      rw [hsplit] at hroute
      obtain hcheck | ⟨_, h₁, h₂, -, -, hlater⟩ := calls_bind.mp hroute
      · exact hcheck
      · have hgroup := (hrest _).elim hlater
        simp [hcmd, uncounted] at hgroup

/-- What comes after the limit comes after a count within it. -/
theorem past_limit {cmd : Cmd} (hcalls : (handleRequest X srv q).Calls h cmd)
    (hcmd : cmd.group ≠ .counter) {b : Bucket} (hb : q.route.bucket = some b) :
    ∃ n ≤ 10, .redisIncr (rateLimitKey b.name q.remoteIp) (.ok n) ∈ h := by
  have hroute := handleRequest_calls hcalls
  obtain ⟨rest, hsplit, -⟩ : Limited uncounted b.name q (handleRoute X srv q q.route) := limited hb
  rw [hsplit] at hroute
  obtain hcheck | ⟨_, h₁, h₂, rfl, hended, -⟩ := calls_bind.mp hroute
  · have hgroup := checkRateLimit_confined.elim hcheck
    exact (hcmd (List.mem_singleton.mp hgroup)).elim
  · have hrated := checkRateLimit_ends hended
    generalize hr : (Except.ok () : Except ProxyError Unit) = r at hrated
    cases hrated with
    | failed => simp at hr
    | unset => simp at hr
    | @counted n window opened =>
        split at hr
        · simp at hr
        · exact ⟨n, by omega, by simp⟩

/-! ### The counters as a component -/

/-- The event is a command on the counter of `c`. -/
def touches (c : RateCall) : Event → Bool
  | .redisIncr key _ => decide (key = c.key)
  | .redisExpire key _ _ => decide (key = c.key)
  | _ => false

/-- The worlds agree on the counter of `c`. -/
structure SameCounter (c : RateCall) (w w' : World) : Prop where
  clock : w'.clock = w.clock
  counter : w'.redis.lookup c.key = w.redis.lookup c.key

namespace SameCounter

theorem refl (c : RateCall) (w : World) : SameCounter c w w := ⟨rfl, rfl⟩

theorem incr (hs : SameCounter c w w') {n : Int} (hincr : w.incr c.key = some (n, w₁)) :
    ∃ w₁', w'.incr c.key = some (n, w₁') ∧ SameCounter c w₁ w₁' := by
  unfold World.incr at hincr ⊢
  rw [hs.counter]
  split at hincr
  · obtain ⟨rfl, rfl⟩ := Prod.mk.inj (Option.some.inj hincr)
    refine ⟨_, rfl, hs.clock, ?_⟩
    rw [AList.lookup_insert, AList.lookup_insert]
  · obtain ⟨hle, heq⟩ := Option.ite_none_right_eq_some.mp hincr
    obtain ⟨rfl, rfl⟩ := Prod.mk.inj (Option.some.inj heq)
    refine ⟨_, if_pos hle, hs.clock, ?_⟩
    rw [AList.lookup_insert, AList.lookup_insert]
  · simp at hincr

theorem expire (hs : SameCounter c w w') (secs : Int) :
    SameCounter c (w.expire c.key secs) (w'.expire c.key secs) := by
  unfold World.expire
  rw [hs.counter]
  cases w.redis.lookup c.key with
  | none => exact hs
  | some cell =>
      by_cases hpos : 0 < secs
      · refine ⟨by simp [hpos, hs.clock], ?_⟩
        simp [hpos, hs.clock]
      · refine ⟨by simp [hpos, World.del, hs.clock], ?_⟩
        simp [hpos, World.del]

theorem advance (hs : SameCounter c w w') (m : Int) :
    SameCounter c (w.advance m) (w'.advance m) := by
  refine ⟨rfl, ?_⟩
  show (w'.redis.advance m).lookup c.key = (w.redis.advance m).lookup c.key
  rw [ExpiringStore.lookup_advance, ExpiringStore.lookup_advance, hs.counter]

/-- A command on the counter does the same in both worlds. -/
theorem act (hs : SameCounter c w w') {e : Event} (he : touches c e = true)
    (hact : World.act X t e w = some w₁) :
    ∃ w₁', World.act X t e w' = some w₁' ∧ SameCounter c w₁ w₁' := by
  cases e with
  | redisIncr key r =>
      obtain rfl := of_decide_eq_true he
      cases r with
      | ok n =>
          obtain ⟨w₁', hincr, hs'⟩ := hs.incr (World.incr_reply hact)
          refine ⟨w₁', ?_, hs'⟩
          simp [World.act, hincr, World.accept]
      | error f =>
          refine ⟨_, rfl, ?_⟩
          obtain rfl := Option.some.inj hact
          cases hf : f.executed with
          | false => simpa using hs
          | true =>
              cases hincr : w.incr c.key with
              | some p =>
                  obtain ⟨w₁', hincr', hs'⟩ := hs.incr hincr
                  simpa [hincr'] using hs'
              | none =>
                  cases hincr' : w'.incr c.key with
                  | none => simpa using hs
                  | some p =>
                      -- the count cannot be made in one of the worlds only
                      have hback : SameCounter c w' w := ⟨hs.clock.symm, hs.counter.symm⟩
                      obtain ⟨_, hsome, -⟩ := hback.incr hincr'
                      simp [hincr] at hsome
  | redisExpire key secs r =>
      obtain rfl := of_decide_eq_true he
      cases r with
      | ok u =>
          obtain rfl := Option.some.inj hact
          exact ⟨_, rfl, hs.expire secs⟩
      | error f =>
          obtain rfl := Option.some.inj hact
          refine ⟨_, rfl, ?_⟩
          cases f.executed with
          | false => exact hs
          | true => exact hs.expire secs
  | _ => simp [touches] at he

/-- The other commands leave the counter. -/
theorem skip (hs : SameCounter c w w') {e : Event} (he : touches c e = false)
    (hL : Licence X srv q h e.command) (hact : World.act X t e w = some w₁) :
    SameCounter c w₁ w' := by
  refine ⟨hs.clock.trans (World.act_clock hact).symm, hs.counter.trans ?_⟩
  have hsession (id : String) : c.key ≠ sessionKey id := rateLimitKey_ne_sessionKey _ _ id
  obtain rfl | hc := World.act_cases hact
  · rfl
  cases hc with
  | upsert hstored => rw [World.upsertDevice_frame hstored]
  | redis hr =>
      cases hr with
      | setEx accepted =>
          obtain ⟨x, rfl, -, -⟩ := hL
          exact (AList.lookup_insert_ne (hsession _)).symm
      | @del _ key r =>
          obtain ⟨id, rfl⟩ : ∃ id, key = sessionKey id := by
            cases (hL : SessionDelete q h key) with
            | expired now bearer expiry => exact ⟨_, rfl⟩
            | logout route bearer => exact ⟨_, rfl⟩
            | logoutAll key route bearer read owner => exact ⟨_, rfl⟩
          exact (AList.lookup_erase_ne (hsession id)).symm
      | incr cell =>
          have hne := of_decide_eq_false he
          exact (AList.lookup_insert_ne (Ne.symm hne)).symm
      | expire cell =>
          have hne := of_decide_eq_false he
          exact (AList.lookup_insert_ne (Ne.symm hne)).symm
      | expireNow =>
          have hne := of_decide_eq_false he
          exact (AList.lookup_erase_ne (Ne.symm hne)).symm
      | _ => rfl
  | _ => rfl

end SameCounter

/-- The rate limits of the proxy. -/
abbrev limits (X : External) : System proxyInterface :=
  rateSystem X (fun _ => 10) (fun _ => 300)

instance : DecidableEq Bucket := fun _ _ => decidable_of_iff _ Bucket.ext_iff.symm

/-- What a request asks of the counter of `c`. -/
def counterRequest (c : RateCall) (q : Request) : Option RateCall :=
  if q.route.bucket = some c.bucket ∧ q.remoteIp = c.ip then some c else none

/-- A command on the counter of `c` is one of a call of `check_rate_limit` for `c`. -/
theorem counter_head {cmd : Cmd} {r : cmd.Resp} (hcalls : (handleRequest X srv q).Calls h cmd)
    (hseen : touches c (cmd.event r) = true) : counterRequest c q = some c ∧
      (checkRateLimit c.ip c.bucket.name 10 300).Calls (h.filter (touches c)) cmd := by
  have hkey : cmd = .redisIncr c.key ∨ ∃ secs, cmd = .redisExpire c.key secs := by
    cases cmd with
    | redisIncr key =>
        obtain rfl := of_decide_eq_true hseen
        exact .inl rfl
    | redisExpire key secs =>
        obtain rfl := of_decide_eq_true hseen
        exact .inr ⟨secs, rfl⟩
    | panic => exact r.elim
    | _ => simp [Cmd.event, touches] at hseen
  have hgroup : cmd.group = .counter := by
    obtain rfl | ⟨secs, rfl⟩ := hkey
    · rfl
    · rfl
  obtain ⟨b, hb, hcheck⟩ := counter_calls hcalls hgroup
  obtain ⟨next, hpath⟩ := exists_path hcheck
  have hL : RateLicence (fun _ => 300) ⟨q.remoteIp, b⟩ h cmd :=
    (hpath.obeys (rate_contract X (fun _ => 10) (fun _ => 300) ⟨q.remoteIp, b⟩)).1
  have hsame : c = ⟨q.remoteIp, b⟩ ∧ h.filter (touches c) = h := by
    obtain rfl | ⟨secs, rfl⟩ := hkey
    · obtain ⟨heq, rfl⟩ := hL
      exact ⟨RateCall.key_inj heq, rfl⟩
    · obtain ⟨heq, -, rfl⟩ := hL
      obtain rfl := RateCall.key_inj heq
      exact ⟨rfl, by simp [touches]⟩
  obtain ⟨rfl, hfilter⟩ := hsame
  rw [hfilter]
  exact ⟨if_pos ⟨hb, rfl⟩, hcheck⟩

/-- The counter of `c` is a component of the proxy. -/
def counterProjection (X : External) (srv : ProxyServer) (c : RateCall) :
    Projection (proxySystem X srv) (limits X) where
  sees := touches c
  request := counterRequest c
  rel := SameCounter c
  init {w} hinit := by
    have hempty : w.redis = ∅ := hinit.redis
    exact ⟨w, fun _ => by simp [hempty], .refl c w⟩
  env {m w w₁ w'} hrel henv := by
    obtain ⟨hle, rfl⟩ : w.clock ≤ m ∧ w.advance m = w₁ := by simpa using henv
    have hle' : w'.clock ≤ m := hrel.clock ▸ hle
    exact ⟨m, w'.advance m, if_pos hle', hrel.advance m⟩
  head {q h cmd next} r hpath hseen := by
    have hcalls : (handleRequest X srv q).Calls ([] ++ h) cmd := hpath.calls (.inl ⟨rfl, rfl⟩)
    obtain ⟨hrequest, hcheck⟩ := counter_head hcalls hseen
    obtain ⟨next', hpath'⟩ := exists_path hcheck
    exact ⟨c, next', hrequest, hpath'⟩
  act hrel he hact := hrel.act he hact
  skip {t q h cmd next w w₁ w'} r hrel hpath hseen hact := by
    have hL : Licence X srv q h cmd := (hpath.obeys (proxy_contract X srv q)).1
    rw [← Cmd.command_event cmd r] at hL
    exact hrel.skip hseen hL hact

/-! ### The budget -/

/-- No command on the counter of `c` fails. -/
def CounterHolds (c : RateCall) (tr : ProxyTrace X srv) : Prop :=
  ∀ y ∈ tr, ∀ e, y.item = .act e → touches c e = true → e.failed = false

/-- Thread `t` serves a request that is limited by `c`, and has counted it in the five
minutes from `a` on. -/
structure CountedFrom (c : RateCall) (a : Int) (tr : ProxyTrace X srv) (t : ℕ) : Prop where
  started : ∃ q, Started t q tr ∧ q.route.bucket = some c.bucket ∧ q.remoteIp = c.ip
  counted : ∃ w₁ r, ⟨t, w₁, .act (.redisIncr c.key r)⟩ ∈ tr ∧ a ≤ w₁.clock ∧
    w₁.clock ≤ a + Duration.seconds 300

/-- Thread `t` has got past its limit: it has called something else. -/
def PastLimit (tr : ProxyTrace X srv) (t : ℕ) : Prop :=
  ∃ e ∈ own t tr, e.command.group ≠ .counter

/-- The entry counts for `c`, within the limit and in the five minutes from `a` on. -/
def admitsFrom (c : RateCall) (a : Int) (y : Entry (proxySystem X srv)) : Bool :=
  match y.item with
  | .act (.redisIncr key (.ok n)) => decide (key = c.key ∧ n ≤ 10) &&
      decide (a ≤ y.pre.clock ∧ y.pre.clock ≤ a + Duration.seconds 300)
  | _ => false

theorem admitsFrom_seen {a : Int} {y : Entry (proxySystem X srv)} (hy : admitsFrom c a y = true) :
    ∃ n ≤ 10, y.item = .act (.redisIncr c.key (.ok n)) ∧ a ≤ y.pre.clock ∧
      y.pre.clock ≤ a + Duration.seconds 300 := by
  unfold admitsFrom at hy
  split at hy
  · rename_i key n heq
    obtain ⟨hcount, hclock⟩ := Bool.and_eq_true_iff.mp hy
    obtain ⟨rfl, hn⟩ := of_decide_eq_true hcount
    obtain ⟨hlo, hhi⟩ := of_decide_eq_true hclock
    exact ⟨n, hn, heq, hlo, hhi⟩
  · simp at hy

/-- Threads that have an entry each are no more than the entries. -/
theorem length_le_countP {ts : List ℕ} (hnodup : ts.Nodup) {f : Entry (proxySystem X srv) → Bool}
    (hts : ∀ t ∈ ts, ∃ y ∈ tr, y.tid = t ∧ f y = true) : ts.length ≤ tr.countP f := by
  have hsub : ts ⊆ (tr.filter f).map Entry.tid := by
    intro t ht
    obtain ⟨y, hy, htid, hf⟩ := hts t ht
    exact List.mem_map.mpr ⟨y, List.mem_filter.mpr ⟨hy, hf⟩, htid⟩
  have hle := (List.subperm_of_subset hnodup hsub).length_le
  rwa [List.length_map, ← List.countP_eq_length_filter] at hle

/-- A request that has got past its limit has counted to ten at most. -/
theorem PastLimit.counted (hrun : Reachable w tr) (hp : PastLimit tr t) (hq : Started t q tr)
    {b : Bucket} (hb : q.route.bucket = some b) :
    ∃ n ≤ 10, .redisIncr (rateLimitKey b.name q.remoteIp) (.ok n) ∈ own t tr := by
  obtain ⟨e, he, hgroup⟩ := hp
  obtain ⟨w₁, hentry⟩ := mem_own.mp he
  obtain ⟨post, pre, w₂, rfl, -, -, hen⟩ := hrun.entry_of_mem hentry
  have hsuf : pre <:+ post ++ (⟨t, w₁, .act e⟩ : Entry (proxySystem X srv)) :: pre :=
    (List.suffix_cons _ _).trans (List.suffix_append _ _)
  cases hen with
  | @act _ q' _ _ cmd next r hq' hpath hact =>
      obtain rfl := hrun.started_unique hq (hq'.mono hsuf.subset)
      rw [Cmd.command_event] at hgroup
      have hcalls : (handleRequest X srv q).Calls ([] ++ own t pre) cmd :=
        hpath.calls (.inl ⟨rfl, rfl⟩)
      obtain ⟨n, hn, hmem⟩ := past_limit hcalls hgroup hb
      exact ⟨n, hn, (own_suffix hsuf t).subset hmem⟩

/-- **An address has twenty guesses in any five minutes.** Of the logins from an
address that count in an interval of five minutes at most twenty get past the limit,
and so it is with its registrations and with its verifications of codes, however many
it sends and whatever else goes on. -/
theorem guess_budget (hrun : Reachable w tr) (hholds : CounterHolds c tr) (a : Int) {ts : List ℕ}
    (hnodup : ts.Nodup) (hts : ∀ t ∈ ts, CountedFrom c a tr t ∧ PastLimit tr t) :
    ts.length ≤ 20 := by
  have hheld : Run (fun _ x => ∀ e : Event, x.item = .act e → touches c e = true →
      e.failed = false) w tr :=
    hrun.located.mono fun pre x hx => hholds x (hx.2.subset List.mem_cons_self)
  obtain ⟨w', tr', hlimits, -, hproj⟩ : ∃ w' tr', Run NoFailure w' tr' ∧ SameCounter c w w' ∧
      Projects (counterProjection X srv c) tr tr' := by
    refine hheld.projects (counterProjection X srv c) (fun _ _ _ _ => nofun) ?_
    rintro _ _ _ e _ _ hA hseen _ ⟨⟩
    exact hA e rfl hseen
  have hbound := admitted_in_window (c := c) hlimits (by decide) (by decide) a
  have hcount : tr.countP (admitsFrom c a) ≤ tr'.countP fun y => admits c y && inWindow c a y := by
    refine hproj.countP_le (fun y hy => ?_) fun {t w w' e} hrel hy => ?_
    · obtain ⟨n, -, heq, -⟩ := admitsFrom_seen hy
      exact ⟨_, heq, by simp [counterProjection, touches]⟩
    · obtain ⟨n, hn, heq, hlo, hhi⟩ := admitsFrom_seen hy
      obtain rfl := Item.act.inj heq
      have hclock : w'.clock = w.clock := hrel.clock
      simp [admits, inWindow, hn, hclock, hlo, hhi]
  have hthreads : ts.length ≤ tr.countP (admitsFrom c a) := by
    refine length_le_countP hnodup fun t ht => ?_
    obtain ⟨⟨⟨q, hq, hb, hip⟩, w₁, r, hmem, hlo, hhi⟩, hpast⟩ := hts t ht
    obtain ⟨n, hn, hcounted⟩ := hpast.counted hrun hq hb
    rw [hip] at hcounted
    -- a request counts once
    have hseen {r : Except Fault Int} (hown : .redisIncr c.key r ∈ own t tr) :
        [.redisIncr c.key r] <:+ own t tr' := by
      refine counts_once hlimits ?_
      rw [hproj.own]
      exact List.mem_filter.mpr ⟨hown, by simp [counterProjection, touches]⟩
    have hfirst := hseen (mem_own.mpr ⟨w₁, hmem⟩)
    have heq := (List.suffix_of_suffix_length_le hfirst (hseen hcounted) le_rfl).eq_of_length rfl
    obtain rfl : r = .ok n := by simpa using heq
    exact ⟨_, hmem, rfl, by simp [admitsFrom, hn, hlo, hhi]⟩
  omega

namespace Scenario

/-- Thread `t` serves a login from home, has counted it since `a` and has gone on. -/
def guessedFrom (a : Int) (tr : ProxyTrace external server) (t : ℕ) : Bool :=
  (tr.any fun y => decide (y.tid = t) && y.item.isStart fun (q : Request) =>
      decide (q.route = .login ∧ q.remoteIp = home)) &&
    (tr.any fun y => decide (y.tid = t) && admitsFrom loginCall a y) &&
    (own t tr).any fun e => decide (e.command.group ≠ .counter)

theorem guesses_counted {a : Int} {tr : ProxyTrace external server} {t : ℕ}
    (h : guessedFrom a tr t = true) : CountedFrom loginCall a tr t ∧ PastLimit tr t := by
  simp only [guessedFrom, Bool.and_eq_true, List.any_eq_true] at h
  obtain ⟨⟨⟨y, hy, htid, hstart⟩, z, hz, htid', hadmits⟩, e, he, hgroup⟩ := h
  obtain ⟨q, hitem, hq⟩ := Item.isStart_eq hstart
  obtain ⟨hroute, hip⟩ := of_decide_eq_true hq
  obtain ⟨n, -, hcount, hlo, hhi⟩ := admitsFrom_seen hadmits
  refine ⟨⟨⟨q, ⟨y.pre, ?_⟩, by rw [hroute]; rfl, hip⟩, z.pre, .ok n, ?_, hlo, hhi⟩, e, he,
    of_decide_eq_true hgroup⟩
  · rw [← of_decide_eq_true htid, ← hitem]
    exact hy
  · rw [← of_decide_eq_true htid', ← hcount]
    exact hz

/-- Alice and Bob log in at once, from the same address. -/
theorem guess_budget_run : ∃ (w : World) (tr : ProxyTrace external server), Reachable w tr ∧
    CounterHolds loginCall tr ∧ (∀ t ∈ [0, 1], CountedFrom loginCall (Duration.seconds 59) tr t ∧
      PastLimit tr t) ∧ [0, 1].length ≤ 20 := by
  have hplay : plays (fun _ _ => True) [alice, bob]
      (.start 0 (login aliceLogin) :: .start 1 (login bobLogin) :: steps 0 1 ++ steps 1 2 ++
        steps 0 2)
      (fun p => (p.trace.all fun y =>
          !y.item.isAct fun (e : Event) => touches loginCall e && e.failed) &&
        [0, 1].all fun t => guessedFrom (Duration.seconds 59) p.trace t) = true := by decide +kernel
  obtain ⟨p, hrun, hcheck⟩ := run_of_plays (world_initial (by decide) (by decide) (by decide)) hplay
  obtain ⟨hgood, hguesses⟩ := Bool.and_eq_true_iff.mp hcheck
  have hholds : CounterHolds loginCall p.trace := by
    intro y hy e hitem htouches
    have hone := List.all_eq_true.mp hgood y hy
    simpa [hitem, Item.isAct, htouches] using hone
  have hts : ∀ t ∈ [0, 1], CountedFrom loginCall (Duration.seconds 59) p.trace t ∧
      PastLimit p.trace t :=
    fun t ht => guesses_counted (List.all_eq_true.mp hguesses t ht)
  exact ⟨p.world, p.trace, hrun, hholds, hts, guess_budget hrun hholds _ (by decide) hts⟩

end Scenario

end ZeroTrustProxy
