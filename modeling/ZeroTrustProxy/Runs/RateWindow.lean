import ZeroTrustProxy.Contract.LoginExits
import ZeroTrustProxy.Runs.RateLimit

/-!
When a rate-limit window ends.

Nothing but the call that counts to one ever gives the counter a deadline, and
it does so with a second command. If that command does not take effect, or is
never sent, the counter stays for good. The runs below are those in which
nothing goes wrong between the two commands of the call that creates the
counter; any other command may fail.
-/

namespace ZeroTrustProxy

open Concurrent Handler Program

variable {X : External} {limit window : Bucket → Int} {c : RateCall} {w : World}
  {tr : RateTrace X limit window}

/-- An INCR that creates the counter of `c` is answered, and an EXPIRE of it
takes effect, answered or not. -/
def startsWindow (c : RateCall) (x : Entry (rateSystem X limit window)) : Bool :=
  match x.item with
  | .act (.redisIncr key (.error f)) =>
      decide (key = c.key → f.executed = true → (x.pre.redis.lookup c.key).isSome = true)
  | .act (.redisExpire key _ (.error f)) => decide (key = c.key → f.executed = true)
  | _ => true

/-- The assumption on the steps of a run. -/
def WindowStarts (c : RateCall) (_ : RateTrace X limit window)
    (x : Entry (rateSystem X limit window)) : Prop := startsWindow c x = true

instance (c : RateCall) (tr : RateTrace X limit window) (x : Entry (rateSystem X limit window)) :
    Decidable (WindowStarts c tr x) := inferInstanceAs (Decidable (startsWindow c x = true))

/-- Thread `t` has counted to one for `c` and not gone on. -/
def Between (c : RateCall) (t : ℕ) (tr : RateTrace X limit window) : Prop :=
  own t tr = [.redisIncr c.key (.ok 1)]

/-! ### One step -/

/-- Where a counter of `c` comes from that is there after a step: it has just
been created, it was there with the same deadline, or its window has just been
set. The step is made by a thread with the history `h`. -/
inductive CounterFrom (window : Bucket → Int) (c : RateCall) (h : List Event) (w : World)
    (e : Event) (cell : Cell RedisValue) : Prop
  | created (first : e = .redisIncr c.key (.ok 1)) (fresh : h = []) (unset : cell.deadline = none)
  | kept (before : Cell RedisValue) (there : w.redis.lookup c.key = some before)
      (same : cell.deadline = before.deadline) (other : h ≠ [.redisIncr c.key (.ok 1)])
  | opened (positive : 0 < window c.bucket)
      (set : cell.deadline = some (w.clock + Duration.seconds (window c.bucket)))

theorem counter_from {c' : RateCall} {h : List Event} {t : ℕ} {e : Event} {w' : World}
    {cell : Cell RedisValue} (hL : RateLicence window c' h e.command)
    (hact : World.act X t e w = some w')
    (hA : startsWindow c (⟨t, w, .act e⟩ : Entry (rateSystem X limit window)) = true)
    (hcell : w'.redis.lookup c.key = some cell) : CounterFrom window c h w e cell := by
  cases e with
  | redisIncr key r =>
      obtain ⟨rfl, rfl⟩ : key = c'.key ∧ h = [] := hL
      obtain rfl | ⟨n, hcount⟩ := World.incr_cases hact
      · exact .kept cell hcell rfl (by simp)
      obtain ⟨habsent, rfl, rfl⟩ | ⟨d, hbefore, rfl⟩ := World.incr_eq_some hcount
      · by_cases hkey : c.key = c'.key
        · -- a reply that is lost would leave nobody to set the window
          cases r with
          | ok m =>
              have hreply := World.incr_reply hact
              rw [hcount] at hreply
              obtain rfl := (Prod.mk.inj (Option.some.inj hreply)).1
              rw [hkey, AList.lookup_insert] at hcell
              exact .created (by rw [hkey]) rfl (by rw [← Option.some.inj hcell])
          | error f =>
              have hlost : (if f.executed then ((w.incr c'.key).map Prod.snd).getD w else w) = _ :=
                Option.some.inj hact
              cases hexecuted : f.executed with
              | true =>
                  have hpresent := of_decide_eq_true hA hkey.symm hexecuted
                  rw [hkey] at hpresent
                  simp [habsent] at hpresent
              | false =>
                  rw [hexecuted, if_neg Bool.false_ne_true] at hlost
                  rw [← hlost, hkey, habsent] at hcell
                  simp at hcell
        · exact .kept cell ((AList.lookup_insert_ne hkey).symm.trans hcell) rfl (by simp)
      · by_cases hkey : c.key = c'.key
        · rw [hkey, AList.lookup_insert] at hcell
          obtain rfl := Option.some.inj hcell
          exact .kept ⟨.int (n - 1), d⟩ (hkey ▸ hbefore) rfl (by simp)
        · exact .kept cell ((AList.lookup_insert_ne hkey).symm.trans hcell) rfl (by simp)
  | redisExpire key secs r =>
      obtain ⟨rfl, rfl, rfl⟩ :
        key = c'.key ∧ secs = window c'.bucket ∧ h = [.redisIncr c'.key (.ok 1)] := hL
      have hset : w.expire c'.key (window c'.bucket) = w' ∨ c.key ≠ c'.key ∧ w' = w := by
        obtain ⟨rfl, f, rfl⟩ | hset := World.write_eq_some hact
        · by_cases hkey : c.key = c'.key
          · -- a reply that is lost leaves the window set all the same
            have hexecuted := of_decide_eq_true hA hkey.symm
            have hlost : (if f.executed then (some (w'.expire c'.key (window c'.bucket))).getD w'
              else w') = w' := Option.some.inj hact
            rw [hexecuted, if_pos rfl] at hlost
            exact .inl hlost
          · exact .inr ⟨hkey, rfl⟩
        · exact .inl (Option.some.inj hset)
      have hother (hkey : c.key ≠ c'.key) :
          ([.redisIncr c'.key (.ok 1)] : List Event) ≠ [.redisIncr c.key (.ok 1)] := by
        simpa using Ne.symm hkey
      obtain rfl | ⟨hkey, rfl⟩ := hset
      swap
      · exact .kept cell hcell rfl (hother hkey)
      unfold World.expire at hcell
      by_cases hkey : c.key = c'.key
      · obtain rfl := RateCall.key_inj hkey
        split at hcell
        · rename_i hnone
          simp [hnone] at hcell
        · split at hcell
          · rename_i hpositive
            rw [AList.lookup_insert] at hcell
            obtain rfl := Option.some.inj hcell
            exact .opened hpositive rfl
          · simp [World.del] at hcell
      · refine .kept cell ?_ rfl (hother hkey)
        split at hcell
        · exact hcell
        · split at hcell
          · exact (AList.lookup_insert_ne hkey).symm.trans hcell
          · exact (AList.lookup_erase_ne hkey).symm.trans hcell
  | _ => exact hL.elim

/-! ### Runs -/

/-- A counter without a deadline is waiting for the call that has created it;
any other one has at most a window left, counted from one of the steps that
have been made. -/
structure Windowed (c : RateCall) (w : World) (tr : RateTrace X limit window) : Prop where
  clock : ∀ y ∈ tr, y.pre.clock ≤ w.clock
  waiting : ∀ v, w.redis.lookup c.key = some ⟨v, none⟩ → ∃ t, Between c t tr
  closing : ∀ v d, w.redis.lookup c.key = some ⟨v, some d⟩ → w.clock < d ∧
    ∃ y ∈ tr, d = y.pre.clock + Duration.seconds (window c.bucket)

theorem Windowed.advance {now : Int} (h : Windowed c w tr) (hle : w.clock ≤ now) :
    Windowed c (w.advance now) tr where
  clock y hy := (h.clock y hy).trans hle
  waiting v hv := h.waiting v (ExpiringStore.lookup_advance_eq_some.mp hv).1
  closing v d hv := by
    obtain ⟨hbefore, halive⟩ := ExpiringStore.lookup_advance_eq_some.mp hv
    exact ⟨of_decide_eq_true halive, (h.closing v d hbefore).2⟩

/-- A thread that arrives or ends leaves the counter. -/
theorem Windowed.quiet {t : ℕ} {item : Item (rateSystem X limit window)} (h : Windowed c w tr)
    (hown : ∀ t', own t' (⟨t, w, item⟩ :: tr) = own t' tr) :
    Windowed c w (⟨t, w, item⟩ :: tr) where
  clock y hy := by
    rcases List.mem_cons.mp hy with rfl | hy
    · exact le_rfl
    · exact h.clock y hy
  waiting v hv := by
    obtain ⟨t', ht'⟩ := h.waiting v hv
    exact ⟨t', (hown t').trans ht'⟩
  closing v d hv := by
    obtain ⟨hlt, y, hy, hd⟩ := h.closing v d hv
    exact ⟨hlt, y, List.mem_cons_of_mem _ hy, hd⟩

theorem Windowed.act {t : ℕ} {e : Event} {w' : World} (h : Windowed c w tr)
    (hclock : w'.clock = w.clock)
    (hfrom : ∀ cell, w'.redis.lookup c.key = some cell →
      CounterFrom window c (own t tr) w e cell) : Windowed c w' (⟨t, w, .act e⟩ :: tr) where
  clock y hy := by
    rw [hclock]
    rcases List.mem_cons.mp hy with rfl | hy
    · exact le_rfl
    · exact h.clock y hy
  waiting v hv := by
    cases hfrom _ hv with
    | created first fresh unset => exact ⟨t, by rw [Between, own_act_self, first, fresh]⟩
    | kept before there same other =>
        obtain ⟨v', d⟩ := before
        obtain rfl : none = d := same
        obtain ⟨t', ht'⟩ := h.waiting v' there
        have hne : t ≠ t' := by
          rintro rfl
          exact other ht'
        exact ⟨t', by rw [Between, own_act_ne hne, ht']⟩
    | opened positive set => simp at set
  closing v d hv := by
    rw [hclock]
    cases hfrom _ hv with
    | created first fresh unset => simp at unset
    | kept before there same other =>
        obtain ⟨v', d'⟩ := before
        obtain rfl : some d = d' := same
        obtain ⟨hlt, y, hy, hd⟩ := h.closing v' d there
        exact ⟨hlt, y, List.mem_cons_of_mem _ hy, hd⟩
    | opened positive set =>
        obtain rfl := Option.some.inj set
        refine ⟨?_, _, List.mem_cons_self, rfl⟩
        simp only [Duration.seconds, Duration.second]
        omega

theorem windowed (h : Run (WindowStarts c) w tr) : Windowed c w tr := by
  refine (h.invariant (rate_contract X limit window) (Windowed c) ?_ ?_ ?_ ?_ ?_).1
  · intro w hinit
    refine ⟨by simp, fun v hv => ?_, fun v d hv => ?_⟩
    · simp [hinit c] at hv
    · simp [hinit c] at hv
  · intro w w' tr m _ hJ henv
    obtain ⟨hle, rfl⟩ : w.clock ≤ m ∧ w.advance m = w' := by simpa using henv
    exact hJ.advance hle
  · exact fun q hJ _ => hJ.quiet fun _ => rfl
  · intro w w' tr t q e _ hJ _ _ hL hact hA
    exact hJ.act (World.act_clock hact) fun cell hcell => counter_from hL hact hA hcell
  · exact fun _ hJ _ _ _ => hJ.quiet fun _ => rfl

/-- A counter that nobody is between counting and setting the window of is gone
a window after the last step. -/
theorem Windowed.gone (h : Windowed c w tr) (hidle : ∀ t, ¬ Between c t tr)
    (hwaited : ∀ y ∈ tr, y.pre.clock + Duration.seconds (window c.bucket) ≤ w.clock) :
    w.redis.lookup c.key = none := by
  cases hcell : w.redis.lookup c.key with
  | none => rfl
  | some cell =>
      obtain ⟨v, deadline⟩ := cell
      cases deadline with
      | none =>
          obtain ⟨t, ht⟩ := h.waiting v hcell
          exact (hidle t ht).elim
      | some d =>
          obtain ⟨hlt, y, hy, rfl⟩ := h.closing v d hcell
          have hle := hwaited y hy
          omega

/-- Until it counts, a call that is alone leaves the counter absent. -/
theorem absent_until_count {t : ℕ} {w₀ : World} {seg : RateTrace X limit window}
    (h : Run (WindowStarts c) w (seg ++ ⟨t, w₀, .start c⟩ :: tr))
    (habsent : w₀.redis.lookup c.key = none) (halone : ∀ y ∈ seg, y.tid = t)
    (hquiet : own t seg = []) : w.redis.lookup c.key = none := by
  refine (h.since (rate_contract X limit window) (fun w seg => (∀ y ∈ seg, y.tid = t) →
    own t seg = [] → w.redis.lookup c.key = none) ?_ ?_ ?_ ?_ ?_).1 halone hquiet
  · intro w _ _ hen _ _
    cases hen
    exact habsent
  · intro w w' seg m _ hJ henv halone hquiet
    obtain ⟨-, rfl⟩ : w.clock ≤ m ∧ w.advance m = w' := by simpa using henv
    show (w.redis.advance m).lookup c.key = none
    rw [ExpiringStore.lookup_advance, hJ halone hquiet]
    rfl
  · intro w seg t' q hJ _ halone hquiet
    exact hJ (fun y hy => halone y (List.mem_cons_of_mem _ hy)) hquiet
  · intro w w' seg t' q e _ hJ _ _ _ _ _ halone hquiet
    obtain rfl : t' = t := halone _ List.mem_cons_self
    simp at hquiet
  · intro w seg t' q o _ hJ _ _ _ halone hquiet
    exact hJ (fun y hy => halone y (List.mem_cons_of_mem _ hy)) hquiet

/-- How `check_rate_limit` ends when no command fails: by its count. -/
theorem rate_ends {ip : IpAddr} {bucket : String} {limit windowSecs : Int} {h : List Event}
    {r : Except ProxyError Unit} (hend : (checkRateLimit ip bucket limit windowSecs).Ends h r)
    (hok : ∀ e ∈ h, e.failed = false) :
    ∃ n l, h = l ++ [Event.redisIncr (rateLimitKey bucket ip) (.ok n)] ∧
      r = if n > limit then .error .rateLimitExceeded else .ok () := by
  let req : Request := ⟨"", ⟨none, none, ""⟩, [], none, ip⟩
  have hrun : RateRun (rateLimitKey bucket ip) limit windowSecs h r :=
    checkRateLimit_ends (show (checkRateLimit req.remoteIp bucket limit windowSecs).Ends h r from hend)
  cases hrun with
  | failed => simpa [Event.failed] using hok _ List.mem_cons_self
  | unset => simpa [Event.failed] using hok _ List.mem_cons_self
  | counted opened => exact ⟨_, _, rfl, rfl⟩

/-- A call that counts to one and sets its window is let through by that. -/
theorem rate_ends_first {ip : IpAddr} {bucket : String} {limit windowSecs : Int}
    (hlimit : 1 ≤ limit) : (checkRateLimit ip bucket limit windowSecs).Ends
      [.redisExpire (rateLimitKey bucket ip) windowSecs (.ok ()),
        .redisIncr (rateLimitKey bucket ip) (.ok 1)] (.ok ()) := by
  simp only [checkRateLimit, redisIncr, redisExpire, call_bind, ends_call, ends_unwrap_bind]
  refine ⟨.ok 1, [.redisExpire (rateLimitKey bucket ip) windowSecs (.ok ())], rfl,
    .inl ⟨1, rfl, ?_⟩⟩
  rw [if_pos rfl]
  simp only [ends_call, ends_unwrap_bind]
  refine ⟨.ok (), [], rfl, .inl ⟨(), rfl, ?_⟩⟩
  rw [if_neg (by omega)]
  exact ends_pure.mpr ⟨rfl, rfl⟩

/-- **Rate-limit windows end.** In every run in which the INCR that creates the
counter is answered and its EXPIRE takes effect, whatever else fails and
however the calls interleave: each counter has at most a window left to live,
unless the call that has created it is between its two commands. When none is,
and a window has passed since the last step, the next call whose commands
succeed is let through. -/
theorem rate_window_ends (h : Run (WindowStarts c) w tr) :
    (∀ cell, w.redis.lookup c.key = some cell → (∃ t, Between c t tr) ∨
      ∃ d, cell.deadline = some d ∧ d ≤ w.clock + Duration.seconds (window c.bucket)) ∧
    (1 ≤ limit c.bucket → (∀ t, ¬ Between c t tr) →
      (∀ y ∈ tr, y.pre.clock + Duration.seconds (window c.bucket) ≤ w.clock) →
      ∀ {w' : World} {seg : RateTrace X limit window} {t : ℕ} {r : Except ProxyError Unit},
        Run (WindowStarts c) w' (seg ++ ⟨t, w, .start c⟩ :: tr) → (∀ y ∈ seg, y.tid = t) →
        (∀ y ∈ seg, ∀ e, y.item = .act e → e.failed = false) →
        (checkRateLimit c.ip c.bucket.name (limit c.bucket) (window c.bucket)).Ends (own t seg) r →
        r = .ok ()) ∧
    (1 ≤ limit c.bucket →
      (checkRateLimit c.ip c.bucket.name (limit c.bucket) (window c.bucket)).Ends
        [.redisExpire c.key (window c.bucket) (.ok ()), .redisIncr c.key (.ok 1)] (.ok ())) := by
  have hwindowed := windowed h
  refine ⟨fun cell hcell => ?_, ?_, fun hlimit => rate_ends_first hlimit⟩
  · obtain ⟨v, deadline⟩ := cell
    cases deadline with
    | none => exact .inl (hwindowed.waiting v hcell)
    | some d =>
        obtain ⟨-, y, hy, rfl⟩ := hwindowed.closing v d hcell
        have hle := hwindowed.clock y hy
        exact .inr ⟨_, rfl, by omega⟩
  · intro hlimit hidle hwaited w' seg t r hrun halone hok hend
    have hown : ∀ e ∈ own t seg, e.failed = false := by
      intro e he
      obtain ⟨w₁, hmem⟩ := mem_own.mp he
      exact hok _ hmem e rfl
    obtain ⟨n, l, hcounts, rfl⟩ := rate_ends hend hown
    obtain ⟨post, w₁, pre, rfl, -, hpre⟩ := own_split hcounts
    rw [List.append_assoc, List.cons_append] at hrun
    -- the counter is gone, and the call is the first to count
    obtain ⟨hbefore, -, w₂, hen⟩ := hrun.entry
    have habsent := absent_until_count hbefore (hwindowed.gone hidle hwaited)
      (fun y hy => halone y (List.mem_append_right _ (List.mem_cons_of_mem _ hy))) hpre
    obtain ⟨q, -, -, hact⟩ := hen.licensed (rate_contract X limit window)
    have hreply : World.act X t (.redisIncr c.key (.ok n)) w₁ = some w₂ := hact
    obtain ⟨-, rfl, -⟩ | ⟨d, hthere, -⟩ := World.incr_eq_some (World.incr_reply hreply)
    · rw [if_neg (by omega)]
    · simp [habsent] at hthere

/-! ### Two runs -/

namespace Scenario

/-- No thread is between counting to one and setting the window. -/
def idle (c : RateCall) (tr : RateTrace X limit window) : Bool :=
  tr.all fun y => match own y.tid tr with
    | [.redisIncr key (.ok n)] => decide (key ≠ c.key ∨ n ≠ 1)
    | _ => true

theorem not_between_of_idle (h : idle c tr = true) (t : ℕ) : ¬ Between c t tr := by
  intro ht
  have hmem : .redisIncr c.key (.ok 1) ∈ own t tr := by
    rw [ht]
    exact List.mem_cons_self
  obtain ⟨w₁, hentry⟩ := mem_own.mp hmem
  have hstep := List.all_eq_true.mp h _ hentry
  have hown : own t tr = [.redisIncr c.key (.ok 1)] := ht
  simp only [hown] at hstep
  simp at hstep

/-- A call has just arrived, a window after the last step before. -/
def waited (c : RateCall) (tr : RateTrace X limit window) : Bool :=
  match tr with
  | ⟨_, w, .start c'⟩ :: tr => decide (c'.key = c.key) && idle c tr && tr.all fun y =>
      decide (y.pre.clock + Duration.seconds (window c.bucket) ≤ w.clock)
  | _ => false

theorem exists_waited (h : waited c tr = true) : ∃ t w₀ tr₀, tr = ⟨t, w₀, .start c⟩ :: tr₀ ∧
    (∀ t, ¬ Between c t tr₀) ∧
    ∀ y ∈ tr₀, y.pre.clock + Duration.seconds (window c.bucket) ≤ w₀.clock := by
  unfold waited at h
  split at h
  · rename_i t w₀ c' tr₀
    simp only [Bool.and_eq_true] at h
    obtain ⟨⟨hkey, hidle⟩, hclocks⟩ := h
    obtain rfl := RateCall.key_inj (of_decide_eq_true hkey)
    exact ⟨t, w₀, tr₀, rfl, not_between_of_idle hidle, fun y hy =>
      of_decide_eq_true (List.all_eq_true.mp hclocks y hy)⟩
  · simp at h

end Scenario

open Scenario in
/-- The reply that the window has been set is lost, and so is that of a second
count; a minute later a call is let through again. -/
theorem rate_window_ends_run : ∃ (w w₀ : World) (t : ℕ)
    (seg tr : RateTrace external (fun _ => 1) (fun _ => 60)),
    Run (WindowStarts loginCall) w (seg ++ ⟨t, w₀, .start loginCall⟩ :: tr) ∧
      (∃ cell d, w.redis.lookup loginCall.key = some cell ∧ cell.deadline = some d ∧
        d ≤ w.clock + Duration.seconds 60) ∧
      ∀ r, (checkRateLimit loginCall.ip loginCall.bucket.name 1 60).Ends (own t seg) r →
        r = .ok () := by
  have hplay : Play.playsThen (S := RateSystem) (World.reply external) (WindowStarts loginCall)
      (world [])
      [.start 0 loginCall, .step 0 0, .step 0 2, .start 1 loginCall, .step 1 2,
        .env (Duration.seconds 119), .start 2 loginCall]
      (fun p => waited loginCall p.trace && p.trace.head?.any fun x => decide (x.tid = 2))
      [.step 2 0, .step 2 0, .step 2 0]
      (fun p seg => (seg.all fun y => decide (y.tid = 2) && !y.item.isAct Event.failed) &&
        idle loginCall p.trace && (p.world.redis.lookup loginCall.key).isSome) = true := by
    decide +kernel
  obtain ⟨p, p', seg, -, hcheck, htrace, hrun, hcheck'⟩ :=
    Play.of_playsThen (S := RateSystem) (fun _ => rfl) hplay
  obtain ⟨hwaited, htid⟩ := Bool.and_eq_true_iff.mp hcheck
  obtain ⟨t, w₀, tr₀, hp, hidle, hclocks⟩ := exists_waited hwaited
  rw [hp] at htid
  obtain rfl : t = 2 := by simpa using htid
  simp only [Bool.and_eq_true] at hcheck'
  obtain ⟨⟨hsteps, hidle'⟩, hsome⟩ := hcheck'
  obtain ⟨cell, hcell⟩ := Option.isSome_iff_exists.mp hsome
  have hends := rate_window_ends hrun
  rw [htrace, hp] at hrun
  obtain ⟨hbefore, -, -⟩ := hrun.entry
  refine ⟨p'.world, w₀, 2, seg, tr₀, hrun, ?_, fun r hend => ?_⟩
  · obtain ⟨t, ht⟩ | ⟨d, hd, hle⟩ := hends.1 cell hcell
    · exact (not_between_of_idle hidle' t ht).elim
    · exact ⟨cell, d, hcell, hd, hle⟩
  · have hstep {y : Entry RateSystem} (hy : y ∈ seg) :=
      Bool.and_eq_true_iff.mp (List.all_eq_true.mp hsteps y hy)
    refine (rate_window_ends hbefore (c := loginCall)).2.1 (by decide) hidle hclocks hrun
      (fun y hy => of_decide_eq_true (hstep hy).1) (fun y hy e he => ?_) hend
    have hitem := (hstep hy).2
    rw [he] at hitem
    simpa [Item.isAct] using hitem

open Scenario in
/-- The window is not set. The call that has counted is over, and a minute
later the next one is refused, by a counter that has no deadline. -/
theorem rate_window_never_ends : ∃ (w w₀ : World) (seg tr : RateTrace external (fun _ => 1) (fun _ => 60)),
    Reachable w (seg ++ ⟨1, w₀, .start loginCall⟩ :: tr) ∧
      (∀ t, ¬ Between loginCall t tr) ∧
      (∀ y ∈ tr, y.pre.clock + Duration.seconds 60 ≤ w₀.clock) ∧
      w₀.redis.lookup loginCall.key = some ⟨.int 1, none⟩ ∧
      own 1 seg = [.redisIncr loginCall.key (.ok 2)] ∧
      (checkRateLimit loginCall.ip loginCall.bucket.name 1 60).Ends (own 1 seg)
        (.error .rateLimitExceeded) := by
  have hplay : Play.playsThen (S := RateSystem) (World.reply external) (fun _ _ => True) (world [])
      [.start 0 loginCall, .step 0 0, .step 0 1, .env (Duration.seconds 119), .start 1 loginCall]
      (fun p => waited loginCall p.trace && p.trace.head?.any fun x => decide (x.tid = 1 ∧
        x.pre.redis.lookup loginCall.key = some ⟨.int 1, none⟩))
      [.step 1 0]
      (fun _ seg => match own 1 seg with
        | [.redisIncr key (.ok n)] => decide (key = loginCall.key ∧ n = 2)
        | _ => false) = true := by
    decide +kernel
  obtain ⟨p, p', seg, -, hcheck, htrace, hrun, hcheck'⟩ :=
    Play.of_playsThen (S := RateSystem) (fun _ => rfl) hplay
  obtain ⟨hwaited, hhead⟩ := Bool.and_eq_true_iff.mp hcheck
  obtain ⟨t, w₀, tr₀, hp, hidle, hclocks⟩ := exists_waited hwaited
  rw [hp] at hhead
  obtain ⟨rfl, hlookup⟩ : t = 1 ∧ w₀.redis.lookup loginCall.key = some ⟨.int 1, none⟩ := by
    simpa using hhead
  rw [htrace, hp] at hrun
  have hown : own 1 seg = [.redisIncr loginCall.key (.ok 2)] := by
    split at hcheck'
    · rename_i key n heq
      obtain ⟨rfl, rfl⟩ := of_decide_eq_true hcheck'
      exact heq
    · simp at hcheck'
  refine ⟨p'.world, w₀, seg, tr₀, hrun, hidle, hclocks, hlookup, hown, ?_⟩
  rw [hown]
  simp only [checkRateLimit, redisIncr, call_bind, ends_call, ends_unwrap_bind]
  refine ⟨.ok 2, [], rfl, .inl ⟨2, rfl, ?_⟩⟩
  exact ⟨rfl, rfl⟩

end ZeroTrustProxy
