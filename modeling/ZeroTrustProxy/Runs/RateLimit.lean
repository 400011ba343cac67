import ZeroTrustProxy.Runs.Scenario

/-!
How much a rate limit lets through.

`check_rate_limit` counts with INCR and starts the window with a second
command, which only the call that has counted to one sends. Until that command
arrives the counter has no deadline. The runs below are those of any number of
such calls: the counter vanishes only at a deadline that its own first call has
set, so that lifetimes of the counter are a window apart.
-/

namespace ZeroTrustProxy

open Concurrent Handler Program

/-- A bucket name without a colon, as all the names are that the handlers
pass. -/
@[ext]
structure Bucket where
  name : String
  plain : ':' ∉ name.toList

namespace Bucket

def login : Bucket := ⟨"login", by decide⟩

def register : Bucket := ⟨"register", by decide⟩

def mfaVerify : Bucket := ⟨"mfa_verify", by decide⟩

end Bucket

structure RateCall where
  ip : IpAddr
  bucket : Bucket

def RateCall.key (c : RateCall) : String := rateLimitKey c.bucket.name c.ip

/-- Buckets and addresses have keys of their own. -/
theorem RateCall.key_inj {c c' : RateCall} (h : c.key = c'.key) : c = c' := by
  obtain ⟨⟨ip⟩, ⟨name, plain⟩⟩ := c
  obtain ⟨⟨ip'⟩, ⟨name', plain'⟩⟩ := c'
  have hlist : name.toList ++ ':' :: ip.toList = name'.toList ++ ':' :: ip'.toList := by
    simpa [RateCall.key, rateLimitKey, String.ext_iff] using h
  have htake {l : List Char} (hl : ':' ∉ l) (rest : List Char) :
      (l ++ ':' :: rest).takeWhile (· ≠ ':') = l := by
    have hall : ∀ c ∈ l, decide (c ≠ ':') = true := by
      intro c hc
      exact decide_eq_true fun heq => hl (heq ▸ hc)
    rw [List.takeWhile_append_of_pos hall]
    simp
  have hname := congrArg (List.takeWhile (· ≠ ':')) hlist
  rw [htake plain, htake plain'] at hname
  rw [hname] at hlist
  have hip := (List.cons.inj (List.append_cancel_left hlist)).2
  obtain rfl := String.ext hname
  obtain rfl := String.ext hip
  rfl

/-- Any number of calls of `check_rate_limit` at once, each bucket with its
limit and its window. A call that is over the limit does not return. -/
@[reducible] def rateSystem (X : External) (limit window : Bucket → Int) :
    System proxyInterface where
  World := World
  Req := RateCall
  Err := ProxyError
  Out := Unit
  Env := Int
  program c := checkRateLimit c.ip c.bucket.name (limit c.bucket) (window c.bucket)
  init w := ∀ c : RateCall, w.redis.lookup c.key = none
  env now w := if w.clock ≤ now then some (w.advance now) else none
  act := World.act X

/-- A call first counts; when it has counted to one it sets the window. -/
def RateLicence (window : Bucket → Int) (c : RateCall) (h : List Event) : Cmd → Prop
  | .redisIncr key => key = c.key ∧ h = []
  | .redisExpire key secs =>
      key = c.key ∧ secs = window c.bucket ∧ h = [.redisIncr c.key (.ok 1)]
  | _ => False

/-- A call that returns has counted to its limit at most. -/
def WithinLimit (limit : Bucket → Int) (c : RateCall) (_ : Unit) (h : List Event) : Prop :=
  ∃ n ≤ limit c.bucket, .redisIncr c.key (.ok n) ∈ h

theorem rate_contract (X : External) (limit window : Bucket → Int) :
    Contract (rateSystem X limit window) (RateLicence window) (WithinLimit limit) := by
  intro c
  have hcount {h : List Event} {count : Int} (hmem : .redisIncr c.key (.ok count) ∈ h) :
      (if count > limit c.bucket then .throw .rateLimitExceeded else pure () : Handler Unit).Obeys
        (RateLicence window c) h (WithinLimit limit c) (fun _ _ => True) := by
    simp only [obeys_ite, obeys_throw, obeys_pure]
    exact ⟨fun _ => trivial, fun hle => ⟨count, not_lt.mp hle, hmem⟩⟩
  simp only [checkRateLimit, redisIncr, redisExpire, obeys_bind, obeys_call, obeys_unwrap]
  refine ⟨⟨rfl, rfl⟩, fun r => ⟨?_, fun _ _ => trivial⟩⟩
  rintro count rfl
  by_cases hone : count = 1
  · subst hone
    rw [if_pos rfl]
    simp only [obeys_bind, obeys_call, obeys_unwrap]
    refine ⟨⟨rfl, rfl, rfl⟩, fun r' => ⟨fun _ _ => ?_, fun _ _ => trivial⟩⟩
    exact hcount (List.mem_cons_of_mem _ List.mem_cons_self)
  · rw [if_neg hone]
    exact hcount List.mem_cons_self

variable {X : External} {limit window : Bucket → Int}

abbrev RateTrace (X : External) (limit window : Bucket → Int) := Trace (rateSystem X limit window)

/-- No command fails. -/
def NoFailure (_ : RateTrace X limit window) (x : Entry (rateSystem X limit window)) : Prop :=
  ∀ e, x.item = .act e → e.failed = false

instance (tr : RateTrace X limit window) (x : Entry (rateSystem X limit window)) :
    Decidable (NoFailure tr x) :=
  match hx : x.item with
  | .act e => decidable_of_iff (e.failed = false) (by simp [NoFailure, hx])
  | .start _ => .isTrue (by simp [NoFailure, hx])
  | .done _ => .isTrue (by simp [NoFailure, hx])

/-! ### One step -/

/-- What a step does to the counter of the call `c`: nothing, unless it counts
for `c`, or sets the window of `c`. -/
inductive CounterStep (window : Bucket → Int) (c : RateCall) (h : List Event) (w w' : World) :
    Event → Prop
  | other {e : Event} (same : w'.redis.lookup c.key = w.redis.lookup c.key)
      (quiet : ∀ r, e ≠ .redisIncr c.key r) : CounterStep window c h w w' e
  | first (absent : w.redis.lookup c.key = none)
      (now : w'.redis.lookup c.key = some ⟨.int 1, none⟩) (fresh : h = []) :
      CounterStep window c h w w' (.redisIncr c.key (.ok 1))
  | next {n : Int} {d : Option Int} (before : w.redis.lookup c.key = some ⟨.int (n - 1), d⟩)
      (now : w'.redis.lookup c.key = some ⟨.int n, d⟩) (fresh : h = []) :
      CounterStep window c h w w' (.redisIncr c.key (.ok n))
  | opened {cell : Cell RedisValue} (before : w.redis.lookup c.key = some cell)
      (now : w'.redis.lookup c.key =
        some ⟨cell.value, some (w.clock + Duration.seconds (window c.bucket))⟩)
      (mine : h = [.redisIncr c.key (.ok 1)]) :
      CounterStep window c h w w' (.redisExpire c.key (window c.bucket) (.ok ()))

theorem counter_step {c c' : RateCall} (hwindow : 1 ≤ window c.bucket) {h : List Event} {t : ℕ}
    {e : Event} {w w' : World} (hL : RateLicence window c' h e.command)
    (hact : World.act X t e w = some w') (hok : e.failed = false) :
    CounterStep window c h w w' e := by
  cases e with
  | redisIncr key r =>
      obtain ⟨rfl, rfl⟩ : key = c'.key ∧ h = [] := hL
      rcases r with f | n
      · simp [Event.failed] at hok
      have hincr := World.incr_eq_some (World.incr_reply hact)
      by_cases hkey : c.key = c'.key
      · obtain rfl := RateCall.key_inj hkey
        rcases hincr with ⟨habsent, rfl, rfl⟩ | ⟨d, hbefore, rfl⟩
        · exact .first habsent (AList.lookup_insert _) rfl
        · exact .next hbefore (AList.lookup_insert _) rfl
      · refine .other ?_ fun r heq => hkey (Event.redisIncr.inj heq).1.symm
        rcases hincr with ⟨-, -, rfl⟩ | ⟨d, -, rfl⟩
        · exact AList.lookup_insert_ne hkey
        · exact AList.lookup_insert_ne hkey
  | redisExpire key secs r =>
      obtain ⟨rfl, rfl, rfl⟩ :
        key = c'.key ∧ secs = window c'.bucket ∧ h = [.redisIncr c'.key (.ok 1)] := hL
      rcases r with f | ⟨⟩
      · simp [Event.failed] at hok
      obtain rfl : w.expire c'.key (window c'.bucket) = w' := Option.some.inj hact
      by_cases hkey : c.key = c'.key
      · obtain rfl := RateCall.key_inj hkey
        cases hbefore : w.redis.lookup c.key with
        | none =>
            refine .other ?_ (by simp)
            simp [World.expire, hbefore]
        | some cell =>
            refine .opened hbefore ?_ rfl
            simp only [World.expire, hbefore]
            rw [if_pos (by omega)]
            exact AList.lookup_insert _
      · refine .other ?_ (by simp)
        unfold World.expire
        split
        · rfl
        · split
          · exact AList.lookup_insert_ne hkey
          · exact AList.lookup_erase_ne hkey
  | _ => exact hL.elim

/-! ### Lifetimes of a counter -/

/-- The entry counts for the call `c`, and has counted to `n`. -/
def Counts (c : RateCall) (n : Int) (y : Entry (rateSystem X limit window)) : Prop :=
  y.item = .act (.redisIncr c.key (.ok n))

/-- The counter of `c`: without a deadline exactly as long as the call that has
counted to one has not set the window; a deadline, and the absence of the
counter, come a window after every such call and after all that were
counted. -/
structure Counter (c : RateCall) (w : World) (tr : RateTrace X limit window) : Prop where
  clock : ∀ y ∈ tr, y.pre.clock ≤ w.clock
  value : ∀ cell, w.redis.lookup c.key = some cell → ∃ n, 1 ≤ n ∧ cell.value = .int n
  pending : ∀ t, own t tr = [.redisIncr c.key (.ok 1)] →
    ∃ v, w.redis.lookup c.key = some ⟨v, none⟩
  single : ∀ t t', own t tr = [.redisIncr c.key (.ok 1)] →
    own t' tr = [.redisIncr c.key (.ok 1)] → t = t'
  absent : w.redis.lookup c.key = none → ∀ y ∈ tr,
    (∀ n, Counts c n y → y.pre.clock < w.clock) ∧
      (Counts c 1 y → y.pre.clock + Duration.seconds (window c.bucket) ≤ w.clock)
  opened : ∀ v d, w.redis.lookup c.key = some ⟨v, some d⟩ → w.clock < d ∧ ∀ y ∈ tr,
    (∀ n, Counts c n y → y.pre.clock < d) ∧
      (Counts c 1 y → y.pre.clock + Duration.seconds (window c.bucket) ≤ d)

variable {c : RateCall} {w : World} {tr : RateTrace X limit window}

/-- An entry that is not an event leaves the counter. -/
theorem Counter.quiet {t : ℕ} {item : Item (rateSystem X limit window)} (h : Counter c w tr)
    (hown : ∀ t', own t' (⟨t, w, item⟩ :: tr) = own t' tr) (hitem : ∀ e, item ≠ .act e) :
    Counter c w (⟨t, w, item⟩ :: tr) where
  clock y hy := by
    rcases List.mem_cons.mp hy with rfl | hy
    · exact le_rfl
    · exact h.clock y hy
  value := h.value
  pending t' ht := h.pending t' (hown t' ▸ ht)
  single t' t'' ht ht' := h.single t' t'' (hown t' ▸ ht) (hown t'' ▸ ht')
  absent hnone y hy := by
    rcases List.mem_cons.mp hy with rfl | hy
    · exact ⟨fun n hn => (hitem _ hn).elim, fun hn => (hitem _ hn).elim⟩
    · exact h.absent hnone y hy
  opened v d hopen := by
    refine ⟨(h.opened v d hopen).1, fun y hy => ?_⟩
    rcases List.mem_cons.mp hy with rfl | hy
    · exact ⟨fun n hn => (hitem _ hn).elim, fun hn => (hitem _ hn).elim⟩
    · exact (h.opened v d hopen).2 y hy

/-- Time passes. The counter can only vanish at its deadline. -/
theorem Counter.advance {now : Int} (h : Counter c w tr) (hle : w.clock ≤ now) :
    Counter c (w.advance now) tr where
  clock y hy := (h.clock y hy).trans hle
  value cell hcell := h.value cell (ExpiringStore.lookup_advance_eq_some.mp hcell).1
  pending t ht := by
    obtain ⟨v, hv⟩ := h.pending t ht
    exact ⟨v, ExpiringStore.lookup_advance_eq_some.mpr ⟨hv, rfl⟩⟩
  single := h.single
  absent hnone y hy := by
    have hclock : (w.advance now).clock = now := rfl
    rw [hclock]
    cases hbefore : w.redis.lookup c.key with
    | none =>
        obtain ⟨hcount, hfirst⟩ := h.absent hbefore y hy
        exact ⟨fun n hn => (hcount n hn).trans_le hle, fun hn => (hfirst hn).trans hle⟩
    | some cell =>
        obtain ⟨v, deadline⟩ := cell
        have hdead : ¬ Cell.alive now ⟨v, deadline⟩ = true := by
          intro halive
          have hsome := ExpiringStore.lookup_advance_eq_some.mpr ⟨hbefore, halive⟩
          exact Option.some_ne_none _ (hsome.symm.trans hnone)
        cases deadline with
        | none => exact (hdead rfl).elim
        | some d =>
            have hd : d ≤ now := by simpa [Cell.alive] using hdead
            obtain ⟨hcount, hfirst⟩ := (h.opened v d hbefore).2 y hy
            exact ⟨fun n hn => (hcount n hn).trans_le hd, fun hn => (hfirst hn).trans hd⟩
  opened v d hopen := by
    obtain ⟨hbefore, halive⟩ := ExpiringStore.lookup_advance_eq_some.mp hopen
    exact ⟨of_decide_eq_true halive, (h.opened v d hbefore).2⟩

/-- A thread whose history is the first count is the one that has just made it,
or had it before. -/
theorem own_eq_first {t t' : ℕ} {e : Event}
    (h : own t' ((⟨t, w, .act e⟩ : Entry (rateSystem X limit window)) :: tr) =
      [.redisIncr c.key (.ok 1)]) :
    t = t' ∧ e = .redisIncr c.key (.ok 1) ∨ t ≠ t' ∧ own t' tr = [.redisIncr c.key (.ok 1)] := by
  by_cases ht : t = t'
  · subst ht
    rw [own_act_self] at h
    exact .inl ⟨rfl, (List.cons.inj h).1⟩
  · rw [own_act_ne ht] at h
    exact .inr ⟨ht, h⟩

/-- A step that counts for `c` or sets its window, or leaves its counter. -/
theorem Counter.act {t : ℕ} {e : Event} {w' : World} (h : Counter c w tr)
    (hwindow : 1 ≤ window c.bucket) (hclock : w'.clock = w.clock)
    (hstep : CounterStep window c (own t tr) w w' e) : Counter c w' (⟨t, w, .act e⟩ :: tr) := by
  have hpos : 0 < Duration.seconds (window c.bucket) := by
    simp only [Duration.seconds, Duration.second]
    omega
  have hclocks : ∀ y ∈ (⟨t, w, .act e⟩ : Entry (rateSystem X limit window)) :: tr,
      y.pre.clock ≤ w'.clock := by
    intro y hy
    rw [hclock]
    rcases List.mem_cons.mp hy with rfl | hy
    · exact le_rfl
    · exact h.clock y hy
  cases hstep with
  | @other e hsame hquiet =>
      have hitem {n : Int} :
          ¬ Counts c n (⟨t, w, .act e⟩ : Entry (rateSystem X limit window)) := by
        intro hn
        exact hquiet _ (Item.act.inj hn)
      have hold {t' : ℕ} (ht : own t' ((⟨t, w, .act e⟩ : Entry (rateSystem X limit window)) :: tr) =
          [.redisIncr c.key (.ok 1)]) : own t' tr = [.redisIncr c.key (.ok 1)] := by
        rcases own_eq_first ht with ⟨-, rfl⟩ | ⟨-, hown⟩
        · exact (hquiet _ rfl).elim
        · exact hown
      refine ⟨hclocks, ?_, fun t' ht => ?_, fun t' t'' ht ht' => h.single _ _ (hold ht) (hold ht'),
        ?_, ?_⟩
      · rw [hsame]
        exact h.value
      · rw [hsame]
        exact h.pending t' (hold ht)
      · rw [hsame, hclock]
        intro hnone y hy
        rcases List.mem_cons.mp hy with rfl | hy
        · exact ⟨fun n hn => (hitem hn).elim, fun hn => (hitem hn).elim⟩
        · exact h.absent hnone y hy
      · rw [hsame, hclock]
        intro v d hopen
        refine ⟨(h.opened v d hopen).1, fun y hy => ?_⟩
        rcases List.mem_cons.mp hy with rfl | hy
        · exact ⟨fun n hn => (hitem hn).elim, fun hn => (hitem hn).elim⟩
        · exact (h.opened v d hopen).2 y hy
  | first habsent hnow hfresh =>
      -- nobody was waiting to set the window, since the counter was not there
      have hnobody (t' : ℕ) : own t' tr ≠ [.redisIncr c.key (.ok 1)] := by
        intro ht
        obtain ⟨v, hv⟩ := h.pending t' ht
        simp [habsent] at hv
      refine ⟨hclocks, ?_, fun _ _ => ⟨_, hnow⟩, fun t' t'' ht ht' => ?_, ?_, ?_⟩
      · rw [hnow]
        rintro _ ⟨⟩
        exact ⟨1, le_rfl, rfl⟩
      · rcases own_eq_first ht with ⟨rfl, -⟩ | ⟨-, hown⟩
        · rcases own_eq_first ht' with ⟨rfl, -⟩ | ⟨-, hown'⟩
          · rfl
          · exact (hnobody _ hown').elim
        · exact (hnobody _ hown).elim
      · simp [hnow]
      · simp [hnow]
  | @next n d hbefore hnow hfresh =>
      obtain ⟨m, hm, hvalue⟩ := h.value _ hbefore
      obtain rfl : n - 1 = m := RedisValue.int.inj hvalue
      have hold {t' : ℕ} (ht : own t'
          ((⟨t, w, .act (.redisIncr c.key (.ok n))⟩ : Entry (rateSystem X limit window)) :: tr) =
          [.redisIncr c.key (.ok 1)]) : own t' tr = [.redisIncr c.key (.ok 1)] := by
        rcases own_eq_first ht with ⟨-, heq⟩ | ⟨-, hown⟩
        · have hone : n = 1 := by simpa using heq
          omega
        · exact hown
      refine ⟨hclocks, ?_, fun t' ht => ?_, fun t' t'' ht ht' => h.single _ _ (hold ht) (hold ht'),
        ?_, ?_⟩
      · rw [hnow]
        rintro _ ⟨⟩
        exact ⟨n, by omega, rfl⟩
      · obtain ⟨v, hv⟩ := h.pending t' (hold ht)
        have hd : d = none := by
          rw [hbefore] at hv
          exact (Cell.mk.inj (Option.some.inj hv)).2
        exact ⟨_, by rw [hnow, hd]⟩
      · simp [hnow]
      · rw [hnow, hclock]
        intro v d' hopen
        obtain ⟨rfl, rfl⟩ := Cell.mk.inj (Option.some.inj hopen)
        obtain ⟨halive, hold'⟩ := h.opened _ d' hbefore
        refine ⟨halive, fun y hy => ?_⟩
        rcases List.mem_cons.mp hy with rfl | hy
        · refine ⟨fun _ _ => halive, fun hn => ?_⟩
          have hone : n = 1 := by simpa [Counts] using hn
          omega
        · exact hold' y hy
  | @opened cell hbefore hnow hmine =>
      have hold {t' : ℕ} (ht : own t' ((⟨t, w, .act (.redisExpire c.key (window c.bucket) (.ok ()))⟩ :
          Entry (rateSystem X limit window)) :: tr) = [.redisIncr c.key (.ok 1)]) : False := by
        rcases own_eq_first ht with ⟨-, heq⟩ | ⟨hne, hown⟩
        · simp at heq
        · exact hne (h.single _ _ hmine hown)
      obtain ⟨v, hv⟩ := h.pending t hmine
      obtain rfl := Option.some.inj (hbefore.symm.trans hv)
      refine ⟨hclocks, ?_, fun t' ht => (hold ht).elim, fun t' t'' ht => (hold ht).elim, ?_, ?_⟩
      · rw [hnow]
        rintro _ ⟨⟩
        obtain ⟨n, hn, hvalue⟩ := h.value _ hbefore
        exact ⟨n, hn, hvalue⟩
      · simp [hnow]
      · rw [hnow, hclock]
        intro v' d' hopen
        obtain ⟨rfl, heq⟩ := Cell.mk.inj (Option.some.inj hopen)
        obtain rfl := Option.some.inj heq
        refine ⟨by omega, fun y hy => ⟨fun n _ => ?_, fun _ => ?_⟩⟩
        · have hle := hclocks y hy
          omega
        · have hle := hclocks y hy
          omega

theorem counter (h : Run NoFailure w tr) (hwindow : 1 ≤ window c.bucket) : Counter c w tr := by
  refine (h.invariant (rate_contract X limit window) (Counter c) ?_ ?_ ?_ ?_ ?_).1
  · intro w hinit
    refine ⟨by simp, fun cell hcell => ?_, by simp, by simp, by simp, fun v d hopen => ?_⟩
    · simp [hinit c] at hcell
    · simp [hinit c] at hopen
  · intro w w' tr m _ hJ henv
    obtain ⟨hle, rfl⟩ : w.clock ≤ m ∧ w.advance m = w' := by simpa using henv
    exact hJ.advance hle
  · exact fun q hJ _ => hJ.quiet (fun _ => rfl) (by simp)
  · intro w w' tr t q e _ hJ _ _ hL hact hA
    exact hJ.act hwindow (World.act_clock hact) (counter_step hwindow hL hact (hA e rfl))
  · exact fun _ hJ _ _ _ => hJ.quiet (fun _ => rfl) (by simp)

/-! ### Counting -/

/-- The entry counts for the call `c`, to its limit at most. -/
def admits (c : RateCall) (y : Entry (rateSystem X limit window)) : Bool :=
  match y.item with
  | .act (.redisIncr key (.ok n)) => decide (key = c.key ∧ n ≤ limit c.bucket)
  | _ => false

theorem admits_iff {y : Entry (rateSystem X limit window)} :
    admits c y = true ↔ ∃ n ≤ limit c.bucket, Counts c n y := by
  obtain ⟨t, w, item⟩ := y
  constructor
  · intro h
    unfold admits at h
    split at h
    · rename_i key n heq
      obtain ⟨rfl, hn⟩ := of_decide_eq_true h
      exact ⟨n, hn, heq⟩
    · simp at h
  · rintro ⟨n, hn, heq⟩
    obtain rfl : item = .act (.redisIncr c.key (.ok n)) := heq
    simpa [admits] using hn

/-- What the step of an entry does to the counter. -/
theorem counter_entry {post pre : RateTrace X limit window} {t : ℕ} {w₀ : World} {e : Event}
    (h : Run NoFailure w (post ++ ⟨t, w₀, .act e⟩ :: pre)) (hwindow : 1 ≤ window c.bucket) :
    Counter c w₀ pre ∧ ∃ w₁, CounterStep window c (own t pre) w₀ w₁ e := by
  obtain ⟨hrun, hA, w₁, hen⟩ := h.entry
  obtain ⟨q, -, hL, hact⟩ := hen.licensed (rate_contract X limit window)
  exact ⟨counter hrun hwindow, w₁, counter_step hwindow hL hact (hA e rfl)⟩

/-- A first count finds the counter absent. -/
theorem first_absent {post pre : RateTrace X limit window} {x : Entry (rateSystem X limit window)}
    (h : Run NoFailure w (post ++ x :: pre)) (hwindow : 1 ≤ window c.bucket) (hx : Counts c 1 x) :
    x.pre.redis.lookup c.key = none ∧ Counter c x.pre pre := by
  obtain ⟨t, w₀, item⟩ := x
  obtain rfl : item = .act (.redisIncr c.key (.ok 1)) := hx
  obtain ⟨hcounter, w₁, hstep⟩ := counter_entry h hwindow
  refine ⟨?_, hcounter⟩
  cases hstep with
  | other hsame hquiet => exact (hquiet _ rfl).elim
  | first habsent hnow hfresh => exact habsent
  | next hbefore hnow hfresh =>
      obtain ⟨n, hn, hvalue⟩ := hcounter.value _ hbefore
      obtain rfl : (1 : Int) - 1 = n := RedisValue.int.inj hvalue
      omega

/-- Up to the next first count at most `limit` calls are admitted, and not more
than the counter says. -/
theorem admitted_since_first {x₀ : Entry (rateSystem X limit window)}
    {seg pre : RateTrace X limit window} (h : Run NoFailure w (seg ++ x₀ :: pre))
    (hlimit : 0 ≤ limit c.bucket) (hwindow : 1 ≤ window c.bucket)
    (hnone : ∀ y ∈ seg, ¬ Counts c 1 y) :
    ((seg ++ [x₀]).countP (admits c) : Int) ≤ limit c.bucket := by
  refine ((h.since (rate_contract X limit window) (fun w seg => (∀ y ∈ seg, ¬ Counts c 1 y) →
    ((seg ++ [x₀]).countP (admits c) : Int) ≤ limit c.bucket ∧
      ∀ v d, w.redis.lookup c.key = some ⟨.int v, d⟩ →
        ((seg ++ [x₀]).countP (admits c) : Int) ≤ v) ?_ ?_ ?_ ?_ ?_).1 hnone).1
  · intro w' hrun hA hen _
    have hcounter := counter (hrun.step hen hA) hwindow (c := c)
    have hvalue {v : Int} {d : Option Int} (hv : w'.redis.lookup c.key = some ⟨.int v, d⟩) :
        1 ≤ v := by
      obtain ⟨n, hn, heq⟩ := hcounter.value _ hv
      obtain rfl : v = n := RedisValue.int.inj heq
      exact hn
    rw [List.nil_append, List.countP_singleton]
    cases hadmits : admits c x₀ with
    | false => exact ⟨by simpa using hlimit, fun v d hv => by simpa using (hvalue hv).trans' (by omega)⟩
    | true =>
        obtain ⟨n, hn, hcount⟩ := admits_iff.mp hadmits
        obtain ⟨t, w₀, item⟩ := x₀
        obtain rfl : item = .act (.redisIncr c.key (.ok n)) := hcount
        have hone : 1 ≤ n := by
          obtain ⟨q, -, hL, hact⟩ := hen.licensed (rate_contract X limit window)
          have hincr : World.act X t (.redisIncr c.key (.ok n)) w₀ = some w' := hact
          have hstep := counter_step hwindow hL hincr (hA _ rfl) (c := c)
          cases hstep with
          | other hsame hquiet => exact (hquiet _ rfl).elim
          | first habsent hnow hfresh => exact le_rfl
          | next hbefore hnow hfresh =>
              obtain ⟨m, hm, heq⟩ := hcounter.value _ hnow
              obtain rfl : n = m := RedisValue.int.inj heq
              exact hm
        refine ⟨?_, fun v d hv => ?_⟩
        · simp only [if_true, Nat.cast_one]
          exact hone.trans hn
        · simpa using hvalue hv
  · intro w w' seg m _ hJ henv hnone
    obtain ⟨-, rfl⟩ : w.clock ≤ m ∧ w.advance m = w' := by simpa using henv
    obtain ⟨hle, hv⟩ := hJ hnone
    exact ⟨hle, fun v d hd => hv v d (ExpiringStore.lookup_advance_eq_some.mp hd).1⟩
  · intro w seg t q hJ _ hnone
    rw [List.cons_append, List.countP_cons_of_neg (by simp [admits])]
    exact hJ fun y hy => hnone y (List.mem_cons_of_mem _ hy)
  · intro w w' seg t q e hrun hJ _ _ hL hact hA hnone
    obtain ⟨hle, hv⟩ := hJ fun y hy => hnone y (List.mem_cons_of_mem _ hy)
    have hfirst := hnone _ List.mem_cons_self
    have hstep := counter_step hwindow hL hact (hA e rfl) (c := c)
    have hkeep (hquiet : ∀ n, ¬ Counts c n (⟨t, w, .act e⟩ : Entry (rateSystem X limit window))) :
        (⟨t, w, .act e⟩ :: seg ++ [x₀]).countP (admits c) = (seg ++ [x₀]).countP (admits c) := by
      refine List.countP_cons_of_neg fun hadmits => ?_
      obtain ⟨n, -, hn⟩ := admits_iff.mp hadmits
      exact hquiet n hn
    cases hstep with
    | @other e hsame hquiet =>
        rw [hkeep fun n hn => hquiet _ (Item.act.inj hn), hsame]
        exact ⟨hle, hv⟩
    | first habsent hnow hfresh => exact (hfirst rfl).elim
    | @next n d hbefore hnow hfresh =>
        have hcount := hv _ _ hbefore
        have hnew : ((⟨t, w, .act (.redisIncr c.key (.ok n))⟩ :: seg ++ [x₀]).countP
            (admits c) : Int) ≤ (seg ++ [x₀]).countP (admits c) + if n ≤ limit c.bucket then 1 else 0 := by
          rw [List.cons_append, List.countP_cons]
          by_cases hn : n ≤ limit c.bucket <;> simp [admits, hn]
        refine ⟨?_, fun v d' hv' => ?_⟩
        · split at hnew <;> omega
        · rw [hnow] at hv'
          obtain ⟨hval, -⟩ := Cell.mk.inj (Option.some.inj hv')
          obtain rfl : n = v := RedisValue.int.inj hval
          split at hnew <;> omega
    | @opened cell hbefore hnow hmine =>
        rw [hkeep fun n hn => by simp [Counts] at hn]
        refine ⟨hle, fun v d hd => ?_⟩
        rw [hnow] at hd
        obtain ⟨hval, -⟩ := Cell.mk.inj (Option.some.inj hd)
        refine hv v cell.deadline ?_
        rw [hbefore, ← hval]
  · intro w seg t q o _ hJ _ _ _ hnone
    rw [List.cons_append, List.countP_cons_of_neg (by simp [admits])]
    exact hJ fun y hy => hnone y (List.mem_cons_of_mem _ hy)

/-- Nothing is counted before a first count. -/
theorem counts_nothing (h : Run NoFailure w tr) (hwindow : 1 ≤ window c.bucket)
    (hnone : ∀ y ∈ tr, ¬ Counts c 1 y) : ∀ y ∈ tr, ∀ n, ¬ Counts c n y := by
  refine ((h.invariant (rate_contract X limit window) (fun w tr => (∀ y ∈ tr, ¬ Counts c 1 y) →
    (∀ y ∈ tr, ∀ n, ¬ Counts c n y) ∧ w.redis.lookup c.key = none) ?_ ?_ ?_ ?_ ?_).1 hnone).1
  · exact fun w hinit _ => ⟨by simp, hinit c⟩
  · intro w w' tr m _ hJ henv hnone
    obtain ⟨-, rfl⟩ : w.clock ≤ m ∧ w.advance m = w' := by simpa using henv
    obtain ⟨hcounts, habsent⟩ := hJ hnone
    refine ⟨hcounts, ?_⟩
    show (w.redis.advance m).lookup c.key = none
    rw [ExpiringStore.lookup_advance, habsent]
    rfl
  · intro w tr t q hJ _ hnone
    obtain ⟨hcounts, habsent⟩ := hJ fun y hy => hnone y (List.mem_cons_of_mem _ hy)
    refine ⟨fun y hy n hn => ?_, habsent⟩
    rcases List.mem_cons.mp hy with rfl | hy
    · simp [Counts] at hn
    · exact hcounts y hy n hn
  · intro w w' tr t q e hrun hJ _ _ hL hact hA hnone
    obtain ⟨hcounts, habsent⟩ := hJ fun y hy => hnone y (List.mem_cons_of_mem _ hy)
    have hstep := counter_step hwindow hL hact (hA e rfl) (c := c)
    cases hstep with
    | @other e hsame hquiet =>
        refine ⟨fun y hy n hn => ?_, hsame.trans habsent⟩
        rcases List.mem_cons.mp hy with rfl | hy
        · exact hquiet _ (Item.act.inj hn)
        · exact hcounts y hy n hn
    | first _ hnow hfresh => exact (hnone _ List.mem_cons_self rfl).elim
    | next hbefore hnow hfresh => simp [habsent] at hbefore
    | opened hbefore hnow hmine => simp [habsent] at hbefore
  · intro w tr t q o _ hJ _ _ _ hnone
    obtain ⟨hcounts, habsent⟩ := hJ fun y hy => hnone y (List.mem_cons_of_mem _ hy)
    refine ⟨fun y hy n hn => ?_, habsent⟩
    rcases List.mem_cons.mp hy with rfl | hy
    · simp [Counts] at hn
    · exact hcounts y hy n hn

/-! ### A window -/

/-- The step falls in the closed interval of a window's length from `a` on. -/
def inWindow (c : RateCall) (a : Int) (y : Entry (rateSystem X limit window)) : Bool :=
  decide (a ≤ y.pre.clock ∧ y.pre.clock ≤ a + Duration.seconds (window c.bucket))

/-- An interval of a window's length meets two lifetimes of the counter at
most: when it meets the newest one, the one but newest is all it can meet
besides. -/
theorem admitted_in_window (h : Run NoFailure w tr) (hlimit : 0 ≤ limit c.bucket)
    (hwindow : 1 ≤ window c.bucket) (a : Int) :
    ((tr.countP fun y => admits c y && inWindow c a y) : Int) ≤ 2 * limit c.bucket := by
  induction hlen : tr.length using Nat.strong_induction_on generalizing w tr with
  | _ n ih =>
  -- what is admitted in one lifetime, in the interval or not
  have hlife {w : World} {post pre : RateTrace X limit window}
      {x : Entry (rateSystem X limit window)} (hrun : Run NoFailure w (post ++ x :: pre))
      (hpost : ∀ y ∈ post, ¬ Counts c 1 y) :
      (((post ++ [x]).countP fun y => admits c y && inWindow c a y) : Int) ≤ limit c.bucket := by
    have hall := admitted_since_first hrun hlimit hwindow hpost
    have hsub : (post ++ [x]).countP (fun y => admits c y && inWindow c a y) ≤
        (post ++ [x]).countP (admits c) :=
      List.countP_mono_left fun y _ hy => (Bool.and_eq_true_iff.mp hy).1
    omega
  have hempty {l : RateTrace X limit window}
      (hl : ∀ y ∈ l, ∀ m, Counts c m y → inWindow c a y = false) :
      l.countP (fun y => admits c y && inWindow c a y) = 0 := by
    refine List.countP_eq_zero.mpr fun y hy hboth => ?_
    obtain ⟨hadmits, hin⟩ := Bool.and_eq_true_iff.mp hboth
    obtain ⟨m, -, hm⟩ := admits_iff.mp hadmits
    exact Bool.false_ne_true ((hl y hy m hm).symm.trans hin)
  by_cases hbirth : ∃ y ∈ tr, Counts c 1 y
  · obtain ⟨post, x, pre, rfl, hx, hpost⟩ := split_first hbirth
    have hsplit : (post ++ x :: pre).countP (fun y => admits c y && inWindow c a y) =
        (post ++ [x]).countP (fun y => admits c y && inWindow c a y) +
          pre.countP (fun y => admits c y && inWindow c a y) := by
      rw [← List.countP_append]
      simp
    obtain ⟨hrun, -, -⟩ := h.entry
    have hpre := ih pre.length (by rw [← hlen]; simp; omega) hrun rfl
    by_cases hmeet : ∃ y ∈ post ++ [x], inWindow c a y = true
    · -- then the counter began in the interval, or before it
      obtain ⟨y, hy, hin⟩ := hmeet
      have hstart : x.pre.clock ≤ a + Duration.seconds (window c.bucket) := by
        have hxy : x.pre.clock ≤ y.pre.clock := by
          rcases List.mem_append.mp hy with hy | hy
          · obtain ⟨p₁, p₂, rfl⟩ := List.append_of_mem hy
            rw [List.append_assoc, List.cons_append] at h
            obtain ⟨hrun', -, -⟩ := h.entry
            exact (counter hrun' hwindow (c := c)).clock x (by simp)
          · rw [List.mem_singleton.mp hy]
        exact hxy.trans (of_decide_eq_true hin).2
      obtain ⟨habsent, hcounter⟩ := first_absent h hwindow hx
      have hnow := hlife h hpost
      have hbefore : ((pre.countP fun y => admits c y && inWindow c a y) : Int) ≤ limit c.bucket := by
        by_cases hbirth' : ∃ y ∈ pre, Counts c 1 y
        · obtain ⟨post', x', pre', rfl, hx', hpost'⟩ := split_first hbirth'
          have hgap := (hcounter.absent habsent x' (by simp)).2 hx'
          obtain ⟨habsent', hcounter'⟩ := first_absent hrun hwindow hx'
          have hsplit' : (post' ++ x' :: pre').countP (fun y => admits c y && inWindow c a y) =
              (post' ++ [x']).countP (fun y => admits c y && inWindow c a y) +
                pre'.countP (fun y => admits c y && inWindow c a y) := by
            rw [← List.countP_append]
            simp
          have hnone : pre'.countP (fun y => admits c y && inWindow c a y) = 0 := by
            refine hempty fun z hz m hm => ?_
            have hlt := (hcounter'.absent habsent' z hz).1 m hm
            refine decide_eq_false fun hboth => ?_
            omega
          have hold := hlife hrun hpost'
          omega
        · have hnone := hempty fun y hy m hm =>
            (counts_nothing hrun hwindow (fun y hy hone => hbirth' ⟨y, hy, hone⟩) y hy m hm).elim
          omega
      omega
    · have hnone := hempty fun y hy m _ =>
        Bool.eq_false_iff.mpr fun hin => hmeet ⟨y, hy, hin⟩
      omega
  · have hnone := hempty fun y hy m hm =>
      (counts_nothing h hwindow (fun y hy hone => hbirth ⟨y, hy, hone⟩) y hy m hm).elim
    omega

/-! ### Calls that are let through -/

/-- Thread `t` has returned: its call has been let through. -/
def letThrough (t : ℕ) (tr : RateTrace X limit window) : Bool :=
  tr.any fun y => match y.item with
    | .done _ => decide (y.tid = t)
    | _ => false

/-- The entry counts for the call `c`. -/
def countsFor (c : RateCall) (y : Entry (rateSystem X limit window)) : Bool :=
  match y.item with
  | .act (.redisIncr key (.ok _)) => decide (key = c.key)
  | _ => false

theorem letThrough_iff {t : ℕ} : letThrough t tr = true ↔ Returned t () tr := by
  constructor
  · intro h
    obtain ⟨⟨t', w', item⟩, hmem, hy⟩ := List.any_eq_true.mp h
    split at hy
    · rename_i o heq
      obtain rfl : t' = t := of_decide_eq_true hy
      obtain rfl : item = .done o := heq
      exact ⟨w', hmem⟩
    · simp at hy
  · rintro ⟨w', hmem⟩
    exact List.any_eq_true.mpr ⟨_, hmem, by simp⟩

/-- A call counts once. -/
theorem counts_once (h : Run NoFailure w tr) {t : ℕ} {key : String} {r : Except Fault Int}
    (hmem : .redisIncr key r ∈ own t tr) : [.redisIncr key r] <:+ own t tr := by
  obtain ⟨l, hl⟩ := suffix_of_mem hmem
  obtain ⟨_, _, _, _, q, -, -, -, -, hL, -⟩ := h.licensed (rate_contract X limit window) hl
  obtain rfl : l = [] := hL.2
  exact hl

/-- A call that counts and is let through has counted to its limit at most. -/
theorem admits_of_letThrough (h : Run NoFailure w tr) {y : Entry (rateSystem X limit window)}
    (hy : y ∈ tr) (hcount : countsFor c y = true) (hpass : letThrough y.tid tr = true) :
    admits c y = true := by
  obtain ⟨t, w₀, item⟩ := y
  unfold countsFor at hcount
  split at hcount
  · rename_i key n heq
    obtain rfl := of_decide_eq_true hcount
    obtain rfl : item = .act (.redisIncr c.key (.ok n)) := heq
    obtain ⟨w₁, hdone⟩ := letThrough_iff.mp hpass
    obtain ⟨post, pre, w₂, rfl, -, -, hen⟩ := h.entry_of_mem hdone
    obtain ⟨-, q, -, m, hm, hmem⟩ := hen.justified (rate_contract X limit window)
    have hsub : own t pre <:+ own t (post ++ ⟨t, w₁, .done ()⟩ :: pre) :=
      own_suffix ((List.suffix_cons _ _).trans (List.suffix_append _ _)) t
    have hone := counts_once h (mem_own.mpr ⟨w₀, hy⟩)
    have hone' := counts_once h (hsub.subset hmem)
    have heq := (List.suffix_of_suffix_length_le hone hone' le_rfl).eq_of_length rfl
    obtain ⟨hkey, hn⟩ : c.key = q.key ∧ n = m := by simpa using heq
    obtain rfl := RateCall.key_inj hkey
    exact admits_iff.mpr ⟨n, hn ▸ hm, rfl⟩
  · simp at hcount

/-- The calls that count for `c` in `seg` and have been let through by the end
of `tr`. -/
def passed (c : RateCall) (seg tr : RateTrace X limit window) : ℕ :=
  seg.countP fun y => countsFor c y && letThrough y.tid tr

theorem passed_le {seg : RateTrace X limit window} (h : Run NoFailure w tr) (hseg : seg ⊆ tr)
    {f : Entry (rateSystem X limit window) → Bool} (hf : ∀ y ∈ seg, f y = true) :
    passed c seg tr ≤ seg.countP fun y => admits c y && f y := by
  refine List.countP_mono_left fun y hy hboth => ?_
  obtain ⟨hcount, hpass⟩ := Bool.and_eq_true_iff.mp hboth
  rw [admits_of_letThrough h (hseg hy) hcount hpass, hf y hy]
  rfl

/-- `seg` lies within one lifetime of the counter of `c`: the counter is there
before every step but the first. -/
def OneLifetime (c : RateCall) (seg : RateTrace X limit window) : Prop :=
  ∀ y ∈ seg.dropLast, y.pre.redis.lookup c.key ≠ none

/-- **The rate limit.** However the two steps of the calls interleave, and
however long one is delayed: at most `limit` calls that count in one lifetime
of their counter are let through, and at most twice as many of those that count
in any interval of a window's length. Calls for another bucket or address do
not touch the counter. -/
theorem rate_limit_bound (h : Run NoFailure w tr) (hlimit : 0 ≤ limit c.bucket)
    (hwindow : 1 ≤ window c.bucket) :
    (∀ post seg pre, tr = post ++ (seg ++ pre) → OneLifetime c seg →
      (passed c seg tr : Int) ≤ limit c.bucket) ∧
    (∀ a, (passed c (tr.filter (inWindow c a)) tr : Int) ≤ 2 * limit c.bucket) ∧
    ∀ (post pre : RateTrace X limit window) (t : ℕ) (w₀ w₁ : World)
      (item : Item (rateSystem X limit window)) (c' : RateCall), tr = post ++ ⟨t, w₀, item⟩ :: pre →
      Started t c' pre → c' ≠ c → Enabled pre ⟨t, w₀, item⟩ w₁ →
      w₁.redis.lookup c.key = w₀.redis.lookup c.key := by
  refine ⟨fun post seg pre htr hlife => ?_, fun a => ?_, fun post pre t w₀ w₁ item c' htr hq hne hen => ?_⟩
  · rcases List.eq_nil_or_concat' seg with rfl | ⟨seg', x₀, rfl⟩
    · simpa [passed] using hlimit
    have hsub : seg' ++ x₀ :: pre <:+ tr := ⟨post, by simp [htr]⟩
    have hseg : seg' ++ [x₀] ⊆ tr := by
      refine fun y hy => hsub.subset ?_
      simpa using List.mem_append_left pre hy
    have hle : passed c (seg' ++ [x₀]) tr ≤ (seg' ++ [x₀]).countP (admits c) := by
      simpa using passed_le (c := c) h hseg (f := fun _ => true) (by simp)
    obtain ⟨w', hrun⟩ := h.of_suffix hsub
    -- a first count would have found the counter absent
    have hnone : ∀ y ∈ seg', ¬ Counts c 1 y := by
      intro y hy hone
      have hpresent := hlife y (by simpa using hy)
      obtain ⟨p₁, p₂, rfl⟩ := List.append_of_mem hy
      rw [List.append_assoc, List.cons_append] at hrun
      exact hpresent (first_absent hrun hwindow hone).1
    have hbound := admitted_since_first hrun hlimit hwindow hnone
    omega
  · have hsub : tr.filter (inWindow c a) ⊆ tr := fun y hy => (List.mem_filter.mp hy).1
    have hle := passed_le (c := c) h hsub (f := inWindow c a) fun y hy => (List.mem_filter.mp hy).2
    have hfilter : (tr.filter (inWindow c a)).countP (fun y => admits c y && inWindow c a y) =
        tr.countP fun y => admits c y && inWindow c a y := by
      rw [List.countP_filter]
      exact List.countP_congr fun y _ => by simp
    have hbound := admitted_in_window h hlimit hwindow a
    omega
  · cases item with
    | start q =>
        cases hen
        rfl
    | done o =>
        cases hen
        rfl
    | act e =>
        rw [htr] at h
        obtain ⟨-, hA, -⟩ := h.entry
        obtain ⟨q, hq', hL, hact⟩ := hen.licensed (rate_contract X limit window)
        obtain ⟨hrun, -, -⟩ := h.entry
        obtain rfl := hrun.started_unique hq' hq
        have hstep : World.act X t e w₀ = some w₁ := hact
        cases counter_step hwindow hL hstep (hA e rfl) (c := c) with
        | other hsame hquiet => exact hsame
        | first habsent hnow hfresh =>
            exact (hne (RateCall.key_inj hL.1.symm)).elim
        | next hbefore hnow hfresh =>
            exact (hne (RateCall.key_inj hL.1.symm)).elim
        | opened hbefore hnow hmine =>
            exact (hne (RateCall.key_inj hL.1.symm)).elim

namespace Scenario

/-- A limit of one for every bucket, and a window of a minute. -/
abbrev RateSystem := rateSystem external (fun _ => 1) (fun _ => 60)

def loginCall : RateCall := ⟨home, .login⟩

/-- The second call counts before the first has set the window; the third
comes when the window is over. -/
def threeCalls : List (Move RateSystem) :=
  [.start 0 loginCall, .step 0 0, .start 1 loginCall, .step 1 0, .step 0 0, .step 0 0,
    .env (Duration.seconds 119), .start 2 loginCall, .step 2 0, .step 2 0, .step 2 0]

end Scenario

open Scenario in
/-- Of three calls the first and the third are let through, which is all the
bound allows. -/
theorem rate_limit_bound_run : ∃ (w : World)
    (tr : RateTrace external (fun _ => 1) (fun _ => 60)) (a : Int), Run NoFailure w tr ∧
      passed loginCall (tr.filter (inWindow loginCall a)) tr = 2 ∧
      (passed loginCall (tr.filter (inWindow loginCall a)) tr : Int) ≤ 2 * 1 := by
  have hplay : ((Play.start (S := RateSystem) (world [])).run (World.reply external) NoFailure
      threeCalls).any (fun p => decide (passed loginCall
        (p.trace.filter (inWindow loginCall (Duration.seconds 59))) p.trace = 2)) = true := by
    decide +kernel
  obtain ⟨p, hp, hcheck⟩ := (Option.any_eq_true _ _).mp hplay
  have hinit : RateSystem.init (world []) := fun c => rfl
  have hrun := (Play.run_sound hinit hp).reached
  exact ⟨p.world, p.trace, _, hrun, of_decide_eq_true hcheck,
    (rate_limit_bound hrun (c := loginCall) (by decide) (by decide)).2.1 _⟩

end ZeroTrustProxy
