import ZeroTrustProxy.Contract.Effects

/-!
Where session records and tokens come from.

In every run, whatever the schedule and whichever commands fail, a record
that is stored under a session key goes back to one login: it has kept the
fields the login gave it, and when it says that a second factor was verified,
a second factor was verified. A token that validates names the session of the
login that signed it. Both rest on identifiers being drawn once.
-/

namespace ZeroTrustProxy

open Concurrent

variable {X : External} {srv : ProxyServer}

/-- The traces of the proxy. -/
abbrev ProxyTrace (X : External) (srv : ProxyServer) := Trace (proxySystem X srv)

variable {A : ProxyTrace X srv → Entry (proxySystem X srv) → Prop} {w : World}
  {tr tr' : ProxyTrace X srv}

/-- What a step that performs an event says. -/
theorem enabled_event {t : ℕ} {w₀ w' : World} {e : Event}
    (h : Enabled tr ⟨t, w₀, .act e⟩ w') :
    ∃ q, Started t q tr ∧ Licence X srv q (own t tr) e.command ∧
      World.act X t e w₀ = some w' :=
  h.licensed (proxy_contract X srv)

/-- What the entry of an event says. -/
theorem event_entry {post pre : ProxyTrace X srv} {t : ℕ} {w₀ : World} {e : Event}
    (h : Run A w (post ++ ⟨t, w₀, .act e⟩ :: pre)) :
    Run A w₀ pre ∧ A pre ⟨t, w₀, .act e⟩ ∧ ∃ q w₁, Started t q pre ∧
      Licence X srv q (own t pre) e.command ∧ World.act X t e w₀ = some w₁ := by
  obtain ⟨hrun, hA, w₁, hen⟩ := h.entry
  obtain ⟨q, hq, hL, hact⟩ := enabled_event hen
  exact ⟨hrun, hA, q, w₁, hq, hL, hact⟩

/-- What an event in the history of a thread says, at the point where the
thread performed it. -/
theorem history_event (h : Run A w tr) {t : ℕ} {e : Event} {l : List Event}
    (hl : e :: l <:+ own t tr) :
    ∃ post pre w₀ w₁ q, tr = post ++ ⟨t, w₀, .act e⟩ :: pre ∧ own t pre = l ∧ Run A w₀ pre ∧
      Started t q pre ∧ Licence X srv q l e.command ∧ World.act X t e w₀ = some w₁ :=
  h.licensed (proxy_contract X srv) hl

/-! ### The fields that stay -/

/-- A record without the fields that handlers change. -/
def Session.fixed (x : Session) : Session :=
  { x with lastActivity := 0, mfaVerified := false, riskScore := 0 }

@[simp] theorem Session.fixed_updateActivity (x : Session) (activity : Int) :
    (x.updateActivity activity).fixed = x.fixed := rfl

@[simp] theorem fixed_stamp (x : Session) (mfa : Bool) (risk : ℕ) :
    (stamp x mfa risk).fixed = x.fixed := rfl

@[simp] theorem fixed_upgrade (x : Session) : (upgrade x).fixed = x.fixed := rfl

theorem Session.id_eq_of_fixed {x y : Session} (h : x.fixed = y.fixed) : x.id = y.id :=
  show x.fixed.id = y.fixed.id by rw [h]

theorem Session.userId_eq_of_fixed {x y : Session} (h : x.fixed = y.fixed) :
    x.userId = y.userId :=
  show x.fixed.userId = y.fixed.userId by rw [h]

theorem Session.expiresAt_eq_of_fixed {x y : Session} (h : x.fixed = y.fixed) :
    x.expiresAt = y.expiresAt :=
  show x.fixed.expiresAt = y.fixed.expiresAt by rw [h]

/-! ### What happens once, and in which order -/

/-- Clocks do not go back. -/
theorem clock_le (h : Run A w tr) {x : Entry (proxySystem X srv)} (hx : x ∈ tr) :
    x.pre.clock ≤ w.clock := by
  have hcons {w : World} {tr : ProxyTrace X srv} (hJ : ∀ x ∈ tr, x.pre.clock ≤ w.clock) (t : ℕ)
      (item : Item (proxySystem X srv)) :
      ∀ x ∈ (⟨t, w, item⟩ : Entry (proxySystem X srv)) :: tr, x.pre.clock ≤ w.clock := by
    intro x hx
    rcases List.mem_cons.mp hx with rfl | hx
    · exact le_rfl
    · exact hJ x hx
  refine (h.invariant (proxy_contract X srv) (fun w tr => ∀ x ∈ tr, x.pre.clock ≤ w.clock)
    ?_ ?_ ?_ ?_ ?_).1 x hx
  · intro w _ x hx
    exact (List.not_mem_nil hx).elim
  · intro w w' tr m _ hJ henv x hx
    obtain ⟨hle, rfl⟩ : w.clock ≤ m ∧ w.advance m = w' := by simpa using henv
    exact (hJ x hx).trans hle
  · intro w tr t q hJ _
    exact hcons hJ t _
  · intro w w' tr t q e _ hJ _ _ _ hact _
    rw [World.act_clock hact]
    exact hcons hJ t _
  · intro w tr t q o _ hJ _ _ _
    exact hcons hJ t _

/-- A reading of the clock is not ahead of the clock. -/
theorem reading_le (h : Run A w tr) {t : ℕ} {use : ClockUse} {now : Int}
    (hread : .utcNow use now ∈ own t tr) : now ≤ w.clock := by
  obtain ⟨l, hl⟩ := suffix_of_mem hread
  obtain ⟨post, pre, w₀, w₁, q, rfl, -, -, -, -, hact⟩ := history_event h hl
  have hentry : ⟨t, w₀, .act (.utcNow use now)⟩ ∈
      post ++ (⟨t, w₀, .act (.utcNow use now)⟩ : Entry (proxySystem X srv)) :: pre :=
    List.mem_append_right _ List.mem_cons_self
  rw [(World.clock_reply hact).2]
  exact clock_le h hentry

theorem drawn_of_mem (h : Run A w tr) {t : ℕ} {w₀ : World} {id : Uuid}
    (hx : ⟨t, w₀, .act (.newUuid id)⟩ ∈ tr) : id ∈ w.drawn := by
  refine (h.invariant (proxy_contract X srv)
    (fun w tr => ∀ t w₀ id, ⟨t, w₀, .act (.newUuid id)⟩ ∈ tr → id ∈ w.drawn)
    ?_ ?_ ?_ ?_ ?_).1 t w₀ id hx
  · intro w _ t w₀ id hx
    exact (List.not_mem_nil hx).elim
  · intro w w' tr m _ hJ henv t w₀ id hx
    obtain ⟨-, rfl⟩ : w.clock ≤ m ∧ w.advance m = w' := by simpa using henv
    exact hJ t w₀ id hx
  · intro w tr t q hJ _ t' w₀ id hx
    exact hJ t' w₀ id (by simpa using hx)
  · intro w w' tr t q e _ hJ _ _ _ hact _ t' w₀ id hx
    rcases List.mem_cons.mp hx with heq | hx
    · cases heq
      have hdraw : World.act X t (.newUuid id) w = some w' := hact
      rw [(World.uuid_reply hdraw).2]
      exact List.mem_cons_self
    · rcases World.act_drawn hact with hsame | ⟨id', -, -, hdrawn⟩
      · rw [hsame]
        exact hJ t' w₀ id hx
      · rw [hdrawn]
        exact List.mem_cons_of_mem _ (hJ t' w₀ id hx)
  · intro w tr t q o _ hJ _ _ _ t' w₀ id hx
    exact hJ t' w₀ id (by simpa using hx)

/-- No identifier is drawn twice. -/
theorem newUuid_fresh {post pre : ProxyTrace X srv} {t : ℕ} {w₀ : World} {id : Uuid}
    (h : Run A w (post ++ ⟨t, w₀, .act (.newUuid id)⟩ :: pre)) :
    ∀ y ∈ pre, y.item ≠ .act (.newUuid id) := by
  rintro ⟨t', w', item⟩ hy rfl
  obtain ⟨hrun, -, q, w₁, -, -, hact⟩ := event_entry h
  exact (World.uuid_reply hact).1 (drawn_of_mem hrun hy)

/-- Two histories in which an identifier was drawn are those of one thread. -/
theorem drawn_once (hrun : Run A w tr) {t t' : ℕ} {id : Uuid} {l l' : List Event}
    (h : .newUuid id :: l <:+ own t tr) (h' : .newUuid id :: l' <:+ own t' tr) :
    t = t' ∧ l = l' := by
  obtain ⟨post, pre, w₀, _, _, rfl, hown, _⟩ := history_event hrun h
  obtain ⟨post', pre', w₀', _, _, htr, hown', _⟩ := history_event hrun h'
  obtain ⟨heq, rfl⟩ := split_eq (p := fun y => y.item = .act (.newUuid id)) htr rfl rfl
    (newUuid_fresh hrun) (newUuid_fresh (htr ▸ hrun))
  obtain ⟨rfl, -⟩ := Entry.mk.inj heq
  exact ⟨rfl, by rw [← hown, ← hown']⟩

/-! ### Creation -/

/-- Thread `t` has logged `user` in and has sent the first write of `x`. -/
structure Creation (tr : ProxyTrace X srv) (t : ℕ) (q : Request) (h₀ : List Event)
    (user : UserRow) (mfa : Bool) (x : Session) : Prop where
  started : Started t q tr
  built : SessionBuilt X srv q h₀ user mfa x
  performed : ∃ r, createEvent srv x r :: h₀ <:+ own t tr

theorem Creation.mono {t : ℕ} {q : Request} {h₀ : List Event} {user : UserRow} {mfa : Bool}
    {x : Session} (h : Creation tr t q h₀ user mfa x) (hsub : tr <:+ tr') :
    Creation tr' t q h₀ user mfa x where
  started := h.started.mono hsub.subset
  built := h.built
  performed := by
    obtain ⟨r, hr⟩ := h.performed
    exact ⟨r, hr.trans (own_suffix hsub t)⟩

theorem Creation.userId {t : ℕ} {q : Request} {h₀ : List Event} {user : UserRow} {mfa : Bool}
    {x : Session} (h : Creation tr t q h₀ user mfa x) : x.userId = user.id.text := by
  cases h.built
  rfl

/-- The login behind a creation. -/
theorem Creation.login {t : ℕ} {q : Request} {h₀ : List Event} {user : UserRow} {mfa : Bool}
    {x : Session} (h : Creation tr t q h₀ user mfa x) :
    ∃ body, LoginPassed X q h₀ body user mfa := by
  cases h.built with
  | intro now id deviceId userAgent login bounds =>
      exact ⟨_, login.mono (List.suffix_append [_, _] _)⟩

theorem Creation.history {t : ℕ} {q : Request} {h₀ : List Event} {user : UserRow} {mfa : Bool}
    {x : Session} (h : Creation tr t q h₀ user mfa x) : h₀ <:+ own t tr := by
  obtain ⟨r, hr⟩ := h.performed
  exact (List.suffix_cons _ _).trans hr

/-- A session id belongs to one creation. -/
theorem Creation.unique (hrun : Run A w tr) {t t' : ℕ} {q q' : Request} {h₀ h₀' : List Event}
    {user user' : UserRow} {mfa mfa' : Bool} {x x' : Session}
    (h : Creation tr t q h₀ user mfa x) (h' : Creation tr t' q' h₀' user' mfa' x')
    (hid : x.id = x'.id) : t = t' ∧ h₀ = h₀' ∧ x = x' := by
  obtain ⟨id, now, l, rfl, hxid, -⟩ := h.built.drawn
  obtain ⟨id', now', l', rfl, hxid', -⟩ := h'.built.drawn
  obtain rfl : id = id' := Uuid.ext (by rw [← hxid, hid, hxid'])
  obtain ⟨rfl, hl⟩ := drawn_once hrun h.history h'.history
  obtain ⟨r, hr⟩ := h.performed
  obtain ⟨r', hr'⟩ := h'.performed
  rw [← hl] at hr'
  have heq := (List.suffix_of_suffix_length_le hr hr' (by simp)).eq_of_length (by simp)
  refine ⟨rfl, by rw [hl], ?_⟩
  simpa using (Event.redisSetEx.inj (List.cons.inj heq).1).2.1

/-! ### Tokens -/

/-- A login has signed a token with these claims. -/
def Issued (tr : ProxyTrace X srv) (claims : Claims) : Prop :=
  ∃ t q h h₀ update user mfa x, Started t q tr ∧ h <:+ own t tr ∧
    TokenIssue X srv q h claims h₀ update user mfa x

theorem Issued.mono {claims : Claims} (h : Issued tr claims) (hsub : tr <:+ tr') :
    Issued tr' claims := by
  obtain ⟨t, q, h, h₀, update, user, mfa, x, hq, hh, hissue⟩ := h
  exact ⟨t, q, h, h₀, update, user, mfa, x, hq.mono hsub.subset, hh.trans (own_suffix hsub t),
    hissue⟩

/-- The claims of a token name a session of their subject. -/
theorem Issued.creation {claims : Claims} (h : Issued tr claims) :
    ∃ t q h₀ user mfa x, Creation tr t q h₀ user mfa x ∧ x.id = claims.sessionId ∧
      x.userId = claims.sub := by
  obtain ⟨t, q, h, h₀, update, user, mfa, x, hq, hh, hissue⟩ := h
  obtain ⟨risk, -, hsuffix, -⟩ := hissue.created
  refine ⟨t, q, h₀, user, mfa, x, ⟨hq, hissue.built, .ok (), ?_⟩, hissue.sessionId.symm,
    hissue.sub.symm⟩
  exact (List.suffix_append _ _).trans (hsuffix.trans hh)

theorem token_issued (h : Run A w tr) {token : String} {claims : Claims}
    (htoken : w.tokens.lookup token = some claims) : Issued tr claims := by
  refine (h.invariant (proxy_contract X srv)
    (fun w tr => ∀ token claims, w.tokens.lookup token = some claims → Issued tr claims)
    ?_ ?_ ?_ ?_ ?_).1 token claims htoken
  · intro w hinit token claims htoken
    simp [hinit.tokens] at htoken
  · intro w w' tr m _ hJ henv
    obtain ⟨-, rfl⟩ : w.clock ≤ m ∧ w.advance m = w' := by simpa using henv
    exact hJ
  · intro w tr t q hJ _ token claims htoken
    exact (hJ token claims htoken).mono (List.suffix_cons _ _)
  · intro w w' tr t q e _ hJ _ hq hL hact _ token claims htoken
    rcases World.act_tokens hact with hsame | ⟨claims', token', rfl, -, htokens⟩
    · rw [hsame] at htoken
      exact (hJ token claims htoken).mono (List.suffix_cons _ _)
    · rw [htokens, List.lookup_cons] at htoken
      split at htoken
      · obtain rfl := Option.some.inj htoken
        obtain ⟨h₀, update, user, mfa, x, hissue⟩ := hL
        exact ⟨t, q, own t tr, h₀, update, user, mfa, x,
          hq.mono (List.subset_cons_self _ _), own_suffix (List.suffix_cons _ _) t, hissue⟩
      · exact (hJ token claims htoken).mono (List.suffix_cons _ _)
  · intro w tr t q o _ hJ _ _ _ token claims htoken
    exact (hJ token claims htoken).mono (List.suffix_cons _ _)

/-- A request with a validated token presents one that a login has signed. -/
theorem Bearer.issued (h : Run A w tr) {t : ℕ} {q : Request} {l : List Event} {claims : Claims}
    (hb : Bearer q l claims) (hl : l <:+ own t tr) : Issued tr claims := by
  obtain ⟨token, -, hmem⟩ := hb
  obtain ⟨l₂, hl₂⟩ := suffix_of_mem hmem
  obtain ⟨post, pre, w₀, w₁, q', rfl, -, hrun, -, -, hact⟩ := history_event h (hl₂.trans hl)
  obtain ⟨-, htoken, -⟩ := World.decode_reply hact
  exact (token_issued hrun htoken).mono ((List.suffix_cons _ _).trans (List.suffix_append _ _))

/-! ### Records -/

/-- A second factor has been verified for the session `y`: in the login that
created it, or by an `mfa/verify` whose token names it, against the secret in
a row of its own user. -/
def SecondFactor (tr : ProxyTrace X srv) (y : Session) : Prop :=
  (∃ t q h₀ user x, Creation tr t q h₀ user true x ∧ x.fixed = y.fixed) ∨
    ∃ t q h claims user, Started t q tr ∧ h <:+ own t tr ∧ MfaPassed X q h claims user ∧
      claims.sessionId = y.id ∧ claims.sub = y.userId

/-- The record `y` goes back to a login. -/
structure Origin (tr : ProxyTrace X srv) (y : Session) : Prop where
  creation : ∃ t q h₀ user mfa x, Creation tr t q h₀ user mfa x ∧ x.fixed = y.fixed
  factor : y.mfaVerified = true → SecondFactor tr y

theorem SecondFactor.mono {y : Session} (h : SecondFactor tr y) (hsub : tr <:+ tr') :
    SecondFactor tr' y := by
  rcases h with ⟨t, q, h₀, user, x, hc, hx⟩ | ⟨t, q, h, claims, user, hq, hh, hm, hid, hu⟩
  · exact .inl ⟨t, q, h₀, user, x, hc.mono hsub, hx⟩
  · exact .inr ⟨t, q, h, claims, user, hq.mono hsub.subset, hh.trans (own_suffix hsub t), hm,
      hid, hu⟩

theorem Origin.mono {y : Session} (h : Origin tr y) (hsub : tr <:+ tr') : Origin tr' y where
  creation := by
    obtain ⟨t, q, h₀, user, mfa, x, hc, hx⟩ := h.creation
    exact ⟨t, q, h₀, user, mfa, x, hc.mono hsub, hx⟩
  factor := fun hmfa => (h.factor hmfa).mono hsub

/-- A record keeps its origin when only its activity changes. -/
theorem Origin.updateActivity {y : Session} (h : Origin tr y) (activity : Int) :
    Origin tr (y.updateActivity activity) where
  creation := h.creation
  factor := h.factor

/-- A token that names the session of a record belongs to the record's user. -/
theorem Origin.owner (hrun : Run A w tr) {y : Session} (h : Origin tr y) {claims : Claims}
    (hissued : Issued tr claims) (hid : claims.sessionId = y.id) : claims.sub = y.userId := by
  obtain ⟨t, q, h₀, user, mfa, x, hc, hx⟩ := h.creation
  obtain ⟨t', q', h₀', user', mfa', x', hc', hid', hsub⟩ := hissued.creation
  have heq : x.id = x'.id := by
    rw [Session.id_eq_of_fixed hx, hid', hid]
  obtain ⟨-, -, rfl⟩ := hc.unique hrun hc' heq
  rw [← hsub, Session.userId_eq_of_fixed hx]

/-- What is stored under session keys. -/
def StoredOrigin (w : World) (tr : ProxyTrace X srv) : Prop :=
  ∀ id c, w.redis.lookup (sessionKey id) = some c →
    ∃ x, c.value = .session x ∧ x.id = id ∧ Origin tr x

/-- The record a `GET` of a session key has returned. -/
theorem read_origin_of_past (hrun : Run A w tr) (hpast : Past StoredOrigin tr) {t : ℕ}
    {id : String} {x : Session}
    (hread : .redisGet (sessionKey id) (.ok (some (.session x))) ∈ own t tr) :
    x.id = id ∧ Origin tr x := by
  obtain ⟨l, hl⟩ := suffix_of_mem hread
  obtain ⟨post, pre, w₀, w₁, q, rfl, -, hrun₀, -, -, hact⟩ := history_event hrun hl
  obtain ⟨-, hstored⟩ := World.read_reply hact
  obtain ⟨c, hc, hvalue⟩ := Option.map_eq_some_iff.mp hstored.symm
  obtain ⟨y, hy, hid, horigin⟩ := hpast _ pre (List.suffix_append _ _) id c hc
  obtain rfl : x = y := RedisValue.session.inj (hvalue.symm.trans hy)
  exact ⟨hid, horigin.mono ((List.suffix_cons _ _).trans (List.suffix_append _ _))⟩

/-- A session that `get_session` has returned is a stored one, touched. -/
theorem returned_read (hrun : Run A w tr) {t : ℕ} {id : String} {y : Session}
    (hret : .getSessionReturn id (.ok y) ∈ own t tr) :
    ∃ x activity, y = x.updateActivity activity ∧
      .redisGet (sessionKey id) (.ok (some (.session x))) ∈ own t tr := by
  obtain ⟨l, hl⟩ := suffix_of_mem hret
  obtain ⟨post, pre, w₀, w₁, q, rfl, hown, -, -, hL, -⟩ := history_event hrun hl
  obtain ⟨body, h₀, rfl, hfetch⟩ := hL
  obtain ⟨x, now, activity, update, -, rfl, -, rfl⟩ := hfetch.ok_inv
  refine ⟨x, activity, rfl, hl.subset (List.mem_cons_of_mem _ ?_)⟩
  simp

/-- Every write of a session record is the first write of a new session, or
writes a record that has an origin already. -/
theorem SessionWrite.built_or_origin (hrun : Run A w tr) (hpast : Past StoredOrigin tr) {t : ℕ}
    {q : Request} {y : Session} {secs : ℕ} (hq : Started t q tr)
    (h : SessionWrite X srv q (own t tr) y secs) :
    (∃ user mfa, SessionBuilt X srv q (own t tr) user mfa y ∧
      secs = asU64 (srv.config.sessionDurationMinutes * 60)) ∨ Origin tr y := by
  generalize hown : own t tr = l at h
  cases h with
  | created built => exact .inl ⟨_, _, built, rfl⟩
  | @stamped h user mfa x n risk built left =>
      have hc : Creation tr t q h user mfa x :=
        ⟨hq, built, .ok (), hown ▸ List.suffix_cons _ _⟩
      refine .inr ⟨⟨t, q, h, user, mfa, x, hc, rfl⟩, ?_⟩
      rintro (rfl : mfa = true)
      exact .inl ⟨t, q, h, user, x, hc, rfl⟩
  | @touched h claims x n activity now bearer live left =>
      have hread : .redisGet (sessionKey claims.sessionId) (.ok (some (.session x))) ∈ own t tr := by
        rw [hown]
        simp
      exact .inr ((read_origin_of_past hrun hpast hread).2.updateActivity activity)
  | @upgraded h claims user x n passed left =>
      have hret : .getSessionReturn claims.sessionId (.ok x) ∈ own t tr := by
        rw [hown]
        simp
      obtain ⟨x₀, activity, rfl, hread⟩ := returned_read hrun hret
      obtain ⟨hid, horigin⟩ := read_origin_of_past hrun hpast hread
      have hh : h <:+ own t tr := hown ▸ List.suffix_append [_, _] h
      have howner := horigin.owner hrun (passed.bearer.issued hrun hh) hid.symm
      exact .inr ⟨horigin.creation,
        fun _ => .inr ⟨t, q, h, claims, user, hq, hh, passed, hid.symm, howner⟩⟩

/-- After its write a record has an origin. -/
theorem SessionWrite.origin (hrun : Run A w tr) (hpast : Past StoredOrigin tr) {t : ℕ}
    {q : Request} {y : Session} {secs : ℕ} {r : Except Fault Unit} {w₀ : World}
    (hq : Started t q tr) (h : SessionWrite X srv q (own t tr) y secs) :
    Origin (⟨t, w₀, .act (.redisSetEx (sessionKey y.id) (.session y) secs r)⟩ :: tr) y := by
  rcases h.built_or_origin hrun hpast hq with ⟨user, mfa, built, rfl⟩ | horigin
  · refine ⟨⟨t, q, own t tr, user, mfa, y, ⟨hq.mono (List.subset_cons_self _ _), built, r, ?_⟩,
      rfl⟩, ?_⟩
    · rw [own_act_self]
      exact List.suffix_rfl
    · intro hmfa
      rw [built.mfaVerified] at hmfa
      exact (Bool.false_ne_true hmfa).elim
  · exact horigin.mono (List.suffix_cons _ _)

theorem stored_origin_past (h : Run A w tr) : StoredOrigin w tr ∧ Past StoredOrigin tr := by
  refine h.invariant (proxy_contract X srv) StoredOrigin ?_ ?_ ?_ ?_ ?_
  · intro w hinit id c hc
    simp [hinit.redis] at hc
  · intro w w' tr m _ hJ henv id c hc
    obtain ⟨-, rfl⟩ : w.clock ≤ m ∧ w.advance m = w' := by simpa using henv
    exact hJ id c (ExpiringStore.lookup_advance_eq_some.mp hc).1
  · intro w tr t q hJ _ id c hc
    obtain ⟨x, hx, hid, horigin⟩ := hJ id c hc
    exact ⟨x, hx, hid, horigin.mono (List.suffix_cons _ _)⟩
  · intro w w' tr t q e hrun hJ hpast hq hL hact _ id c hc
    rcases sessionKey_step hL hact id with hsame | ⟨x, secs, r, rfl, rfl, hwrite, -, hnew⟩ |
      ⟨r, rfl, -, rfl⟩
    · rw [hsame] at hc
      obtain ⟨x, hx, hid, horigin⟩ := hJ id c hc
      exact ⟨x, hx, hid, horigin.mono (List.suffix_cons _ _)⟩
    · obtain rfl := Option.some.inj (hnew.symm.trans hc)
      exact ⟨x, rfl, rfl, hwrite.origin hrun hpast hq⟩
    · simp [World.del] at hc
  · intro w tr t q o _ hJ _ _ _ id c hc
    obtain ⟨x, hx, hid, horigin⟩ := hJ id c hc
    exact ⟨x, hx, hid, horigin.mono (List.suffix_cons _ _)⟩

/-- **Provenance of records**: what is stored under the key of a session is a
record of that session, and goes back to a login. -/
theorem stored_origin (h : Run A w tr) {id : String} {c : Cell RedisValue}
    (hc : w.redis.lookup (sessionKey id) = some c) :
    ∃ x, c.value = .session x ∧ x.id = id ∧ Origin tr x :=
  (stored_origin_past h).1 id c hc

theorem read_origin (h : Run A w tr) {t : ℕ} {id : String} {x : Session}
    (hread : .redisGet (sessionKey id) (.ok (some (.session x))) ∈ own t tr) :
    x.id = id ∧ Origin tr x :=
  read_origin_of_past h (stored_origin_past h).2 hread

/-- Session records are stored under their own keys only. -/
theorem session_keyed (h : Run A w tr) {key : String} {y : Session}
    (hread : w.read key = some (.session y)) : key = sessionKey y.id := by
  refine (h.invariant (proxy_contract X srv)
    (fun w _ => ∀ key y, w.read key = some (.session y) → key = sessionKey y.id)
    ?_ ?_ ?_ ?_ ?_).1 key y hread
  · intro w hinit key y hread
    rw [World.read, hinit.redis] at hread
    simp at hread
  · intro w w' tr m _ hJ henv key y hread
    obtain ⟨-, rfl⟩ : w.clock ≤ m ∧ w.advance m = w' := by simpa using henv
    obtain ⟨c, hc, hvalue⟩ := Option.map_eq_some_iff.mp hread
    refine hJ key y ?_
    rw [World.read, (ExpiringStore.lookup_advance_eq_some.mp hc).1, Option.map_some, hvalue]
  · exact fun _ hJ _ => hJ
  · intro w w' tr t q e _ hJ _ _ hL hact _ key y hread
    obtain hbefore | ⟨secs, r, rfl⟩ := World.session_act hact hread
    · exact hJ key y hbefore
    · obtain ⟨x, hkey, hvalue, -⟩ := hL
      rw [hkey, RedisValue.session.inj hvalue]
  · exact fun _ hJ _ _ _ => hJ

/-- A record that has been read goes back to a login, whatever key it was read
from. -/
theorem read_any_origin (h : Run A w tr) {t : ℕ} {key : String} {x : Session}
    (hread : .redisGet key (.ok (some (.session x))) ∈ own t tr) :
    key = sessionKey x.id ∧ Origin tr x := by
  obtain ⟨l, hl⟩ := suffix_of_mem hread
  obtain ⟨_, _, _, _, _, -, -, hrun, -, -, hact⟩ := history_event h hl
  have hkey := session_keyed hrun (World.read_reply hact).2.symm
  rw [hkey] at hread
  exact ⟨hkey, (read_origin h hread).2⟩

/-- A record with an origin has the fields of the creation of its id. -/
theorem Origin.fixed_eq (h : Run A w tr) {y : Session} (ho : Origin tr y) {t : ℕ} {q : Request}
    {h₀ : List Event} {user : UserRow} {mfa : Bool} {x : Session}
    (hc : Creation tr t q h₀ user mfa x) (hid : y.id = x.id) : y.fixed = x.fixed := by
  obtain ⟨t', q', h₀', user', mfa', x', hc', hx'⟩ := ho.creation
  obtain ⟨-, -, rfl⟩ := hc'.unique h hc ((Session.id_eq_of_fixed hx').trans hid)
  exact hx'.symm

/-- The id of a session that is being built is not that of one created before. -/
theorem SessionBuilt.fresh (h : Run A w tr) {t : ℕ} {q : Request} {user : UserRow} {mfa : Bool}
    {y : Session} (built : SessionBuilt X srv q (own t tr) user mfa y) {t₀ : ℕ} {q₀ : Request}
    {h₀ : List Event} {user₀ : UserRow} {mfa₀ : Bool} {x : Session}
    (hc : Creation tr t₀ q₀ h₀ user₀ mfa₀ x) : y.id ≠ x.id := by
  intro hid
  obtain ⟨id, now, l, hl, hyid, -⟩ := built.drawn
  obtain ⟨id', now', l', rfl, hxid, -⟩ := hc.built.drawn
  obtain rfl : id = id' := Uuid.ext (by rw [← hyid, hid, hxid])
  have hlast : .newUuid id :: .utcNow .sessionNew now :: l <:+ own t tr := by
    rw [hl]
  obtain ⟨rfl, hll⟩ := drawn_once h hlast hc.history
  obtain ⟨r, hr⟩ := hc.performed
  have hlength := hr.length_le
  simp only [hl, hll, List.length_cons] at hlength
  omega

/-- What is written for a session that has been created has its fields. -/
theorem SessionWrite.fixed_eq (h : Run A w tr) {t : ℕ} {q : Request} {y : Session} {secs : ℕ}
    (hq : Started t q tr) (hw : SessionWrite X srv q (own t tr) y secs) {t₀ : ℕ} {q₀ : Request}
    {h₀ : List Event} {user : UserRow} {mfa : Bool} {x : Session}
    (hc : Creation tr t₀ q₀ h₀ user mfa x) (hid : y.id = x.id) : y.fixed = x.fixed := by
  rcases hw.built_or_origin h (stored_origin_past h).2 hq with ⟨user', mfa', built, -⟩ | horigin
  · exact (built.fresh h hc hid).elim
  · exact horigin.fixed_eq h hc hid

end ZeroTrustProxy
