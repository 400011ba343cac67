import ZeroTrustProxy.Runs.Scenario

/-!
How requests come by a session.

`GetSession` is one call of `get_session` in a run, from its call to its
return. What a request reads there is a record of the session its token names,
and what it writes back is what it has read. A request without a failed
command writes what it sends.
-/

namespace ZeroTrustProxy

open Concurrent

variable {X : External} {srv : ProxyServer}
  {A : ProxyTrace X srv → Entry (proxySystem X srv) → Prop} {w : World} {tr : ProxyTrace X srv}

/-! ### Calls of `get_session` -/

/-- Thread `t` calls `get_session` after `pre` and returns `r` from it; `mid` is
what happens in between, of all threads. -/
structure GetSession (tr : ProxyTrace X srv) (t : ℕ) (id : String)
    (r : Except ProxyError Session) (mid pre : ProxyTrace X srv) : Prop where
  span : ∃ post w₁ w₀, tr = post ++ ⟨t, w₁, .act (.getSessionReturn id r)⟩ ::
    (mid ++ ⟨t, w₀, .act (.getSessionCall id)⟩ :: pre)
  single : .getSessionCall id ∉ own t mid

theorem GetSession.mono {tr' : ProxyTrace X srv} {t : ℕ} {id : String}
    {r : Except ProxyError Session} {mid pre : ProxyTrace X srv} (h : GetSession tr t id r mid pre)
    (hsub : tr <:+ tr') : GetSession tr' t id r mid pre := by
  obtain ⟨seg, rfl⟩ := hsub
  obtain ⟨post, w₁, w₀, rfl⟩ := h.span
  exact ⟨⟨seg ++ post, w₁, w₀, by simp⟩, h.single⟩

theorem UpdateRun.no_call {x : Session} {update : List Event} {r : Except ProxyError Unit}
    (h : UpdateRun x update r) (id : String) : .getSessionCall id ∉ update := by
  cases h <;> simp

theorem FetchRun.no_call {id : String} {body : List Event} {r : Except ProxyError Session}
    (h : FetchRun X id body r) (id' : String) : .getSessionCall id' ∉ body := by
  cases h with
  | live live run => simp [run.no_call id']
  | _ => simp

/-- Between the call and the return the thread performs the body. -/
theorem GetSession.fetch (hrun : Run A w tr) {t : ℕ} {id : String}
    {r : Except ProxyError Session} {mid pre : ProxyTrace X srv}
    (h : GetSession tr t id r mid pre) : FetchRun X id (own t mid) r := by
  obtain ⟨post, w₁, w₀, rfl⟩ := h.span
  obtain ⟨-, -, q, -, -, hL, -⟩ := event_entry hrun
  obtain ⟨body, h₀, heq, hfetch⟩ := hL
  rw [own_append, own_act_self] at heq
  obtain rfl : own t mid = body := by
    rcases List.append_eq_append_iff.mp heq with ⟨as, rfl, has⟩ | ⟨as, hmid, has⟩
    · cases as with
      | nil => simp
      | cons e as =>
          obtain ⟨rfl, -⟩ := List.cons.inj has
          exact (hfetch.no_call id (by simp)).elim
    · cases as with
      | nil => simpa using hmid
      | cons e as =>
          obtain ⟨rfl, -⟩ := List.cons.inj has
          exact (h.single (by simp [hmid])).elim
  exact hfetch

/-- Every return of `get_session` ends a call of it. -/
theorem getSession_of_return {post pre : ProxyTrace X srv} {t : ℕ} {w₁ : World} {id : String}
    {r : Except ProxyError Session}
    (hrun : Run A w (post ++ ⟨t, w₁, .act (.getSessionReturn id r)⟩ :: pre)) :
    ∃ mid pre', GetSession (post ++ ⟨t, w₁, .act (.getSessionReturn id r)⟩ :: pre) t id r mid
      pre' := by
  obtain ⟨-, -, q, -, -, ⟨body, h₀, heq, hfetch⟩, -⟩ := event_entry hrun
  obtain ⟨mid, w₀, pre', rfl, rfl, -⟩ := own_split heq
  exact ⟨mid, pre', ⟨post, w₁, w₀, rfl⟩, hfetch.no_call id⟩

variable {t₀ : ℕ} {q₀ : Request} {h₀ : List Event} {user : UserRow} {mfa : Bool} {x : Session}

theorem GetSession.subset {t : ℕ} {id : String} {r : Except ProxyError Session}
    {mid pre : ProxyTrace X srv} (h : GetSession tr t id r mid pre) : mid ⊆ tr := by
  obtain ⟨post, w₁, w₀, rfl⟩ := h.span
  intro y hy
  simp [hy]

/-- An event of the body of a `get_session`, where the thread performed it. -/
theorem GetSession.event_split (hrun : Run A w tr) {t : ℕ} {id : String}
    {r : Except ProxyError Session} {mid pre : ProxyTrace X srv} (h : GetSession tr t id r mid pre)
    {e : Event} {l₁ l₂ : List Event} (he : own t mid = l₁ ++ e :: l₂) :
    ∃ w₁ w₂ w₀ mid₂, ⟨t, w₁, .act e⟩ ∈ mid ∧ own t mid₂ = l₂ ∧
      mid₂ ++ ⟨t, w₀, .act (.getSessionCall id)⟩ :: pre <:+ tr ∧
      Run A w₁ (mid₂ ++ ⟨t, w₀, .act (.getSessionCall id)⟩ :: pre) ∧
      A (mid₂ ++ ⟨t, w₀, .act (.getSessionCall id)⟩ :: pre) ⟨t, w₁, .act e⟩ ∧
      World.act X t e w₁ = some w₂ := by
  obtain ⟨post, w₁, w₀, rfl⟩ := h.span
  obtain ⟨mid₁, w₂, mid₂, rfl, -, hmid₂⟩ := own_split he
  have hsplit : post ++ ⟨t, w₁, .act (.getSessionReturn id r)⟩ ::
      (mid₁ ++ ⟨t, w₂, .act e⟩ :: mid₂ ++ ⟨t, w₀, .act (.getSessionCall id)⟩ :: pre) =
      (post ++ ⟨t, w₁, .act (.getSessionReturn id r)⟩ :: mid₁) ++ ⟨t, w₂, .act e⟩ ::
        (mid₂ ++ ⟨t, w₀, .act (.getSessionCall id)⟩ :: pre) := by simp
  rw [hsplit] at hrun ⊢
  obtain ⟨hrun₂, hA, q, w₃, -, -, hact⟩ := event_entry hrun
  exact ⟨w₂, w₃, w₀, mid₂, by simp, hmid₂,
    (List.suffix_cons _ _).trans (List.suffix_append _ _), hrun₂, hA, hact⟩

theorem GetSession.event (hrun : Run A w tr) {t : ℕ} {id : String} {r : Except ProxyError Session}
    {mid pre : ProxyTrace X srv} (h : GetSession tr t id r mid pre) {e : Event}
    (he : e ∈ own t mid) :
    ∃ w₁ w₂ before, ⟨t, w₁, .act e⟩ ∈ mid ∧ pre <:+ before ∧ before <:+ tr ∧ Run A w₁ before ∧
      A before ⟨t, w₁, .act e⟩ ∧ World.act X t e w₁ = some w₂ := by
  obtain ⟨l₁, l₂, hl⟩ := List.append_of_mem he
  obtain ⟨w₁, w₂, w₀, mid₂, hmem, -, hbefore, hrun₁, hA, hact⟩ := h.event_split hrun hl
  exact ⟨w₁, w₂, _, hmem, (List.suffix_cons _ _).trans (List.suffix_append _ _), hbefore, hrun₁,
    hA, hact⟩

/-- `get_session` is called for the session of a token. -/
theorem GetSession.call (hrun : Run A w tr) {t : ℕ} {id : String} {r : Except ProxyError Session}
    {mid pre : ProxyTrace X srv} (h : GetSession tr t id r mid pre) :
    pre <:+ tr ∧ ∃ w₀ q claims, Run A w₀ pre ∧ Started t q pre ∧ Bearer q (own t pre) claims ∧
      claims.sessionId = id := by
  obtain ⟨post, w₁, w₀, rfl⟩ := h.span
  have hsplit : post ++ ⟨t, w₁, .act (.getSessionReturn id r)⟩ ::
      (mid ++ ⟨t, w₀, .act (.getSessionCall id)⟩ :: pre) =
      (post ++ ⟨t, w₁, .act (.getSessionReturn id r)⟩ :: mid) ++
        ⟨t, w₀, .act (.getSessionCall id)⟩ :: pre := by simp
  rw [hsplit] at hrun ⊢
  obtain ⟨hrun₀, -, q, -, hq, ⟨claims, hb, hid⟩, -⟩ := event_entry hrun
  exact ⟨(List.suffix_cons _ _).trans (List.suffix_append _ _), w₀, q, claims, hrun₀, hq, hb,
    hid.symm⟩

/-- The session that `get_session` is asked for has been created before. -/
theorem GetSession.creation (hrun : Run A w tr) {t : ℕ} {id : String}
    {r : Except ProxyError Session} {mid pre : ProxyTrace X srv}
    (h : GetSession tr t id r mid pre) :
    pre <:+ tr ∧ ∃ t₀ q₀ h₀ user mfa x, Creation pre t₀ q₀ h₀ user mfa x ∧ x.id = id := by
  obtain ⟨hpre, w₀, q, claims, hrun₀, -, hb, hid⟩ := h.call hrun
  obtain ⟨t₀, q₀, h₀, user, mfa, x, hc, hx, -⟩ := (hb.issued hrun₀ List.suffix_rfl).creation
  exact ⟨hpre, t₀, q₀, h₀, user, mfa, x, hc, hx.trans hid⟩

/-- A session whose `get_session` has begun had been created by then. -/
theorem GetSession.created (hrun : Run A w tr) {t : ℕ} {r : Except ProxyError Session}
    {mid pre : ProxyTrace X srv} (h : GetSession tr t x.id r mid pre)
    (hc : Creation tr t₀ q₀ h₀ user mfa x) :
    ∃ t₁ q₁ h₁ user' mfa', Creation pre t₁ q₁ h₁ user' mfa' x := by
  obtain ⟨hpre, t₁, q₁, h₁, user', mfa', x', hc', hid⟩ := h.creation hrun
  obtain ⟨-, -, rfl⟩ := (hc'.mono hpre).unique hrun hc hid
  exact ⟨t₁, q₁, h₁, user', mfa', hc'⟩

/-- The record that `get_session` reads has the fields of the session. -/
theorem GetSession.read_fixed (hrun : Run A w tr) {t : ℕ} {r : Except ProxyError Session}
    {mid pre : ProxyTrace X srv} (h : GetSession tr t x.id r mid pre)
    (hc : Creation tr t₀ q₀ h₀ user mfa x) {y : Session}
    (hread : .redisGet (sessionKey x.id) (.ok (some (.session y))) ∈ own t mid) :
    y.fixed = x.fixed := by
  obtain ⟨post, w₁, w₀, rfl⟩ := h.span
  have hown : .redisGet (sessionKey x.id) (.ok (some (.session y))) ∈
      own t (post ++ ⟨t, w₁, .act (.getSessionReturn x.id r)⟩ ::
        (mid ++ ⟨t, w₀, .act (.getSessionCall x.id)⟩ :: pre)) := by
    simp [own_append, hread]
  obtain ⟨hid, horigin⟩ := read_origin hrun hown
  exact horigin.fixed_eq hrun hc hid

/-- The step is not a storage command that failed. -/
def Entry.succeeds (x : Entry (proxySystem X srv)) : Bool :=
  match x.item with
  | .act e => !e.failed
  | _ => true

/-! ### Requests that start at a point of a run -/

/-- What a thread has done that has no step before `x₀`, the start of a request. -/
theorem event_since {seg tr₀ : ProxyTrace X srv} {τ : ℕ} {w₀ : World} {q₀ : Request}
    (hrun : Run A w (seg ++ ⟨τ, w₀, .start q₀⟩ :: tr₀)) {t : ℕ} (hnew : ∀ z ∈ tr₀, z.tid ≠ t)
    {e : Event} (he : e ∈ own t (seg ++ ⟨τ, w₀, .start q₀⟩ :: tr₀)) :
    ∃ post w₁ pre w₂, seg = post ++ ⟨t, w₁, .act e⟩ :: pre ∧
      Run A w₁ (pre ++ ⟨τ, w₀, .start q₀⟩ :: tr₀) ∧ World.act X t e w₁ = some w₂ := by
  obtain ⟨w₁, hmem⟩ := mem_own.mp he
  have hseg : ⟨t, w₁, .act e⟩ ∈ seg := by
    rcases List.mem_append.mp hmem with hseg | hrest
    · exact hseg
    · rcases List.mem_cons.mp hrest with heq | hold
      · simp at heq
      · exact (hnew _ hold rfl).elim
  obtain ⟨post, pre, rfl⟩ := List.append_of_mem hseg
  rw [List.append_assoc, List.cons_append] at hrun
  obtain ⟨hrun₁, -, q, w₂, -, -, hact⟩ := event_entry hrun
  exact ⟨post, w₁, pre, w₂, rfl, hrun₁, hact⟩

/-! ### Tokens in requests -/

theorem lookup_act {t : ℕ} {e : Event} {w' : World} {token : String} {claims : Claims}
    (hact : World.act X t e w = some w') (hold : w.tokens.lookup token = some claims) :
    w'.tokens.lookup token = some claims := by
  rcases World.act_tokens hact with hsame | ⟨_, token', -, hfresh, htokens⟩
  · rw [hsame, hold]
  · have hne : token ≠ token' := by
      rintro rfl
      simp [hold] at hfresh
    rw [htokens, List.lookup_cons, beq_eq_false_iff_ne.mpr hne, hold]

/-- A token keeps its claims from the event on that shows them. -/
theorem lookup_of_event (h : Run A w tr) {t : ℕ} {e : Event} {token : String} {claims : Claims}
    (hshown : ∀ {t w w'}, World.act X t e w = some w' → w'.tokens.lookup token = some claims)
    (hmem : e ∈ own t tr) : w.tokens.lookup token = some claims := by
  refine (h.invariant (proxy_contract X srv) (fun w tr => ∀ t, e ∈ own t tr →
    w.tokens.lookup token = some claims) ?_ ?_ ?_ ?_ ?_).1 t hmem
  · intro w _ t hmem
    exact (List.not_mem_nil hmem).elim
  · intro w w' tr m _ hJ henv t hmem
    obtain ⟨-, rfl⟩ : w.clock ≤ m ∧ w.advance m = w' := by simpa using henv
    exact hJ t hmem
  · exact fun _ hJ _ t hmem => hJ t hmem
  · intro w w' tr t q e' _ hJ _ _ _ hact _ t' hmem
    by_cases ht : t = t'
    · subst ht
      rcases List.mem_cons.mp (own_act_self t w e' tr ▸ hmem) with rfl | hold
      · exact hshown hact
      · exact lookup_act hact (hJ t hold)
    · rw [own_act_ne ht] at hmem
      exact lookup_act hact (hJ t' hmem)
  · exact fun _ hJ _ _ _ t hmem => hJ t hmem

/-- A token keeps the claims it has once validated to. -/
theorem decoded_lookup (h : Run A w tr) {t : ℕ} {token : String} {claims : Claims}
    (hmem : .jwtDecode token (.ok claims) ∈ own t tr) : w.tokens.lookup token = some claims := by
  refine lookup_of_event h (fun hact => ?_) hmem
  obtain ⟨rfl, hlookup, -⟩ := World.decode_reply hact
  exact hlookup

/-- A token has the claims it has been signed for. -/
theorem signed_lookup (h : Run A w tr) {t : ℕ} {token : String} {claims : Claims}
    (hmem : .jwtEncode claims (.ok token) ∈ own t tr) : w.tokens.lookup token = some claims := by
  refine lookup_of_event h (fun hact => ?_) hmem
  obtain ⟨-, rfl⟩ := World.accept_eq_some.mp hact
  simp

/-- A request has the claims of one token. -/
theorem Bearer.unique (h : Run A w tr) {t t' : ℕ} {q : Request} {l l' : List Event}
    {claims claims' : Claims} (hb : Bearer q l claims) (hl : l <:+ own t tr)
    (hb' : Bearer q l' claims') (hl' : l' <:+ own t' tr) : claims = claims' := by
  obtain ⟨token, htoken, hmem⟩ := hb
  obtain ⟨token', htoken', hmem'⟩ := hb'
  obtain rfl := Except.ok.inj (htoken.symm.trans htoken')
  have hlookup := decoded_lookup h (hl.subset hmem)
  exact Option.some.inj (hlookup.symm.trans (decoded_lookup h (hl'.subset hmem')))

/-- The writes of a session whose token has been signed: what a `get_session`
has read, or the upgrade of what it has returned. -/
inductive WriteBack (X : External) (q : Request) : List Event → Session → Prop
  | touched {h : List Event} {x : Session} (n activity now : Int)
      (live : x.isExpired now = false) :
      WriteBack X q
        (.utcNow .sessionTtl n :: .utcNow .updateActivity activity :: .utcNow .isExpired now ::
          .redisGet (sessionKey x.id) (.ok (some (.session x))) :: .getSessionCall x.id :: h)
        (x.updateActivity activity)
  | upgraded {h : List Event} {claims : Claims} {user : UserRow} {x : Session} (n : Int)
      (passed : MfaPassed X q h claims user) :
      WriteBack X q (.utcNow .sessionTtl n :: .getSessionReturn x.id (.ok x) :: h) (upgrade x)

/-- A login completes its session before it signs the token, so that later
writes come from requests with that token. -/
theorem SessionWrite.writeBack (hrun : Run A w tr) {t : ℕ} {q : Request} {y : Session} {secs : ℕ}
    (hq : Started t q tr) (h : SessionWrite X srv q (own t tr) y secs) {claims : Claims}
    (hissued : Issued tr claims) (hid : claims.sessionId = y.id) : WriteBack X q (own t tr) y := by
  generalize hown : own t tr = l at h
  cases h with
  | @created _ user mfa _ built =>
      obtain ⟨t₁, q₁, h₁, user₁, mfa₁, x₁, hc, hx, -⟩ := hissued.creation
      exact ((hown ▸ built).fresh hrun hc (hid ▸ hx.symm)).elim
  | @stamped h user mfa x n risk built left =>
      exfalso
      obtain ⟨t₁, q₁, h₁, h₀, update, user₁, mfa₁, x₁, hq₁, hh₁, hissue⟩ := hissued
      obtain ⟨risk₁, hupdate, hsuffix, -⟩ := hissue.created
      have hc : Creation tr t q h user mfa x := ⟨hq, built, .ok (), hown ▸ List.suffix_cons _ _⟩
      have hc₁ : Creation tr t₁ q₁ h₀ user₁ mfa₁ x₁ :=
        ⟨hq₁, hissue.built, .ok (), (List.suffix_append _ _).trans (hsuffix.trans hh₁)⟩
      obtain ⟨rfl, rfl, rfl⟩ := hc.unique hrun hc₁ (hid.symm.trans hissue.sessionId)
      have hlast := hsuffix.trans hh₁
      rw [hown] at hlast
      -- the login whose token has been signed is past this write
      cases hupdate with
      | skipped none =>
          have heq := hlast.eq_of_length (by simp)
          obtain rfl : _ = n := by simpa using (List.cons.inj heq).1
          exact absurd left (by simpa [Session.ttl, stamp] using none)
      | written left' =>
          have hlength := hlast.length_le
          simp only [List.length_append, List.length_cons] at hlength
          omega
  | @touched h claims' x n activity now bearer live left =>
      have hread : .redisGet (sessionKey claims'.sessionId) (.ok (some (.session x))) ∈ own t tr := by
        rw [hown]
        simp
      rw [← (read_origin hrun hread).1]
      exact .touched n activity now live
  | @upgraded h claims' user x n passed left =>
      have hret : .getSessionReturn claims'.sessionId (.ok x) ∈ own t tr := by
        rw [hown]
        simp
      obtain ⟨x₀, activity, rfl, hread⟩ := returned_read hrun hret
      have hx : claims'.sessionId = (x₀.updateActivity activity).id :=
        (read_origin hrun hread).1.symm
      rw [hx]
      exact .upgraded n passed

/-- What is written back has been read. -/
theorem WriteBack.read (hrun : Run A w tr) {t : ℕ} {q : Request} {y : Session}
    (h : WriteBack X q (own t tr) y) :
    ∃ v, .redisGet (sessionKey y.id) v ∈ own t tr := by
  generalize hown : own t tr = l at h
  cases h with
  | @touched _ x n activity now live => exact ⟨.ok (some (.session x)), by simp⟩
  | @upgraded _ _ _ x n passed =>
      have hret : .getSessionReturn x.id (.ok x) ∈ own t tr := by
        rw [hown]
        simp
      obtain ⟨x₀, activity, -, hread⟩ := returned_read hrun hret
      rw [hown] at hread
      exact ⟨_, hread⟩

/-! ### Finding a call in a trace -/

/-- A call by a thread that has no entry in the earlier part of a trace starts
after that part. -/
theorem GetSession.after {t : ℕ} {id : String} {r : Except ProxyError Session}
    {mid pre seg tr₁ : ProxyTrace X srv} (h : GetSession (seg ++ tr₁) t id r mid pre)
    (hfresh : ∀ y ∈ tr₁, y.tid ≠ t) : tr₁ <:+ pre := by
  obtain ⟨post, w₁, w₀, hspan⟩ := h.span
  have hsplit : seg ++ tr₁ = (post ++ ⟨t, w₁, .act (.getSessionReturn id r)⟩ :: mid) ++
      ⟨t, w₀, .act (.getSessionCall id)⟩ :: pre := by simp [hspan]
  rcases List.append_eq_append_iff.mp hsplit with ⟨as, -, rfl⟩ | ⟨as, -, has⟩
  · exact (hfresh _ (List.mem_append_right _ List.mem_cons_self) rfl).elim
  · cases as with
    | nil =>
        rw [List.nil_append] at has
        exact (hfresh _ (has ▸ List.mem_cons_self) rfl).elim
    | cons y as =>
        obtain ⟨-, rfl⟩ := List.cons.inj has
        exact List.suffix_append _ _

/-- Thread `t` returns from `get_session` with an outcome that passes `f`. -/
def Entry.returns (t : ℕ) (id : String) (f : Except ProxyError Session → Bool)
    (e : Entry (proxySystem X srv)) : Bool :=
  match e.item with
  | .act (.getSessionReturn id' r) => decide (e.tid = t ∧ id' = id) && f r
  | _ => false

theorem exists_getSession {t : ℕ} {id : String} {f : Except ProxyError Session → Bool}
    (hrun : Run A w tr) (h : tr.any (Entry.returns t id f) = true) :
    ∃ r mid pre, GetSession tr t id r mid pre ∧ f r = true := by
  obtain ⟨⟨t', w₁, item⟩, hmem, hx⟩ := List.any_eq_true.mp h
  unfold Entry.returns at hx
  split at hx
  · rename_i id' r heq
    obtain ⟨hcall, hf⟩ := Bool.and_eq_true_iff.mp hx
    obtain ⟨ht, rfl⟩ := of_decide_eq_true hcall
    obtain rfl : t' = t := ht
    obtain rfl : item = .act (.getSessionReturn id' r) := heq
    obtain ⟨post, pre, rfl⟩ := List.append_of_mem hmem
    obtain ⟨mid, pre', hcall⟩ := getSession_of_return hrun
    exact ⟨r, mid, pre', hcall, hf⟩
  · simp at hx

/-- The record stored for a session expires more than a second after `n`. -/
def World.storesPast (w : World) (id : String) (n : Int) : Bool :=
  match w.read (sessionKey id) with
  | some (.session y) => decide (n < y.expiresAt - Duration.second)
  | _ => false

theorem storesPast_expires (hrun : Run A w tr) (hc : Creation tr t₀ q₀ h₀ user mfa x) {n : Int}
    (h : w.storesPast x.id n = true) : n < x.expiresAt - Duration.second := by
  unfold World.storesPast at h
  split at h
  · rename_i y hread
    obtain ⟨c, hc', hvalue⟩ := Option.map_eq_some_iff.mp hread
    obtain ⟨y', hy', hid, horigin⟩ := stored_origin hrun hc'
    obtain rfl : y = y' := RedisValue.session.inj (hvalue.symm.trans hy')
    rw [← Session.expiresAt_eq_of_fixed (horigin.fixed_eq hrun hc hid)]
    exact of_decide_eq_true h
  · simp at h

end ZeroTrustProxy
