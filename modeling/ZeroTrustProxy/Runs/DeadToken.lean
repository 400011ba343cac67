import ZeroTrustProxy.Runs.Prediction
import ZeroTrustProxy.Runs.Revocation

/-!
What the token of a session that has gone can still do.

A token outlives its session. The gate and `handle_mfa_verify` ask for the
session, and so does nothing else: with a dead token `handle_mfa_enroll` writes a
secret and `handle_logout_all` ends the other sessions of its user. Every other
request leaves the accounts and the live sessions as they are.
-/

namespace ZeroTrustProxy

open Concurrent

variable {X : External} {srv : ProxyServer}
  {A : ProxyTrace X srv → Entry (proxySystem X srv) → Prop} {w w₁ w₂ : World}
  {tr : ProxyTrace X srv} {t₀ : ℕ} {q₀ : Request} {h₀ : List Event} {user : UserRow} {mfa : Bool}
  {x : Session}

/-! ### Live sessions -/

/-- The record is stored and has not expired. -/
def Live (s : Session) (w : World) : Prop :=
  w.read (sessionKey s.id) = some (.session s) ∧ s.isExpired w.clock = false

theorem Live.lookup {s : Session} (h : Live s w) :
    ∃ c, w.redis.lookup (sessionKey s.id) = some c ∧ c.value = .session s :=
  Option.map_eq_some_iff.mp h.1

/-- A live record goes back to a login. -/
theorem Live.origin {s : Session} (h : Live s w) (hrun : Run A w tr) : Origin tr s := by
  obtain ⟨c, hc, hvalue⟩ := h.lookup
  obtain ⟨y, hy, -, horigin⟩ := stored_origin hrun hc
  obtain rfl : s = y := RedisValue.session.inj (hvalue.symm.trans hy)
  exact horigin

/-- A session that has gone is not live. -/
theorem Live.not_gone {s : Session} {pre : ProxyTrace X srv} (h : Live s w₁) (hrun : Run A w tr)
    (hrun₁ : Run A w₁ pre) (hpre : pre <:+ tr) (hc : Creation tr t₀ q₀ h₀ user mfa x)
    (hid : s.id = x.id) : ¬ Gone x w₁ := by
  have hfixed := ((h.origin hrun₁).mono hpre).fixed_eq hrun hc hid
  have hexpires := Session.expiresAt_eq_of_fixed hfixed
  rintro (hnone | hover)
  · obtain ⟨c, hlookup, -⟩ := h.lookup
    rw [hid, hnone] at hlookup
    simp at hlookup
  · have hlive : w₁.clock ≤ s.expiresAt := by simpa [Session.isExpired] using h.2
    omega

/-- What `get_session` returns had not gone when it was read. -/
theorem returned_not_gone (hrun : Run A w tr) (hc : Creation tr t₀ q₀ h₀ user mfa x) {t : ℕ}
    {s : Session} (hret : .getSessionReturn x.id (.ok s) ∈ own t tr) :
    ∃ w₁ v, ⟨t, w₁, .act (.redisGet (sessionKey x.id) v)⟩ ∈ tr ∧ ¬ Gone x w₁ := by
  obtain ⟨l, hl⟩ := suffix_of_mem hret
  obtain ⟨-, -, -, -, -, -, -, -, -, ⟨body, h', rfl, hfetch⟩, -⟩ := history_event hrun hl
  obtain ⟨z, now, activity, update, hlive, rfl, -, rfl⟩ := hfetch.ok_inv
  have hcheck : .utcNow .isExpired now :: .redisGet (sessionKey x.id) (.ok (some (.session z))) ::
      .getSessionCall x.id :: h' <:+ own t tr := by
    refine List.IsSuffix.trans ?_ ((List.suffix_cons _ _).trans hl)
    exact ⟨update ++ [Event.utcNow .updateActivity activity], by simp⟩
  obtain ⟨post, pre, w₂, _, _, rfl, hown, hrun₂, -, -, hclock⟩ := history_event hrun hcheck
  obtain ⟨-, rfl⟩ := World.clock_reply hclock
  obtain ⟨mid, w₁, rest, rfl, -⟩ := own_last hown
  have hread : (⟨t, w₁, .act (.redisGet (sessionKey x.id) (.ok (some (.session z))))⟩ :
      Entry (proxySystem X srv)) ∈ mid ++
        ⟨t, w₁, .act (.redisGet (sessionKey x.id) (.ok (some (.session z))))⟩ :: rest :=
    List.mem_append_right _ List.mem_cons_self
  refine ⟨w₁, _, List.mem_append_right _ (List.mem_cons_of_mem _ hread), ?_⟩
  obtain ⟨hrun₁, -, -, _, -, -, hget⟩ := event_entry hrun₂
  obtain ⟨-, hstored⟩ := World.read_reply hget
  obtain ⟨hid, -⟩ := read_origin hrun₂ (mem_own.mpr ⟨w₁, hread⟩)
  have hlive₁ : Live z w₁ := by
    refine ⟨hid ▸ hstored.symm, ?_⟩
    have hle : w₁.clock ≤ w₂.clock := clock_le hrun₂ hread
    simp only [Session.isExpired, decide_eq_false_iff_not] at hlive ⊢
    omega
  refine hlive₁.not_gone hrun hrun₁ ?_ hc hid
  exact ((List.suffix_cons _ _).trans (List.suffix_append _ _)).trans
    ((List.suffix_cons _ _).trans (List.suffix_append _ _))

/-! ### The steps of a request with a dead token -/

/-- Thread `τ` serves a request, other than a login, whose token names the
session `x`. The session has gone whenever the thread takes a step. -/
structure PresentsDead (x : Session) (claims : Claims) (τ : ℕ) (q : Request)
    (tr : ProxyTrace X srv) : Prop where
  started : Started τ q tr
  other : q.route ≠ .login
  bearer : ∀ claims', Bearer q (own τ tr) claims' → claims' = claims
  named : claims.sessionId = x.id
  gone : ∀ w₁ e, ⟨τ, w₁, .act e⟩ ∈ tr → Gone x w₁

section Steps

variable {claims : Claims} {τ : ℕ} {q : Request} {e : Event} {pre : ProxyTrace X srv}

theorem PresentsDead.sessionId (hd : PresentsDead x claims τ q tr) {h : List Event}
    {claims' : Claims} (hsub : h <:+ own τ tr) (hb : Bearer q h claims') :
    claims'.sessionId = x.id := by
  rw [hd.bearer claims' (hb.mono hsub), hd.named]

/-- The request gets no session. -/
theorem PresentsDead.no_session (hd : PresentsDead x claims τ q tr) (hrun : Run A w tr)
    (hc : Creation tr t₀ q₀ h₀ user mfa x) {s : Session} :
    .getSessionReturn x.id (.ok s) ∉ own τ tr := by
  intro hret
  obtain ⟨w₁, v, hread, hnot⟩ := returned_not_gone hrun hc hret
  exact hnot (hd.gone w₁ _ hread)

/-- What the request writes is a record of the session that has gone. -/
theorem PresentsDead.write_id (hd : PresentsDead x claims τ q tr) (hrun : Run A w₁ pre)
    (hpre : pre <:+ tr) {y : Session} {secs : ℕ} (hwrite : SessionWrite X srv q (own τ pre) y secs) :
    y.id = x.id := by
  obtain ⟨claims', hb, hid⟩ := hwrite.bearer hrun hd.other
  rw [← hid]
  exact hd.sessionId (own_suffix hpre τ) hb

/-- What the request deletes is the record of the session that has gone or, when
it logs out from everywhere, one of the user. -/
theorem PresentsDead.delete_id (hd : PresentsDead x claims τ q tr) (hrun : Run A w₁ pre)
    (hpre : pre <:+ tr) {s : Session} (hlive : Live s w₁)
    (hdelete : SessionDelete q (own τ pre) (sessionKey s.id)) :
    s.id = x.id ∨ q.route = .logoutAll ∧ s.userId = claims.sub := by
  have hsub : own τ pre <:+ own τ tr := own_suffix hpre τ
  generalize hkey : sessionKey s.id = key at hdelete
  generalize hown : own τ pre = l at hdelete hsub
  cases hdelete with
  | @expired h claims' z now bearer expiry =>
      left
      rw [sessionKey_inj.mp hkey]
      exact hd.sessionId ((List.suffix_append [_, _, _] h).trans hsub) bearer
  | logout route bearer =>
      left
      rw [sessionKey_inj.mp hkey]
      exact hd.sessionId hsub bearer
  | @logoutAll h claims' z key route bearer read owner =>
      right
      obtain rfl := hd.bearer claims' (bearer.mono hsub)
      rw [← hown] at read
      obtain ⟨-, horigin⟩ := read_any_origin hrun read
      obtain ⟨t', q', h', user', mfa', y, hc', hfixed⟩ := horigin.creation
      have hid : s.id = y.id := (sessionKey_inj.mp hkey).trans (Session.id_eq_of_fixed hfixed).symm
      have hsame := (hlive.origin hrun).fixed_eq hrun hc' hid
      exact ⟨route, (Session.userId_eq_of_fixed (hsame.trans hfixed)).trans owner⟩

/-- **What a dead token can still do.** No step of the request forwards anything;
the accounts change by an enrolment or a registration only, and a live session
only where its user is logged out from everywhere. -/
theorem PresentsDead.step (hd : PresentsDead x claims τ q tr) (hrun : Run A w tr)
    (hc : Creation tr t₀ q₀ h₀ user mfa x) (hmem : ⟨τ, w₁, .act e⟩ ∈ tr)
    (hact : World.act X τ e w₁ = some w₂) :
    (∀ u a, e ≠ .upstream u a) ∧
      (w₂.users = w₁.users ∨ q.route = .mfaEnroll ∨ q.route = .register) ∧
      ∀ s, Live s w₁ → w₂.redis.lookup (sessionKey s.id) = w₁.redis.lookup (sessionKey s.id) ∨
        q.route = .logoutAll ∧ s.userId = claims.sub := by
  obtain ⟨post, pre, htr⟩ := List.append_of_mem hmem
  have hpre : pre <:+ tr := htr ▸ (List.suffix_cons _ _).trans (List.suffix_append _ _)
  obtain ⟨hrun₁, -, q', -, hq', hL, -⟩ := event_entry (htr ▸ hrun)
  obtain rfl := hrun.started_unique hd.started (hq'.mono hpre.subset)
  have hsub : own τ pre <:+ own τ tr := own_suffix hpre τ
  refine ⟨?_, ?_, ?_⟩
  · rintro u a rfl
    obtain ⟨claims', session, risk, hgate⟩ := hL
    have hread := hgate.read
    rw [hd.sessionId hsub hgate.bearer] at hread
    exact hd.no_session hrun hc (hsub.subset hread)
  · obtain hsame | ⟨id, secret, r, rfl, -⟩ | ⟨username, email, hash, r, row, rfl, -⟩ :=
      World.act_users hact
    · exact .inl hsame
    · exact .inr (.inl hL.1)
    · exact .inr (.inr hL)
  · intro s hlive
    have hother : s.id ≠ x.id :=
      fun hid => hlive.not_gone hrun hrun₁ hpre hc hid (hd.gone w₁ e hmem)
    obtain hsame | ⟨y, secs, r, rfl, hy, hwrite, -⟩ | ⟨r, rfl, hdelete, -⟩ :=
      sessionKey_step hL hact s.id
    · exact .inl hsame
    · exact (hother (hy.symm.trans (hd.write_id hrun₁ hpre hwrite))).elim
    · exact .inr ((hd.delete_id hrun₁ hpre hlive hdelete).resolve_left hother)

end Steps

/-! ### A request that runs alone -/

section Alone

variable {seg tr₀ : ProxyTrace X srv} {τ : ℕ} {w₀ : World} {q : Request}

/-- No step of thread `τ` changes an account or a live session. -/
def Harmless (τ : ℕ) (seg : ProxyTrace X srv) : Prop :=
  ∀ w₁ e w₂, ⟨τ, w₁, .act e⟩ ∈ seg → World.act X τ e w₁ = some w₂ →
    w₂.users = w₁.users ∧
      ∀ s, Live s w₁ → w₂.redis.lookup (sessionKey s.id) = w₁.redis.lookup (sessionKey s.id)

/-- The accounts are those of `w₀`, and so are its live sessions, but for those
that have come to their end since. -/
def Unchanged (w₀ w : World) : Prop :=
  w.users = w₀.users ∧ ∀ s, Live s (w₀.advance w.clock) →
    w.redis.lookup (sessionKey s.id) = (w₀.advance w.clock).redis.lookup (sessionKey s.id)

theorem live_advance {s : Session} {m : Int} :
    Live s (w.advance m) ↔
      ∃ c, w.redis.lookup (sessionKey s.id) = some c ∧ c.alive m = true ∧ c.value = .session s ∧
        s.isExpired m = false := by
  constructor
  · intro h
    obtain ⟨c, hc, hvalue⟩ := h.lookup
    obtain ⟨hlookup, halive⟩ := ExpiringStore.lookup_advance_eq_some.mp hc
    exact ⟨c, hlookup, halive, hvalue, h.2⟩
  · rintro ⟨c, hlookup, halive, hvalue, hlive⟩
    have hc : (w.advance m).redis.lookup (sessionKey s.id) = some c :=
      ExpiringStore.lookup_advance_eq_some.mpr ⟨hlookup, halive⟩
    exact ⟨by rw [World.read, hc, Option.map_some, hvalue], hlive⟩

theorem Unchanged.refl : Unchanged w₀ w₀ := by
  refine ⟨rfl, fun s hlive => ?_⟩
  obtain ⟨c, hlookup, halive, -, -⟩ := live_advance.mp hlive
  rw [hlookup]
  exact (ExpiringStore.lookup_advance_eq_some.mpr ⟨hlookup, halive⟩).symm

theorem Unchanged.advance {m : Int} (h : Unchanged w₀ w) (hle : w.clock ≤ m) :
    Unchanged w₀ (w.advance m) := by
  refine ⟨h.1, fun s (hlive : Live s (w₀.advance m)) => ?_⟩
  obtain ⟨c, hlookup, halive, hvalue, hover⟩ := live_advance.mp hlive
  have halive₁ : c.alive w.clock = true := Cell.alive_of_le halive hle
  have hover₁ : s.isExpired w.clock = false := by
    simp only [Session.isExpired, decide_eq_false_iff_not] at hover ⊢
    omega
  have hsame := h.2 s (live_advance.mpr ⟨c, hlookup, halive₁, hvalue, hover₁⟩)
  have hthen : (w₀.advance w.clock).redis.lookup (sessionKey s.id) = some c :=
    ExpiringStore.lookup_advance_eq_some.mpr ⟨hlookup, halive₁⟩
  calc (w.advance m).redis.lookup (sessionKey s.id)
      = some c := ExpiringStore.lookup_advance_eq_some.mpr ⟨hsame.trans hthen, halive⟩
    _ = (w₀.advance m).redis.lookup (sessionKey s.id) :=
        (ExpiringStore.lookup_advance_eq_some.mpr ⟨hlookup, halive⟩).symm

theorem Unchanged.act {t : ℕ} {e : Event} (h : Unchanged w₀ w) (hact : World.act X t e w = some w₁)
    (husers : w₁.users = w.users)
    (hlive : ∀ s, Live s w → w₁.redis.lookup (sessionKey s.id) = w.redis.lookup (sessionKey s.id)) :
    Unchanged w₀ w₁ := by
  have hclock : w₁.clock = w.clock := World.act_clock hact
  refine ⟨husers.trans h.1, fun s hs => ?_⟩
  rw [hclock] at hs ⊢
  have hsame := h.2 s hs
  obtain ⟨c, hc, hvalue⟩ := hs.lookup
  have hnow : Live s w := by
    refine ⟨?_, hs.2⟩
    rw [World.read, hsame, hc, Option.map_some, hvalue]
  exact (hlive s hnow).trans hsame

/-- What a request that runs alone leaves unchanged. -/
theorem Harmless.alone (hrun : Run A w (seg ++ ⟨τ, w₀, .start q⟩ :: tr₀)) (hh : Harmless τ seg)
    (halone : ∀ y ∈ seg, y.tid = τ) : Unchanged w₀ w := by
  refine (hrun.since (proxy_contract X srv)
    (fun w seg => Harmless τ seg → (∀ y ∈ seg, y.tid = τ) → Unchanged w₀ w)
    ?_ ?_ ?_ ?_ ?_).1 hh halone
  · intro w _ _ hen _ _
    cases hen with
    | start => exact .refl
  · intro w w' seg m _ hJ henv hh halone
    obtain ⟨hle, rfl⟩ : w.clock ≤ m ∧ w.advance m = w' := by simpa using henv
    exact (hJ hh halone).advance hle
  · intro w seg t q hJ _ hh halone
    exact hJ (fun w₁ e w₂ hmem => hh w₁ e w₂ (List.mem_cons_of_mem _ hmem))
      fun y hy => halone y (List.mem_cons_of_mem _ hy)
  · intro w w' seg t q e _ hJ _ _ _ hact _ hh halone
    have hbefore := hJ (fun w₁ e w₂ hmem => hh w₁ e w₂ (List.mem_cons_of_mem _ hmem))
      fun y hy => halone y (List.mem_cons_of_mem _ hy)
    obtain rfl : t = τ := halone _ List.mem_cons_self
    obtain ⟨husers, hlive⟩ := hh w e w' List.mem_cons_self hact
    exact hbefore.act hact husers hlive
  · intro w seg t q o _ hJ _ _ _ hh halone
    exact hJ (fun w₁ e w₂ hmem => hh w₁ e w₂ (List.mem_cons_of_mem _ hmem))
      fun y hy => halone y (List.mem_cons_of_mem _ hy)

variable {claims : Claims} {token : String}

/-- The session of a request has gone when its key is not there, or when it had
expired before the request. -/
theorem gone_during (hrun : Run A w (seg ++ ⟨τ, w₀, .start q⟩ :: tr₀))
    (hdead : (∀ y ∈ seg, y.tid = τ → y.pre.redis.lookup (sessionKey x.id) = none) ∨
      x.expiresAt < w₀.clock) {y : Entry (proxySystem X srv)} (hy : y ∈ seg) (ht : y.tid = τ) :
    Gone x y.pre := by
  obtain hnone | hover := hdead
  · exact .inl (hnone y hy ht)
  · obtain ⟨post, pre, rfl⟩ := List.append_of_mem hy
    rw [List.append_assoc, List.cons_append] at hrun
    have hstart : (⟨τ, w₀, .start q⟩ : Entry (proxySystem X srv)) ∈
        pre ++ ⟨τ, w₀, .start q⟩ :: tr₀ := List.mem_append_right _ List.mem_cons_self
    exact .inr (lt_of_lt_of_le hover (clock_le hrun.entry.1 hstart))

/-- A token that had been signed before the request validates to the claims it
was signed for. -/
theorem signed_before (hrun : Run A w (seg ++ ⟨τ, w₀, .start q⟩ :: tr₀))
    (hheader : JwtManager.extractTokenFromHeader ((q.header "authorization").getD "") = .ok token)
    (htoken : w₀.tokens.lookup token = some claims) {t : ℕ} {claims' : Claims}
    (hb : Bearer q (own t (seg ++ ⟨τ, w₀, .start q⟩ :: tr₀)) claims') : claims' = claims := by
  obtain ⟨token', hheader', hdecode⟩ := hb
  obtain rfl := Except.ok.inj (hheader.symm.trans hheader')
  obtain ⟨t', hsigned⟩ := token_signed hrun.entry.1 htoken
  have hsub : tr₀ <:+ seg ++ (⟨τ, w₀, .start q⟩ : Entry (proxySystem X srv)) :: tr₀ :=
    (List.suffix_cons _ _).trans (List.suffix_append _ _)
  have hlookup := signed_lookup hrun ((own_suffix hsub t').subset hsigned)
  exact Option.some.inj ((decoded_lookup hrun hdecode).symm.trans hlookup)

/-- **A dead token.** A request that carries the token of a session that has been
deleted, and not been written back since, or that has expired, forwards nothing
and changes no account and no live session, when it is no enrolment and, for a
logout from everywhere, its user has no live session left. -/
theorem dead_token_powerless (hrun : Run A w (seg ++ ⟨τ, w₀, .start q⟩ :: tr₀))
    (hlogin : q.route ≠ .login) (hregister : q.route ≠ .register)
    (hheader : JwtManager.extractTokenFromHeader ((q.header "authorization").getD "") = .ok token)
    (htoken : w₀.tokens.lookup token = some claims) (hc : Creation tr₀ t₀ q₀ h₀ user mfa x)
    (hid : claims.sessionId = x.id)
    (hdead : (∀ y ∈ seg, y.tid = τ → y.pre.redis.lookup (sessionKey x.id) = none) ∨
      x.expiresAt < w₀.clock)
    (henroll : q.route ≠ .mfaEnroll)
    (hall : q.route = .logoutAll → ∀ y ∈ seg, y.tid = τ → ∀ s, Live s y.pre →
      s.userId ≠ claims.sub) :
    (∀ u a, .upstream u a ∉ own τ (seg ++ ⟨τ, w₀, .start q⟩ :: tr₀)) ∧ Harmless τ seg ∧
      ((∀ y ∈ seg, y.tid = τ) → Unchanged w₀ w) := by
  obtain ⟨-, -, w', hen⟩ := hrun.entry
  have hfresh : ∀ y ∈ tr₀, y.tid ≠ τ := by
    cases hen with
    | start hfresh => exact hfresh
  have hsub : tr₀ <:+ seg ++ (⟨τ, w₀, .start q⟩ : Entry (proxySystem X srv)) :: tr₀ :=
    (List.suffix_cons _ _).trans (List.suffix_append _ _)
  have hseg {w₁ : World} {e : Event}
      (hmem : ⟨τ, w₁, .act e⟩ ∈ seg ++ (⟨τ, w₀, .start q⟩ : Entry (proxySystem X srv)) :: tr₀) :
      ⟨τ, w₁, .act e⟩ ∈ seg := by
    obtain hmem | hmem := List.mem_append.mp hmem
    · exact hmem
    · obtain heq | hold := List.mem_cons.mp hmem
      · simp at heq
      · exact (hfresh _ hold rfl).elim
  have hd : PresentsDead x claims τ q (seg ++ ⟨τ, w₀, .start q⟩ :: tr₀) := {
    started := ⟨w₀, List.mem_append_right _ List.mem_cons_self⟩
    other := hlogin
    bearer := fun claims' => signed_before hrun hheader htoken
    named := hid
    gone := fun w₁ e hmem => gone_during hrun hdead (hseg hmem) rfl }
  have hharmless : Harmless τ seg := by
    intro w₁ e w₂ hmem hact
    obtain ⟨-, husers, hlive⟩ :=
      hd.step hrun (hc.mono hsub) (List.mem_append_left _ hmem) hact
    refine ⟨husers.resolve_right (not_or_intro henroll hregister), fun s hs => ?_⟩
    refine (hlive s hs).resolve_right ?_
    rintro ⟨hroute, howner⟩
    exact hall hroute _ hmem rfl s hs howner
  refine ⟨fun u a hsent => ?_, hharmless, hharmless.alone hrun⟩
  obtain ⟨w₁, hmem⟩ := mem_own.mp hsent
  obtain ⟨post, pre, htr⟩ := List.append_of_mem hmem
  obtain ⟨-, -, -, w₂, -, -, hact⟩ := event_entry (htr ▸ hrun)
  exact (hd.step hrun (hc.mono hsub) hmem hact).1 u a rfl

end Alone

/-! ### Particular runs -/

/-- `seg` begins with the start of a request that carries a token of the session
`id`, whose key is not there. -/
def beginsDead (t : ℕ) (route : Route) (token id : String) (seg : ProxyTrace X srv) : Bool :=
  match seg.getLast? with
  | some ⟨t', w₀, .start q⟩ => decide (t' = t ∧ q.route = route) &&
      (match JwtManager.extractTokenFromHeader ((q.header "authorization").getD "") with
        | .ok token' => decide (token' = token)
        | .error _ => false) &&
      (match w₀.tokens.lookup token with
        | some claims => decide (claims.sessionId = id)
        | none => false) &&
      decide (w₀.redis.lookup (sessionKey id) = none)
  | _ => false

theorem exists_beginDead {t : ℕ} {route : Route} {token id : String} {seg : ProxyTrace X srv}
    (h : beginsDead t route token id seg = true) :
    ∃ seg' w₀ q claims, seg = seg' ++ [⟨t, w₀, .start q⟩] ∧ q.route = route ∧
      JwtManager.extractTokenFromHeader ((q.header "authorization").getD "") = .ok token ∧
      w₀.tokens.lookup token = some claims ∧ claims.sessionId = id ∧
      w₀.redis.lookup (sessionKey id) = none := by
  unfold beginsDead at h
  split at h
  · rename_i t' w₀ q hlast
    obtain ⟨seg', rfl⟩ := List.getLast?_eq_some_iff.mp hlast
    obtain ⟨hrest, hnone⟩ := Bool.and_eq_true_iff.mp h
    obtain ⟨hrest, hclaims⟩ := Bool.and_eq_true_iff.mp hrest
    obtain ⟨hhead, htoken⟩ := Bool.and_eq_true_iff.mp hrest
    obtain ⟨rfl, hroute⟩ := of_decide_eq_true hhead
    split at htoken
    swap
    · simp at htoken
    rename_i token' hheader
    obtain rfl := of_decide_eq_true htoken
    split at hclaims
    swap
    · simp at hclaims
    rename_i claims hlookup
    exact ⟨seg', w₀, q, claims, rfl, hroute, hheader, hlookup, of_decide_eq_true hclaims,
      of_decide_eq_true hnone⟩
  · simp at h

namespace Scenario

/-- A login, and a logout with its token. -/
def loggedOut : List (Move System) :=
  .start 0 (login aliceLogin) :: steps 0 24 ++
    .start 1 (authorized "POST" "/auth/logout" "token-0" "") :: steps 1 3

/-- A proxied request with the token of a session that has been logged out. -/
theorem dead_token_powerless_run : ∃ (w w₀ : World) (seg tr₀ : ProxyTrace external server)
    (q : Request), Reachable w (seg ++ ⟨2, w₀, .start q⟩ :: tr₀) ∧ seg ≠ [] ∧
      Harmless 2 seg ∧ Unchanged w₀ w := by
  have hplay : playsThen (fun _ _ => True) [alice] loggedOut
      (fun p => serves 1 .logout "token-0" (scriptUuid 2).text p.trace && answered 1 p.trace)
      (.start 2 (authorized "GET" "/data" "token-0" "") :: steps 2 4)
      (fun _ seg => beginsDead 2 .proxied "token-0" (scriptUuid 2).text seg &&
        (decide (seg.length = 5) && seg.all fun y => decide (y.tid = 2 ∧
          y.pre.redis.lookup (sessionKey (scriptUuid 2).text) = none))) = true := by decide +kernel
  obtain ⟨p, p', seg, -, hbefore, htrace, hrun, hafter⟩ :=
    run_of_playsThen (world_initial (by simp) (by simp) (by simp)) hplay
  obtain ⟨hbegin, hafter⟩ := Bool.and_eq_true_iff.mp hafter
  obtain ⟨hlength, halone⟩ := Bool.and_eq_true_iff.mp hafter
  obtain ⟨seg, w₀, q, claims, rfl, hroute, hheader, htoken, hid, -⟩ := exists_beginDead hbegin
  rw [htrace, List.append_assoc, List.singleton_append] at hrun
  have hall (y : Entry System) (hy : y ∈ seg) : y.tid = 2 ∧
      y.pre.redis.lookup (sessionKey (scriptUuid 2).text) = none :=
    of_decide_eq_true (List.all_eq_true.mp halone y (List.mem_append_left _ hy))
  have hissued := token_issued hrun.entry.1 htoken
  obtain ⟨t₀, q₀, h₀, user, mfa, x, hc, hx, -⟩ := hissued.creation
  have hx' : x.id = (scriptUuid 2).text := hx.trans hid
  obtain ⟨-, hharmless, hunchanged⟩ := dead_token_powerless hrun (by simp [hroute])
    (by simp [hroute]) hheader htoken hc hx.symm (.inl fun y hy _ => hx' ▸ (hall y hy).2)
    (by simp [hroute]) (by simp [hroute])
  refine ⟨p'.world, w₀, seg, p.trace, q, hrun.reachable, ?_, hharmless,
    hunchanged fun y hy => (hall y hy).1⟩
  rintro rfl
  simp at hlength

/-- An enrolment with the token of a session that has been logged out writes a
secret to the account. -/
theorem dead_token_enrols : ∃ (w w₀ : World) (seg tr₀ : ProxyTrace external server) (q : Request)
    (token : String) (claims : Claims) (t₀ : ℕ) (q₀ : Request) (h₀ : List Event) (user : UserRow)
    (mfa : Bool) (x : Session), Reachable w (seg ++ ⟨2, w₀, .start q⟩ :: tr₀) ∧
      (∀ y ∈ seg, y.tid = 2) ∧
      JwtManager.extractTokenFromHeader ((q.header "authorization").getD "") = .ok token ∧
      w₀.tokens.lookup token = some claims ∧ Creation tr₀ t₀ q₀ h₀ user mfa x ∧
      claims.sessionId = x.id ∧ RevokedBy x 1 tr₀ ∧ Gone x w₀ ∧ ¬ Unchanged w₀ w := by
  have hplay : playsThen (fun _ _ => True) [alice] loggedOut
      (fun p => serves 1 .logout "token-0" (scriptUuid 2).text p.trace && answered 1 p.trace)
      (.start 2 (authorized "POST" "/auth/mfa/enroll" "token-0" "") :: steps 2 5)
      (fun p' seg => beginsDead 2 .mfaEnroll "token-0" (scriptUuid 2).text seg &&
        (seg.all (fun y => decide (y.tid = 2)) &&
          seg.getLast?.any fun y => decide (p'.world.users ≠ y.pre.users))) = true := by
    decide +kernel
  obtain ⟨p, p', seg, -, hbefore, htrace, hrun, hafter⟩ :=
    run_of_playsThen (world_initial (by simp) (by simp) (by simp)) hplay
  obtain ⟨hserves, hanswered⟩ := Bool.and_eq_true_iff.mp hbefore
  obtain ⟨hbegin, hafter⟩ := Bool.and_eq_true_iff.mp hafter
  obtain ⟨halone, hchanged⟩ := Bool.and_eq_true_iff.mp hafter
  obtain ⟨seg, w₀, q, claims, rfl, -, hheader, htoken, hid, hnone⟩ := exists_beginDead hbegin
  rw [htrace, List.append_assoc, List.singleton_append] at hrun
  rw [List.getLast?_concat, Option.any_some] at hchanged
  obtain ⟨t₀, q₀, h₀, user, mfa, x, hc, hx, -⟩ := (token_issued hrun.entry.1 htoken).creation
  have hx' : x.id = (scriptUuid 2).text := hx.trans hid
  obtain ⟨q₁, claims₁, hq₁, hroute₁, hb₁, hid₁⟩ := exists_bearer hserves
  obtain ⟨w₁, o, hdone, hok⟩ := exists_answer hanswered
  refine ⟨p'.world, w₀, seg, p.trace, q, "token-0", claims, t₀, q₀, h₀, user, mfa, x,
    hrun.reachable, fun y hy => ?_, hheader, htoken, hc, hx.symm,
    ⟨q₁, claims₁, w₁, o, hdone, hok, hq₁, hb₁, .inl ⟨hroute₁, hid₁.trans hx'.symm⟩⟩,
    .inl (hx' ▸ hnone), fun hunchanged => of_decide_eq_true hchanged hunchanged.1⟩
  exact of_decide_eq_true (List.all_eq_true.mp halone y (List.mem_append_left _ hy))

end Scenario

end ZeroTrustProxy
