import ZeroTrustProxy.Runs.Accesses

/-!
Second factors: what the flag of a session record says.
-/

namespace ZeroTrustProxy

open Concurrent

variable {X : External} {srv : ProxyServer}
  {A : ProxyTrace X srv → Entry (proxySystem X srv) → Prop} {w : World} {tr : ProxyTrace X srv}

theorem userById_id {w : World} {id : Uuid} {user : UserRow} (h : w.userById id = some user) :
    user.id = id := by
  simpa using List.find?_some h

/-- The row in which `handle_mfa_verify` finds the secret is that of the token's
subject. -/
theorem MfaPassed.user (hrun : Run A w tr) {t : ℕ} {q : Request} {h : List Event}
    {claims : Claims} {user : UserRow} (hp : MfaPassed X q h claims user) (hh : h <:+ own t tr) :
    user.id.text = claims.sub := by
  obtain ⟨userId, hparse, hfound⟩ := hp.found
  obtain ⟨l, hl⟩ := suffix_of_mem hfound
  obtain ⟨_, _, w₀, w₁, _, -, -, -, -, -, hact⟩ := history_event hrun (hl.trans hh)
  obtain ⟨-, hrow⟩ := World.userById_reply hact
  obtain ⟨_, _, _, owner, _, x, hc, -, hsub⟩ := (hp.bearer.issued hrun hh).creation
  -- the subject is the text of the id of the user who logged in
  rw [← hsub, hc.userId, X.parseUuid_text] at hparse
  obtain rfl := Option.some.inj hparse
  rw [userById_id hrow.symm, ← hsub, hc.userId]

/-- The TOTP check has returned true for a code submitted against the secret
in a row of the user of `y`, in the login that created `y` or in an
`mfa/verify` whose token names it. -/
def FactorVerified (tr : ProxyTrace X srv) (y : Session) : Prop :=
  ∃ t q l user secret code, Started t q tr ∧ l <:+ own t tr ∧
    user.id.text = y.userId ∧ user.mfaSecret = some secret ∧ CodeChecked X l secret code ∧
    ((q.route = .login ∧ (∃ mfa x, Creation tr t q l user mfa x ∧ x.fixed = y.fixed) ∧
        ∃ body bytes, q.body = some bytes ∧ X.parseLoginBody bytes = some body ∧
          .findUserByUsername body.username (.ok (some user)) ∈ l ∧
          body.mfaToken = some code) ∨
      (q.route = .mfaVerify ∧ (∃ claims, Bearer q l claims ∧ claims.sessionId = y.id) ∧
        ∃ body bytes, q.body = some bytes ∧ X.parseMfaVerifyBody bytes = some body ∧
          .findUserById user.id (.ok (some user)) ∈ l ∧ body.mfaToken = code))

/-- **MFA soundness.** Whatever has been interleaved and whatever has failed, a
stored record that says a second factor was verified is one of a user and a
session for whom one was. -/
theorem mfa_verified_sound (h : Reachable w tr) {id : String} {y : Session}
    (hstored : w.read (sessionKey id) = some (.session y)) (hmfa : y.mfaVerified = true) :
    y.id = id ∧ FactorVerified tr y := by
  obtain ⟨c, hc, hvalue⟩ := Option.map_eq_some_iff.mp hstored
  obtain ⟨x, hx, hid, horigin⟩ := stored_origin h hc
  obtain rfl : y = x := RedisValue.session.inj (hvalue.symm.trans hx)
  refine ⟨hid, ?_⟩
  rcases horigin.factor hmfa with ⟨t, q, h₀, user, x, hc, hx⟩ |
    ⟨t, q, l, claims, user, hq, hl, hp, hsid, hsub⟩
  · obtain ⟨body, login⟩ := hc.login
    obtain ⟨secret, code, hsecret, hcode, hchecked⟩ := login.code login.mfa.symm
    obtain ⟨bytes, hbytes, hbody⟩ := login.parsed
    have huser : user.id.text = y.userId := by
      rw [← hc.userId, Session.userId_eq_of_fixed hx]
    exact ⟨t, q, h₀, user, secret, code, hc.started, hc.history, huser, hsecret, hchecked,
      .inl ⟨login.route, ⟨true, x, hc, hx⟩, body, bytes, hbytes, hbody, login.found, hcode⟩⟩
  · obtain ⟨secret, body, hsecret, ⟨bytes, hbytes, hbody⟩, hchecked⟩ := hp.code
    have huser : user.id.text = y.userId := (hp.user h hl).trans hsub
    obtain ⟨userId, -, hfound⟩ := hp.found
    obtain ⟨l', hl'⟩ := suffix_of_mem hfound
    obtain ⟨_, _, w₀, w₁, _, -, -, -, -, -, hact⟩ := history_event h (hl'.trans hl)
    obtain rfl := userById_id (World.userById_reply hact).2.symm
    exact ⟨t, q, l, user, secret, body.mfaToken, hq, hl, huser, hsecret, hchecked,
      .inr ⟨hp.route, ⟨claims, hp.bearer, hsid⟩, body, bytes, hbytes, hbody, hfound, rfl⟩⟩

/-- The record stored for a session says that a second factor was verified. -/
def World.storesVerified (w : World) (id : String) : Bool :=
  match w.read (sessionKey id) with
  | some (.session y) => y.mfaVerified
  | _ => false

theorem exists_verified {id : String} (h : w.storesVerified id = true) :
    ∃ y, w.read (sessionKey id) = some (.session y) ∧ y.mfaVerified = true := by
  unfold World.storesVerified at h
  split at h
  · exact ⟨_, ‹_›, h⟩
  · simp at h

open Scenario in
/-- A login with a code. -/
theorem mfa_verified_sound_run : ∃ (w : World) (tr : ProxyTrace external server) (y : Session),
    Reachable w tr ∧ w.read (sessionKey y.id) = some (.session y) ∧ y.mfaVerified = true ∧
      FactorVerified tr y := by
  have hplay : plays (fun _ _ => True) [{ alice with mfaEnabled := true, mfaSecret := some secret }]
      (.start 0 (login aliceLoginMfa) :: steps 0 20)
      (fun p => p.world.storesVerified (scriptUuid 2).text) = true := by decide +kernel
  obtain ⟨p, hrun, hcheck⟩ := run_of_plays (world_initial (by simp) (by simp) (by simp)) hplay
  obtain ⟨y, hstored, hmfa⟩ := exists_verified hcheck
  obtain ⟨hid, hverified⟩ := mfa_verified_sound hrun hstored hmfa
  exact ⟨p.world, p.trace, y, hrun, hid ▸ hstored, hmfa, hverified⟩

/-! ### Replacing a second factor -/

theorem World.setUserMfaSecret_ids (w : World) (id : Uuid) (secret : String) :
    (w.setUserMfaSecret id secret).users.map (·.id) = w.users.map (·.id) := by
  simp only [World.setUserMfaSecret, List.map_map]
  refine List.map_congr_left fun u _ => ?_
  simp only [Function.comp_apply]
  split <;> rfl

theorem users_nodup (h : Run A w tr) : (w.users.map (·.id)).Nodup := by
  refine (h.invariant (proxy_contract X srv) (fun w _ => (w.users.map (·.id)).Nodup)
    ?_ ?_ ?_ ?_ ?_).1
  · exact fun _ hinit => hinit.ids
  · intro w w' tr m _ hJ henv
    obtain ⟨-, rfl⟩ : w.clock ≤ m ∧ w.advance m = w' := by simpa using henv
    exact hJ
  · exact fun _ hJ _ => hJ
  · intro w w' tr t q e _ hJ _ _ _ hact _
    rcases World.act_users hact with hsame | ⟨id, secret, r, -, hset⟩ |
      ⟨_, _, _, _, row, -, -, hfresh, hadd⟩
    · rw [hsame]
      exact hJ
    · rw [hset, World.setUserMfaSecret_ids]
      exact hJ
    · rw [hadd, List.map_append, List.nodup_append]
      refine ⟨hJ, by simp, ?_⟩
      intro a ha b hb
      obtain ⟨u, hu, rfl⟩ := List.mem_map.mp ha
      obtain rfl : b = row.id := by simpa using hb
      exact (hfresh u hu).1
  · exact fun _ hJ _ _ _ => hJ

theorem find_of_mem {users : List UserRow} {u : UserRow} (h : (users.map (·.id)).Nodup)
    (hu : u ∈ users) : users.find? (fun v => v.id = u.id) = some u := by
  induction users with
  | nil => exact (List.not_mem_nil hu).elim
  | cons v users ih =>
      rw [List.map_cons, List.nodup_cons] at h
      rcases List.mem_cons.mp hu with rfl | hu
      · simp
      · have hne : v.id ≠ u.id := fun heq => h.1 (heq ▸ List.mem_map_of_mem hu)
        rw [List.find?_cons_of_neg (by simpa using hne)]
        exact ih h.2 hu

/-- A row is found by its id. -/
theorem userById_of_mem (h : Run A w tr) {u : UserRow} (hu : u ∈ w.users) :
    w.userById u.id = some u :=
  find_of_mem (users_nodup h) hu

/-- An enrolment of one user leaves what is found of another. -/
theorem userById_setUserMfaSecret {id id' : Uuid} {secret : String} (hne : id' ≠ id) :
    (w.setUserMfaSecret id' secret).userById id = w.userById id := by
  unfold World.userById World.setUserMfaSecret
  simp only
  rw [List.find?_map]
  have hsame : ((fun u : UserRow => decide (u.id = id)) ∘ fun u => if u.id = id' then
      { u with mfaEnabled := true, mfaSecret := some secret } else u) =
      fun u => decide (u.id = id) := by
    funext u
    simp only [Function.comp_apply]
    split <;> rfl
  rw [hsame]
  cases hfind : w.users.find? fun u => decide (u.id = id) with
  | none => rfl
  | some u =>
      have hid : u.id = id := by simpa using List.find?_some hfind
      simp [hid, hne.symm]

/-- The steps `seg`, taken after `tr`, are those of requests that have arrived
since, none of which submits a code that is valid for `secret` or enrols with a
token of `u`. -/
structure WithoutFactor (u : UserRow) (secret : String) (seg tr : ProxyTrace X srv) : Prop where
  new : ∀ y ∈ seg, ∀ z ∈ tr, z.tid ≠ y.tid
  codes : ∀ y ∈ seg, ∀ bytes code, X.decodeSecret secret = some bytes →
    y.item ≠ .act (.totpCheck (TotpManager.totpOf .default bytes) code (.ok true))
  enrol : ∀ y ∈ seg, ∀ q claims, Started y.tid q (seg ++ tr) → q.route = .mfaEnroll →
    Bearer q (own y.tid (seg ++ tr)) claims → claims.sub ≠ u.id.text

theorem WithoutFactor.of_suffix {u : UserRow} {secret : String} {seg seg' tr : ProxyTrace X srv}
    (h : WithoutFactor u secret seg tr) (hsub : seg' <:+ seg) : WithoutFactor u secret seg' tr where
  new y hy := h.new y (hsub.subset hy)
  codes y hy := h.codes y (hsub.subset hy)
  enrol y hy q claims hq hroute hb := by
    have hsub' : seg' ++ tr <:+ seg ++ tr := by
      obtain ⟨post, rfl⟩ := hsub
      exact ⟨post, by simp⟩
    exact h.enrol y (hsub.subset hy) q claims (hq.mono hsub'.subset) hroute
      (hb.mono (own_suffix hsub' _))

/-- The row of `u` is as it was, and no session of `u` says that a second
factor was verified that did not say so in `w₀`. -/
structure FactorKept (u : UserRow) (w₀ w : World) : Prop where
  row : w.userById u.id = some u
  sessions : ∀ id y, w.read (sessionKey id) = some (.session y) → y.userId = u.id.text →
    y.mfaVerified = true → ∃ y₀, w₀.read (sessionKey id) = some (.session y₀) ∧ y₀.mfaVerified = true

/-- A subject that parses to the id of a user is that user. -/
theorem Issued.subject {claims : Claims} (h : Issued tr claims) {id : Uuid}
    (hparse : X.parseUuid claims.sub = some id) : claims.sub = id.text := by
  obtain ⟨_, _, _, owner, _, x, hc, -, hsub⟩ := h.creation
  rw [← hsub, hc.userId, X.parseUuid_text] at hparse
  rw [← hsub, hc.userId, Option.some.inj hparse]

variable {u : UserRow} {secret : String} {seg tr₀ : ProxyTrace X srv} {τ : ℕ} {w₀ : World}
  {q₀ : Request}

/-- A row is found as it was after a step that is no enrolment of its user. -/
theorem userById_act {t : ℕ} {e : Event} {w' : World} {id : Uuid}
    (hact : World.act X t e w = some w') (hno : ∀ secret r, e ≠ .setUserMfaSecret id secret r)
    (hrow : w.userById id = some u) : w'.userById id = some u := by
  unfold World.userById at hrow ⊢
  rcases World.act_users hact with hsame | ⟨id', secret', r, rfl, hset⟩ |
    ⟨_, _, _, _, row, -, -, -, hadd⟩
  · rw [hsame]
    exact hrow
  · have hne : id' ≠ id := by
      rintro rfl
      exact hno secret' r rfl
    rw [hset]
    exact (userById_setUserMfaSecret hne).trans hrow
  · rw [hadd, List.find?_append, hrow]
    rfl

/-- The accounts in one step. -/
theorem FactorKept.row_act {t : ℕ} {q : Request} {e : Event} {w' : World}
    (hrun : Run A w (seg ++ ⟨τ, w₀, .start q₀⟩ :: tr₀)) (hrow : w.userById u.id = some u)
    (hq : Started t q (seg ++ ⟨τ, w₀, .start q₀⟩ :: tr₀))
    (hL : Licence X srv q (own t (seg ++ ⟨τ, w₀, .start q₀⟩ :: tr₀)) e.command)
    (hact : World.act X t e w = some w')
    (hwithout : WithoutFactor u secret (⟨t, w, .act e⟩ :: seg ++ [⟨τ, w₀, .start q₀⟩]) tr₀) :
    w'.userById u.id = some u := by
  refine userById_act hact ?_ hrow
  rintro secret' r rfl
  obtain ⟨hroute, -, claims, hb, hparse⟩ := hL
  have hsub := (hb.issued hrun List.suffix_rfl).subject hparse
  refine hwithout.enrol _ List.mem_cons_self q claims ?_ hroute ?_ hsub
  · refine hq.mono fun y hy => ?_
    simp only [List.cons_append, List.append_assoc, List.nil_append]
    exact List.mem_cons_of_mem _ hy
  · rw [List.append_assoc, List.singleton_append, List.cons_append]
    exact hb.mono (own_suffix (List.suffix_cons _ _) t)

/-- A write that sets the flag on a session of `u` rests on a code that is valid
for the secret of `u`, or on a read of a session that has it. -/
theorem FactorKept.flag_read {t : ℕ} {q : Request} {y : Session} {secs : ℕ}
    (hrun : Run A w (seg ++ ⟨τ, w₀, .start q₀⟩ :: tr₀)) (hnew : ∀ z ∈ tr₀, z.tid ≠ t)
    (hcodes : ∀ y ∈ seg, ∀ bytes code, X.decodeSecret secret = some bytes →
      y.item ≠ .act (.totpCheck (TotpManager.totpOf .default bytes) code (.ok true)))
    (hkept : ∀ post z pre, seg = post ++ z :: pre → FactorKept u w₀ z.pre)
    (hsecret : u.mfaSecret = some secret)
    (hq : Started t q (seg ++ ⟨τ, w₀, .start q₀⟩ :: tr₀))
    (hwrite : SessionWrite X srv q (own t (seg ++ ⟨τ, w₀, .start q₀⟩ :: tr₀)) y secs)
    (hy : y.userId = u.id.text) (hflag : y.mfaVerified = true) :
    ∃ y₀, w₀.read (sessionKey y.id) = some (.session y₀) ∧ y₀.mfaVerified = true := by
  -- no code has checked against the secret of `u`
  have hnocode {l : List Event} {code : String} (hl : l ⊆ own t (seg ++ ⟨τ, w₀, .start q₀⟩ :: tr₀))
      (hc : CodeChecked X l secret code) : False := by
    obtain ⟨bytes, hbytes, hmem⟩ := hc
    obtain ⟨post, w₁, pre, -, rfl, -⟩ := event_since hrun hnew (hl hmem)
    exact hcodes _ (List.mem_append_right _ List.mem_cons_self) bytes code hbytes rfl
  -- a row of `u` that the thread has found is the row of `u`
  have hfound {v : UserRow} {w₁ : World} {tr₁ : ProxyTrace X srv} (hrun₁ : Run A w₁ tr₁)
      (hkept₁ : FactorKept u w₀ w₁) (hv : v ∈ w₁.users) (hid : v.id.text = u.id.text) : v = u := by
    have hrow := userById_of_mem hrun₁ hv
    rw [Uuid.ext hid, hkept₁.row] at hrow
    exact (Option.some.inj hrow).symm
  generalize hown : own t _ = l at hwrite
  cases hwrite with
  | created built =>
      rw [built.mfaVerified] at hflag
      exact (Bool.false_ne_true hflag).elim
  | @stamped h owner mfa x n risk built left =>
      exfalso
      obtain rfl : mfa = true := hflag
      have hh : h ⊆ own t (seg ++ ⟨τ, w₀, .start q₀⟩ :: tr₀) := by
        rw [hown]
        exact List.subset_append_right [_, _] h
      have huser : owner.id.text = u.id.text := by
        rw [← hy]
        cases built
        rfl
      obtain ⟨body, hlogin⟩ : ∃ body, LoginPassed X q h body owner true := by
        cases built with
        | intro now id deviceId userAgent login bounds =>
            exact ⟨_, login.mono (List.suffix_append [_, _] _)⟩
      obtain ⟨post, w₁, pre, w₂, hseg, hrun₁, hact⟩ := event_since hrun hnew (hh hlogin.found)
      obtain ⟨-, hrow⟩ := World.userByUsername_reply hact
      obtain rfl := hfound hrun₁ (hkept _ _ _ hseg) (List.mem_of_find?_eq_some hrow.symm) huser
      obtain ⟨secret', code, hsecret', -, hchecked⟩ := hlogin.code hlogin.mfa.symm
      obtain rfl := Option.some.inj (hsecret.symm.trans hsecret')
      exact hnocode hh hchecked
  | @touched h claims x n activity now bearer live left =>
      have hread : .redisGet (sessionKey claims.sessionId) (.ok (some (.session x))) ∈
          own t (seg ++ ⟨τ, w₀, .start q₀⟩ :: tr₀) := by
        rw [hown]
        simp
      obtain ⟨hid, -⟩ := read_origin hrun hread
      obtain ⟨post, w₁, pre, w₂, hseg, -, hact⟩ := event_since hrun hnew hread
      obtain ⟨-, hstored⟩ := World.read_reply hact
      rw [← hid] at hstored
      exact (hkept _ _ _ hseg).sessions x.id x hstored.symm hy hflag
  | @upgraded h claims owner x n passed left =>
      exfalso
      have hh : h <:+ own t (seg ++ ⟨τ, w₀, .start q₀⟩ :: tr₀) := by
        rw [hown]
        exact List.suffix_append [_, _] h
      have hret : .getSessionReturn claims.sessionId (.ok x) ∈
          own t (seg ++ ⟨τ, w₀, .start q₀⟩ :: tr₀) := by
        rw [hown]
        simp
      obtain ⟨x₀, activity, rfl, hread⟩ := returned_read hrun hret
      obtain ⟨hid, horigin⟩ := read_origin hrun hread
      have hsub := horigin.owner hrun (passed.bearer.issued hrun hh) hid.symm
      have huser : owner.id.text = u.id.text := by
        rw [passed.user hrun hh, hsub]
        exact hy
      obtain ⟨userId, -, hmem⟩ := passed.found
      obtain ⟨post, w₁, pre, w₂, hseg, hrun₁, hact⟩ := event_since hrun hnew (hh.subset hmem)
      obtain ⟨-, hrow⟩ := World.userById_reply hact
      obtain rfl := hfound hrun₁ (hkept _ _ _ hseg) (List.mem_of_find?_eq_some hrow.symm) huser
      obtain ⟨secret', body, hsecret', -, hchecked⟩ := passed.code
      obtain rfl := Option.some.inj (hsecret.symm.trans hsecret')
      exact hnocode hh.subset hchecked

/-- **A second factor is kept.** Requests that submit no valid code for the
secret of `u` and do not enrol with a token of `u` leave the row of `u` as it
was and set the flag on no session of `u`, in any order and however they fail. -/
theorem second_factor_kept
    (hrun : Reachable w (seg ++ ⟨τ, w₀, .start q₀⟩ :: tr₀)) (hrow : w₀.userById u.id = some u)
    (hsecret : u.mfaSecret = some secret)
    (hwithout : WithoutFactor u secret (seg ++ [⟨τ, w₀, .start q₀⟩]) tr₀) : FactorKept u w₀ w := by
  refine (hrun.since (proxy_contract X srv)
    (fun w seg => WithoutFactor u secret (seg ++ [⟨τ, w₀, .start q₀⟩]) tr₀ → FactorKept u w₀ w)
    ?_ ?_ ?_ ?_ ?_).1 hwithout
  · intro w' _ _ hen _
    cases hen
    exact ⟨hrow, fun id y hread _ hflag => ⟨y, hread, hflag⟩⟩
  · intro w w' seg m _ hJ henv hwithout
    obtain ⟨-, rfl⟩ : w.clock ≤ m ∧ w.advance m = w' := by simpa using henv
    obtain ⟨hrow, hsessions⟩ := hJ hwithout
    refine ⟨hrow, fun id y hread => hsessions id y ?_⟩
    obtain ⟨c, hc, hvalue⟩ := Option.map_eq_some_iff.mp hread
    exact Option.map_eq_some_iff.mpr ⟨c, (ExpiringStore.lookup_advance_eq_some.mp hc).1, hvalue⟩
  · intro w seg t q hJ _ hwithout
    exact hJ (hwithout.of_suffix (List.suffix_cons _ _))
  · intro w w' seg t q e hrun hJ hpast hq hL hact _ hwithout
    have hkept := hJ (hwithout.of_suffix (List.suffix_cons _ _))
    refine ⟨FactorKept.row_act hrun hkept.row hq hL hact hwithout, fun id y hread hy hflag => ?_⟩
    obtain ⟨c, hc, hvalue⟩ := Option.map_eq_some_iff.mp hread
    rcases sessionKey_step hL hact id with hsame | ⟨y', secs, r, rfl, rfl, hwrite, -, hnew⟩ |
      ⟨r, rfl, -, rfl⟩
    · refine hkept.sessions id y (Option.map_eq_some_iff.mpr ⟨c, ?_, hvalue⟩) hy hflag
      rw [← hsame, hc]
    · obtain rfl := Option.some.inj (hnew.symm.trans hc)
      obtain rfl : y' = y := RedisValue.session.inj hvalue
      refine FactorKept.flag_read hrun (hwithout.new _ List.mem_cons_self) (fun z hz => ?_)
        (fun post z pre hseg => ?_) hsecret hq hwrite hy hflag
      · exact hwithout.codes z (List.mem_cons_of_mem _ (List.mem_append_left _ hz))
      · subst hseg
        refine hpast z pre (List.suffix_append _ _) (hwithout.of_suffix ?_)
        exact ⟨⟨t, w, .act (.redisSetEx (sessionKey y'.id) (.session y') secs r)⟩ :: (post ++ [z]),
          by simp⟩
    · simp [World.del] at hc
  · intro w seg t q o _ hJ _ _ _ hwithout
    exact hJ (hwithout.of_suffix (List.suffix_cons _ _))

/-- The steps of one request of thread `t`, none of which sees a code accepted. -/
def refusedCodes (t : ℕ) (seg : ProxyTrace X srv) : Bool :=
  seg.all fun y => decide (y.tid = t) &&
    match y.item with
    | .act (.totpCheck _ _ (.ok true)) => false
    | _ => true

theorem refusedCodes_spec {t : ℕ} (h : refusedCodes t seg = true) :
    (∀ y ∈ seg, y.tid = t) ∧
      ∀ y ∈ seg, ∀ totp code, y.item ≠ .act (.totpCheck totp code (.ok true)) := by
  simp only [refusedCodes, List.all_eq_true, Bool.and_eq_true, decide_eq_true_eq] at h
  refine ⟨fun y hy => (h y hy).1, fun y hy totp code heq => ?_⟩
  have hrefused := (h y hy).2
  simp [heq] at hrefused

/-- `seg` begins with the start of a request, in a world in which `u` is stored. -/
def beginsWith (u : UserRow) (seg : ProxyTrace X srv) : Bool :=
  match seg.getLast? with
  | some ⟨_, w₀, .start _⟩ => decide (w₀.userById u.id = some u)
  | _ => false

theorem exists_begin (h : beginsWith u seg = true) :
    ∃ seg' τ w₀ q₀, seg = seg' ++ [⟨τ, w₀, .start q₀⟩] ∧ w₀.userById u.id = some u := by
  unfold beginsWith at h
  split at h
  · rename_i τ w₀ q₀ hlast
    obtain ⟨seg', rfl⟩ := List.getLast?_eq_some_iff.mp hlast
    exact ⟨seg', τ, w₀, q₀, rfl, of_decide_eq_true h⟩
  · simp at h

namespace Scenario

/-- The row of `alice` once she has enrolled. -/
def enrolled : UserRow := { alice with mfaEnabled := true, mfaSecret := some scriptSecret }

/-- `alice` logs in and enrols. -/
def enrolScript : List (Move System) :=
  .start 0 (login aliceLogin) :: steps 0 24 ++
    .start 1 (authorized "POST" "/auth/mfa/enroll" "token-0" "") :: steps 1 5

end Scenario

open Scenario in
/-- A second enrolment, with the token of the first, replaces the secret. -/
theorem factor_replaced : ¬ ∀ (w w₀ : World) (seg tr₀ : ProxyTrace external server) (τ : ℕ)
    (q₀ : Request) (u : UserRow) (secret : String),
    Reachable w (seg ++ ⟨τ, w₀, .start q₀⟩ :: tr₀) → w₀.userById u.id = some u →
    u.mfaEnabled = true → u.mfaSecret = some secret →
    (∀ y ∈ seg ++ [⟨τ, w₀, .start q₀⟩], ∀ z ∈ tr₀, z.tid ≠ y.tid) →
    (∀ y ∈ seg ++ [⟨τ, w₀, .start q₀⟩], ∀ bytes code, external.decodeSecret secret = some bytes →
      y.item ≠ .act (.totpCheck (TotpManager.totpOf .default bytes) code (.ok true))) →
    ∃ v, w.userById u.id = some v ∧ v.mfaSecret = some secret := by
  intro hclaim
  have hplay : playsThen (fun _ _ => True) [alice] enrolScript
      (fun p => p.trace.all fun y => decide (y.tid ≠ 2))
      (.start 2 (authorized "POST" "/auth/mfa/enroll" "token-0" "") ::
        steps 2 2 ++ .step 2 1 :: steps 2 2)
      (fun p seg => refusedCodes 2 seg && beginsWith enrolled seg &&
        decide ((p.world.userById alice.id).map (·.mfaSecret) = some (some otherSecret))) = true := by
    decide +kernel
  obtain ⟨p, p', seg, -, hfresh, htrace, hrun, hcheck⟩ :=
    run_of_playsThen (world_initial (by simp) (by simp) (by simp)) hplay
  simp only [Bool.and_eq_true, decide_eq_true_eq] at hcheck
  obtain ⟨⟨hcodes, hbegin⟩, hreplaced⟩ := hcheck
  obtain ⟨htid, hrefused⟩ := refusedCodes_spec hcodes
  obtain ⟨seg', τ, w₀, q₀, rfl, hrow⟩ := exists_begin hbegin
  rw [htrace, List.append_assoc, List.singleton_append] at hrun
  have hnew : ∀ y ∈ seg' ++ [⟨τ, w₀, .start q₀⟩], ∀ z ∈ p.trace, z.tid ≠ y.tid := by
    intro y hy z hz
    rw [htid y hy]
    exact of_decide_eq_true (List.all_eq_true.mp hfresh z hz)
  obtain ⟨v, hv, hsecret⟩ := hclaim p'.world w₀ seg' p.trace τ q₀ enrolled scriptSecret hrun hrow
    rfl rfl hnew fun y hy bytes code _ => hrefused y hy _ code
  have hid : enrolled.id = alice.id := rfl
  rw [hid] at hv
  rw [hv] at hreplaced
  simp [hsecret, scriptSecret, otherSecret] at hreplaced

open Scenario in
/-- A code for another secret is refused and changes nothing. -/
theorem second_factor_kept_run : ∃ (w w₀ : World) (seg tr₀ : ProxyTrace external server) (τ : ℕ)
    (q₀ : Request), Reachable w (seg ++ ⟨τ, w₀, .start q₀⟩ :: tr₀) ∧
      w₀.userById enrolled.id = some enrolled ∧
      WithoutFactor enrolled scriptSecret (seg ++ [⟨τ, w₀, .start q₀⟩]) tr₀ ∧
      answered 2 seg = false ∧ FactorKept enrolled w₀ w := by
  have hplay : playsThen (fun _ _ => True) [alice] enrolScript
      (fun p => p.trace.all fun y => decide (y.tid ≠ 2))
      (.start 2 (authorized "POST" "/auth/mfa/verify" "token-0" verifyBody) :: steps 2 6)
      (fun _ seg => refusedCodes 2 seg && beginsWith enrolled seg && !answered 2 seg.dropLast &&
        seg.all fun y => !y.item.isStart fun (q : Request) => !decide (q.route = .mfaVerify)) = true := by
    decide +kernel
  obtain ⟨p, p', seg, -, hfresh, htrace, hrun, hcheck⟩ :=
    run_of_playsThen (world_initial (by simp) (by simp) (by simp)) hplay
  simp only [Bool.and_eq_true, Bool.not_eq_true'] at hcheck
  obtain ⟨⟨⟨hcodes, hbegin⟩, hrefusal⟩, hroute⟩ := hcheck
  obtain ⟨htid, hrefused⟩ := refusedCodes_spec hcodes
  obtain ⟨seg', τ, w₀, q₀, rfl, hrow⟩ := exists_begin hbegin
  rw [htrace, List.append_assoc, List.singleton_append] at hrun
  rw [List.dropLast_concat] at hrefusal
  have hwithout : WithoutFactor enrolled scriptSecret (seg' ++ [⟨τ, w₀, .start q₀⟩]) p.trace := by
    refine ⟨fun y hy z hz => ?_, fun y hy bytes code _ => hrefused y hy _ code,
      fun y hy q claims hq henrol _ => ?_⟩
    · rw [htid y hy]
      exact of_decide_eq_true (List.all_eq_true.mp hfresh z hz)
    · exfalso
      have hτ : τ = 2 := htid _ (List.mem_append_right _ List.mem_cons_self)
      have hstart : Started y.tid q₀ (seg' ++ ⟨τ, w₀, .start q₀⟩ :: p.trace) :=
        ⟨w₀, by rw [htid y hy, hτ]; simp⟩
      rw [List.append_assoc, List.singleton_append] at hq
      obtain rfl := hrun.started_unique hq hstart
      have hverify := List.all_eq_true.mp hroute _ (List.mem_append_right _ List.mem_cons_self)
      simp [Item.isStart, henrol] at hverify
  exact ⟨p'.world, w₀, seg', p.trace, τ, q₀, hrun, hrow, hwithout, hrefusal,
    second_factor_kept hrun hrow rfl hwithout⟩

end ZeroTrustProxy
