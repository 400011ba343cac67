import ZeroTrustProxy.Runs.Bootstrap

/-!
Whose requests change what belongs to a user.

The row of a user, the session records of the user and the tokens that name the user
are changed by requests that have shown the user's credentials: a token that
validates, or in a login the password, with a code where the row asks for one. The
requests of everybody else leave them as they are, whatever they send and in whatever
order they come. Only time takes a record away.
-/

namespace ZeroTrustProxy

open Concurrent

variable {X : External} {srv : ProxyServer}
  {A : ProxyTrace X srv → Entry (proxySystem X srv) → Prop} {w w' w₁ : World}
  {seg tr tr₀ : ProxyTrace X srv} {x₀ : Entry (proxySystem X srv)} {q : Request}
  {h h' : List Event} {t : ℕ} {u : Uuid}

/-! ### Credentials -/

/-- The request has shown the credentials of the user. -/
inductive ActsAs (X : External) (q : Request) (h : List Event) (u : Uuid) : Prop
  | token {claims : Claims} (bearer : Bearer q h claims) (sub : claims.sub = u.text) :
      ActsAs X q h u
  | login {body : LoginBody} {user : UserRow} {mfa : Bool}
      (passed : LoginPassed X q h body user mfa) (same : user.id = u) : ActsAs X q h u

theorem ActsAs.mono (ha : ActsAs X q h u) (hsub : h <:+ h') : ActsAs X q h' u := by
  cases ha with
  | token bearer sub => exact .token (bearer.mono hsub) sub
  | login passed same => exact .login (passed.mono hsub) same

theorem SessionBuilt.acts {user : UserRow} {mfa : Bool} {x : Session}
    (hb : SessionBuilt X srv q h user mfa x) (howner : x.userId = u.text) : ActsAs X q h u := by
  cases hb with
  | intro now id deviceId userAgent login bounds =>
      have hsame : user.id = u := Uuid.ext howner
      exact .login (login.mono (List.suffix_append [_, _] _)) hsame

/-- The token of a request belongs to the user of the session it names. -/
theorem token_acts (hrun : Run A w tr) {claims : Claims} {y : Session}
    (hb : Bearer q (own t tr) claims) (ho : Origin tr y) (hid : claims.sessionId = y.id)
    (howner : y.userId = u.text) : ActsAs X q (own t tr) u := by
  have hsub := ho.owner hrun (hb.issued hrun List.suffix_rfl) hid
  exact .token hb (hsub.trans howner)

theorem SessionWrite.acts (hrun : Run A w tr) {x : Session} {secs : ℕ}
    (hw : SessionWrite X srv q (own t tr) x secs) (howner : x.userId = u.text) :
    ActsAs X q (own t tr) u := by
  generalize hown : own t tr = l at hw
  cases hw with
  | created built => exact built.acts howner
  | stamped n risk built left => exact (built.acts howner).mono (List.suffix_append [_, _] _)
  | @touched l claims x n activity now bearer live left =>
      have hread : .redisGet (sessionKey claims.sessionId) (.ok (some (.session x))) ∈ own t tr := by
        rw [hown]
        simp
      obtain ⟨hid, horigin⟩ := read_origin hrun hread
      rw [← hown]
      have hb : Bearer q (own t tr) claims := bearer.mono (hown ▸ List.suffix_append [_, _, _, _, _] l)
      exact token_acts hrun hb horigin hid.symm howner
  | @upgraded l claims user x n passed left =>
      have hret : .getSessionReturn claims.sessionId (.ok x) ∈ own t tr := by
        rw [hown]
        simp
      obtain ⟨x', activity, rfl, hread⟩ := returned_read hrun hret
      obtain ⟨hid, horigin⟩ := read_origin hrun hread
      rw [← hown]
      have hb : Bearer q (own t tr) claims := passed.bearer.mono (hown ▸ List.suffix_append [_, _] l)
      exact token_acts hrun hb horigin hid.symm howner

/-- A record that is stored is deleted by a request that acts as its user. -/
theorem SessionDelete.acts (hrun : Run A w tr) {id : String} {y : Session}
    (hd : SessionDelete q (own t tr) (sessionKey id)) (ho : Origin tr y) (hid : y.id = id)
    (howner : y.userId = u.text) : ActsAs X q (own t tr) u := by
  generalize hown : own t tr = l at hd
  generalize hkey : sessionKey id = key at hd
  cases hd with
  | @expired l claims x now bearer expiry =>
      obtain rfl := sessionKey_inj.mp hkey
      rw [← hown]
      have hb : Bearer q (own t tr) claims := bearer.mono (hown ▸ List.suffix_append [_, _, _] l)
      exact token_acts hrun hb ho hid.symm howner
  | @logout l claims route bearer =>
      obtain rfl := sessionKey_inj.mp hkey
      subst hown
      exact token_acts hrun bearer ho hid.symm howner
  | @logoutAll l claims x key route bearer read owner =>
      subst hown
      obtain rfl := sessionKey_inj.mp hkey
      -- the record that has been read is of the same session
      obtain ⟨-, hread⟩ := read_any_origin hrun read
      obtain ⟨_, _, _, _, _, _, hcreation, hfixed⟩ := ho.creation
      have hx := hread.fixed_eq hrun hcreation ((Session.id_eq_of_fixed hfixed).trans hid).symm
      have huser := Session.userId_eq_of_fixed (hx.trans hfixed)
      exact .token bearer (owner.symm.trans (huser.trans howner))

theorem SecretWrite.acts (hrun : Run A w tr) {id : Uuid} {secret : String}
    (hs : SecretWrite X q (own t tr) id secret) : ActsAs X q (own t tr) id := by
  obtain ⟨-, -, claims, hb, hparse⟩ := hs
  exact .token hb ((hb.issued hrun List.suffix_rfl).subject hparse)

theorem TokenIssue.acts {claims : Claims} {h₀ update : List Event} {user : UserRow} {mfa : Bool}
    {x : Session} (hi : TokenIssue X srv q h claims h₀ update user mfa x)
    (howner : claims.sub = u.text) : ActsAs X q h u := by
  obtain ⟨risk, -, hsuffix, -⟩ := hi.created
  have hearlier : h₀ <:+ h :=
    ((List.suffix_cons _ _).trans (List.suffix_append _ _)).trans hsuffix
  exact (hi.built.acts (hi.sub.symm.trans howner)).mono hearlier

/-! ### What belongs to a user -/

/-- The cell holds the session `id` of the user. -/
def HoldsSession (w : World) (u : Uuid) (id : String) (c : Cell RedisValue) : Prop :=
  w.redis.lookup (sessionKey id) = some c ∧ ∃ y, c.value = .session y ∧ y.userId = u.text

/-- What belongs to the user is in `w'` what it was in `w`, but for the sessions that
have come to their deadline. -/
structure Untouched (u : Uuid) (w w' : World) : Prop where
  clock : w.clock ≤ w'.clock
  row : ∀ row, w.userById u = some row → w'.userById u = some row
  sessions : ∀ id c, HoldsSession w u id c → c.alive w'.clock = true → HoldsSession w' u id c
  nothingNew : ∀ id c, HoldsSession w' u id c → HoldsSession w u id c
  tokens : ∀ token claims, claims.sub = u.text →
    (w'.tokens.lookup token = some claims ↔ w.tokens.lookup token = some claims)

theorem Untouched.refl (u : Uuid) (w : World) : Untouched u w w :=
  ⟨le_rfl, fun _ => id, fun _ _ hc _ => hc, fun _ _ => id, fun _ _ _ => Iff.rfl⟩

theorem Untouched.trans (h : Untouched u w w₁) (h' : Untouched u w₁ w') : Untouched u w w' where
  clock := h.clock.trans h'.clock
  row row hrow := h'.row row (h.row row hrow)
  sessions id c hc halive :=
    h'.sessions id c (h.sessions id c hc (Cell.alive_of_le halive h'.clock)) halive
  nothingNew id c hc := h.nothingNew id c (h'.nothingNew id c hc)
  tokens token claims hsub := (h'.tokens token claims hsub).trans (h.tokens token claims hsub)

theorem untouched_advance {m : Int} (hle : w.clock ≤ m) : Untouched u w (w.advance m) where
  clock := hle
  row _ hrow := hrow
  sessions _ _ hc halive := ⟨ExpiringStore.lookup_advance_eq_some.mpr ⟨hc.1, halive⟩, hc.2⟩
  nothingNew _ _ hc := ⟨(ExpiringStore.lookup_advance_eq_some.mp hc.1).1, hc.2⟩
  tokens _ _ _ := Iff.rfl

/-- The cells of a user's sessions after a step of a request of somebody else. -/
theorem holdsSession_act (hrun : Run A w tr) {e : Event} (hq : Started t q tr)
    (hL : Licence X srv q (own t tr) e.command) (hact : World.act X t e w = some w')
    (hno : ¬ ActsAs X q (own t tr) u) (id : String) (c : Cell RedisValue) :
    HoldsSession w' u id c ↔ HoldsSession w u id c := by
  obtain hsame | ⟨x, secs, r, -, rfl, hwrite, -, hnew⟩ | ⟨r, -, hdelete, rfl⟩ :=
    sessionKey_step hL hact id
  · rw [HoldsSession, hsame, HoldsSession]
  · have hother : x.userId ≠ u.text := fun howner => hno (hwrite.acts hrun howner)
    constructor
    · rintro ⟨hc, y, hy, howner⟩
      obtain rfl := Option.some.inj (hnew.symm.trans hc)
      obtain rfl := RedisValue.session.inj hy
      exact (hother howner).elim
    · -- a record under this key is one of the same session
      rintro ⟨hc, y, hy, howner⟩
      obtain ⟨z, hz, hid, ho⟩ := stored_origin hrun hc
      obtain rfl := RedisValue.session.inj (hy.symm.trans hz)
      obtain ⟨_, _, _, _, _, _, hcreation, hfixed⟩ := ho.creation
      have hx := hwrite.fixed_eq hrun hq hcreation (hid.symm.trans (Session.id_eq_of_fixed hfixed).symm)
      exact (hother ((Session.userId_eq_of_fixed (hx.trans hfixed)).trans howner)).elim
  · constructor
    · rintro ⟨hc, -⟩
      simp [World.del] at hc
    · rintro ⟨hc, y, hy, howner⟩
      obtain ⟨z, hz, hid, ho⟩ := stored_origin hrun hc
      obtain rfl := RedisValue.session.inj (hy.symm.trans hz)
      exact (hno (hdelete.acts hrun ho hid howner)).elim

/-- A step of a request of somebody else. -/
theorem untouched_act (hrun : Run A w tr) {e : Event} (hq : Started t q tr)
    (hL : Licence X srv q (own t tr) e.command) (hact : World.act X t e w = some w')
    (hno : ¬ ActsAs X q (own t tr) u) : Untouched u w w' where
  clock := (World.act_clock hact).ge
  row row hrow := by
    refine userById_act hact ?_ hrow
    rintro secret r rfl
    exact hno (SecretWrite.acts hrun hL)
  sessions id c hc _ := (holdsSession_act hrun hq hL hact hno id c).mpr hc
  nothingNew id c hc := (holdsSession_act hrun hq hL hact hno id c).mp hc
  tokens token claims hsub := by
    obtain hsame | ⟨issued, token', rfl, hnone, htokens⟩ := World.act_tokens hact
    · rw [hsame]
    · obtain ⟨_, _, _, _, _, hissue⟩ := hL
      have hother : issued ≠ claims := by
        rintro rfl
        exact hno (hissue.acts hsub)
      rw [htokens, List.lookup_cons]
      by_cases htoken : token = token'
      · subst htoken
        simp [hnone, hother]
      · have hne : (token == token') = false := by simpa using htoken
        rw [hne]

/-! ### Runs -/

/-- Of the requests that take the steps `seg`, after `tr`, none acts as the user. -/
def WithoutCredentials (u : Uuid) (seg tr : ProxyTrace X srv) : Prop :=
  ∀ y ∈ seg, ∀ q, Started y.tid q (seg ++ tr) → ¬ ActsAs X q (own y.tid (seg ++ tr)) u

theorem WithoutCredentials.earlier {y : Entry (proxySystem X srv)}
    (h : WithoutCredentials u (y :: seg) tr) : WithoutCredentials u seg tr := by
  intro z hz q hq ha
  have hsuf : seg ++ tr <:+ (y :: seg) ++ tr := List.suffix_cons y _
  exact h z (List.mem_cons_of_mem _ hz) q (hq.mono hsuf.subset) (ha.mono (own_suffix hsuf _))

/-- The request that takes the last of the steps. -/
theorem WithoutCredentials.last {y : Entry (proxySystem X srv)}
    (h : WithoutCredentials u (y :: seg) tr) (hq : Started y.tid q (seg ++ tr)) :
    ¬ ActsAs X q (own y.tid (seg ++ tr)) u := by
  intro ha
  have hsuf : seg ++ tr <:+ (y :: seg) ++ tr := List.suffix_cons y _
  exact h y List.mem_cons_self q (hq.mono hsuf.subset) (ha.mono (own_suffix hsuf _))

/-- **What belongs to a user is changed by requests that have shown the user's
credentials, and by nobody else.** In a stretch of a run in which no request does so,
the row of the user stays as it is, no token comes to name the user, and the session
records of the user keep their contents and their deadlines until these have come. -/
theorem only_credentials_change (hrun : Run A w (seg ++ x₀ :: tr₀))
    (hno : WithoutCredentials u (seg ++ [x₀]) tr₀) : Untouched u x₀.pre w := by
  refine (hrun.since (proxy_contract X srv)
    (fun w seg => WithoutCredentials u (seg ++ [x₀]) tr₀ → Untouched u x₀.pre w)
    ?_ ?_ ?_ ?_ ?_).1 hno
  · intro w hrun₀ _ hen hno
    cases hen with
    | start => exact .refl u _
    | done => exact .refl u _
    | @act t' q' w₀ _ c next r hq hpath hact =>
        have hstep : Enabled tr₀ (⟨t', w₀, .act (Cmd.event c r)⟩ : Entry (proxySystem X srv)) w :=
          .act r hq hpath hact
        obtain ⟨q'', hq'', hL, hact'⟩ := enabled_event hstep
        exact untouched_act hrun₀ hq'' hL hact' (WithoutCredentials.last hno hq'')
  · intro w w' seg m _ hJ henv hno
    obtain ⟨hle, rfl⟩ : w.clock ≤ m ∧ w.advance m = w' := by simpa using henv
    exact (hJ hno).trans (untouched_advance hle)
  · exact fun _ hJ _ hno => hJ (WithoutCredentials.earlier hno)
  · intro w w' seg t' q' e hrun' hJ _ hq hL hact _ hno
    have hbefore := hJ (WithoutCredentials.earlier hno)
    refine hbefore.trans (untouched_act hrun' hq hL hact ?_)
    have hsplit : seg ++ x₀ :: tr₀ = (seg ++ [x₀]) ++ tr₀ := by simp
    rw [hsplit] at hq ⊢
    exact WithoutCredentials.last hno hq
  · exact fun _ hJ _ _ _ hno => hJ (WithoutCredentials.earlier hno)

/-! ### A particular run -/

namespace Scenario

/-- The event shows a credential of the user. -/
def shows (u : Uuid) : Event → Bool
  | .jwtDecode _ (.ok claims) => decide (claims.sub = u.text)
  | .findUserByUsername _ (.ok (some row)) => decide (row.id = u)
  | _ => false

theorem exists_shown (ha : ActsAs X q h u) : ∃ e ∈ h, shows u e = true := by
  cases ha with
  | token bearer sub =>
      obtain ⟨token, -, hmem⟩ := bearer
      exact ⟨_, hmem, by simp [shows, sub]⟩
  | login passed same => exact ⟨_, passed.found, by simp [shows, same]⟩

def holds (w : World) (u : Uuid) (id : String) : Bool :=
  match w.redis.lookup (sessionKey id) with
  | some ⟨.session y, _⟩ => decide (y.userId = u.text)
  | _ => false

theorem exists_held {id : String} (hw : holds w u id = true) : ∃ c, HoldsSession w u id c := by
  unfold holds at hw
  split at hw
  · rename_i y deadline hc
    exact ⟨_, hc, y, rfl, of_decide_eq_true hw⟩
  · simp at hw

/-- The threads that take the steps `seg` have not shown Alice's credentials, thread 2
has logged somebody out from everywhere, and Alice's session is there. -/
def leavesAlice (p : Play (proxySystem external server)) (seg : ProxyTrace external server) : Bool :=
  holds p.world alice.id (scriptUuid 2).text &&
    (seg.all fun y => (own y.tid p.trace).all fun e => !shows alice.id e) &&
    seg.any fun x => decide (x.tid = 2) && x.item.isDone fun (o : Response) => decide (o.status = 200)

/-- Bob logs in, and out from everywhere, while Alice is logged in. -/
theorem only_credentials_change_run : ∃ (w : World) (seg tr₀ : ProxyTrace external server)
    (x₀ : Entry (proxySystem external server)) (o : Response) (id : String) (c : Cell RedisValue),
    Reachable w (seg ++ x₀ :: tr₀) ∧ WithoutCredentials alice.id (seg ++ [x₀]) tr₀ ∧
      Returned 2 o (seg ++ x₀ :: tr₀) ∧ o.status = 200 ∧
      HoldsSession x₀.pre alice.id id c ∧ HoldsSession w alice.id id c := by
  have hplay : playsThen (fun _ _ => True) [alice, bob]
      (.start 0 (login aliceLogin) :: steps 0 24) (fun _ => true)
      (.start 1 (login bobLogin) :: steps 1 23 ++
        .start 2 (authorized "POST" "/auth/logout_all" "token-1" "") :: steps 2 7)
      leavesAlice = true := by decide +kernel
  obtain ⟨p, p', seg, -, -, htrace, hrun, hcheck⟩ :=
    run_of_playsThen (world_initial (by decide) (by decide) (by decide)) hplay
  simp only [leavesAlice, Bool.and_eq_true] at hcheck
  obtain ⟨⟨hheld, hunshown⟩, hrevoked⟩ := hcheck
  rw [htrace] at hrun hunshown
  obtain ⟨x, hx, hdone⟩ := List.any_eq_true.mp hrevoked
  obtain rfl | ⟨seg, x₀, rfl⟩ := List.eq_nil_or_concat' seg
  · exact (List.not_mem_nil hx).elim
  have hno : WithoutCredentials alice.id (seg ++ [x₀]) p.trace := by
    intro y hy q hq ha
    obtain ⟨e, he, hshown⟩ := exists_shown ha
    have hunshown' := List.all_eq_true.mp (List.all_eq_true.mp hunshown y hy) e he
    simp [hshown] at hunshown'
  have hsplit : seg ++ x₀ :: p.trace = (seg ++ [x₀]) ++ p.trace := by simp
  rw [← hsplit] at hrun
  obtain ⟨c, hc⟩ := exists_held hheld
  have hbefore := (only_credentials_change hrun hno).nothingNew _ c hc
  obtain ⟨htid, ho⟩ := Bool.and_eq_true_iff.mp hdone
  obtain ⟨o, hitem, hstatus⟩ := Item.isDone_eq ho
  have hreturned : Returned 2 o (seg ++ x₀ :: p.trace) := by
    refine ⟨x.pre, hsplit ▸ List.mem_append_left _ ?_⟩
    rw [← of_decide_eq_true htid, ← hitem]
    exact hx
  exact ⟨p'.world, seg, p.trace, x₀, o, _, c, hrun, hno, hreturned, of_decide_eq_true hstatus, hbefore,
    hc⟩

end Scenario

end ZeroTrustProxy
