import ZeroTrustProxy.Runs.Window

/-!
Revocation of a session.

`handle_logout` deletes the key of one session and `handle_logout_all` those of
all sessions of a user it has found by a SCAN. Neither waits for requests that
have read the session before, and their write-back creates the key anew. When
no request writes the session back to a key that has gone, a session that has
been revoked stays revoked.
-/

namespace ZeroTrustProxy

open Concurrent

variable {X : External} {srv : ProxyServer}
  {A : ProxyTrace X srv → Entry (proxySystem X srv) → Prop} {w : World} {tr : ProxyTrace X srv}
  {t₀ : ℕ} {q₀ : Request} {h₀ : List Event} {user : UserRow} {mfa : Bool} {x : Session}

/-- The step writes back a session that its request has read, although its key
has gone since, and thread `t` has begun. -/
def Revives (t : ℕ) (id : String) (tr : ProxyTrace X srv) (e : Entry (proxySystem X srv)) : Prop :=
  (∃ v secs r, e.item = .act (.redisSetEx (sessionKey id) v secs r)) ∧
    (∃ v, .redisGet (sessionKey id) v ∈ own e.tid tr) ∧
    e.pre.redis.lookup (sessionKey id) = none ∧ ∃ q, Started t q tr

/-- Thread `t` has revoked the session `x`: a logout with a token of `x`, or a
logout from everywhere by its owner that has begun after the token of `x` was
signed, has been answered with success. -/
def RevokedBy (x : Session) (t : ℕ) (tr : ProxyTrace X srv) : Prop :=
  ∃ q claims w₁ o, ⟨t, w₁, .done o⟩ ∈ tr ∧ o.status = 200 ∧ Started t q tr ∧
    Bearer q (own t tr) claims ∧
    (q.route = .logout ∧ claims.sessionId = x.id ∨
      q.route = .logoutAll ∧ claims.sub = x.userId ∧ ∃ post w₀ pre claims',
        tr = post ++ ⟨t, w₀, .start q⟩ :: pre ∧ Issued pre claims' ∧ claims'.sessionId = x.id)

/-- The session is not stored, or it has expired. -/
def Gone (x : Session) (w : World) : Prop :=
  w.redis.lookup (sessionKey x.id) = none ∨ x.expiresAt < w.clock

theorem Gone.advance {m : Int} (h : Gone x w) (hle : w.clock ≤ m) : Gone x (w.advance m) := by
  rcases h with hnone | hover
  · refine .inl ?_
    show (w.redis.advance m).lookup (sessionKey x.id) = none
    rw [ExpiringStore.lookup_advance, hnone]
    rfl
  · exact .inr (lt_of_lt_of_le hover hle)

theorem Gone.act (hrun : Run A w tr) {t t' : ℕ} {q : Request} {e : Event} {w' : World}
    {claims : Claims} (h : Gone x w) (hq : Started t' q tr)
    (hL : Licence X srv q (own t' tr) e.command) (hact : World.act X t' e w = some w')
    (hstart : ∃ q, Started t q tr) (hissued : Issued tr claims) (hid : claims.sessionId = x.id)
    (hrevives : ¬ Revives t x.id tr ⟨t', w, .act e⟩) : Gone x w' := by
  rcases h with hnone | hover
  · rcases sessionKey_step hL hact x.id with hsame | ⟨y, secs, r, rfl, hy, hwrite, -⟩ |
      ⟨r, rfl, -, rfl⟩
    · exact .inl (by rw [hsame, hnone])
    · -- a write without the key would be a write-back
      have hback := hwrite.writeBack hrun hq hissued (hid.trans hy.symm)
      exact (hrevives ⟨⟨_, _, _, rfl⟩, hy ▸ hback.read hrun, hnone, hstart⟩).elim
    · exact .inl (AList.lookup_erase _ _)
  · refine .inr ?_
    rw [World.act_clock hact]
    exact hover

/-- **What has gone stays gone**, when nothing revives it. -/
theorem gone_since {t : ℕ} {x₀ : Entry (proxySystem X srv)} {seg pre : ProxyTrace X srv}
    {claims : Claims} (hA : ∀ tr e, A tr e → ¬ Revives t x.id tr e)
    (hrun : Run A w (seg ++ x₀ :: pre)) (hstart : ∃ q, Started t q pre)
    (hissued : Issued pre claims) (hid : claims.sessionId = x.id)
    (hgone : ∀ w', Enabled pre x₀ w' → Gone x w') : Gone x w := by
  have hsuf (seg : ProxyTrace X srv) : pre <:+ seg ++ x₀ :: pre :=
    (List.suffix_cons _ _).trans (List.suffix_append _ _)
  refine (hrun.since (proxy_contract X srv) (fun w _ => Gone x w) ?_ ?_ ?_ ?_ ?_).1
  · exact fun _ _ hen => hgone _ hen
  · intro w w' seg m _ hJ henv
    obtain ⟨hle, rfl⟩ : w.clock ≤ m ∧ w.advance m = w' := by simpa using henv
    exact hJ.advance hle
  · exact fun _ hJ _ => hJ
  · intro w w' seg t' q e hrun hJ _ hq hL hact hstep
    exact hJ.act hrun hq hL hact (hstart.imp fun _ h => h.mono (hsuf seg).subset)
      (hissued.mono (hsuf seg)) hid (hA _ _ hstep)
  · exact fun _ hJ _ _ _ => hJ

/-! ### The SCAN -/

/-- Where the key of `x` is while thread `t` scans: gone, yielded, or owed. -/
def Scanned (x : Session) (t : ℕ) (w : World) (tr : ProxyTrace X srv) : Prop :=
  Gone x w ∨ Yielded (own t tr) (sessionKey x.id) ∨
    sessionKey x.id ∈ w.scans t ∧ ¬ ScanEnded (own t tr)

theorem Yielded.mono {h h' : List Event} {key : String} (hy : Yielded h key) (hsub : h ⊆ h') :
    Yielded h' key := by
  rcases hy with ⟨keys, left, hmem, hkey⟩ | ⟨left, keys, hmem, hkey⟩
  · exact .inl ⟨keys, left, hsub hmem, hkey⟩
  · exact .inr ⟨left, keys, hsub hmem, hkey⟩

theorem not_scanEnded_cons {e : Event} {h : List Event} (hended : ¬ ScanEnded h)
    (hscan : ∀ keys, e ≠ .redisScan (.ok (keys, 0)))
    (hnext : ∀ keys, e ≠ .redisScanNext 1 (.ok keys))
    (hfailed : ∀ left f, e ≠ .redisScanNext left (.error f)) : ¬ ScanEnded (e :: h) := by
  rintro (⟨keys, hmem⟩ | ⟨keys, hmem⟩ | ⟨left, f, hmem⟩)
  · rcases List.mem_cons.mp hmem with heq | hold
    · exact hscan keys heq.symm
    · exact hended (.inl ⟨keys, hold⟩)
  · rcases List.mem_cons.mp hmem with heq | hold
    · exact hnext keys heq.symm
    · exact hended (.inr (.inl ⟨keys, hold⟩))
  · rcases List.mem_cons.mp hmem with heq | hold
    · exact hfailed left f heq.symm
    · exact hended (.inr (.inr ⟨left, f, hold⟩))

/-- An opened SCAN yields the key of the session or owes it. -/
theorem scanned_scan {t : ℕ} {keys : List String} {left : ℕ} {w' : World}
    (hact : World.act X t (.redisScan (.ok (keys, left))) w = some w')
    (hended : ¬ ScanEnded (own t tr)) :
    Scanned x t w' (⟨t, w, .act (.redisScan (.ok (keys, left)))⟩ :: tr) := by
  unfold Scanned
  rw [own_act_self]
  by_cases hnone : w.redis.lookup (sessionKey x.id) = none
  · obtain ⟨-, rfl⟩ := World.accept_eq_some.mp hact
    exact .inl (.inl hnone)
  · rcases World.scan_reply hact hnone (isSessionKey_sessionKey _) with hyielded | ⟨howed, hleft⟩
    · exact .inr (.inl (.inl ⟨keys, left, List.mem_cons_self, hyielded⟩))
    · refine .inr (.inr ⟨howed, not_scanEnded_cons hended ?_ (by simp) (by simp)⟩)
      rintro keys' heq
      exact hleft (Prod.mk.inj (Except.ok.inj (Event.redisScan.inj heq))).2

/-- A page yields the key of the session or leaves it owed. -/
theorem scanned_scanNext {t : ℕ} {keys : List String} {left : ℕ} {w' : World}
    (hact : World.act X t (.redisScanNext left (.ok keys)) w = some w')
    (howed : sessionKey x.id ∈ w.scans t) (hended : ¬ ScanEnded (own t tr)) :
    Scanned x t w' (⟨t, w, .act (.redisScanNext left (.ok keys))⟩ :: tr) := by
  unfold Scanned
  rw [own_act_self]
  rcases World.scanNext_reply hact howed with hyielded | ⟨howed', hleft⟩
  · exact .inr (.inl (.inr ⟨left, keys, List.mem_cons_self, hyielded⟩))
  · refine .inr (.inr ⟨howed', not_scanEnded_cons hended (by simp) ?_ (by simp)⟩)
    rintro keys' heq
    exact hleft (Event.redisScanNext.inj heq).1

/-- Every other step leaves the key of the session owed, or takes it away. -/
theorem scanned_act {t t' : ℕ} {e : Event} {w' : World} (hact : World.act X t' e w = some w')
    (hscan : ∀ r, e = .redisScan r → t' ≠ t) (hnext : ∀ n r, e = .redisScanNext n r → t' ≠ t)
    (howed : sessionKey x.id ∈ w.scans t) (hended : ¬ ScanEnded (own t tr)) :
    Scanned x t w' (⟨t', w, .act e⟩ :: tr) := by
  rcases World.act_scans hact howed hscan hnext with hnone | howed'
  · exact .inl (.inl hnone)
  · refine .inr (.inr ⟨howed', ?_⟩)
    by_cases ht : t' = t
    · subst ht
      rw [own_act_self]
      refine not_scanEnded_cons hended ?_ ?_ ?_
      · exact fun _ heq => hscan _ heq rfl
      · exact fun _ heq => hnext _ _ heq rfl
      · exact fun _ _ heq => hnext _ _ heq rfl
    · rw [own_act_ne ht]
      exact hended

/-- Without failures, a SCAN has yielded the key of a session when it ends,
unless the session has gone in the meantime. -/
theorem scanned_since {t : ℕ} {w₀ : World} {keys : List String} {left : ℕ}
    {seg pre : ProxyTrace X srv} {claims : Claims} {token : String} {claims' : Claims}
    (hA : ∀ tr e, A tr e → Entry.succeeds e = true ∧ ¬ Revives t x.id tr e)
    (hrun : Run A w (seg ++ ⟨t, w₀, .act (.redisScan (.ok (keys, left)))⟩ :: pre))
    (hstart : ∃ q, Started t q pre) (hissued : Issued pre claims)
    (hid : claims.sessionId = x.id) (hown : own t pre = [.jwtDecode token (.ok claims')]) :
    Scanned x t w (seg ++ ⟨t, w₀, .act (.redisScan (.ok (keys, left)))⟩ :: pre) := by
  have hsuf (seg : ProxyTrace X srv) :
      pre <:+ seg ++ ⟨t, w₀, .act (.redisScan (.ok (keys, left)))⟩ :: pre :=
    (List.suffix_cons _ _).trans (List.suffix_append _ _)
  refine (hrun.since (proxy_contract X srv)
    (fun w seg => Scanned x t w (seg ++ ⟨t, w₀, .act (.redisScan (.ok (keys, left)))⟩ :: pre))
    ?_ ?_ ?_ ?_ ?_).1
  · intro w' _ _ hen
    obtain ⟨_, -, -, hact⟩ := enabled_event hen
    refine scanned_scan hact ?_
    rw [hown]
    rintro (⟨_, hmem⟩ | ⟨_, hmem⟩ | ⟨_, _, hmem⟩) <;> simp at hmem
  · intro w w' seg m _ hJ henv
    obtain ⟨hle, rfl⟩ : w.clock ≤ m ∧ w.advance m = w' := by simpa using henv
    rcases hJ with hgone | hyielded | ⟨howed, hended⟩
    · exact .inl (hgone.advance hle)
    · exact .inr (.inl hyielded)
    · by_cases hnone : (w.redis.advance m).lookup (sessionKey x.id) = none
      · exact .inl (.inl hnone)
      · refine .inr (.inr ⟨List.mem_filter.mpr ⟨howed, ?_⟩, hended⟩)
        exact Option.isSome_iff_ne_none.mpr hnone
  · exact fun _ hJ _ => hJ
  · intro w w' seg t' q e hrun hJ _ hq hL hact hstep
    obtain ⟨hok, hrevives⟩ := hA _ _ hstep
    rcases hJ with hgone | hyielded | ⟨howed, hended⟩
    · exact .inl (hgone.act hrun hq hL hact (hstart.imp fun _ h => h.mono (hsuf seg).subset)
        (hissued.mono (hsuf seg)) hid hrevives)
    · exact .inr (.inl (hyielded.mono (own_suffix (List.suffix_cons _ _) t).subset))
    · by_cases ht : t' = t
      · subst ht
        cases e with
        | redisScan r =>
            rcases r with f | ⟨keys', left'⟩
            · simp [Entry.succeeds, Event.failed] at hok
            · exact scanned_scan hact hended
        | redisScanNext left' r =>
            rcases r with f | keys'
            · simp [Entry.succeeds, Event.failed] at hok
            · exact scanned_scanNext hact howed hended
        | _ => exact scanned_act hact (by simp) (by simp) howed hended
      · exact scanned_act hact (fun _ _ => ht) (fun _ _ _ => ht) howed hended
  · exact fun _ hJ _ _ _ => hJ

/-! ### Revocation -/

theorem RevokedBy.mono {t : ℕ} {tr' : ProxyTrace X srv} (h : RevokedBy x t tr)
    (hsub : tr <:+ tr') : RevokedBy x t tr' := by
  obtain ⟨q, claims, w₁, o, hdone, hok, hq, hb, hcase⟩ := h
  refine ⟨q, claims, w₁, o, hsub.subset hdone, hok, hq.mono hsub.subset,
    hb.mono (own_suffix hsub t), hcase.imp id ?_⟩
  rintro ⟨hroute, hsubject, post, w₀, pre, claims', rfl, hissued⟩
  obtain ⟨seg, rfl⟩ := hsub
  exact ⟨hroute, hsubject, seg ++ post, w₀, pre, claims', by simp, hissued⟩

theorem SessionDelete.bearer {q : Request} {l : List Event} {key : String}
    (h : SessionDelete q l key) : ∃ claims, Bearer q l claims := by
  cases h with
  | expired now bearer expiry => exact ⟨_, bearer.mono (List.suffix_append [_, _, _] _)⟩
  | logout route bearer => exact ⟨_, bearer⟩
  | logoutAll key route bearer read owner => exact ⟨_, bearer⟩

/-- From a `DEL` of its key by thread `t` on, the session has gone. -/
theorem deleted_gone {t : ℕ} {claims : Claims}
    (hA : ∀ tr e, A tr e → Entry.succeeds e = true ∧ ¬ Revives t x.id tr e)
    (hrun : Run A w tr) (hdel : .redisDel (sessionKey x.id) (.ok ()) ∈ own t tr)
    (hissued : ∀ post w₀ pre, tr = post ++ ⟨t, w₀, .act (.redisDel (sessionKey x.id) (.ok ()))⟩ :: pre →
      Issued pre claims) (hid : claims.sessionId = x.id) : Gone x w := by
  obtain ⟨l, hl⟩ := suffix_of_mem hdel
  obtain ⟨post, pre, w₀, w₁, q, rfl, -, -, hq, -, hact⟩ := history_event hrun hl
  refine gone_since (fun _ _ h => (hA _ _ h).2) hrun ⟨q, hq⟩ (hissued _ _ _ rfl) hid
    fun w' hen => ?_
  obtain ⟨_, -, -, hact'⟩ := enabled_event hen
  rw [World.del_reply hact']
  exact .inl (AList.lookup_erase _ _)

/-- What has gone when a request has been answered stays gone. -/
theorem answered_gone {t : ℕ} {w₁ : World} {o : Response} {post pre : ProxyTrace X srv}
    {claims : Claims} {q : Request}
    (hA : ∀ tr e, A tr e → Entry.succeeds e = true ∧ ¬ Revives t x.id tr e)
    (hrun : Run A w (post ++ ⟨t, w₁, .done o⟩ :: pre)) (hq : Started t q pre)
    (hissued : Issued pre claims) (hid : claims.sessionId = x.id) (hgone : Gone x w₁) :
    Gone x w := by
  refine gone_since (fun _ _ h => (hA _ _ h).2) hrun ⟨q, hq⟩ hissued hid fun w' hen => ?_
  obtain ⟨rfl, -⟩ := hen.justified (proxy_contract X srv)
  exact hgone

/-- **A logout ends its session.** -/
theorem logout_gone {t : ℕ} {q : Request} {claims : Claims}
    (hA : ∀ tr e, A tr e → Entry.succeeds e = true ∧ ¬ Revives t x.id tr e)
    (hrun : Run A w tr) (hq : Started t q tr) (hb : Bearer q (own t tr) claims)
    (hid : claims.sessionId = x.id)
    (hdel : .redisDel (sessionKey claims.sessionId) (.ok ()) ∈ own t tr) : Gone x w := by
  rw [hid] at hdel
  refine deleted_gone hA hrun hdel (fun post w₀ pre htr => ?_) hid
  subst htr
  obtain ⟨hrun₁, -, q', w₁, hq', hL, -⟩ := event_entry hrun
  have hpre : pre <:+ post ++ ⟨t, w₀, .act (.redisDel (sessionKey x.id) (.ok ()))⟩ :: pre :=
    (List.suffix_cons _ _).trans (List.suffix_append _ _)
  obtain rfl := hrun.started_unique hq (hq'.mono hpre.subset)
  have hdelete : SessionDelete q (own t pre) (sessionKey x.id) := hL
  obtain ⟨claims', hb'⟩ := hdelete.bearer
  rw [hb.unique hrun List.suffix_rfl hb' (own_suffix hpre t)]
  exact hb'.issued hrun₁ List.suffix_rfl

/-- **A logout from everywhere ends the sessions of its user** whose token had
been signed when it began. -/
theorem logoutAll_gone {t : ℕ} {q : Request} {w₀ : World} {post pre : ProxyTrace X srv}
    {claims : Claims} (hA : ∀ tr e, A tr e → Entry.succeeds e = true ∧ ¬ Revives t x.id tr e)
    (hrun : Run A w tr) (hc : Creation tr t₀ q₀ h₀ user mfa x)
    (htr : tr = post ++ ⟨t, w₀, .start q⟩ :: pre) (hissued : Issued pre claims)
    (hid : claims.sessionId = x.id) (hrevoked : RevokedAll (own t tr) x.userId) : Gone x w := by
  -- whatever the thread has done, the token had been signed by then
  have hbefore {post' rest : ProxyTrace X srv} {w₁ : World} {e : Event}
      (heq : tr = post' ++ ⟨t, w₁, .act e⟩ :: rest) : Issued rest claims := by
    obtain ⟨mid, rfl⟩ := (heq ▸ hrun).start_before (heq.symm.trans htr) (by simp)
    exact hissued.mono ((List.suffix_cons _ _).trans (List.suffix_append _ _))
  obtain ⟨l, keys, left, token, claims', hown⟩ := hrevoked.scanned
  obtain ⟨post₁, w₁, pre₁, heq, -, hown₁⟩ := own_split hown
  have hscan : Scanned x t w tr := by
    rw [heq] at hrun ⊢
    obtain ⟨-, -, q₁, -, hq₁, -⟩ := event_entry hrun
    exact scanned_since hA hrun ⟨q₁, hq₁⟩ (hbefore heq) hid hown₁
  rcases hscan with hgone | hyielded | ⟨-, hended⟩
  · exact hgone
  · obtain ⟨r, hread⟩ := hrevoked.visited _ hyielded
    obtain ⟨l', hl'⟩ := suffix_of_mem hread
    obtain ⟨l₁, hl₁⟩ := hl'
    obtain ⟨post₂, w₂, pre₂, heq₂, -, -⟩ := own_split hl₁.symm
    have hrun₂ : Run A w (post₂ ++ ⟨t, w₂, .act (.redisGet (sessionKey x.id) r)⟩ :: pre₂) := heq₂ ▸ hrun
    obtain ⟨-, hstep, q₂, w₃, hq₂, -, hact⟩ := event_entry hrun₂
    obtain ⟨hok, -⟩ := hA _ _ hstep
    rcases r with f | _ | v
    · simp [Entry.succeeds, Event.failed] at hok
    · -- it had gone when the loop came to it
      refine gone_since (fun _ _ h => (hA _ _ h).2) hrun₂ ⟨q₂, hq₂⟩ (hbefore heq₂) hid
        fun w' hen => ?_
      obtain ⟨_, -, -, hget⟩ := enabled_event hen
      obtain ⟨rfl, hnone⟩ := World.read_reply hget
      exact .inl (Option.map_eq_none_iff.mp hnone.symm)
    · obtain ⟨-, hstored⟩ := World.read_reply hact
      obtain ⟨c, hlookup, rfl⟩ := Option.map_eq_some_iff.mp hstored.symm
      obtain ⟨y, hy, hyid, -⟩ := stored_origin hrun₂.entry.1 hlookup
      rw [hy] at hread
      obtain ⟨-, horigin⟩ := read_origin hrun hread
      have hfixed := horigin.fixed_eq hrun hc hyid
      rcases hrevoked.deleted _ y hread (Session.userId_eq_of_fixed hfixed) with
        ⟨now, hnow, hover⟩ | hdel
      · refine .inr ?_
        rw [← Session.expiresAt_eq_of_fixed hfixed]
        exact lt_of_lt_of_le (by simpa [Session.isExpired] using hover) (reading_le hrun hnow)
      · rw [hyid] at hdel
        exact deleted_gone hA hrun hdel (fun _ _ _ heq₃ => hbefore heq₃) hid
  · exact (hended hrevoked.ended).elim

/-- The session of a token that has been signed is the one created under its id. -/
theorem Issued.creation_of (hrun : Run A w tr) {pre : ProxyTrace X srv} {claims : Claims}
    (hissued : Issued pre claims) (hpre : pre <:+ tr) (hc : Creation tr t₀ q₀ h₀ user mfa x)
    (hid : claims.sessionId = x.id) :
    ∃ t₁ q₁ h₁ user' mfa', Creation pre t₁ q₁ h₁ user' mfa' x := by
  obtain ⟨t₁, q₁, h₁, user', mfa', x', hc', hid', -⟩ := hissued.creation
  obtain ⟨-, -, rfl⟩ := (hc'.mono hpre).unique hrun hc (hid'.trans hid)
  exact ⟨t₁, q₁, h₁, user', mfa', hc'⟩

/-- What has been revoked has gone, and stays gone. -/
theorem RevokedBy.gone {t : ℕ}
    (hA : ∀ tr e, A tr e → Entry.succeeds e = true ∧ ¬ Revives t x.id tr e)
    (hrun : Run A w tr) (hc : Creation tr t₀ q₀ h₀ user mfa x) (h : RevokedBy x t tr) :
    Gone x w := by
  obtain ⟨q, claims, w₁, o, hdone, hok, hq, hb, hcase⟩ := h
  obtain ⟨post, pre, w₂, rfl, hrun₁, -, hen⟩ := hrun.entry_of_mem hdone
  have hsuf : pre <:+ post ++ ⟨t, w₁, .done o⟩ :: pre :=
    (List.suffix_cons _ _).trans (List.suffix_append _ _)
  obtain ⟨-, q', hq', hanswer⟩ := hen.justified (proxy_contract X srv)
  obtain rfl := hrun.started_unique hq (hq'.mono hsuf.subset)
  have hdid := hanswer hok
  rcases hcase with ⟨hroute, hid⟩ | ⟨hroute, hsubject, post₀, w₀, pre₀, claims₀, heq, hissued, hid⟩
  · rw [hroute] at hdid
    obtain ⟨claims', hb', hdel⟩ := hdid
    obtain rfl := hb.unique hrun List.suffix_rfl hb' (own_suffix hsuf t)
    refine answered_gone hA hrun hq' (hb'.issued hrun₁ List.suffix_rfl) hid ?_
    exact logout_gone hA hrun₁ hq' hb' hid hdel
  · rw [hroute] at hdid
    obtain ⟨claims', hb', hrevoked⟩ := hdid
    obtain rfl := hb.unique hrun List.suffix_rfl hb' (own_suffix hsuf t)
    obtain ⟨mid, rfl⟩ := hrun.start_before heq (by simp)
    have hpre₀ : pre₀ <:+ mid ++ ⟨t, w₀, .start q⟩ :: pre₀ :=
      (List.suffix_cons _ _).trans (List.suffix_append _ _)
    obtain ⟨t₁, q₁, h₁, user', mfa', hc'⟩ := hissued.creation_of hrun (hpre₀.trans hsuf) hc hid
    refine answered_gone hA hrun hq' (hissued.mono hpre₀) hid ?_
    exact logoutAll_gone hA hrun₁ (hc'.mono hpre₀) rfl hissued hid (hsubject ▸ hrevoked)

/-- A session that has gone is not returned. -/
theorem GetSession.fails {t : ℕ} {r : Except ProxyError Session} {mid pre : ProxyTrace X srv}
    (hrun : Run A w tr) (hc : Creation tr t₀ q₀ h₀ user mfa x)
    (hcall : GetSession tr t x.id r mid pre)
    (hgone : ∀ w₁ before, Run A w₁ before → pre <:+ before → before <:+ tr → Gone x w₁) :
    ∃ e, r = .error e := by
  cases r with
  | error e => exact ⟨e, rfl⟩
  | ok s =>
      exfalso
      obtain ⟨y, now, activity, update, hlive, rfl, -, hbody⟩ := (hcall.fetch hrun).ok_inv
      have hexpires := Session.expiresAt_eq_of_fixed
        (hcall.read_fixed hrun hc (y := y) (by simp [hbody]))
      -- the expiry check and, before it, the read
      have hsplit : own t mid = (update ++ [Event.utcNow .updateActivity activity]) ++
          Event.utcNow .isExpired now ::
            [.redisGet (sessionKey x.id) (.ok (some (.session y)))] := by
        rw [hbody]
        simp
      obtain ⟨w₁, w₂, w₀, mid₂, -, hown, hsuf, hrun₁, -, hcheck⟩ := hcall.event_split hrun hsplit
      obtain ⟨-, rfl⟩ := World.clock_reply hcheck
      obtain ⟨post, w₃, rest, rfl, -⟩ := own_last hown
      rw [List.append_assoc, List.cons_append] at hrun₁ hsuf
      obtain ⟨hrun₃, -, -, w₄, -, -, hget⟩ := event_entry hrun₁
      have hread : World.act X t (.redisGet (sessionKey x.id) (.ok (some (.session y)))) w₃ =
        some w₄ := hget
      obtain ⟨-, hstored⟩ := World.read_reply hread
      rcases hgone w₃ _ hrun₃ ((List.suffix_cons _ _).trans (List.suffix_append _ _))
        (((List.suffix_cons _ _).trans (List.suffix_append _ _)).trans hsuf) with hnone | hover
      · simp [World.read, hnone] at hstored
      · have hle := clock_le hrun₁ (List.mem_append_right _ List.mem_cons_self)
        have hchecked : w₁.clock ≤ y.expiresAt := by simpa [Session.isExpired] using hlive
        have hclock : w₃.clock ≤ w₁.clock := hle
        omega

/-- **Revocation is final, as far as it goes.** Without failing commands, and
when no request writes the session back to a key that has gone since the
revoking request began, no `get_session` that starts after the revocation was
answered returns the session, and no request that starts then is forwarded on
it. -/
theorem revocation_final {t : ℕ}
    (hrun : Run (fun tr e => Entry.succeeds e = true ∧ ¬ Revives t x.id tr e) w tr)
    (hc : Creation tr t₀ q₀ h₀ user mfa x) :
    (∀ {t' : ℕ} {r : Except ProxyError Session} {mid pre : ProxyTrace X srv},
      RevokedBy x t pre → GetSession tr t' x.id r mid pre → ∃ e, r = .error e) ∧
    ∀ {t' : ℕ} {q : Request} {claims : Claims} {w₁ : World} {u : UpstreamRequest}
      {r : Except String UpstreamResponse} {post seg pre : ProxyTrace X srv},
      tr = post ++ ⟨t', w₁, .act (.upstream u r)⟩ :: (seg ++ pre) → RevokedBy x t pre →
      (∀ y ∈ pre, y.tid ≠ t') → Started t' q seg → Bearer q (own t' seg) claims →
      claims.sessionId ≠ x.id := by
  have hfails {t' : ℕ} {r : Except ProxyError Session} {mid pre : ProxyTrace X srv}
      (hrev : RevokedBy x t pre) (hcall : GetSession tr t' x.id r mid pre) : ∃ e, r = .error e := by
    obtain ⟨t₁, q₁, h₁, user', mfa', hc'⟩ := hcall.created hrun hc
    exact hcall.fails hrun hc fun w₁ before hrun₁ hpre _ =>
      (hrev.mono hpre).gone (fun _ _ => id) hrun₁ (hc'.mono hpre)
  refine ⟨hfails, fun {t' q claims w₁ u r post seg pre} htr hrev hnew hq hb hid => ?_⟩
  subst htr
  obtain ⟨hrun₁, -, q', -, hq', ⟨claims', session, risk, hgate⟩, -⟩ := event_entry hrun
  obtain rfl := hrun₁.started_unique (hq.mono (List.subset_append_left seg pre)) hq'
  have hown : own t' (seg ++ pre) = own t' seg := by
    rw [own_append, own_eq_nil hnew, List.append_nil]
  rw [← hown] at hb
  obtain rfl := hb.unique hrun₁ List.suffix_rfl hgate.bearer List.suffix_rfl
  obtain ⟨w₂, hreturn⟩ := mem_own.mp hgate.read
  obtain ⟨post', rest, hrest⟩ := List.append_of_mem hreturn
  rw [hrest] at hrun₁
  obtain ⟨mid, pre', hcall⟩ := getSession_of_return hrun₁
  rw [← hrest, hid] at hcall
  obtain ⟨e, he⟩ := hfails (hrev.mono (hcall.after hnew))
    (hcall.mono ((List.suffix_cons _ _).trans (List.suffix_append _ _)))
  simp at he

/-- Nothing fails, and only thread 0 has moved when a session is written. -/
def Entry.writesFirst (tr : ProxyTrace X srv) (e : Entry (proxySystem X srv)) : Prop :=
  Entry.succeeds e = true ∧
    ((match e.item with
      | .act (.redisSetEx _ _ _ _) => true
      | _ => false) = true → tr.all (fun y => decide (y.tid = 0)) = true)

instance (tr : ProxyTrace X srv) (e : Entry (proxySystem X srv)) :
    Decidable (Entry.writesFirst tr e) :=
  inferInstanceAs (Decidable (_ ∧ _))

open Scenario in
/-- A login, a logout, and a proxied request with the token. -/
theorem revocation_final_run : ∃ (w : World) (tr mid pre : ProxyTrace external server) (x : Session)
    (e : ProxyError),
    Run (fun tr e => Entry.succeeds e = true ∧ ¬ Revives 1 x.id tr e) w tr ∧ RevokedBy x 1 pre ∧
      GetSession tr 2 x.id (.error e) mid pre := by
  have hplay : playsThen Entry.writesFirst [alice]
      (.start 0 (login aliceLogin) :: steps 0 24 ++
        .start 1 (authorized "POST" "/auth/logout" "token-0" "") :: steps 1 3)
      (fun p => serves 1 .logout "token-0" (scriptUuid 2).text p.trace && answered 1 p.trace &&
        p.trace.all fun e => decide (e.tid ≠ 2))
      (.start 2 (authorized "GET" "/data" "token-0" "") :: steps 2 4)
      (fun p _ => p.trace.any (Entry.returns 2 (scriptUuid 2).text fun _ => true)) = true := by
    decide +kernel
  obtain ⟨p, p', seg, -, hbefore, htr, hrun, hreturns⟩ :=
    run_of_playsThen (world_initial (by simp) (by simp) (by simp)) hplay
  simp only [Bool.and_eq_true, List.all_eq_true, decide_eq_true_eq] at hbefore
  obtain ⟨⟨hserves, hanswered⟩, hfresh⟩ := hbefore
  obtain ⟨r, mid, pre, hcall, -⟩ := exists_getSession hrun hreturns
  obtain ⟨hpre, t₀, q₀, h₀, user, mfa, x, hc, hid⟩ := hcall.creation hrun
  have hsub : p.trace <:+ pre := (htr ▸ hcall).after hfresh
  obtain ⟨q, claims, hq, hroute, hb, hclaims⟩ := exists_bearer hserves
  obtain ⟨w₁, o, hdone, hok⟩ := exists_answer hanswered
  rw [← hid] at hcall hclaims
  have hrev : RevokedBy x 1 pre := RevokedBy.mono
    ⟨q, claims, w₁, o, hdone, hok, hq, hb, .inl ⟨hroute, hclaims⟩⟩ hsub
  have hrun' : Run (fun tr e => Entry.succeeds e = true ∧ ¬ Revives 1 x.id tr e)
      p'.world p'.trace := hrun.mono fun tr e he => by
    refine ⟨he.1, ?_⟩
    rintro ⟨⟨v, secs, r, hitem⟩, -, -, q, w₂, hq⟩
    have hfirst := he.2 (by rw [hitem])
    rw [List.all_eq_true] at hfirst
    simpa using hfirst _ hq
  obtain ⟨e, rfl⟩ := (revocation_final hrun' (hc.mono hpre)).1 hrev hcall
  exact ⟨p'.world, p'.trace, mid, pre, x, e, hrun', hrev, hcall⟩

open Scenario in
/-- A proxied request has read the session before a logout and writes it back
after the logout has answered; the next request finds it. -/
theorem revocation_undone :
    ¬ ∀ (w : World) (tr : ProxyTrace external server) (t₀ : ℕ) (q₀ : Request) (h₀ : List Event)
      (user : UserRow) (mfa : Bool) (x : Session), Run (fun _ e => Entry.succeeds e = true) w tr →
      Creation tr t₀ q₀ h₀ user mfa x →
      ∀ (t t' : ℕ) (r : Except ProxyError Session) (mid pre : ProxyTrace external server),
        RevokedBy x t pre → GetSession tr t' x.id r mid pre → ∃ e, r = .error e := by
  intro hclaim
  have hplay : playsThen (fun _ e => Entry.succeeds e = true) [alice]
      (.start 0 (login aliceLogin) :: steps 0 24 ++
        .start 1 (authorized "GET" "/data" "token-0" "") :: steps 1 6 ++
        .start 2 (authorized "POST" "/auth/logout" "token-0" "") :: steps 2 3)
      (fun p => serves 2 .logout "token-0" (scriptUuid 2).text p.trace && answered 2 p.trace &&
        p.trace.all fun e => decide (e.tid ≠ 3))
      (steps 1 1 ++ .start 3 (authorized "GET" "/data" "token-0" "") :: steps 3 8)
      (fun p _ => p.trace.any (Entry.returns 3 (scriptUuid 2).text Except.isOk)) = true := by
    decide +kernel
  obtain ⟨p, p', seg, -, hbefore, htr, hrun, hreturns⟩ :=
    run_of_playsThen (world_initial (by simp) (by simp) (by simp)) hplay
  simp only [Bool.and_eq_true, List.all_eq_true, decide_eq_true_eq] at hbefore
  obtain ⟨⟨hserves, hanswered⟩, hfresh⟩ := hbefore
  obtain ⟨r, mid, pre, hcall, hr⟩ := exists_getSession hrun hreturns
  obtain ⟨hpre, t₀, q₀, h₀, user, mfa, x, hc, hid⟩ := hcall.creation hrun
  have hsub : p.trace <:+ pre := (htr ▸ hcall).after hfresh
  obtain ⟨q, claims, hq, hroute, hb, hclaims⟩ := exists_bearer hserves
  obtain ⟨w₁, o, hdone, hok⟩ := exists_answer hanswered
  rw [← hid] at hcall hclaims
  have hrev : RevokedBy x 2 pre := RevokedBy.mono
    ⟨q, claims, w₁, o, hdone, hok, hq, hb, .inl ⟨hroute, hclaims⟩⟩ hsub
  obtain ⟨e, rfl⟩ := hclaim _ _ t₀ q₀ h₀ user mfa x hrun (hc.mono hpre) 2 3 r mid pre hrev hcall
  simp [Except.isOk, Except.toBool] at hr

end ZeroTrustProxy
