import ZeroTrustProxy.Policy.RiskScore
import ZeroTrustProxy.Runs.RiskRange
import ZeroTrustProxy.Runs.Trust

/-!
Trust that is earned by logins which are then refused.

A login that has passed its password and its code writes its device row before
its risk is judged and before its session exists. If the row was there already,
the write raises its trust, whatever becomes of the login; and the next attempt
is judged by the raised trust. Trust stays where it is in a stretch of a run in
which no login is rewarded like that.
-/

namespace ZeroTrustProxy

open Concurrent

variable {X : External} {srv : ProxyServer} {w : World} {seg tr₀ : ProxyTrace X srv}

/-! ### Trust that is not gained -/

/-- The row after is no more trusted than the row before; a device without a
row counts with the neutral default. -/
def Within (before after : Option DeviceRow) : Prop :=
  match before with
  | some row => ∃ row', after = some row' ∧ row'.trustScore ≤ row.trustScore ∧
      (row'.isTrusted = true → row.isTrusted = true)
  | none => ∀ row', after = some row' → row'.trustScore ≤ 50 ∧ row'.isTrusted = false

theorem Within.refl (before : Option DeviceRow) : Within before before := by
  cases before with
  | none =>
      intro row' h
      simp at h
  | some row => exact ⟨row, rfl, le_refl _, fun h => h⟩

/-- A row that is no more trusted than one that has not gained trust. -/
theorem Within.lower {before : Option DeviceRow} {row row' : DeviceRow}
    (h : Within before (some row)) (hscore : row'.trustScore ≤ row.trustScore)
    (hflag : row'.isTrusted = true → row.isTrusted = true) : Within before (some row') := by
  cases before with
  | none =>
      obtain ⟨hle, hfalse⟩ := h row rfl
      intro row'' heq
      obtain rfl := Option.some.inj heq
      refine ⟨hscore.trans hle, ?_⟩
      cases hnew : row'.isTrusted with
      | false => rfl
      | true => simp [hflag hnew] at hfalse
  | some first =>
      obtain ⟨_, heq, hle, htrusted⟩ := h
      obtain rfl := Option.some.inj heq
      exact ⟨row', rfl, hscore.trans hle, fun hnew => htrusted (hflag hnew)⟩

/-- A first row with the neutral default or less. -/
theorem Within.first {before : Option DeviceRow} {row : DeviceRow} (h : Within before none)
    (hscore : row.trustScore ≤ 50) (hflag : row.isTrusted = false) : Within before (some row) := by
  cases before with
  | none =>
      intro row' heq
      obtain rfl := Option.some.inj heq
      exact ⟨hscore, hflag⟩
  | some first =>
      obtain ⟨_, heq, -⟩ := h
      simp at heq

/-- The fingerprint of the device a login comes from. -/
def fingerprintOf (X : External) (req : Request) : String :=
  DeviceFingerprint.generateHash X ((req.header "user-agent").getD "unknown") req.remoteIp.text .empty

/-- The password is right, and the device has a row that is short of full
trust. -/
def Rewarding (X : External) (req : Request) (h : List Event) : Prop :=
  ∃ (body : LoginBody) (user : UserRow) (row : DeviceRow), ParsesLogin X req body ∧
    .findUserByUsername body.username (.ok (some user)) ∈ h ∧
    X.verifyPassword body.password user.passwordHash = .ok true ∧
    .findDeviceByFingerprint user.id (fingerprintOf X req) (.ok (some row)) ∈ h ∧
    row.trustScore < 100

/-- The command has taken effect, as far as its reply goes. -/
def CarriedOut (r : Except Fault Unit) : Prop := ∀ f, r = .error f → f.executed = true

theorem World.upsert_reply {w w' : World} {t : ℕ} {d : DeviceUpsert} {r : Except Fault Unit}
    (h : World.act X t (.upsertDevice d r) w = some w') :
    w' = w ∨ CarriedOut r ∧ w.upsertDevice d = some w' := by
  have hwrite : w.write (w.upsertDevice d) r = some w' := h
  cases r with
  | ok _ => exact .inr ⟨by simp [CarriedOut], hwrite⟩
  | error f =>
      obtain ⟨rfl, -⟩ | hstored := World.write_eq_some hwrite
      · exact .inl rfl
      cases hexecuted : f.executed with
      | true => exact .inr ⟨by simp [CarriedOut, hexecuted], hstored⟩
      | false =>
          simp only [World.write, hexecuted] at hwrite
          exact .inl (Option.some.inj hwrite).symm

/-- Since the start `x₀`, the row under the fingerprint has been written by
logins of `u` only that have arrived since and are not rewarding. -/
def Unrewarded (u : Uuid) (hash : String) (x₀ : Entry (proxySystem X srv))
    (seg : ProxyTrace X srv) : Prop :=
  ∀ (post pre : ProxyTrace X srv) (t : ℕ) (w₁ : World) (d : DeviceUpsert) (r : Except Fault Unit),
    seg = post ++ ⟨t, w₁, .act (.upsertDevice d r)⟩ :: pre →
    d.fingerprintHash = hash → CarriedOut r →
    d.userId = u ∧ ∃ q, Started t q (pre ++ [x₀]) ∧ ¬ Rewarding X q (own t pre)

theorem Unrewarded.of_cons {u : Uuid} {hash : String} {x₀ x : Entry (proxySystem X srv)}
    (h : Unrewarded u hash x₀ (x :: seg)) : Unrewarded u hash x₀ seg :=
  fun post pre t w₁ d r hseg => h (x :: post) pre t w₁ d r (by rw [hseg, List.cons_append])

/-! ### One upsert -/

/-- An upsert that does not reward binds no more trust than its login has
found. -/
theorem DeviceWrite.within {q : Request} {h : List Event} {d : DeviceUpsert}
    {before : Option DeviceRow} (hwrite : DeviceWrite X q h d)
    (hwf : ∀ userId hash row, .findDeviceByFingerprint userId hash (.ok (some row)) ∈ h →
      TrustWellFormed row.trustScore row.isTrusted)
    (hbefore : ∀ existing, .findDeviceByFingerprint d.userId d.fingerprintHash (.ok existing) ∈ h →
      Within before existing)
    (hnot : ¬ Rewarding X q h) : Within before (some ⟨d.trustScore, d.isTrusted⟩) := by
  cases hwrite with
  | @refused body user id firstSeen lastSeen existing route found device password =>
      cases existing with
      | none =>
          refine (hbefore none device).first ?_ rfl
          show asI32 35 ≤ 50
          decide
      | some row =>
          have hrow := hwf _ _ row device
          have hread := DeviceFingerprint.restore_exact hrow (.build X id firstSeen lastSeen
            user.id.text ((q.header "user-agent").getD "unknown") q.remoteIp.text .empty)
          have hle := hrow.le
          have hscore := asI32_of_le (n := (loginDevice X q id firstSeen lastSeen user
            (some row)).trustScore - 15) (by unfold loginDevice; omega)
          refine (hbefore (some row) device).lower ?_ fun hflag => ?_
          · refine hscore.trans_le ?_
            unfold loginDevice
            omega
          · have hkept : (if (loginDevice X q id firstSeen lastSeen user (some row)).trustScore - 15 <
                70 then false else row.isTrusted) = true := hflag
            split at hkept
            · simp at hkept
            · exact hkept
  | @passed body user mfa id firstSeen lastSeen existing login device =>
      cases existing with
      | none =>
          refine (hbefore none device).first ?_ rfl
          show asI32 50 ≤ 50
          decide
      | some row =>
          have hrow := hwf _ _ row device
          have hfull : 100 ≤ row.trustScore := by
            by_contra hlow
            exact hnot ⟨body, user, row, login.parsed, login.found, login.password, device, by omega⟩
          refine (hbefore (some row) device).lower ?_ fun _ => hrow.flag.mpr (by omega)
          have hmax : (((loginDevice X q id firstSeen lastSeen user (some row)).increaseTrust
              10).trustScore) ≤ 100 := min_le_right _ _
          refine (asI32_of_le hmax).trans_le ?_
          omega

/-- What the user finds after an upsert of its own. -/
theorem Within.upsert {w w' : World} {d : DeviceUpsert} {before : Option DeviceRow}
    (hstored : w.upsertDevice d = some w')
    (hold : Within before (w.findDevice d.userId d.fingerprintHash))
    (hnew : Within before (some ⟨d.trustScore, d.isTrusted⟩)) :
    Within before (w'.findDevice d.userId d.fingerprintHash) := by
  obtain ⟨row, hdev, hscore, htrusted, huser⟩ := upsertDevice_row hstored
  rw [findDevice_insert hdev, if_pos rfl, hscore, htrusted]
  by_cases hown : row.userId = d.userId
  · rw [if_pos hown]
    exact hnew
  · -- the row is another user's, and stays one
    rw [if_neg hown]
    have hnone : w.findDevice d.userId d.fingerprintHash = none := by
      unfold World.findDevice
      cases hlookup : w.devices.lookup d.fingerprintHash with
      | none => rfl
      | some old =>
          rw [hlookup] at huser
          exact if_neg fun heq => hown (huser.trans heq)
    rw [← hnone]
    exact hold

/-! ### A stretch of a run -/

/-- What a thread that has arrived since has done, it has done since. -/
theorem own_stretch {pre : ProxyTrace X srv} {t t₀ : ℕ} {w₀ : World} {q q₀ : Request}
    (h : Reachable w (pre ++ ⟨t₀, w₀, .start q₀⟩ :: tr₀))
    (hq : Started t q (pre ++ [⟨t₀, w₀, .start q₀⟩])) :
    own t (pre ++ ⟨t₀, w₀, .start q₀⟩ :: tr₀) = own t pre := by
  have hsplit : pre ++ ⟨t₀, w₀, .start q₀⟩ :: tr₀ =
      (pre ++ [⟨t₀, w₀, .start q₀⟩] : ProxyTrace X srv) ++ tr₀ := by simp
  rw [hsplit] at h ⊢
  rw [Run.own_of_started h hq, own_append, own_start, own_nil, List.append_nil]

/-- What the device of `u` was at the start of the stretch bounds what is
stored and what has been found since. -/
structure NoTrustGained (u : Uuid) (hash : String) (before : Option DeviceRow) (w : World)
    (seg : ProxyTrace X srv) : Prop where
  stored : Within before (w.findDevice u hash)
  found : ∀ t existing, .findDeviceByFingerprint u hash (.ok existing) ∈ own t seg →
    Within before existing

theorem NoTrustGained.step {u : Uuid} {hash : String} {before : Option DeviceRow} {w w' : World}
    {x : Entry (proxySystem X srv)} (h : NoTrustGained u hash before w seg)
    (hstored : Within before (w'.findDevice u hash))
    (hx : ∀ t existing, x.item = .act (.findDeviceByFingerprint u hash (.ok existing)) →
      x.tid = t → Within before existing) : NoTrustGained u hash before w' (x :: seg) := by
  refine ⟨hstored, fun t existing hmem => ?_⟩
  obtain ⟨t', w₁, item⟩ := x
  cases item with
  | act e =>
      by_cases ht : t' = t
      · subst ht
        rcases List.mem_cons.mp (own_act_self t' w₁ e seg ▸ hmem) with rfl | hold
        · exact hx t' existing rfl rfl
        · exact h.found t' existing hold
      · rw [own_act_ne ht] at hmem
        exact h.found t existing hmem
  | start q => exact h.found t existing hmem
  | done o => exact h.found t existing hmem

theorem run_trust {t₀ : ℕ} {w₀ : World} {q₀ : Request} {u : Uuid} {hash : String}
    (h : Reachable w (seg ++ ⟨t₀, w₀, .start q₀⟩ :: tr₀))
    (hstretch : Unrewarded u hash ⟨t₀, w₀, .start q₀⟩ seg) :
    NoTrustGained u hash (w₀.findDevice u hash) w seg := by
  refine (h.since (proxy_contract X srv) (fun w seg =>
    Unrewarded u hash ⟨t₀, w₀, .start q₀⟩ seg →
      NoTrustGained u hash (w₀.findDevice u hash) w seg) ?_ ?_ ?_ ?_ ?_).1 hstretch
  · intro w _ _ hen _
    cases hen
    exact ⟨.refl _, fun t existing hmem => (List.not_mem_nil hmem).elim⟩
  · intro w w' seg m _ hJ henv hstretch
    obtain ⟨-, rfl⟩ : w.clock ≤ m ∧ w.advance m = w' := by simpa using henv
    exact ⟨(hJ hstretch).stored, (hJ hstretch).found⟩
  · intro w seg t q hJ _ hstretch
    exact (hJ hstretch.of_cons).step (hJ hstretch.of_cons).stored (by simp)
  · intro w w' seg t q e hrun hJ _ hq hL hact _ hstretch
    have hkept := hJ hstretch.of_cons
    have hact' : World.act X t e w = some w' := hact
    refine hkept.step ?_ ?_
    · rcases World.act_devices hact' with hsame | ⟨d, r, rfl, -⟩
      · rw [findDevice_of_devices hsame]
        exact hkept.stored
      obtain rfl | ⟨hcarried, hstored⟩ := World.upsert_reply hact'
      · exact hkept.stored
      by_cases hkey : d.fingerprintHash = hash
      swap
      · obtain ⟨row, hdev, -⟩ := upsertDevice_row hstored
        rw [findDevice_insert hdev, if_neg (Ne.symm hkey)]
        exact hkept.stored
      obtain ⟨hown, q', hq', hnot⟩ := hstretch [] seg t w d r rfl hkey hcarried
      subst hown hkey
      obtain rfl := hrun.started_unique hq (hq'.mono (by simp))
      refine hkept.stored.upsert hstored (DeviceWrite.within hL ?_ ?_ ?_)
      · exact fun userId hash row => (trust_sound hrun).found t userId hash row
      · rw [own_stretch hrun hq']
        exact hkept.found t
      · rw [own_stretch hrun hq']
        exact hnot
    · intro t' existing heq _
      obtain rfl : e = .findDeviceByFingerprint u hash (.ok existing) := by simpa using heq
      obtain ⟨-, rfl⟩ := World.device_reply hact'
      exact hkept.stored
  · intro w seg t q o _ hJ _ _ _ hstretch
    exact (hJ hstretch.of_cons).step (hJ hstretch.of_cons).stored (by simp)

/-! ### Repeated logins -/

/-- The two histories read the same hour of the day for their risk, and the
second is that of a login that takes less than a day. -/
structure SameHour (h₁ h₂ : List Event) : Prop where
  hour : ∀ n₁ n₂, .utcNow .riskTimestamp n₁ ∈ h₁ → .utcNow .riskTimestamp n₂ ∈ h₂ → hour n₁ = hour n₂
  brisk : ∀ firstSeen now, .utcNow .firstSeen firstSeen ∈ h₂ → .utcNow .deviceAge now ∈ h₂ →
    now - firstSeen < Duration.hours 24

/-- What a login in the stretch has come to its score with: no row, or one
with full trust. -/
theorem LoginJudged.unrewarded {t₀ t : ℕ} {w₀ : World} {q₀ q : Request} {u : Uuid}
    {user : UserRow} {existing : Option DeviceRow} {risk : RiskScore}
    (h : Reachable w (seg ++ ⟨t₀, w₀, .start q₀⟩ :: tr₀))
    (hstretch : Unrewarded u (fingerprintOf X q) ⟨t₀, w₀, .start q₀⟩ seg)
    (hq : Started t q (seg ++ [⟨t₀, w₀, .start q₀⟩]))
    (hjudged : LoginJudged X srv q user existing (own t seg) risk) :
    user.id = u ∧ .findDeviceByFingerprint u (fingerprintOf X q) (.ok existing) ∈ own t seg ∧
      ∀ row, existing = some row → 100 ≤ row.trustScore := by
  obtain ⟨rate, check, scores, body, id, first, last, mfa, hsuf, hparsed, hpassword, -, hrisk⟩ :=
    hjudged
  cases hrisk with
  | scored seen timestamp now =>
      have hupsert : .upsertDevice (upsertOf q user (if existing.isSome then
          (loginDevice X q id first last user existing).increaseTrust 10
        else loginDevice X q id first last user existing)) (.ok ()) :: .utcNow .lastSeen seen ::
          (check ++ loginLookups X q body user id first last (.ok existing) rate) <:+ own t seg :=
        ((List.suffix_cons _ _).trans (List.suffix_cons _ _)).trans hsuf
      obtain ⟨l, hl⟩ := hupsert
      obtain ⟨post, w₁, pre, hseg, -, hpre⟩ := own_split hl.symm
      have hhash : (upsertOf q user (if existing.isSome then
          (loginDevice X q id first last user existing).increaseTrust 10
        else loginDevice X q id first last user existing)).fingerprintHash = fingerprintOf X q := by
        cases existing <;> rfl
      obtain ⟨rfl, q', hq', hnot⟩ := hstretch post pre t w₁ _ _ hseg hhash (by simp [CarriedOut])
      have hsub : pre ++ [⟨t₀, w₀, .start q₀⟩] ⊆ seg ++ ⟨t₀, w₀, .start q₀⟩ :: tr₀ := by
        rw [hseg]
        intro x hx
        simp only [List.mem_append, List.mem_cons, List.not_mem_nil, or_false] at hx ⊢
        tauto
      obtain rfl := h.started_unique (hq.mono (by simp)) (hq'.mono hsub)
      have hfound : .findDeviceByFingerprint user.id (fingerprintOf X q) (.ok existing) ∈
          own t pre := by
        rw [hpre]
        simp [loginLookups, fingerprintOf, loginDevice, DeviceFingerprint.restore,
          DeviceFingerprint.build]
      refine ⟨rfl, ?_, ?_⟩
      · rw [hseg, own_append]
        exact List.mem_append_right _ (own_act_self t w₁ _ pre ▸ List.mem_cons_of_mem _ hfound)
      · rintro row rfl
        by_contra hlow
        refine hnot ⟨body, user, row, hparsed, ?_, hpassword, hfound, by omega⟩
        rw [hpre]
        simp [loginLookups]

/-- A row with full trust makes for a device with full trust, and no row for
the neutral default. -/
theorem LoginJudged.score {q : Request} {user : UserRow} {existing : Option DeviceRow}
    {h : List Event} {risk : RiskScore} (hjudged : LoginJudged X srv q user existing h risk)
    (hrow : ∀ row, existing = some row →
      TrustWellFormed row.trustScore row.isTrusted ∧ 100 ≤ row.trustScore) :
    ∃ (device : DeviceFingerprint) (now timestamp : Int),
      .utcNow .firstSeen device.firstSeen ∈ h ∧ .utcNow .deviceAge now ∈ h ∧
      .utcNow .riskTimestamp timestamp ∈ h ∧
      device.trustScore = (if existing.isSome then 100 else 50) ∧
      device.isTrusted = existing.isSome ∧
      risk.totalScore =
        min (RiskEngine.calculateDeviceRisk now device + RiskEngine.timeScore timestamp) 100 ∧
      risk.recommendation = srv.riskEngine.recommend risk.totalScore := by
  obtain ⟨rate, check, scores, body, id, first, last, mfa, hsuf, -, -, -, hrisk⟩ := hjudged
  cases hrisk with
  | scored seen timestamp now =>
      refine ⟨{ (if existing.isSome then (loginDevice X q id first last user existing).increaseTrust 10
        else loginDevice X q id first last user existing) with lastSeen := seen }, now, timestamp,
        hsuf.subset ?_, hsuf.subset (by simp), hsuf.subset (by simp), ?_, ?_, ?_, rfl⟩
      · have hfirst : (if existing.isSome then
            (loginDevice X q id first last user existing).increaseTrust 10
          else loginDevice X q id first last user existing).firstSeen = first := by
          cases existing <;> rfl
        simp [hfirst, loginLookups]
      · cases existing with
        | none => rfl
        | some row =>
            obtain ⟨hwf, hfull⟩ := hrow row rfl
            have hread := DeviceFingerprint.restore_exact hwf (.build X id first last
              user.id.text ((q.header "user-agent").getD "unknown") q.remoteIp.text .empty)
            have hle := hwf.le
            have hadd := asU32_add_of_le (n := (loginDevice X q id first last user
              (some row)).trustScore) (by unfold loginDevice; omega)
            show min (asU32 ((loginDevice X q id first last user (some row)).trustScore + 10)) 100 = 100
            rw [hadd]
            unfold loginDevice
            omega
      · cases existing with
        | none => rfl
        | some row =>
            obtain ⟨hwf, hfull⟩ := hrow row rfl
            have hflag : row.isTrusted = true := hwf.flag.mpr (by omega)
            show (if _ ≥ 70 then true else row.isTrusted) = true
            rw [hflag, ite_self]
      · rw [RiskEngine.totalScore_eq _ _ rfl]
        rfl

/-- In a stretch that rewards no login, a device has full trust throughout or
no row to begin with. -/
theorem Within.isSome_eq {before existing : Option DeviceRow} (h : Within before existing)
    (hrow : ∀ row, existing = some row → 100 ≤ row.trustScore) :
    existing.isSome = before.isSome := by
  cases before with
  | some row =>
      obtain ⟨row', rfl, -⟩ := h
      rfl
  | none =>
      cases existing with
      | none => rfl
      | some row =>
          have hlow := (h row rfl).1
          have hfull := hrow row rfl
          omega

/-- **Refused logins that earn no trust.** Take any stretch of a run in which
the device row of a user is written by logins only that present a wrong
password, or find no row yet, or one with full trust. Then the user's trust in
that device is not higher and its flag not set at the end if they were not at
the start; and if one login of the stretch is blocked for its risk, then so is
every other one that comes to be judged at the same hour. -/
theorem refused_login_earns_nothing {t₀ : ℕ} {w₀ : World} {q₀ : Request} {u : Uuid} {hash : String}
    (h : Reachable w (seg ++ ⟨t₀, w₀, .start q₀⟩ :: tr₀))
    (hstretch : Unrewarded u hash ⟨t₀, w₀, .start q₀⟩ seg) :
    Within (w₀.findDevice u hash) (w.findDevice u hash) ∧
    ∀ {t₁ t₂ : ℕ} {q₁ q₂ : Request} {user₁ user₂ : UserRow} {existing₁ existing₂ : Option DeviceRow}
      {risk₁ risk₂ : RiskScore},
      Started t₁ q₁ (seg ++ [⟨t₀, w₀, .start q₀⟩]) → Started t₂ q₂ (seg ++ [⟨t₀, w₀, .start q₀⟩]) →
      fingerprintOf X q₁ = hash → fingerprintOf X q₂ = hash →
      LoginJudged X srv q₁ user₁ existing₁ (own t₁ seg) risk₁ →
      LoginJudged X srv q₂ user₂ existing₂ (own t₂ seg) risk₂ →
      SameHour (own t₁ seg) (own t₂ seg) →
      risk₁.recommendation = .block → risk₂.recommendation = .block := by
  have hkept := run_trust h hstretch
  refine ⟨hkept.stored, ?_⟩
  intro t₁ t₂ q₁ q₂ user₁ user₂ existing₁ existing₂ risk₁ risk₂ hq₁ hq₂ hhash₁ hhash₂ hj₁ hj₂ hsame
    hblock
  obtain ⟨rfl, hfound₁, hfull₁⟩ := hj₁.unrewarded h (hhash₁ ▸ hstretch) hq₁
  obtain ⟨huser₂, hfound₂, hfull₂⟩ := hj₂.unrewarded h (hhash₂ ▸ hstretch) hq₂
  rw [hhash₁] at hfound₁
  rw [hhash₂] at hfound₂
  have hwf {t : ℕ} {existing : Option DeviceRow} {row : DeviceRow}
      (hfound : .findDeviceByFingerprint user₁.id hash (.ok existing) ∈ own t seg)
      (heq : existing = some row) : TrustWellFormed row.trustScore row.isTrusted := by
    subst heq
    refine (trust_sound h).found t user₁.id hash row ?_
    rw [own_append]
    exact List.mem_append_left _ hfound
  have hsome₁ := (hkept.found t₁ existing₁ hfound₁).isSome_eq hfull₁
  have hsome₂ := (hkept.found t₂ existing₂ hfound₂).isSome_eq hfull₂
  obtain ⟨device₁, now₁, time₁, -, -, htime₁, hscore₁, hflag₁, htotal₁, hrec₁⟩ :=
    hj₁.score fun row heq => ⟨hwf hfound₁ heq, hfull₁ row heq⟩
  obtain ⟨device₂, now₂, time₂, hfirst₂, hnow₂, htime₂, hscore₂, hflag₂, htotal₂, hrec₂⟩ :=
    hj₂.score fun row heq => ⟨hwf hfound₂ heq, hfull₂ row heq⟩
  have hdevice : RiskEngine.calculateDeviceRisk now₁ device₁ ≤
      RiskEngine.calculateDeviceRisk now₂ device₂ := by
    apply RiskEngine.calculateDeviceRisk_le_new
    · rw [hscore₁, hscore₂, hsome₁, hsome₂]
    · rw [hflag₁, hflag₂, hsome₁, hsome₂]
      exact fun htrusted => htrusted
    · exact hsame.brisk _ _ hfirst₂ hnow₂
  have htime : RiskEngine.timeScore time₁ = RiskEngine.timeScore time₂ := by
    unfold RiskEngine.timeScore
    rw [hsame.hour _ _ htime₁ htime₂]
  have htotal : risk₁.totalScore ≤ risk₂.totalScore := by
    rw [htotal₁, htotal₂, htime]
    exact min_le_min_right _ (Nat.add_le_add_right hdevice _)
  rw [hrec₂]
  apply RiskEngine.eq_block_of_le
  rw [← hblock, hrec₁]
  exact RiskEngine.recommend_mono srv.riskEngine htotal

/-! ### Runs -/

/-- A stretch of logins that are all of `u` and find no row is not rewarding. -/
theorem unrewarded_of_unknown {x₀ : Entry (proxySystem X srv)} {u : Uuid} {hash : String}
    (h : Reachable w (seg ++ x₀ :: tr₀)) (hnew : ∀ y ∈ tr₀, ∀ x ∈ seg, y.tid ≠ x.tid)
    (hown : ∀ x ∈ seg, ∀ d ∈ Entry.upsert x, d.userId = u)
    (hunknown : ∀ x ∈ seg, ∀ v key row,
      x.item ≠ .act (.findDeviceByFingerprint v key (.ok (some row)))) :
    Unrewarded u hash x₀ seg := by
  rintro post pre t w₁ d r rfl - -
  have hmem := List.mem_append_right post (List.mem_cons_self (a :=
    (⟨t, w₁, .act (.upsertDevice d r)⟩ : Entry (proxySystem X srv))) (l := pre))
  refine ⟨hown _ hmem d rfl, ?_⟩
  rw [List.append_assoc, List.cons_append] at h
  obtain ⟨-, -, q, -, ⟨w₂, hq⟩, -, -⟩ := event_entry h
  refine ⟨q, ⟨w₂, ?_⟩, ?_⟩
  · rcases List.mem_append.mp hq with hq | hq
    · exact List.mem_append_left _ hq
    rcases List.mem_cons.mp hq with rfl | hq
    · exact List.mem_append_right _ List.mem_cons_self
    · exact (hnew _ hq _ hmem rfl).elim
  · rintro ⟨body, user, row, -, -, -, hfound, -⟩
    obtain ⟨w₃, hread⟩ := mem_own.mp hfound
    exact hunknown _ (List.mem_append_right _ (List.mem_cons_of_mem _ hread)) _ _ row rfl

namespace Scenario

/-- A proxy that blocks a score of 40, which a device scores unless it is
trusted. -/
def strict : ProxyServer := .new { config with blockThreshold := 40 }

def strictSteps (t n : ℕ) : List (Move (proxySystem external strict)) :=
  List.replicate n (.step t 0)

def strictStart (t : ℕ) (body : String) : Move (proxySystem external strict) :=
  .start t (login body)

/-- Thread `t` has been refused with 403. -/
def forbidden (t : ℕ) (tr : ProxyTrace X srv) : Bool :=
  tr.any fun x => match x.item with
    | .done o => decide (x.tid = t ∧ o.status = 403)
    | _ => false

theorem exists_forbidden {t : ℕ} {tr : ProxyTrace X srv} (h : forbidden t tr = true) :
    ∃ w₁ o, ⟨t, w₁, .done o⟩ ∈ tr ∧ o.status = 403 := by
  obtain ⟨⟨t₁, w₁, item⟩, hmem, h₁⟩ := List.any_eq_true.mp h
  split at h₁
  · rename_i o heq
    obtain ⟨rfl, hstatus⟩ := of_decide_eq_true h₁
    obtain rfl : item = .done o := heq
    exact ⟨w₁, o, hmem, hstatus⟩
  · simp at h₁

end Scenario

theorem LoginJudged.mono {q : Request} {user : UserRow} {existing : Option DeviceRow}
    {h h' : List Event} {risk : RiskScore} (hjudged : LoginJudged X srv q user existing h risk)
    (hsub : h <:+ h') : LoginJudged X srv q user existing h' risk := by
  obtain ⟨rate, check, scores, body, id, first, last, mfa, hsuf, hrest⟩ := hjudged
  exact ⟨rate, check, scores, body, id, first, last, mfa, hsuf.trans hsub, hrest⟩

/-- A login that has been answered 403 was judged and blocked. -/
theorem forbidden_judged {tr : ProxyTrace X srv} (h : Reachable w tr) {t : ℕ}
    (hbegins : Scenario.begins t .login tr = true) (hforbidden : Scenario.forbidden t tr = true) :
    ∃ q user existing risk, Started t q tr ∧ LoginJudged X srv q user existing (own t tr) risk ∧
      risk.recommendation = .block := by
  obtain ⟨q, hq, hroute⟩ := Scenario.exists_started hbegins
  obtain ⟨w₁, o, hdone, hstatus⟩ := Scenario.exists_forbidden hforbidden
  obtain ⟨r, hend, rfl⟩ := answered_own h hq hdone
  rw [hroute] at hend
  have hrun := handleLogin_ends hend
  cases r with
  | ok o =>
      obtain ⟨user, mfa, token, rfl⟩ := hrun.answer
      exact absurd hstatus (by simp [respond, loginAnswer])
  | error e =>
      obtain ⟨user, existing, risk, hjudged, hblock⟩ := hrun.judged hstatus
      exact ⟨q, user, existing, risk, hq, hjudged, hblock⟩

namespace Scenario

/-- The first thread of the stretch has just arrived, after thread 0 only. -/
def arrived (tr : ProxyTrace X srv) : Bool :=
  match tr with
  | ⟨1, _, .start _⟩ :: tr₀ => tr₀.all fun y => decide (y.tid = 0)
  | _ => false

theorem exists_arrived {tr : ProxyTrace X srv} (h : arrived tr = true) :
    ∃ w₀ q tr₀, tr = ⟨1, w₀, .start q⟩ :: tr₀ ∧ ∀ y ∈ tr₀, y.tid = 0 := by
  unfold arrived at h
  split at h
  · rename_i w₀ q tr₀
    exact ⟨w₀, q, tr₀, rfl, fun y hy => of_decide_eq_true (List.all_eq_true.mp h y hy)⟩
  · simp at h

/-- A step of another thread, which upserts for `u` only and finds no device. -/
def unknownStep (u : Uuid) (x : Entry (proxySystem X srv)) : Bool :=
  decide (x.tid ≠ 0) && match x.item with
    | .act (.upsertDevice d _) => decide (d.userId = u)
    | .act (.findDeviceByFingerprint _ _ (.ok (some _))) => false
    | _ => true

theorem unrewarded_of_steps {u : Uuid} {hash : String} {x₀ : Entry (proxySystem X srv)}
    (h : Reachable w (seg ++ x₀ :: tr₀)) (hold : ∀ y ∈ tr₀, y.tid = 0)
    (hsteps : seg.all (unknownStep u) = true) : Unrewarded u hash x₀ seg := by
  have hstep {x : Entry (proxySystem X srv)} (hx : x ∈ seg) :=
    Bool.and_eq_true_iff.mp (List.all_eq_true.mp hsteps x hx)
  refine unrewarded_of_unknown h ?_ ?_ ?_
  · intro y hy x hx heq
    exact of_decide_eq_true (hstep hx).1 (heq.symm.trans (hold y hy))
  · rintro ⟨t, w₁, item⟩ hx d hd
    have hitem := (hstep hx).2
    unfold Entry.upsert at hd
    split at hd
    · rename_i d' r heq
      obtain rfl := Option.some.inj hd
      rw [heq] at hitem
      exact of_decide_eq_true hitem
    · simp at hd
  · rintro x hx v key row heq
    have hitem := (hstep hx).2
    rw [heq] at hitem
    simp at hitem

end Scenario

open Scenario in
/-- Two users share a browser, and its row is that of the other one: the trust
of alice, who is blocked twice, stays what it was. -/
theorem refused_login_earns_nothing_run :
    ∃ (w w₀ : World) (seg tr₀ : ProxyTrace external strict) (q₀ : Request) (risk₁ risk₂ : RiskScore),
      Reachable w (seg ++ ⟨1, w₀, .start q₀⟩ :: tr₀) ∧
      Within (w₀.findDevice alice.id (external.sha256 "")) (w.findDevice alice.id (external.sha256 "")) ∧
      risk₁.recommendation = .block ∧ risk₂.recommendation = .block := by
  have hplay : Play.playsThen (World.reply external)
      (fun (_ : ProxyTrace external strict) _ => True) (world [alice, bob])
      (strictStart 0 bobLogin :: strictSteps 0 15 ++ [strictStart 1 aliceLogin])
      (fun p => arrived p.trace)
      (strictSteps 1 14 ++ strictStart 2 aliceLogin :: strictSteps 2 14)
      (fun p seg => seg.all (unknownStep alice.id) &&
        p.trace.all (Entry.readsAt (Duration.seconds 59)) &&
        begins 1 .login p.trace && forbidden 1 p.trace && begins 2 .login p.trace &&
        forbidden 2 p.trace) = true := by decide +kernel
  obtain ⟨p, p', seg, -, harrived, htrace, hrun, hcheck⟩ :=
    Play.of_playsThen (world_initial (by decide) (by decide) (by decide)) hplay
  obtain ⟨w₀, q₀, tr₀, hp, hold⟩ := exists_arrived harrived
  simp only [Bool.and_eq_true] at hcheck
  obtain ⟨⟨⟨⟨⟨hsteps, hreads⟩, hbegins₁⟩, hforbidden₁⟩, hbegins₂⟩, hforbidden₂⟩ := hcheck
  rw [htrace, hp] at hrun hreads hbegins₁ hforbidden₁ hbegins₂ hforbidden₂
  obtain ⟨q₁, user₁, existing₁, risk₁, hq₁, hj₁, hblock⟩ :=
    forbidden_judged hrun hbegins₁ hforbidden₁
  obtain ⟨q₂, user₂, existing₂, risk₂, hq₂, hj₂, -⟩ := forbidden_judged hrun hbegins₂ hforbidden₂
  have hrecent {t : ℕ} {q : Request} (ht : t ≠ 0)
      (hq : Started t q (seg ++ ⟨1, w₀, .start q₀⟩ :: tr₀)) :
      Started t q (seg ++ [⟨1, w₀, .start q₀⟩]) := by
    obtain ⟨w₂, hmem⟩ := hq
    refine ⟨w₂, ?_⟩
    rcases List.mem_append.mp hmem with hmem | hmem
    · exact List.mem_append_left _ hmem
    rcases List.mem_cons.mp hmem with heq | hmem
    · exact List.mem_append_right _ (heq ▸ List.mem_cons_self)
    · exact (ht (hold _ hmem)).elim
  have hstarted₁ := hrecent (by decide) hq₁
  have hstarted₂ := hrecent (by decide) hq₂
  have hone (t t' : ℕ) : SameHour (own t (seg ++ ⟨1, w₀, .start q₀⟩ :: tr₀))
      (own t' (seg ++ ⟨1, w₀, .start q₀⟩ :: tr₀)) := by
    refine ⟨fun n n' hn hn' => ?_, fun first now hfirst hnow => ?_⟩
    · rw [reading_of_readsAt hreads hn, reading_of_readsAt hreads hn']
    · rw [reading_of_readsAt hreads hfirst, reading_of_readsAt hreads hnow]
      decide
  rw [own_stretch hrun hstarted₁] at hj₁
  rw [own_stretch hrun hstarted₂] at hj₂
  have hsame := hone 1 2
  rw [own_stretch hrun hstarted₁, own_stretch hrun hstarted₂] at hsame
  have hstretch : Unrewarded alice.id (external.sha256 "") ⟨1, w₀, .start q₀⟩ seg :=
    unrewarded_of_steps hrun hold hsteps
  have hnothing := refused_login_earns_nothing hrun hstretch
  exact ⟨p'.world, w₀, seg, tr₀, q₀, risk₁, risk₂, hrun, hnothing.1, hblock,
    hnothing.2 hstarted₁ hstarted₂ rfl rfl hj₁ hj₂ hsame hblock⟩

open Scenario in
/-- Alice's browser is blocked, blocked again and let in, by the trust that the
second attempt has earned and the third adds to. -/
theorem refused_login_earns : ∃ (w w₀ w₁ w₂ : World) (tr : ProxyTrace external strict) (q : Request)
    (o₁ o₂ : Response), Reachable w tr ∧ (tr.map Entry.tid).Pairwise (· ≥ ·) ∧
      (∀ x ∈ tr, ∀ q', x.item = .start q' → q'.route = .login ∧ q'.body = some aliceLogin) ∧
      ⟨1, w₀, .start q⟩ ∈ tr ∧ ⟨1, w₁, .done o₁⟩ ∈ tr ∧ o₁.status = 403 ∧
      w₀.findDevice alice.id (fingerprintOf external q) = some ⟨50, false⟩ ∧
      w₁.findDevice alice.id (fingerprintOf external q) = some ⟨60, false⟩ ∧
      ⟨2, w₂, .done o₂⟩ ∈ tr ∧ o₂.status = 200 ∧ w₂.clock = w₀.clock := by
  have hplay : ((Play.start (world [alice])).run (World.reply external)
      (fun (_ : ProxyTrace external strict) _ => True)
      (strictStart 0 aliceLogin :: strictSteps 0 15 ++ strictStart 1 aliceLogin ::
        strictSteps 1 14 ++ strictStart 2 aliceLogin :: strictSteps 2 23)).any (fun p =>
      decide ((p.trace.map Entry.tid).Pairwise (· ≥ ·)) &&
      (p.trace.all fun x => !x.item.isStart fun (q : Request) =>
        !decide (q.route = .login ∧ q.body = some aliceLogin)) &&
      (p.trace.any fun x => x.item.isStart fun _ =>
        decide (x.tid = 1 ∧ x.pre.clock = Duration.seconds 59 ∧
          x.pre.findDevice alice.id (external.sha256 "") = some ⟨50, false⟩)) &&
      (p.trace.any fun x => x.item.isDone fun (o : Response) => decide (x.tid = 1 ∧ o.status = 403 ∧
        x.pre.findDevice alice.id (external.sha256 "") = some ⟨60, false⟩)) &&
      p.trace.any fun x => x.item.isDone fun (o : Response) =>
        decide (x.tid = 2 ∧ o.status = 200 ∧ x.pre.clock = Duration.seconds 59)) = true := by
    decide +kernel
  obtain ⟨p, hp, hcheck⟩ := (Option.any_eq_true _ _).mp hplay
  have hrun := (Play.run_sound (world_initial (by simp) (by simp) (by simp)) hp).reached
  simp only [Bool.and_eq_true] at hcheck
  obtain ⟨⟨⟨⟨hseq, hlogins⟩, hstart⟩, hdone₁⟩, hdone₂⟩ := hcheck
  obtain ⟨⟨t₀, w₀, item₀⟩, hmem₀, h₀⟩ := List.any_eq_true.mp hstart
  obtain ⟨⟨t₁, w₁, item₁⟩, hmem₁, h₁⟩ := List.any_eq_true.mp hdone₁
  obtain ⟨⟨t₂, w₂, item₂⟩, hmem₂, h₂⟩ := List.any_eq_true.mp hdone₂
  obtain ⟨q, heq₀, h₀⟩ := Item.isStart_eq h₀
  obtain ⟨o₁, heq₁, h₁⟩ := Item.isDone_eq h₁
  obtain ⟨o₂, heq₂, h₂⟩ := Item.isDone_eq h₂
  obtain rfl : item₀ = .start q := heq₀
  obtain rfl : item₁ = .done o₁ := heq₁
  obtain rfl : item₂ = .done o₂ := heq₂
  obtain ⟨rfl, hclock₀, htrust₀⟩ := of_decide_eq_true h₀
  obtain ⟨rfl, hstatus₁, htrust₁⟩ := of_decide_eq_true h₁
  obtain ⟨rfl, hstatus₂, hclock₂⟩ := of_decide_eq_true h₂
  refine ⟨p.world, w₀, w₁, w₂, p.trace, q, o₁, o₂, hrun, of_decide_eq_true hseq, ?_, hmem₀, hmem₁,
    hstatus₁, htrust₀, htrust₁, hmem₂, hstatus₂, hclock₂.trans hclock₀.symm⟩
  intro x hx q' hq'
  have hlogin := List.all_eq_true.mp hlogins x hx
  rw [hq'] at hlogin
  simpa [Item.isStart] using hlogin

end ZeroTrustProxy
