import ZeroTrustProxy.Concurrent.Serial
import ZeroTrustProxy.Runs.Guesses
import ZeroTrustProxy.Runs.Rewards
import ZeroTrustProxy.Runs.Unhindered

/-!
Failing never helps.

What an attempt at logging in does to the trust of its device depends on how it
comes out, and on nothing else: `LoginOutcome.trustAfter`. A first wrong password
creates the row, and the next success then earns the bonus of a returning device;
but what the wrong password has cost is more than the bonus, whatever the order
and wherever the score is cut off. So histories are compared attempt by attempt,
with `NoBetter` between the one with more wrong passwords and the other.
-/

namespace ZeroTrustProxy

open Concurrent Program

/-! ### Trust, one outcome after another -/

/-- How an attempt on a known account comes out. -/
inductive LoginOutcome where
  | wrongPassword
  | codeRefused
  | blocked
  | successful
  deriving DecidableEq

namespace LoginOutcome

/-- The attempt has passed its password and its code. -/
def passed : LoginOutcome → Bool
  | wrongPassword | codeRefused => false
  | blocked | successful => true

/-- The trust score after an attempt; `none` where the device has no row. -/
def trustAfter (outcome : LoginOutcome) (trust : Option ℕ) : Option ℕ :=
  match outcome with
  | wrongPassword => some (trust.getD 50 - 15)
  | codeRefused => trust
  | blocked | successful => some (trust.elim 50 fun score => min (score + 10) 100)

theorem trustAfter_of_passed {outcome : LoginOutcome} (h : outcome.passed = true)
    (trust : Option ℕ) :
    outcome.trustAfter trust = some (trust.elim 50 fun score => min (score + 10) 100) := by
  cases outcome <;> first | rfl | simp [passed] at h

end LoginOutcome

/-- The first history is the second with wrong passwords inserted. An attempt
that has passed may be blocked in one of them and successful in the other. -/
inductive WithWrongPasswords : List LoginOutcome → List LoginOutcome → Prop
  | nil : WithWrongPasswords [] []
  | same {l l' : List LoginOutcome} (outcome : LoginOutcome) (h : WithWrongPasswords l l') :
      WithWrongPasswords (outcome :: l) (outcome :: l')
  | passed {l l' : List LoginOutcome} {outcome outcome' : LoginOutcome}
      (hpassed : outcome.passed = true) (hpassed' : outcome'.passed = true)
      (h : WithWrongPasswords l l') : WithWrongPasswords (outcome :: l) (outcome' :: l')
  | wrong {l l' : List LoginOutcome} (h : WithWrongPasswords l l') :
      WithWrongPasswords (.wrongPassword :: l) l'

/-- The first device is trusted no more than the second. Where the second has no
row, the first has at most what a single wrong password leaves. -/
def NoBetter (trust : Option ℕ) : Option ℕ → Prop
  | some score' => ∃ score, trust = some score ∧ score ≤ score'
  | none => ∀ score, trust = some score → score ≤ 35

theorem NoBetter.refl (trust : Option ℕ) : NoBetter trust trust := by
  cases trust with
  | none => simp [NoBetter]
  | some score => exact ⟨score, rfl, le_refl _⟩

variable {trust trust' : Option ℕ}

/-- A wrong password on the side that is no better. -/
theorem NoBetter.wrong (h : NoBetter trust trust') :
    NoBetter (LoginOutcome.wrongPassword.trustAfter trust) trust' := by
  cases trust' with
  | some score' =>
      obtain ⟨score, rfl, hle⟩ := h
      exact ⟨score - 15, rfl, by omega⟩
  | none =>
      intro score heq
      obtain rfl : trust.getD 50 - 15 = score := Option.some.inj heq
      cases trust with
      | none => simp
      | some score =>
          have hle := h score rfl
          simp only [Option.getD_some]
          omega

/-- A wrong password on both sides. -/
theorem NoBetter.wrong_both (h : NoBetter trust trust') :
    NoBetter (LoginOutcome.wrongPassword.trustAfter trust)
      (LoginOutcome.wrongPassword.trustAfter trust') := by
  refine ⟨trust.getD 50 - 15, rfl, ?_⟩
  cases trust' with
  | some score' =>
      obtain ⟨score, rfl, hle⟩ := h
      simp only [Option.getD_some]
      omega
  | none =>
      cases trust with
      | none => rfl
      | some score =>
          have hle := h score rfl
          simp only [Option.getD_some, Option.getD_none]
          omega

/-- A login that passes on both sides. A device whose row is there because of
wrong passwords only earns the bonus and stays below a new device. -/
theorem NoBetter.passed (h : NoBetter trust trust') {outcome outcome' : LoginOutcome}
    (hpassed : outcome.passed = true) (hpassed' : outcome'.passed = true) :
    NoBetter (outcome.trustAfter trust) (outcome'.trustAfter trust') := by
  rw [LoginOutcome.trustAfter_of_passed hpassed, LoginOutcome.trustAfter_of_passed hpassed']
  refine ⟨_, rfl, ?_⟩
  cases trust' with
  | some score' =>
      obtain ⟨score, rfl, hle⟩ := h
      simp only [Option.elim_some]
      omega
  | none =>
      cases trust with
      | none => rfl
      | some score =>
          have hle := h score rfl
          simp only [Option.elim_some, Option.elim_none]
          omega

/-- **Wrong passwords never help**, wherever they are inserted. -/
theorem WithWrongPasswords.noBetter {l l' : List LoginOutcome} (h : WithWrongPasswords l l')
    (hstart : NoBetter trust trust') :
    NoBetter (l.foldr LoginOutcome.trustAfter trust) (l'.foldr LoginOutcome.trustAfter trust') := by
  induction h with
  | nil => exact hstart
  | same outcome _ ih =>
      simp only [List.foldr_cons]
      cases outcome with
      | wrongPassword => exact ih.wrong_both
      | codeRefused => exact ih
      | blocked => exact ih.passed rfl rfl
      | successful => exact ih.passed rfl rfl
  | passed hpassed hpassed' _ ih => exact ih.passed hpassed hpassed'
  | wrong _ ih => exact ih.wrong

/-! ### What is stored -/

variable {X : External} {srv : ProxyServer} {w w' w₁ w₂ : World} {u : Uuid} {hash : String}

/-- The device has this trust: a row of `u` with the flag its score calls for, or
no row. -/
def Trusts (w : World) (u : Uuid) (hash : String) : Option ℕ → Prop
  | none => w.devices.lookup hash = none
  | some score => ∃ row : DeviceRecord, w.devices.lookup hash = some row ∧ row.userId = u ∧
      row.trustScore = score ∧ TrustWellFormed row.trustScore row.isTrusted

/-- The trust of a device that nobody else has a row of. -/
theorem exists_trusts {A : ProxyTrace X srv → Entry (proxySystem X srv) → Prop}
    {tr : ProxyTrace X srv} (hrun : Run A w tr)
    (hown : ∀ row, w.devices.lookup hash = some row → row.userId = u) :
    ∃ trust, Trusts w u hash trust := by
  cases hlookup : w.devices.lookup hash with
  | none => exact ⟨none, hlookup⟩
  | some row =>
      have hwf := (trust_sound hrun.reachable).stored hash row hlookup
      have hnonneg := hwf.nonneg
      exact ⟨some row.trustScore.toNat, row, hlookup, hown row hlookup, by omega, hwf⟩

theorem Trusts.of_lookup {trust : Option ℕ} (h : Trusts w u hash trust)
    (hsame : w'.devices.lookup hash = w.devices.lookup hash) : Trusts w' u hash trust := by
  cases trust with
  | none => exact hsame.trans h
  | some score =>
      obtain ⟨row, hrow, hrest⟩ := h
      exact ⟨row, hsame.trans hrow, hrest⟩

/-- What a lookup of the device finds. -/
theorem Trusts.found {trust : Option ℕ} (h : Trusts w u hash trust) :
    (trust = none ∧ w.findDevice u hash = none) ∨
      ∃ (score : ℕ) (flag : Bool), trust = some score ∧ w.findDevice u hash = some ⟨score, flag⟩ ∧
        TrustWellFormed score flag := by
  cases trust with
  | none =>
      have hnone : w.devices.lookup hash = none := h
      refine .inl ⟨rfl, ?_⟩
      simp [World.findDevice, hnone]
  | some score =>
      obtain ⟨row, hrow, huser, hscore, hwf⟩ := h
      rw [hscore] at hwf
      refine .inr ⟨score, row.isTrusted, rfl, ?_, hwf⟩
      simp [World.findDevice, hrow, huser, hscore]

/-- The trust of a device is what its row says. -/
theorem Trusts.unique {trust trust' : Option ℕ} (h : Trusts w u hash trust)
    (h' : Trusts w' u hash trust') (hsame : w.findDevice u hash = w'.findDevice u hash) :
    trust = trust' := by
  obtain ⟨rfl, hfound⟩ | ⟨score, flag, rfl, hfound, -⟩ := h.found
  · obtain ⟨rfl, -⟩ | ⟨score', flag', rfl, hfound', -⟩ := h'.found
    · rfl
    · simp [hfound, hfound'] at hsame
  · obtain ⟨rfl, hfound'⟩ | ⟨score', flag', rfl, hfound', -⟩ := h'.found
    · simp [hfound, hfound'] at hsame
    · rw [hfound, hfound', Option.some.injEq, DeviceRow.mk.injEq] at hsame
      rw [Int.ofNat_inj.mp hsame.1]

/-- An upsert of `u` that binds a well-formed score. -/
theorem Trusts.upsert {trust : Option ℕ} {d : DeviceUpsert} {score : ℕ} (h : Trusts w u hash trust)
    (hstored : w.upsertDevice d = some w') (huser : d.userId = u) (hhash : d.fingerprintHash = hash)
    (hscore : d.trustScore = score) (hwf : TrustWellFormed d.trustScore d.isTrusted) :
    Trusts w' u hash (some score) := by
  obtain ⟨row, hdev, hrow, hflag, hown⟩ := upsertDevice_row hstored
  rw [hhash] at hdev hown
  refine ⟨row, by rw [hdev, AList.lookup_insert], ?_, hrow.trans hscore, hrow ▸ hflag ▸ hwf⟩
  cases trust with
  | none =>
      have hnone : w.devices.lookup hash = none := h
      rw [hown, hnone]
      exact huser
  | some _ =>
      obtain ⟨old, hold, holdUser, -⟩ := h
      rw [hown, hold]
      exact holdUser

/-! ### The events of an attempt -/

/-- No device is written. -/
def NoUpsert (h : List Event) : Prop := ∀ d r, .upsertDevice d r ∉ h

theorem OfKinds.noUpsert {ks : List EventKind} {h : List Event} (hk : OfKinds ks h)
    (hnot : .device ∉ ks) : NoUpsert h :=
  fun _ _ => hk.not_mem hnot

theorem NoUpsert.append {h h' : List Event} (hh : NoUpsert h) (hh' : NoUpsert h') :
    NoUpsert (h ++ h') := by
  intro d r hmem
  obtain hmem | hmem := List.mem_append.mp hmem
  · exact hh d r hmem
  · exact hh' d r hmem

variable {t : ℕ} {h pre post : List Event}

theorem devices_sequential (hseq : Sequential ((proxySystem X srv).only t) w h w')
    (hno : NoUpsert h) : w'.devices = w.devices := by
  refine hseq.invariant (fun w' => w'.devices = w.devices) rfl ?_ ?_
  · intro m w₁ w₂ henv hsame
    obtain ⟨-, rfl⟩ : w₁.clock ≤ m ∧ w₁.advance m = w₂ := by simpa using henv
    exact hsame
  · intro _ e w₁ w₂ hmem hact hsame
    obtain hkept | ⟨d, r, rfl, -⟩ := World.act_devices hact
    · exact hkept.trans hsame
    · exact (hno d r hmem).elim

/-- Without an upsert, a device is found as it was. -/
theorem found_sequential {existing : Option DeviceRow}
    (hseq : Sequential ((proxySystem X srv).only t) w h w') (hno : NoUpsert h)
    (hmem : .findDeviceByFingerprint u hash (.ok existing) ∈ h) :
    existing = w.findDevice u hash := by
  obtain ⟨post, pre, rfl⟩ := List.append_of_mem hmem
  obtain ⟨w₁, hfirst, -⟩ := Sequential.append_iff.mp hseq
  obtain ⟨_, w₂, w₃, hpre, hact, -⟩ := hfirst.last
  have hsame := devices_sequential hpre fun d r hpre =>
    hno d r (List.mem_append_right _ (List.mem_cons_of_mem _ hpre))
  have hreply : World.act X t (.findDeviceByFingerprint u hash (.ok existing)) w₂ = some w₃ := hact
  obtain ⟨-, hfound⟩ := World.device_reply hreply
  rw [hfound]
  exact findDevice_of_devices hsame u hash

/-- One upsert: it is executed on the devices as they were, and they stay as it
leaves them. -/
theorem upsert_sequential {d : DeviceUpsert}
    (hseq : Sequential ((proxySystem X srv).only t) w
      (post ++ Event.upsertDevice d (.ok ()) :: pre) w')
    (hpre : NoUpsert pre) (hpost : NoUpsert post) :
    ∃ w₁ w₂ : World, w₁.devices = w.devices ∧ w₁.upsertDevice d = some w₂ ∧
      w'.devices = w₂.devices := by
  obtain ⟨w₃, hfirst, hlater⟩ := Sequential.append_iff.mp hseq
  obtain ⟨_, w₁, w₂, hbefore, hact, hpassed⟩ := hfirst.last
  have hpassed' : World.devices w₃ = World.devices w₂ :=
    devices_sequential hpassed (by simp [NoUpsert])
  have hafter := (devices_sequential hlater hpost).trans hpassed'
  exact ⟨w₁, w₂, devices_sequential hbefore hpre, hact, hafter⟩

/-- The device that an attempt binds, as the next one finds it. -/
theorem Trusts.store {trust : Option ℕ} {q : Request} {user : UserRow} {device : DeviceFingerprint}
    (htrust : Trusts w user.id hash trust)
    (hseq : Sequential ((proxySystem X srv).only t) w
      (post ++ Event.upsertDevice (upsertOf q user device) (.ok ()) :: pre) w')
    (hpre : NoUpsert pre) (hpost : NoUpsert post) (hwf : device.WellFormed)
    (hhash : device.fingerprintHash = hash) : Trusts w' user.id hash (some device.trustScore) := by
  obtain ⟨w₁, w₂, hbefore, hstored, hafter⟩ := upsert_sequential hseq hpre hpost
  have htrust₁ : Trusts w₁ user.id hash trust := htrust.of_lookup (by rw [hbefore])
  have hscore : (upsertOf q user device).trustScore = device.trustScore := asI32_of_le hwf.le
  have htrust₂ := htrust₁.upsert hstored rfl hhash hscore (upsertOf_wellFormed hwf)
  exact htrust₂.of_lookup (by rw [hafter])

/-- The device a login goes by has the trust that is stored. -/
theorem Trusts.loginDevice {trust : Option ℕ} {q : Request} {id : Uuid} {firstSeen lastSeen : Int}
    {user : UserRow} (htrust : Trusts w u hash trust) :
    (loginDevice X q id firstSeen lastSeen user (w.findDevice u hash)).WellFormed ∧
      (ZeroTrustProxy.loginDevice X q id firstSeen lastSeen user
        (w.findDevice u hash)).trustScore = trust.getD 50 ∧
      (w.findDevice u hash).isSome = trust.isSome := by
  obtain ⟨rfl, hfound⟩ | ⟨score, flag, rfl, hfound, hwf⟩ := htrust.found
  · rw [hfound]
    exact ⟨loginDevice_wellFormed (by simp), rfl, rfl⟩
  · rw [hfound]
    refine ⟨loginDevice_wellFormed ?_, ?_, rfl⟩
    · rintro _ ⟨⟩
      exact hwf
    · have hread := @DeviceFingerprint.restore_exact ⟨score, flag⟩ hwf
        (DeviceFingerprint.build X id firstSeen lastSeen user.id.text
          ((q.header "user-agent").getD "unknown") q.remoteIp.text .empty)
      exact Int.ofNat_inj.mp hread

/-! ### One attempt -/

/-- The answers of the outcomes. -/
def LoginOutcome.Of (r : Except ProxyError Response) : LoginOutcome → Prop
  | .wrongPassword => r = .error (.authenticationFailed "invalid credentials")
  | .codeRefused => r = .error .mfaRequired ∨ r = .error .invalidMfaToken
  | .blocked => ∃ score threshold, r = .error (.riskThresholdExceeded score threshold)
  | .successful => ∃ o, r = .ok o

/-- An execution of `handle_login` on the account of `u`, from a browser with the
fingerprint, that comes out like this with no storage failure. -/
structure LoginAttempt (X : External) (u : Uuid) (hash : String)
    (x : Execution proxyInterface Request ProxyError Response) (outcome : LoginOutcome) : Prop where
  device : fingerprintOf X x.req = hash
  account : ∃ body user, ParsesLogin X x.req body ∧
    .findUserByUsername body.username (.ok (some user)) ∈ x.history ∧ user.id = u ∧
    user.isActive = true ∧
    X.verifyPassword body.password user.passwordHash = .ok (decide (outcome ≠ .wrongPassword))
  outcome : outcome.Of x.outcome
  storage : StorageSucceeds x.history

/-- A login that has found an active account, with no storage failure, has come
to its verdict. -/
theorem LoginRun.known {q : Request} {r : Except ProxyError Response} {username : String}
    {user : UserRow} (hl : LoginRun X srv q h r) (hs : StorageSucceeds h)
    (hfound : .findUserByUsername username (.ok (some user)) ∈ h) (hactive : user.isActive = true) :
    ∃ rate verdict body id firstSeen lastSeen existing, OfKinds [.redis] rate ∧
      ParsesLogin X q body ∧
      h = verdict ++ loginLookups X q body user id firstSeen lastSeen (.ok existing) rate ∧
      LoginVerdict X srv q body user (ZeroTrustProxy.loginDevice X q id firstSeen lastSeen user
        existing) existing verdict r := by
  have hrate {rate : List Event} {r : Except ProxyError Unit}
      (hrated : RateRun (rateLimitKey "login" q.remoteIp) 10 300 rate r) :
      .findUserByUsername username (.ok (some user)) ∉ rate :=
    hrated.kinds.not_mem (by simp [Event.kind])
  cases hl with
  | limited rated => exact (hrate rated hfound).elim
  | unread rated body => exact (hrate rated hfound).elim
  | malformed rated body parse => exact (hrate rated hfound).elim
  | lookupFailed rated parsed =>
      exact (hs.fails List.mem_cons_self rfl (by simp [Event.kind])).elim
  | unknown rated parsed inactive =>
      obtain heq | hmem := List.mem_cons.mp hfound
      · obtain ⟨-, hsame⟩ := Event.findUserByUsername.inj heq
        rw [← Except.ok.inj hsame] at inactive
        simp [hactive] at inactive
      · exact (hrate rated hmem).elim
  | deviceFailed id firstSeen lastSeen rated parsed active =>
      exact (hs.fails List.mem_cons_self rfl (by simp [Event.kind])).elim
  | decided id firstSeen lastSeen rated parsed active decision =>
      have hsame := loginLookups_account rated.kinds decision.kinds (by decide) hfound
      obtain rfl := Option.some.inj hsame
      exact ⟨_, _, _, id, firstSeen, lastSeen, _, rated.kinds, parsed, rfl, decision⟩

theorem loginLookups_noUpsert {q : Request} {body : LoginBody} {user : UserRow} {id : Uuid}
    {firstSeen lastSeen : Int} {existing : Option DeviceRow} {rate : List Event}
    (hrate : OfKinds [.redis] rate) :
    NoUpsert (loginLookups X q body user id firstSeen lastSeen (.ok existing) rate) := by
  intro d r hmem
  simp only [loginLookups, List.mem_cons, reduceCtorEq, false_or] at hmem
  exact hrate.not_mem (by simp [Event.kind]) hmem

/-- A login that passes stores a new device, or the bonus of a known one. -/
theorem LoginRiskRun.trusts {q : Request} {user : UserRow} {device : DeviceFingerprint}
    {existing : Option DeviceRow} {scores check later : List Event} {risk : RiskScore}
    {trust : Option ℕ} (hscored : LoginRiskRun srv q user device existing scores (.ok risk))
    (hseq : Sequential ((proxySystem X srv).only t) w (later ++ (scores ++ check)) w')
    (hlater : NoUpsert later) (hcheck : NoUpsert check) (htrust : Trusts w user.id hash trust)
    (hwf : device.WellFormed) (hhash : device.fingerprintHash = hash)
    (hscore : device.trustScore = trust.getD 50) (hknown : existing.isSome = trust.isSome) :
    Trusts w' user.id hash (some (trust.elim 50 fun score => min (score + 10) 100)) := by
  generalize hr : (Except.ok risk : Except ProxyError RiskScore) = r at hscored
  cases hscored with
  | failed => simp at hr
  | scored lastSeen timestamp now =>
      rw [hknown] at hseq
      have hsplit : later ++ ([Event.utcNow .deviceAge now, .utcNow .riskTimestamp timestamp,
          .upsertDevice (upsertOf q user
            (if trust.isSome then device.increaseTrust 10 else device)) (.ok ()),
          .utcNow .lastSeen lastSeen] ++ check) =
          (later ++ [Event.utcNow .deviceAge now, .utcNow .riskTimestamp timestamp]) ++
            Event.upsertDevice (upsertOf q user
              (if trust.isSome then device.increaseTrust 10 else device)) (.ok ()) ::
            .utcNow .lastSeen lastSeen :: check := by simp
      rw [hsplit] at hseq
      have hpre : NoUpsert (.utcNow .lastSeen lastSeen :: check) :=
        NoUpsert.append (h := [.utcNow .lastSeen lastSeen]) (by simp [NoUpsert]) hcheck
      have hpost : NoUpsert
          (later ++ [Event.utcNow .deviceAge now, .utcNow .riskTimestamp timestamp]) :=
        hlater.append (by simp [NoUpsert])
      cases trust with
      | none =>
          rw [Option.isSome_none, if_neg (by simp)] at hseq
          have hnew := htrust.store hseq hpre hpost hwf hhash
          rw [hscore] at hnew
          exact hnew
      | some score =>
          rw [Option.isSome_some, if_pos rfl] at hseq
          have hraised := htrust.store hseq hpre hpost hwf.increaseTrust hhash
          have hbonus : (device.increaseTrust 10).trustScore = min (score + 10) 100 := by
            show min (asU32 (device.trustScore + 10)) 100 = min (score + 10) 100
            rw [asU32_add_of_le hwf.le, hscore, Option.getD_some]
          rw [hbonus] at hraised
          exact hraised

/-- **What an attempt does to the trust of its device** depends on its outcome. -/
theorem LoginAttempt.trusts {q : Request} {r : Except ProxyError Response}
    {outcome : LoginOutcome} {trust : Option ℕ}
    (hexec : Executes (proxySystem X srv) (handleLogin X srv q) w h r w')
    (hattempt : LoginAttempt X u hash ⟨q, h, r⟩ outcome) (htrust : Trusts w u hash trust) :
    Trusts w' u hash (outcome.trustAfter trust) := by
  obtain ⟨t, hseq, hend⟩ := hexec
  obtain ⟨body, user, hparsed, hfound, rfl, hactive, hpassword⟩ := hattempt.account
  have hstored : StorageSucceeds h := hattempt.storage
  obtain ⟨rate, verdict, body', id, first, last, existing, hrate, hparsed', rfl, hverdict⟩ :=
    (handleLogin_ends hend).known hstored hfound hactive
  obtain rfl := hparsed.unique hparsed'
  have hout : outcome.Of r := hattempt.outcome
  obtain rfl : fingerprintOf X q = hash := hattempt.device
  obtain ⟨w₁, hlookups, hdecided⟩ := Sequential.append_iff.mp hseq
  have hsame : World.devices w₁ = w.devices :=
    devices_sequential hlookups (loginLookups_noUpsert hrate)
  have htrust₁ : Trusts w₁ user.id (fingerprintOf X q) trust := htrust.of_lookup (by rw [hsame])
  obtain rfl : existing = World.findDevice w₁ user.id (fingerprintOf X q) := by
    rw [findDevice_of_devices hsame]
    exact found_sequential hlookups (loginLookups_noUpsert hrate) List.mem_cons_self
  obtain ⟨hwf, hscore, hknown⟩ : (loginDevice X q id first last user _).WellFormed ∧ _ ∧ _ :=
    htrust₁.loginDevice
  have hhash := DeviceFingerprint.restore_fingerprintHash (DeviceFingerprint.build X id first last
    user.id.text ((q.header "user-agent").getD "unknown") q.remoteIp.text .empty)
    (World.findDevice w₁ user.id (fingerprintOf X q))
  have hverified {e : Event} (hfailed : e.failed = true) (hkind : e.kind ≠ .audit) : e ∉ verdict :=
    fun hmem => hstored.fails (List.mem_append_left _ hmem) hfailed hkind
  cases hverdict with
  | unverifiable password => simp [password] at hpassword
  | refusalFailed password => exact (hverified rfl (by simp [Event.kind]) List.mem_cons_self).elim
  | refused password audited =>
      obtain rfl : outcome = .wrongPassword := by simpa [password] using hpassword
      have hlowered := htrust₁.store hdecided (by simp [NoUpsert])
        (audited.kinds.noUpsert (by decide)) hwf.decreaseTrust hhash
      have hcost : ((loginDevice X q id first last user (World.findDevice w₁ user.id
          (fingerprintOf X q))).decreaseTrust 15).trustScore = trust.getD 50 - 15 := by
        rw [← hscore]
        rfl
      rw [hcost] at hlowered
      exact hlowered
  | mfaRefused password gate =>
      have hkept : World.devices w' = World.devices w₁ :=
        devices_sequential hdecided (gate.kinds.noUpsert (by decide))
      obtain rfl : outcome = .codeRefused := by
        obtain rfl | rfl := gate.error_cases
        · cases outcome <;> simp [LoginOutcome.Of] at hout ⊢
        · cases outcome <;> simp [LoginOutcome.Of] at hout ⊢
      exact htrust₁.of_lookup (by rw [hkept])
  | riskFailed password gate scored =>
      cases scored with
      | failed => exact (hverified rfl (by simp [Event.kind]) List.mem_cons_self).elim
  | blocked password gate scored block audited =>
      have hpassed : outcome.passed = true := by
        cases outcome <;> simp [LoginOutcome.Of, LoginOutcome.passed] at hout ⊢
      rw [LoginOutcome.trustAfter_of_passed hpassed]
      exact scored.trusts hdecided (audited.kinds.noUpsert (by decide))
        (gate.kinds.noUpsert (by decide)) htrust₁ hwf hhash hscore hknown
  | opened password gate scored block opened =>
      have hpassed : outcome.passed = true := by
        cases r with
        | ok o => cases outcome <;> simp [LoginOutcome.Of, LoginOutcome.passed] at hout ⊢
        | error e =>
            obtain ⟨s, rfl⟩ | ⟨s, rfl⟩ := opened.error_cases
            · cases outcome <;> simp [LoginOutcome.Of] at hout
            · cases outcome <;> simp [LoginOutcome.Of] at hout
      rw [LoginOutcome.trustAfter_of_passed hpassed]
      exact scored.trusts hdecided (opened.kinds.noUpsert (by decide))
        (gate.kinds.noUpsert (by decide)) htrust₁ hwf hhash hscore hknown

/-! ### Two histories -/

/-- Attempts from one browser at the account of `u`, one after the other, newest
first. -/
def Attempts (X : External) (srv : ProxyServer) (u : Uuid) (hash : String) (w : World)
    (outcomes : List LoginOutcome) (w' : World) : Prop :=
  ∃ l, Serial (proxySystem X srv) (handleLogin X srv) w l w' ∧
    List.Forall₂ (LoginAttempt X u hash) l outcomes

theorem Attempts.trusts {outcomes : List LoginOutcome} {trust : Option ℕ}
    (h : Attempts X srv u hash w outcomes w') (htrust : Trusts w u hash trust) :
    Trusts w' u hash (outcomes.foldr LoginOutcome.trustAfter trust) := by
  obtain ⟨l, hserial, hall⟩ := h
  refine hserial.invariant (fun l w' => ∀ outcomes,
    List.Forall₂ (LoginAttempt X u hash) l outcomes →
      Trusts w' u hash (outcomes.foldr LoginOutcome.trustAfter trust)) ?_ ?_ outcomes hall
  · rintro outcomes ⟨⟩
    exact htrust
  · intro l q h r w₁ w₂ hexec ih outcomes hall
    cases hall with
    | cons hattempt hrest => exact hattempt.trusts hexec (ih _ hrest)

/-- Logins of a run that come one after the other are such attempts. -/
theorem attempts_of_run {A : ProxyTrace X srv → Entry (proxySystem X srv) → Prop}
    {seg tr₀ : ProxyTrace X srv} {l : List (Execution proxyInterface Request Empty Response)}
    {outcomes : List LoginOutcome} (hrun : Run A w (seg ++ tr₀)) (hone : OneByOne seg l)
    (hlogins : List.Forall₂ (fun x outcome => x.req.route = .login ∧
      ∀ r, (handleLogin X srv x.req).Ends x.history r →
        LoginAttempt X u hash ⟨x.req, x.history, r⟩ outcome) l outcomes) :
    ∃ w₀ w₁, Run A w₀ tr₀ ∧ Attempts X srv u hash w₀ outcomes w₁ ∧ w.devices = w₁.devices := by
  obtain ⟨w₀, w₁, hrun₀, hserial, hidle⟩ := hrun.serial hone
  refine ⟨w₀, w₁, hrun₀, ?_, ?_⟩
  · refine hserial.invariant (fun l w₁ => ∀ outcomes, List.Forall₂ (fun x outcome =>
      x.req.route = .login ∧ ∀ r, (handleLogin X srv x.req).Ends x.history r →
        LoginAttempt X u hash ⟨x.req, x.history, r⟩ outcome) l outcomes →
      Attempts X srv u hash w₀ outcomes w₁) ?_ ?_ outcomes hlogins
    · rintro outcomes ⟨⟩
      exact ⟨[], .start, .nil⟩
    · rintro l q h r w₁ w₂ ⟨t, hseq, hend⟩ ih outcomes hall
      cases hall with
      | cons hlogin hrest =>
          obtain ⟨l', hearlier, hall'⟩ := ih _ hrest
          obtain ⟨hroute, hattempt⟩ := hlogin
          cases r with
          | error e => exact e.elim
          | ok o =>
              obtain ⟨r, hend, -⟩ := handleRequest_ends hend
              rw [hroute] at hend
              exact ⟨_, .next hearlier ⟨t, hseq, hend⟩, .cons (hattempt r hend) hall'⟩
  · have hkept : Sequential ((proxySystem X srv).only 0) w₁ [] w := hidle.idle
    exact devices_sequential hkept (by simp [NoUpsert])

/-- **Failing never helps.** Take two reachable states in which the device of a
user has the same row, or none, and nobody else has one under its fingerprint; and
from each a history of attempts, such that the first is the second with wrong
passwords inserted anywhere. If the second leaves a row, then so does the first,
with a trust score that is not higher; and the device is trusted after the first
only if it is trusted after the second. -/
theorem failing_never_helps {w₀ w₀' : World} {tr₀ tr₀' : ProxyTrace X srv}
    {outcomes outcomes' : List LoginOutcome} (hreach : Reachable w₀ tr₀)
    (hreach' : Reachable w₀' tr₀')
    (hown : ∀ row, w₀.devices.lookup hash = some row → row.userId = u)
    (hown' : ∀ row, w₀'.devices.lookup hash = some row → row.userId = u)
    (hsame : w₀.findDevice u hash = w₀'.findDevice u hash)
    (h : Attempts X srv u hash w₀ outcomes w) (h' : Attempts X srv u hash w₀' outcomes' w')
    (hinserted : WithWrongPasswords outcomes outcomes') :
    (∀ row', w'.findDevice u hash = some row' →
      ∃ row, w.findDevice u hash = some row ∧ row.trustScore ≤ row'.trustScore) ∧
    ∀ row, w.findDevice u hash = some row → row.isTrusted = true →
      ∃ row', w'.findDevice u hash = some row' ∧ row'.isTrusted = true := by
  obtain ⟨trust, htrust⟩ := exists_trusts hreach hown
  obtain ⟨trust', htrust'⟩ := exists_trusts hreach' hown'
  obtain rfl := htrust.unique htrust' hsame
  have hafter := h.trusts htrust
  have hafter' := h'.trusts htrust'
  have hbetter := hinserted.noBetter (.refl trust)
  generalize outcomes.foldr LoginOutcome.trustAfter trust = a at hafter hbetter
  generalize outcomes'.foldr LoginOutcome.trustAfter trust = a' at hafter' hbetter
  obtain ⟨rfl, hfound'⟩ | ⟨score', flag', rfl, hfound', hwf'⟩ := hafter'.found
  · refine ⟨fun row' hrow' => by simp [hfound'] at hrow', fun row hrow htrusted => ?_⟩
    -- where there is no row to compare with, wrong passwords alone have made one
    exfalso
    obtain ⟨rfl, hfound⟩ | ⟨score, flag, rfl, hfound, hwf⟩ := hafter.found
    · simp [hfound] at hrow
    · obtain rfl := Option.some.inj (hfound.symm.trans hrow)
      have hhigh := hwf.flag.mp htrusted
      have hlow := hbetter score rfl
      omega
  · obtain ⟨score, rfl, hle⟩ := hbetter
    obtain ⟨heq, -⟩ | ⟨_, flag, heq, hfound, hwf⟩ := hafter.found
    · simp at heq
    obtain rfl := Option.some.inj heq
    constructor
    · intro row' hrow'
      obtain rfl := Option.some.inj (hfound'.symm.trans hrow')
      exact ⟨_, hfound, by simpa using hle⟩
    · intro row hrow htrusted
      obtain rfl := Option.some.inj (hfound.symm.trans hrow)
      have hhigh := hwf.flag.mp htrusted
      exact ⟨_, hfound', hwf'.flag.mpr (by omega)⟩

namespace Scenario

def aliceMistypes : String :=
  "\x7b\"username\":\"alice\",\"password\":\"correct horse batter\"\x7d"

/-- A backend whose users mistype. -/
def mistyping : External :=
  { external with
    parseLoginBody := fun s =>
      if s = aliceMistypes then some ⟨"alice", "correct horse batter", none, none⟩
      else external.parseLoginBody s }

/-- The answers of the outcomes that the scripts have. -/
def answers (r : Except ProxyError Response) (outcome : LoginOutcome) : Bool :=
  match r, outcome with
  | .error (.authenticationFailed reason), .wrongPassword => decide (reason = "invalid credentials")
  | .ok _, .successful => true
  | _, _ => false

theorem of_answers {r : Except ProxyError Response} {outcome : LoginOutcome}
    (h : answers r outcome = true) : outcome.Of r := by
  unfold answers at h
  split at h
  · rw [of_decide_eq_true h]
    rfl
  · exact ⟨_, rfl⟩
  · simp at h

/-- An attempt at the account of alice. -/
def attempts (x : Execution proxyInterface Request ProxyError Response)
    (outcome : LoginOutcome) : Bool :=
  (match x.req.body.bind mistyping.parseLoginBody with
    | some body => x.history.any fun e => match e with
      | .findUserByUsername username (.ok (some user)) =>
          decide (username = body.username ∧ user = alice) &&
            decide (decide (body.password = password ∧ alice.passwordHash = passwordHash) =
              decide (outcome ≠ .wrongPassword))
      | _ => false
    | none => false) && answers x.outcome outcome &&
  x.history.all fun e => !e.failed || decide (e.kind = .audit)

theorem attempt_of_attempts {x : Execution proxyInterface Request ProxyError Response}
    {outcome : LoginOutcome} (h : attempts x outcome = true) :
    LoginAttempt mistyping alice.id print x outcome := by
  simp only [attempts, Bool.and_eq_true] at h
  obtain ⟨⟨haccount, hanswer⟩, hstorage⟩ := h
  refine ⟨rfl, ?_, of_answers hanswer, ?_⟩
  · split at haccount
    · rename_i body hbody
      obtain ⟨bytes, hbytes, hparse⟩ := Option.bind_eq_some_iff.mp hbody
      obtain ⟨e, he, hfound⟩ := List.any_eq_true.mp haccount
      split at hfound
      · rename_i username user
        obtain ⟨hwho, hpassword⟩ := Bool.and_eq_true_iff.mp hfound
        obtain ⟨rfl, rfl⟩ := of_decide_eq_true hwho
        have hverified := of_decide_eq_true hpassword
        refine ⟨body, alice, ⟨bytes, hbytes, hparse⟩, he, rfl, rfl, ?_⟩
        rw [← hverified]
        rfl
      · simp at hfound
    · simp at haccount
  · intro e he hfailed
    have hall := List.all_eq_true.mp hstorage e he
    simpa [hfailed] using hall

/-- Requests of alice's browser, newest first, come out like this. -/
def attempted (qs : List Request) (outcomes : List LoginOutcome) (score : ℤ) : Bool :=
  (execAll (proxySystem mistyping server) (World.reply mistyping 0 0) (handleLogin mistyping server)
    (world [alice]) qs).any fun x =>
      decide (x.1.length = outcomes.length) && ((x.1.zip outcomes).all fun y => attempts y.1 y.2) &&
        decide ((x.2.findDevice alice.id print).map DeviceRow.trustScore = some score)

theorem attempts_of_attempted {qs : List Request} {outcomes : List LoginOutcome} {score : ℤ}
    (h : attempted qs outcomes score = true) :
    ∃ (w : World) (row : DeviceRow), Attempts mistyping server alice.id print (world [alice])
      outcomes w ∧ w.findDevice alice.id print = some row ∧ row.trustScore = score := by
  obtain ⟨⟨l, w⟩, hexec, hcheck⟩ := (Option.any_eq_true _ _).mp h
  simp only [Bool.and_eq_true, decide_eq_true_eq, List.all_eq_true] at hcheck
  obtain ⟨⟨hlength, hall⟩, hscore⟩ := hcheck
  obtain ⟨row, hrow, hscore⟩ := Option.map_eq_some_iff.mp hscore
  refine ⟨w, row, ⟨l, execAll_sound hexec, ?_⟩, hrow, hscore⟩
  rw [List.forall₂_iff_zip]
  exact ⟨hlength, fun hmem => attempt_of_attempts (hall _ hmem)⟩

end Scenario

open Scenario in
/-- A mistyped password before the first login leaves 45 where there would be 50. -/
theorem failing_never_helps_run : ∃ (w w' : World) (row row' : DeviceRow),
    Attempts mistyping server alice.id print (world [alice]) [.successful, .wrongPassword] w ∧
    Attempts mistyping server alice.id print (world [alice]) [.successful] w' ∧
    w.findDevice alice.id print = some row ∧ row.trustScore = 45 ∧
    w'.findDevice alice.id print = some row' ∧ row'.trustScore = 50 ∧
    row.trustScore ≤ row'.trustScore := by
  have hfirst : attempted [login aliceLogin, login aliceMistypes] [.successful, .wrongPassword] 45 =
      true := by decide +kernel
  have hsecond : attempted [login aliceLogin] [.successful] 50 = true := by decide +kernel
  obtain ⟨w, row, hattempts, hrow, hscore⟩ := attempts_of_attempted hfirst
  obtain ⟨w', row', hattempts', hrow', hscore'⟩ := attempts_of_attempted hsecond
  have hinit : InitialWorld (world [alice]) := world_initial (by simp) (by simp) (by simp)
  have hreach : Reachable (S := proxySystem mistyping server) (world [alice]) [] := .init hinit
  have hnone : ∀ row, (world [alice]).devices.lookup print = some row → row.userId = alice.id := by
    simp [world]
  obtain ⟨hlower, -⟩ := failing_never_helps hreach hreach hnone hnone rfl hattempts hattempts'
    (.same .successful (.wrong .nil))
  obtain ⟨row₁, hrow₁, hle⟩ := hlower row' hrow'
  obtain rfl := Option.some.inj (hrow.symm.trans hrow₁)
  exact ⟨w, w', row, row', hattempts, hattempts', hrow, hscore, hrow', hscore', hle⟩

end ZeroTrustProxy
