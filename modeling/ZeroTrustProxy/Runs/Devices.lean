import ZeroTrustProxy.Runs.Scenario

/-!
Whose row a device upsert writes.

A device is looked up by user and fingerprint, but rows conflict on the
fingerprint alone. An upsert therefore does what its caller means exactly when
the fingerprint is free or the caller's own.
-/

namespace ZeroTrustProxy

open Concurrent

variable {X : External} {srv : ProxyServer} {w w' : World}

/-! ### One upsert -/

/-- What `upsert_device` is for: its user finds the row as written, and every
other user finds what was there. -/
def DeviceSeparated (w w' : World) (d : DeviceUpsert) : Prop :=
  w'.findDevice d.userId d.fingerprintHash = some ⟨d.trustScore, d.isTrusted⟩ ∧
    ∀ v hash, v ≠ d.userId → w'.findDevice v hash = w.findDevice v hash

/-- No other user has a row with the fingerprint. -/
def OwnFingerprint (w : World) (d : DeviceUpsert) : Prop :=
  ∀ row, w.devices.lookup d.fingerprintHash = some row → row.userId = d.userId

instance (w : World) (d : DeviceUpsert) : Decidable (OwnFingerprint w d) :=
  match h : w.devices.lookup d.fingerprintHash with
  | some row =>
      if hrow : row.userId = d.userId then .isTrue (by simp [OwnFingerprint, h, hrow])
      else .isFalse (by simp [OwnFingerprint, h, hrow])
  | none => .isTrue (by simp [OwnFingerprint, h])

/-- The row an upsert leaves under its fingerprint: that of the user it found
there, or a new one of its own user. -/
theorem upsertDevice_row {d : DeviceUpsert} (h : w.upsertDevice d = some w') :
    ∃ row : DeviceRecord, w'.devices = w.devices.insert d.fingerprintHash row ∧
      row.trustScore = d.trustScore ∧ row.isTrusted = d.isTrusted ∧
      row.userId = ((w.devices.lookup d.fingerprintHash).map DeviceRecord.userId).getD d.userId := by
  unfold World.upsertDevice at h
  split at h
  · split at h
    · rename_i old hold
      rw [← Option.some.inj h, hold]
      exact ⟨_, rfl, rfl, rfl, rfl⟩
    · rename_i hnone
      split at h
      · rw [← Option.some.inj h, hnone]
        exact ⟨_, rfl, rfl, rfl, rfl⟩
      · simp at h
  · simp at h

theorem findDevice_insert {row : DeviceRecord} {key : String} {v : Uuid} {hash : String}
    (hdev : w'.devices = w.devices.insert key row) :
    w'.findDevice v hash =
      if hash = key then if row.userId = v then some ⟨row.trustScore, row.isTrusted⟩ else none
      else w.findDevice v hash := by
  unfold World.findDevice
  rw [hdev]
  by_cases hkey : hash = key
  · subst hkey
    simp
  · rw [AList.lookup_insert_ne hkey, if_neg hkey]

/-- **An upsert is separated exactly on an own fingerprint.** -/
theorem deviceSeparated_iff {d : DeviceUpsert} (h : w.upsertDevice d = some w') :
    DeviceSeparated w w' d ↔ OwnFingerprint w d := by
  obtain ⟨row, hdev, hscore, htrusted, huser⟩ := upsertDevice_row h
  constructor
  · rintro ⟨hself, -⟩ old hold
    rw [findDevice_insert hdev, if_pos rfl] at hself
    rw [hold] at huser
    by_contra hne
    rw [if_neg (by rw [huser]; exact hne)] at hself
    simp at hself
  · intro hown
    have hrow : row.userId = d.userId := by
      rw [huser]
      cases hold : w.devices.lookup d.fingerprintHash with
      | none => rfl
      | some old => exact hown old hold
    refine ⟨?_, fun v hash hv => ?_⟩
    · rw [findDevice_insert hdev, if_pos rfl, if_pos hrow, hscore, htrusted]
    · rw [findDevice_insert hdev]
      by_cases hkey : hash = d.fingerprintHash
      · subst hkey
        rw [if_pos rfl, if_neg (by rw [hrow]; exact hv.symm)]
        unfold World.findDevice
        cases hold : w.devices.lookup d.fingerprintHash with
        | none => rfl
        | some old => simp [hown old hold, hv.symm]
      · rw [if_neg hkey]

/-! ### Runs -/

/-- The upsert an entry makes. -/
def Entry.upsert (x : Entry (proxySystem X srv)) : Option DeviceUpsert :=
  match x.item with
  | .act (.upsertDevice d _) => some d
  | _ => none

/-- Every upsert meets an own fingerprint. -/
def UpsertsOwn (_ : ProxyTrace X srv) (x : Entry (proxySystem X srv)) : Prop :=
  ∀ d ∈ Entry.upsert x, OwnFingerprint x.pre d

instance (tr : ProxyTrace X srv) (x : Entry (proxySystem X srv)) : Decidable (UpsertsOwn tr x) :=
  inferInstanceAs (Decidable (∀ d ∈ Entry.upsert x, OwnFingerprint x.pre d))

theorem findDevice_of_devices (h : w'.devices = w.devices) (v : Uuid) (hash : String) :
    w'.findDevice v hash = w.findDevice v hash := by
  unfold World.findDevice
  rw [h]

/-- An event that is not an upsert for `v` leaves what `v` finds. -/
theorem act_findDevice {t : ℕ} {e : Event} (hact : World.act X t e w = some w')
    (hown : ∀ d r, e = .upsertDevice d r → OwnFingerprint w d) {v : Uuid}
    (hother : ∀ d r, e = .upsertDevice d r → d.userId ≠ v) (hash : String) :
    w'.findDevice v hash = w.findDevice v hash := by
  rcases World.act_devices hact with hsame | ⟨d, r, heq, hstored⟩
  · exact findDevice_of_devices hsame v hash
  · exact ((deviceSeparated_iff hstored).mpr (hown d r heq)).2 v hash (hother d r heq).symm

/-- No entry is an upsert for `v`. -/
def NoUpsertFor (v : Uuid) (tr : ProxyTrace X srv) : Prop :=
  ∀ x ∈ tr, ∀ d ∈ Entry.upsert x, d.userId ≠ v

instance (v : Uuid) (tr : ProxyTrace X srv) : Decidable (NoUpsertFor v tr) :=
  inferInstanceAs (Decidable (∀ x ∈ tr, ∀ d ∈ Entry.upsert x, d.userId ≠ v))

/-- While every upsert meets an own fingerprint, upserts for other users leave
what `v` finds, however many there are. -/
theorem run_findDevice {seg tr₀ : ProxyTrace X srv} {x₀ : Entry (proxySystem X srv)} {v : Uuid}
    (h : Run UpsertsOwn w (seg ++ x₀ :: tr₀)) (hother : NoUpsertFor v (seg ++ [x₀]))
    (hash : String) : w.findDevice v hash = x₀.pre.findDevice v hash := by
  refine (h.since (proxy_contract X srv) (fun w seg => NoUpsertFor v (seg ++ [x₀]) →
    w.findDevice v hash = x₀.pre.findDevice v hash) ?_ ?_ ?_ ?_ ?_).1 hother
  · intro w _ hA hen hother
    obtain ⟨t, w₀, item⟩ := x₀
    cases item with
    | act e =>
        obtain ⟨_, _, _, hact⟩ := enabled_event hen
        refine act_findDevice hact (fun d r he => hA d ?_) (fun d r he => ?_) hash
        · subst he
          rfl
        · subst he
          exact hother ⟨t, w₀, .act (.upsertDevice d r)⟩ (by simp) d rfl
    | start q =>
        cases hen
        rfl
    | done o =>
        cases hen
        rfl
  · intro w w' seg m _ hJ henv hother
    obtain ⟨-, rfl⟩ : w.clock ≤ m ∧ w.advance m = w' := by simpa using henv
    exact hJ hother
  · intro w seg t q hJ _ hother
    exact hJ fun x hx => hother x (List.mem_cons_of_mem _ hx)
  · intro w w' seg t q e _ hJ _ _ _ hact hA hother
    have hsame := act_findDevice hact (fun d r he => hA d (by subst he; rfl)) (v := v)
      (fun d r he => hother _ List.mem_cons_self d (by subst he; rfl)) hash
    rw [hsame]
    exact hJ fun x hx => hother x (List.mem_cons_of_mem _ hx)
  · intro w seg t q o _ hJ _ _ _ hother
    exact hJ fun x hx => hother x (List.mem_cons_of_mem _ hx)

/-- An upsert is made by a login, for the user whose row that login has found. -/
theorem upsert_login {post pre : ProxyTrace X srv} {t : ℕ} {w₀ : World} {d : DeviceUpsert}
    {r : Except Fault Unit} (h : Reachable w (post ++ ⟨t, w₀, .act (.upsertDevice d r)⟩ :: pre)) :
    ∃ q username user, Started t q pre ∧ q.route = .login ∧
      .findUserByUsername username (.ok (some user)) ∈ own t pre ∧ d.userId = user.id := by
  obtain ⟨-, -, q, w₁, hq, hL, -⟩ := event_entry h
  cases hL with
  | refused route found device password => exact ⟨q, _, _, hq, route, found, rfl⟩
  | passed login device => exact ⟨q, _, _, hq, login.route, login.found, rfl⟩

/-- **Device trust per user, as far as it goes.** After an upsert that reports
success, its user finds the row as written and every other user finds what was
there, if and only if no other user has a row with the fingerprint. In a run
whose upserts all meet that condition, what a user finds is changed by that
user's own logins alone, since every upsert is one of a login of its user. -/
theorem device_trust_per_user (X : External) (srv : ProxyServer) :
    (∀ {w : World} {post pre : ProxyTrace X srv} {t : ℕ} {w₀ : World} {d : DeviceUpsert},
      Reachable w (post ++ ⟨t, w₀, .act (.upsertDevice d (.ok ()))⟩ :: pre) →
      ∃ w₁, Enabled pre ⟨t, w₀, .act (.upsertDevice d (.ok ()))⟩ w₁ ∧
        (DeviceSeparated w₀ w₁ d ↔ OwnFingerprint w₀ d)) ∧
    (∀ {w : World} {seg tr₀ : ProxyTrace X srv} {x₀ : Entry (proxySystem X srv)} {v : Uuid},
      Run UpsertsOwn w (seg ++ x₀ :: tr₀) → NoUpsertFor v (seg ++ [x₀]) →
      ∀ hash, w.findDevice v hash = x₀.pre.findDevice v hash) ∧
    ∀ {w : World} {post pre : ProxyTrace X srv} {t : ℕ} {w₀ : World} {d : DeviceUpsert}
      {r : Except Fault Unit}, Reachable w (post ++ ⟨t, w₀, .act (.upsertDevice d r)⟩ :: pre) →
      ∃ q username user, Started t q pre ∧ q.route = .login ∧
        .findUserByUsername username (.ok (some user)) ∈ own t pre ∧ d.userId = user.id := by
  refine ⟨fun {w post pre t w₀ d} h => ?_, fun h hother hash => run_findDevice h hother hash,
    upsert_login⟩
  obtain ⟨-, -, w₁, hen⟩ := h.entry
  obtain ⟨q, -, -, hact⟩ := enabled_event hen
  exact ⟨w₁, hen, deviceSeparated_iff hact⟩

/-- An upsert that reports success. -/
def Entry.upserted (x : Entry (proxySystem X srv)) : Bool :=
  match x.item with
  | .act (.upsertDevice _ (.ok _)) => true
  | _ => false

theorem exists_upserted {tr : ProxyTrace X srv} {f : Entry (proxySystem X srv) → Bool}
    (h : tr.any (fun x => Entry.upserted x && f x) = true) :
    ∃ post pre t w₀ d, tr = post ++ ⟨t, w₀, .act (.upsertDevice d (.ok ()))⟩ :: pre ∧
      f ⟨t, w₀, .act (.upsertDevice d (.ok ()))⟩ = true := by
  obtain ⟨⟨t, w₀, item⟩, hmem, hx⟩ := List.any_eq_true.mp h
  obtain ⟨hupserted, hf⟩ := Bool.and_eq_true_iff.mp hx
  obtain ⟨d, rfl⟩ : ∃ d, item = .act (.upsertDevice d (.ok ())) := by
    unfold Entry.upserted at hupserted
    split at hupserted
    · exact ⟨_, ‹_›⟩
    · simp at hupserted
  obtain ⟨post, pre, htr⟩ := List.append_of_mem hmem
  exact ⟨post, pre, t, w₀, d, htr, hf⟩

open Scenario in
/-- One user logs in from a browser of its own. -/
theorem device_trust_per_user_run : ∃ (w : World) (post pre : ProxyTrace external server) (t : ℕ)
    (w₀ w₁ : World) (d : DeviceUpsert),
    Run UpsertsOwn w (post ++ ⟨t, w₀, .act (.upsertDevice d (.ok ()))⟩ :: pre) ∧
      DeviceSeparated w₀ w₁ d ∧ ∀ hash, w.findDevice bob.id hash = w₀.findDevice bob.id hash := by
  have hplay : plays UpsertsOwn [alice, bob] (.start 0 (login aliceLogin) :: steps 0 12)
      (fun p => decide (NoUpsertFor bob.id p.trace) &&
        p.trace.any fun x => Entry.upserted x && true) = true := by decide +kernel
  obtain ⟨p, hrun, hcheck⟩ := run_of_plays (world_initial (by decide) (by decide) (by decide)) hplay
  obtain ⟨hnone, hupserted⟩ := Bool.and_eq_true_iff.mp hcheck
  obtain ⟨post, pre, t, w₀, d, htr, -⟩ := exists_upserted hupserted
  rw [htr] at hrun
  obtain ⟨w₁, -, hiff⟩ := (device_trust_per_user external server).1 hrun.reachable
  obtain ⟨-, hown, -⟩ := hrun.entry
  refine ⟨p.world, post, pre, t, w₀, w₁, d, hrun, hiff.mpr (hown d rfl), fun hash => ?_⟩
  refine (device_trust_per_user external server).2.1 hrun (fun x hx => ?_) hash
  refine of_decide_eq_true hnone x (htr ▸ ?_)
  rcases List.mem_append.mp hx with hx | hx
  · exact List.mem_append_left _ hx
  · exact List.mem_append_right _ (List.mem_singleton.mp hx ▸ List.mem_cons_self)

open Scenario in
/-- Two users log in from one browser at one address: the second upsert leaves
its user without the row it has written. -/
theorem device_trust_shared :
    ¬ ∀ (w : World) (post pre : ProxyTrace external server) (t : ℕ) (w₀ w₁ : World)
      (d : DeviceUpsert), Reachable w (post ++ ⟨t, w₀, .act (.upsertDevice d (.ok ()))⟩ :: pre) →
      w₀.upsertDevice d = some w₁ → DeviceSeparated w₀ w₁ d := by
  intro hclaim
  have hplay : plays (fun _ _ => True) [alice, bob]
      (.start 0 (login aliceLogin) :: steps 0 24 ++ .start 1 (login bobLogin) :: steps 1 10)
      (fun p => p.trace.any fun x => Entry.upserted x &&
        (Entry.upsert x).any fun d => (x.pre.upsertDevice d).any fun w₁ =>
          (w₁.findDevice d.userId d.fingerprintHash).isNone) = true := by decide +kernel
  obtain ⟨p, hrun, hloses⟩ := run_of_plays
    (world_initial (by decide) (by decide) (by decide)) hplay
  obtain ⟨post, pre, t, w₀, d, htr, hlost⟩ := exists_upserted hloses
  rw [htr] at hrun
  have hafter : (w₀.upsertDevice d).any
      (fun w₁ => (w₁.findDevice d.userId d.fingerprintHash).isNone) = true := hlost
  obtain ⟨w₁, hstored, hnone⟩ := (Option.any_eq_true _ _).mp hafter
  have hself := (hclaim p.world post pre t w₀ w₁ d hrun hstored).1
  simp [hself] at hnone

end ZeroTrustProxy
