import ZeroTrustProxy.Runs.Devices

/-!
Device trust stays well formed.

The score and the flag of a device are stored side by side and changed by two
operations that each set the flag in one direction only. They agree in every
row that can be reached, because an upsert starts from a row that was read, and
that row agreed.
-/

namespace ZeroTrustProxy

open Concurrent

variable {X : External} {srv : ProxyServer} {w : World} {tr : ProxyTrace X srv}

/-- A score in the range of the column, with the flag it calls for. -/
structure TrustWellFormed (score : Int) (flag : Bool) : Prop where
  nonneg : 0 ≤ score
  le : score ≤ 100
  flag : flag = true ↔ 70 ≤ score

/-- The same of a device in memory. -/
structure DeviceFingerprint.WellFormed (device : DeviceFingerprint) : Prop where
  le : device.trustScore ≤ 100
  flag : device.isTrusted = true ↔ 70 ≤ device.trustScore

/-! ### The two operations -/

theorem asI32_of_le {n : ℕ} (h : n ≤ 100) : asI32 n = n := by
  unfold asI32
  rw [if_pos (by omega)]

theorem asU32_add_of_le {n : ℕ} (h : n ≤ 100) : asU32 (n + 10) = n + 10 := by
  unfold asU32
  omega

namespace DeviceFingerprint

theorem WellFormed.decreaseTrust {device : DeviceFingerprint} (h : device.WellFormed) :
    (device.decreaseTrust 15).WellFormed := by
  have hle := h.le
  refine ⟨?_, ?_⟩
  · show device.trustScore - 15 ≤ 100
    omega
  · show (if device.trustScore - 15 < 70 then false else device.isTrusted) = true ↔
      70 ≤ device.trustScore - 15
    by_cases hlow : device.trustScore - 15 < 70
    · rw [if_pos hlow]
      simp [hlow]
    · -- the flag is left alone only where it is set already
      have htrusted := h.flag.mpr (by omega)
      rw [if_neg hlow, htrusted]
      simp only [true_iff]
      omega

theorem WellFormed.increaseTrust {device : DeviceFingerprint} (h : device.WellFormed) :
    (device.increaseTrust 10).WellFormed := by
  have hadd := asU32_add_of_le h.le
  refine ⟨?_, ?_⟩
  · show min (asU32 (device.trustScore + 10)) 100 ≤ 100
    exact min_le_right _ _
  · show (if min (asU32 (device.trustScore + 10)) 100 ≥ 70 then true else device.isTrusted) = true ↔
      70 ≤ min (asU32 (device.trustScore + 10)) 100
    rw [hadd]
    by_cases hhigh : min (device.trustScore + 10) 100 ≥ 70
    · rw [if_pos hhigh]
      simp only [true_iff]
      exact hhigh
    · have huntrusted : ¬ 70 ≤ device.trustScore := by omega
      rw [if_neg hhigh, h.flag]
      omega

/-- A row that is well formed is read as it is. -/
theorem restore_exact {row : DeviceRow} (h : TrustWellFormed row.trustScore row.isTrusted)
    (device : DeviceFingerprint) : ((device.restore (some row)).trustScore : Int) = row.trustScore := by
  show ((max row.trustScore 0).toNat : Int) = row.trustScore
  have hnonneg := h.nonneg
  omega

theorem WellFormed.restore {device : DeviceFingerprint} (h : device.WellFormed)
    {existing : Option DeviceRow}
    (hrow : ∀ row, existing = some row → TrustWellFormed row.trustScore row.isTrusted) :
    (device.restore existing).WellFormed := by
  cases existing with
  | none => exact h
  | some row =>
      have hwf := hrow row rfl
      have hread := restore_exact hwf device
      have hle := hwf.le
      refine ⟨by omega, ?_⟩
      show row.isTrusted = true ↔ 70 ≤ (device.restore (some row)).trustScore
      rw [hwf.flag]
      omega

@[simp] theorem restore_fingerprintHash (device : DeviceFingerprint) (existing : Option DeviceRow) :
    (device.restore existing).fingerprintHash = device.fingerprintHash := by
  cases existing <;> rfl

end DeviceFingerprint

theorem loginDevice_wellFormed {req : Request} {id : Uuid} {firstSeen lastSeen : Int}
    {user : UserRow} {existing : Option DeviceRow}
    (hrow : ∀ row, existing = some row → TrustWellFormed row.trustScore row.isTrusted) :
    (loginDevice X req id firstSeen lastSeen user existing).WellFormed := by
  refine DeviceFingerprint.WellFormed.restore ⟨?_, ?_⟩ hrow
  · show 50 ≤ 100
    omega
  · show false = true ↔ 70 ≤ 50
    simp

theorem upsertOf_wellFormed {req : Request} {user : UserRow} {device : DeviceFingerprint}
    (h : device.WellFormed) :
    TrustWellFormed (upsertOf req user device).trustScore (upsertOf req user device).isTrusted := by
  have hscore : (upsertOf req user device).trustScore = device.trustScore := asI32_of_le h.le
  have hle := h.le
  rw [hscore]
  refine ⟨by omega, by omega, ?_⟩
  show device.isTrusted = true ↔ _
  rw [h.flag]
  omega

/-! ### Upserts -/

/-- The upsert `d` of a login, computed without wrapping: the score of the row
it has found is read as it is, the addition stays below `2 ^ 32`, and the score
it binds is the one it has computed. -/
def ExactUpsert (X : External) (req : Request) (h : List Event) (d : DeviceUpsert) : Prop :=
  ∃ user existing device changed,
    .findDeviceByFingerprint user.id device.fingerprintHash (.ok existing) ∈ h ∧
    (∀ row, existing = some row → (device.trustScore : Int) = row.trustScore) ∧
    (existing = none → device.trustScore = 50) ∧
    (changed = device.decreaseTrust 15 ∨ changed = device ∧ existing = none ∨
      changed = device.increaseTrust 10 ∧
        asU32 (device.trustScore + 10) = device.trustScore + 10) ∧
    d = upsertOf req user changed ∧ asI32 changed.trustScore = changed.trustScore ∧
    d.fingerprintHash = DeviceFingerprint.generateHash X
      ((req.header "user-agent").getD "unknown") req.remoteIp.text .empty

/-- Rows that were found well formed make for a well-formed upsert. -/
theorem DeviceWrite.wellFormed {req : Request} {h : List Event} {d : DeviceUpsert}
    (hwrite : DeviceWrite X req h d)
    (hfound : ∀ userId hash row, .findDeviceByFingerprint userId hash (.ok (some row)) ∈ h →
      TrustWellFormed row.trustScore row.isTrusted) :
    TrustWellFormed d.trustScore d.isTrusted ∧ ExactUpsert X req h d := by
  have hwf {id : Uuid} {firstSeen lastSeen : Int} {user : UserRow} {existing : Option DeviceRow}
      (hmem : .findDeviceByFingerprint user.id
        (loginDevice X req id firstSeen lastSeen user none).fingerprintHash (.ok existing) ∈ h) :
      (loginDevice X req id firstSeen lastSeen user existing).WellFormed ∧
        (∀ row, existing = some row → ((loginDevice X req id firstSeen lastSeen user
          existing).trustScore : Int) = row.trustScore) ∧
        .findDeviceByFingerprint user.id
          (loginDevice X req id firstSeen lastSeen user existing).fingerprintHash
          (.ok existing) ∈ h := by
    have hrow : ∀ row, existing = some row → TrustWellFormed row.trustScore row.isTrusted := by
      rintro row rfl
      exact hfound _ _ row hmem
    refine ⟨loginDevice_wellFormed hrow, ?_, ?_⟩
    · rintro row rfl
      exact DeviceFingerprint.restore_exact (hrow row rfl) _
    · simpa [loginDevice] using hmem
  cases hwrite with
  | @refused body user id firstSeen lastSeen existing route found device password =>
      obtain ⟨hdevice, hread, hmem⟩ := hwf device
      have hchanged := hdevice.decreaseTrust
      refine ⟨upsertOf_wellFormed hchanged, user, existing, _, _, hmem, hread, ?_, .inl rfl, rfl,
        asI32_of_le hchanged.le, ?_⟩
      · rintro rfl
        rfl
      · cases existing <;> rfl
  | @passed body user mfa id firstSeen lastSeen existing login device =>
      obtain ⟨hdevice, hread, hmem⟩ := hwf device
      cases existing with
      | none =>
          refine ⟨upsertOf_wellFormed hdevice, user, none, _, _, hmem, hread, fun _ => rfl,
            .inr (.inl ⟨rfl, rfl⟩), rfl, asI32_of_le hdevice.le, rfl⟩
      | some row =>
          have hchanged := hdevice.increaseTrust
          refine ⟨upsertOf_wellFormed hchanged, user, some row, _, _, hmem, hread, by simp,
            .inr (.inr ⟨rfl, asU32_add_of_le hdevice.le⟩), rfl, asI32_of_le hchanged.le, rfl⟩

/-! ### Runs -/

/-- What is stored, and what has been found, is well formed. -/
structure TrustSound (w : World) (tr : ProxyTrace X srv) : Prop where
  stored : ∀ hash row, w.devices.lookup hash = some row →
    TrustWellFormed row.trustScore row.isTrusted
  found : ∀ t userId hash row, .findDeviceByFingerprint userId hash (.ok (some row)) ∈ own t tr →
    TrustWellFormed row.trustScore row.isTrusted

theorem World.device_reply {t : ℕ} {userId : Uuid} {hash : String} {w' : World}
    {found : Option DeviceRow}
    (h : World.act X t (.findDeviceByFingerprint userId hash (.ok found)) w = some w') :
    w' = w ∧ found = w.findDevice userId hash := by
  have hfound : w.answer (w.findDevice userId hash) (.ok found) = some w' := h
  obtain ⟨hw, hv⟩ := answer_eq_some hfound
  exact ⟨hw, hv found rfl⟩

/-- What a lookup finds is stored. -/
theorem World.findDevice_eq_some {userId : Uuid} {hash : String} {row : DeviceRow}
    (h : w.findDevice userId hash = some row) :
    ∃ stored : DeviceRecord, w.devices.lookup hash = some stored ∧ stored.userId = userId ∧
      row = ⟨stored.trustScore, stored.isTrusted⟩ := by
  unfold World.findDevice at h
  split at h
  · rename_i stored hstored
    obtain ⟨huser, hrow⟩ := Option.ite_none_right_eq_some.mp h
    exact ⟨stored, hstored, huser, (Option.some.inj hrow).symm⟩
  · simp at h

theorem TrustSound.act {t : ℕ} {q : Request} {e : Event} {w' : World} (hJ : TrustSound w tr)
    (hL : Licence X srv q (own t tr) e.command) (hact : World.act X t e w = some w') :
    TrustSound w' (⟨t, w, .act e⟩ :: tr) where
  stored hash row hrow := by
    rcases World.act_devices hact with hsame | ⟨d, r, rfl, hstored⟩
    · exact hJ.stored hash row (hsame ▸ hrow)
    · obtain ⟨row', hdev, hscore, htrusted, -⟩ := upsertDevice_row hstored
      rw [hdev] at hrow
      by_cases hkey : hash = d.fingerprintHash
      · subst hkey
        obtain rfl := Option.some.inj ((AList.lookup_insert _).symm.trans hrow)
        rw [hscore, htrusted]
        exact (DeviceWrite.wellFormed hL fun userId hash row => hJ.found t userId hash row).1
      · rw [AList.lookup_insert_ne hkey] at hrow
        exact hJ.stored hash row hrow
  found t' userId hash row hmem := by
    by_cases ht : t = t'
    · subst ht
      rcases List.mem_cons.mp (own_act_self t w e tr ▸ hmem) with rfl | hold
      · obtain ⟨-, hfound⟩ := World.device_reply hact
        obtain ⟨stored, hlookup, -, rfl⟩ := World.findDevice_eq_some hfound.symm
        exact hJ.stored hash stored hlookup
      · exact hJ.found t userId hash row hold
    · rw [own_act_ne ht] at hmem
      exact hJ.found t' userId hash row hmem

theorem trust_sound (h : Reachable w tr) : TrustSound w tr := by
  refine (h.invariant (proxy_contract X srv) TrustSound ?_ ?_ ?_ ?_ ?_).1
  · intro w hinit
    refine ⟨fun hash row hrow => ?_, fun t userId hash row hmem => (List.not_mem_nil hmem).elim⟩
    rw [hinit.devices] at hrow
    simp at hrow
  · intro w w' tr m _ hJ henv
    obtain ⟨-, rfl⟩ : w.clock ≤ m ∧ w.advance m = w' := by simpa using henv
    exact ⟨hJ.stored, hJ.found⟩
  · exact fun _ hJ _ => ⟨hJ.stored, hJ.found⟩
  · exact fun _ hJ _ _ hL hact _ => hJ.act hL hact
  · exact fun _ hJ _ _ _ => ⟨hJ.stored, hJ.found⟩

/-- **Device trust stays well formed.** In every run, whatever the logins and
however they interleave and fail: every stored row and every row that is found
has a score from 0 to 100 and the flag it calls for, every upsert that is sent
has them too, and no arithmetic on the way wraps. -/
theorem device_trust_well_formed (h : Reachable w tr) :
    (∀ hash row, w.devices.lookup hash = some row →
      TrustWellFormed row.trustScore row.isTrusted) ∧
    (∀ t userId hash row, .findDeviceByFingerprint userId hash (.ok (some row)) ∈ own t tr →
      TrustWellFormed row.trustScore row.isTrusted) ∧
    ∀ t d r, .upsertDevice d r ∈ own t tr →
      TrustWellFormed d.trustScore d.isTrusted ∧
        ∃ q, Started t q tr ∧ ExactUpsert X q (own t tr) d := by
  have hsound := trust_sound h
  refine ⟨hsound.stored, hsound.found, fun t d r hmem => ?_⟩
  obtain ⟨l, hl⟩ := suffix_of_mem hmem
  obtain ⟨post, pre, w₀, w₁, q, rfl, rfl, hrun, hq, hL, -⟩ := history_event h hl
  obtain ⟨hwf, user, existing, device, changed, hfound, hrest⟩ :=
    DeviceWrite.wellFormed hL fun userId hash row => (trust_sound hrun).found t userId hash row
  refine ⟨hwf, q, hq.mono ?_, user, existing, device, changed, ?_, hrest⟩
  · exact ((List.suffix_cons _ _).trans (List.suffix_append _ _)).subset
  · exact hl.subset (List.mem_cons_of_mem _ hfound)

open Scenario in
/-- The second login from a browser raises the trust of its row. -/
theorem device_trust_well_formed_run : ∃ (w : World) (tr : ProxyTrace external server)
    (hash : String) (row : DeviceRecord), Reachable w tr ∧ w.devices.lookup hash = some row ∧
      row.trustScore = 60 ∧ TrustWellFormed row.trustScore row.isTrusted := by
  have hplay : plays (fun _ _ => True) [alice] (.start 0 (login aliceLogin) :: steps 0 24 ++
      .start 1 (login aliceLogin) :: steps 1 10) (fun p =>
        (p.world.devices.lookup (external.sha256 "")).any fun row => decide (row.trustScore = 60)) =
        true := by decide +kernel
  obtain ⟨p, hrun, hcheck⟩ := run_of_plays (world_initial (by simp) (by simp) (by simp)) hplay
  obtain ⟨row, hrow, hscore⟩ := (Option.any_eq_true _ _).mp hcheck
  exact ⟨p.world, p.trace, _, row, hrun, hrow, of_decide_eq_true hscore,
    (device_trust_well_formed hrun).1 _ row hrow⟩

end ZeroTrustProxy
