import ZeroTrustProxy.Contract.LoginExits
import ZeroTrustProxy.Runs.Accounts
import ZeroTrustProxy.Runs.Trust

/-!
What wrong passwords cost.

A login with a wrong password looks its device up, subtracts 15 from the score
it has found and upserts the difference. Two logins that look the device up
before either upserts write the same score, and one of the two subtractions is
lost. The score that is stored in the end counts a chain of upserts, each of a
login that looked the device up after the upsert before it.
-/

namespace ZeroTrustProxy

open Concurrent Program

variable {X : External} {srv : ProxyServer}
  {A : ProxyTrace X srv → Entry (proxySystem X srv) → Prop} {w : World} {tr : ProxyTrace X srv}

/-! ### Counting upserts -/

/-- The upserts of one fingerprint so far: how many there are, how many of them
are in the chain behind the last one, and whether one of them came between the
lookup and the upsert of another thread. `seen` keeps the two counts as they
were at the last lookup of each thread. -/
structure Decays where
  upserts : ℕ
  chain : ℕ
  overlap : Bool
  seen : ℕ → ℕ × ℕ

def Decays.start : Decays := ⟨0, 0, false, fun _ => (0, 0)⟩

def Decays.lookup (g : Decays) (t : ℕ) : Decays :=
  { g with seen := Function.update g.seen t (g.upserts, g.chain) }

def Decays.upsert (g : Decays) (t : ℕ) : Decays :=
  { g with
    upserts := g.upserts + 1
    chain := (g.seen t).2 + 1
    overlap := g.overlap || decide ((g.seen t).1 ≠ g.upserts) }

def Decays.step (hash : String) (x : Entry (proxySystem X srv)) (g : Decays) : Decays :=
  match x.item with
  | .act (.findDeviceByFingerprint _ hash' _) => if hash' = hash then g.lookup x.tid else g
  | .act (.upsertDevice d _) => if d.fingerprintHash = hash then g.upsert x.tid else g
  | _ => g

def decays (hash : String) (seg : ProxyTrace X srv) : Decays :=
  seg.foldr (Decays.step hash) .start

/-- The chain has all the upserts exactly when none of them overlap. -/
structure Decays.Ordered (g : Decays) : Prop where
  seen : ∀ t, (g.seen t).2 ≤ (g.seen t).1 ∧ (g.seen t).1 ≤ g.upserts
  serial : g.overlap = false → g.chain = g.upserts ∧ ∀ t, (g.seen t).2 = (g.seen t).1
  overlapped : g.overlap = true → g.chain < g.upserts ∧ ∀ t, (g.seen t).2 < g.upserts

theorem Decays.Ordered.lookup {g : Decays} (h : g.Ordered) (t : ℕ) : (g.lookup t).Ordered where
  seen t' := by
    by_cases ht : t' = t
    · subst ht
      simp only [Decays.lookup, Function.update_self]
      cases hover : g.overlap with
      | false => exact ⟨(h.serial hover).1.le, le_rfl⟩
      | true => exact ⟨(h.overlapped hover).1.le, le_rfl⟩
    · simpa [Decays.lookup, Function.update_of_ne ht] using h.seen t'
  serial hover := by
    obtain ⟨hchain, hseen⟩ := h.serial hover
    refine ⟨hchain, fun t' => ?_⟩
    by_cases ht : t' = t
    · subst ht
      simpa [Decays.lookup] using hchain
    · simpa [Decays.lookup, Function.update_of_ne ht] using hseen t'
  overlapped hover := by
    obtain ⟨hchain, hseen⟩ := h.overlapped hover
    refine ⟨hchain, fun t' => ?_⟩
    by_cases ht : t' = t
    · subst ht
      simpa [Decays.lookup] using hchain
    · simpa [Decays.lookup, Function.update_of_ne ht] using hseen t'

theorem Decays.Ordered.upsert {g : Decays} (h : g.Ordered) (t : ℕ) : (g.upsert t).Ordered where
  seen t' := by
    have hle := h.seen t'
    exact ⟨hle.1, hle.2.trans (Nat.le_succ _)⟩
  serial hover := by
    simp only [Decays.upsert, Bool.or_eq_false_iff, decide_eq_false_iff_not, not_not] at hover ⊢
    obtain ⟨-, hseen⟩ := h.serial hover.1
    refine ⟨?_, hseen⟩
    rw [hseen t, hover.2]
  overlapped hover := by
    simp only [Decays.upsert, Bool.or_eq_true, decide_eq_true_eq] at hover ⊢
    rcases hover with hover | hne
    · obtain ⟨-, hseen⟩ := h.overlapped hover
      refine ⟨?_, fun t' => ?_⟩
      · have hlt := hseen t
        omega
      · have hlt := hseen t'
        omega
    · refine ⟨?_, fun t' => ?_⟩
      · have hle := h.seen t
        omega
      · have hle := h.seen t'
        omega

theorem decays_ordered (hash : String) (seg : ProxyTrace X srv) : (decays hash seg).Ordered := by
  induction seg with
  | nil => exact ⟨fun _ => ⟨le_rfl, le_rfl⟩, fun _ => ⟨rfl, fun _ => rfl⟩, by simp [decays, Decays.start]⟩
  | cons x seg ih =>
      show (Decays.step hash x (decays hash seg)).Ordered
      unfold Decays.step
      split
      · split
        · exact ih.lookup _
        · exact ih
      · split
        · exact ih.upsert _
        · exact ih
      · exact ih

/-! ### What a guess does -/

/-- The fingerprint a login computes for its device. -/
def Request.fingerprint (X : External) (q : Request) : String :=
  DeviceFingerprint.generateHash X ((q.header "user-agent").getD "unknown") q.remoteIp.text .empty

/-- A login for `user` from the device `hash` with a wrong password. -/
structure Guess (X : External) (user : UserRow) (hash : String) (q : Request) : Prop where
  route : q.route = .login
  password : ∃ body, ParsesLogin X q body ∧ body.username = user.username ∧
    X.verifyPassword body.password user.passwordHash = .ok false
  fingerprint : q.fingerprint X = hash

def Event.isLookup : Event → Bool
  | .findDeviceByFingerprint _ _ _ => true
  | _ => false

def Event.isUpsert : Event → Bool
  | .upsertDevice _ _ => true
  | _ => false

/-- A history with at most one device lookup, that of `user` and `hash`, and
with upserts only of what a wrong password makes of the row it has found. -/
structure Guessed (X : External) (user : UserRow) (hash : String) (h : List Event) : Prop where
  lookup : ∀ userId hash' r l, .findDeviceByFingerprint userId hash' r :: l <:+ h →
    (∃ existing, userId = user.id ∧ hash' = hash ∧ r = .ok existing) ∧
      ∀ e ∈ l, e.isLookup = false
  upsert : ∀ d r l, .upsertDevice d r :: l <:+ h → r = .ok () ∧ d.fingerprintHash = hash ∧
    ∃ q u existing id firstSeen lastSeen, u.id = user.id ∧
      .findDeviceByFingerprint user.id hash (.ok existing) ∈ l ∧
      d = upsertOf q u ((loginDevice X q id firstSeen lastSeen u existing).decreaseTrust 15)

theorem Guessed.of_suffix {user : UserRow} {hash : String} {h h' : List Event}
    (hg : Guessed X user hash h') (hsub : h <:+ h') : Guessed X user hash h where
  lookup userId hash' r l hl := hg.lookup userId hash' r l (hl.trans hsub)
  upsert d r l hl := hg.upsert d r l (hl.trans hsub)

/-- A history that leaves the devices alone. -/
theorem Guessed.of_quiet {user : UserRow} {hash : String} {h : List Event}
    (hquiet : ∀ e ∈ h, e.isLookup = false ∧ e.isUpsert = false) : Guessed X user hash h where
  lookup userId hash' r l hl := by
    have hnone := (hquiet _ (hl.subset List.mem_cons_self)).1
    simp [Event.isLookup] at hnone
  upsert d r l hl := by
    have hnone := (hquiet _ (hl.subset List.mem_cons_self)).2
    simp [Event.isUpsert] at hnone

/-- A history of one lookup and one upsert after it. -/
theorem Guessed.of_pair {user u : UserRow} {hash : String} {q : Request} {id : Uuid}
    {firstSeen lastSeen : Int} {existing : Option DeviceRow} {d : DeviceUpsert}
    {later earlier : List Event}
    (hlater : ∀ e ∈ later, e.isLookup = false ∧ e.isUpsert = false)
    (hearlier : ∀ e ∈ earlier, e.isLookup = false ∧ e.isUpsert = false) (hid : u.id = user.id)
    (hd : d = upsertOf q u ((loginDevice X q id firstSeen lastSeen u existing).decreaseTrust 15))
    (hhash : d.fingerprintHash = hash) :
    Guessed X user hash (later ++ Event.upsertDevice d (.ok ()) ::
      .findDeviceByFingerprint user.id hash (.ok existing) :: earlier) where
  lookup userId hash' r l hl := by
    obtain ⟨post, hpost⟩ := hl
    have hsplit : post ++ Event.findDeviceByFingerprint userId hash' r :: l =
        (later ++ [Event.upsertDevice d (.ok ())]) ++
          Event.findDeviceByFingerprint user.id hash (.ok existing) :: earlier := by
      rw [hpost]
      simp
    obtain ⟨heq, rfl⟩ := split_unique (p := fun e : Event => e.isLookup = true) hsplit rfl
      (fun e he => by
        obtain he | he := List.mem_append.mp he
        · simp [(hlater e he).1]
        · rw [List.mem_singleton.mp he]
          simp [Event.isLookup])
      (fun e he => by simp [(hearlier e he).1])
    simp only [Event.findDeviceByFingerprint.injEq] at heq
    exact ⟨⟨existing, heq.1, heq.2.1, heq.2.2⟩, fun e he => (hearlier e he).1⟩
  upsert d' r l hl := by
    obtain ⟨post, hpost⟩ := hl
    obtain ⟨heq, rfl⟩ := split_unique (p := fun e : Event => e.isUpsert = true) hpost rfl
      (fun e he => by simp [(hlater e he).2])
      (fun e he => by
        obtain rfl | he := List.mem_cons.mp he
        · simp [Event.isUpsert]
        · simp [(hearlier e he).2])
    simp only [Event.upsertDevice.injEq] at heq
    obtain ⟨rfl, rfl⟩ := heq
    exact ⟨rfl, hhash, q, u, existing, id, firstSeen, lastSeen, hid, List.mem_cons_self, hd⟩

theorem countP_quiet {h : List Event}
    (hquiet : ∀ e ∈ h, e.isLookup = false ∧ e.isUpsert = false) : h.countP Event.isUpsert = 0 := by
  rw [List.countP_eq_zero]
  intro e he
  simp [(hquiet e he).2]

theorem countP_pair {userId : Uuid} {hash : String} {found : Except Fault (Option DeviceRow)}
    {d : DeviceUpsert} {r : Except Fault Unit} {later earlier : List Event}
    (hlater : ∀ e ∈ later, e.isLookup = false ∧ e.isUpsert = false)
    (hearlier : ∀ e ∈ earlier, e.isLookup = false ∧ e.isUpsert = false) :
    (later ++ Event.upsertDevice d r :: .findDeviceByFingerprint userId hash found ::
      earlier).countP Event.isUpsert = 1 := by
  rw [List.countP_append, countP_quiet hlater]
  simp [List.countP_cons, countP_quiet hearlier, Event.isUpsert]

theorem RateRun.quiet {key : String} {limit windowSecs : Int} {h : List Event}
    {r : Except ProxyError Unit} (hr : RateRun key limit windowSecs h r) :
    ∀ e ∈ h, e.isLookup = false ∧ e.isUpsert = false := by
  cases hr with
  | failed => simp [Event.isLookup, Event.isUpsert]
  | unset => simp [Event.isLookup, Event.isUpsert]
  | counted opened =>
      obtain ⟨-, rfl⟩ | ⟨-, rfl⟩ := opened
      · simp [Event.isLookup, Event.isUpsert]
      · simp [Event.isLookup, Event.isUpsert]

theorem AuditRun.quiet {eventType : EventType} {userId : String} {outcome : Outcome}
    {h : List Event} (ha : AuditRun X eventType userId outcome h) :
    ∀ e ∈ h, e.isLookup = false ∧ e.isUpsert = false := by
  cases ha with
  | intro r n id type user result => simp [Event.isLookup, Event.isUpsert]

/-- What a refused guess has done: nothing to the devices where the account is
not active, and one lookup and one upsert where it is. -/
theorem Guess.refused {user : UserRow} {hash : String} {q : Request} {h : List Event}
    {r : Except ProxyError Response} (hg : Guess X user hash q) (hl : LoginRun X srv q h r)
    (hstatus : (respond r).status = 401)
    (hfound : ∀ found, .findUserByUsername user.username (.ok found) ∈ h →
      ∃ u, found = some u ∧ u.account = user.account) :
    Guessed X user hash h ∧ h.countP Event.isUpsert = if user.isActive then 1 else 0 := by
  obtain ⟨body, hparsed, hname, hwrong⟩ := hg.password
  cases hl with
  | limited rated =>
      obtain ⟨s, rfl⟩ | rfl := rated.error_cases
      · exact absurd hstatus (by simp [respond, errorResponse, ProxyError.statusCode])
      · exact absurd hstatus (by simp [respond, errorResponse, ProxyError.statusCode])
  | unread rated none =>
      exact absurd hstatus (by simp [respond, errorResponse, ProxyError.statusCode])
  | malformed rated some parse =>
      obtain ⟨bytes, hbytes, hbody⟩ := hparsed
      obtain rfl := Option.some.inj (some.symm.trans hbytes)
      simp [parse] at hbody
  | lookupFailed rated parsed =>
      exact absurd hstatus (by simp [respond, errorResponse, ProxyError.statusCode])
  | deviceFailed id firstSeen lastSeen rated parsed active =>
      exact absurd hstatus (by simp [respond, errorResponse, ProxyError.statusCode])
  | @unknown rate body' found rated parsed inactive =>
      obtain rfl := parsed.unique hparsed
      obtain ⟨u, rfl, haccount⟩ := hfound found (by rw [hname]; exact List.mem_cons_self)
      have hinactive : user.isActive = false := by
        rw [← (UserRow.account_eq haccount).2.2.2]
        simpa [Option.filter] using inactive
      have hquiet : ∀ e ∈ .findUserByUsername body'.username (.ok (some u)) :: rate,
          e.isLookup = false ∧ e.isUpsert = false := by
        intro e he
        obtain rfl | he := List.mem_cons.mp he
        · exact ⟨rfl, rfl⟩
        · exact rated.quiet e he
      exact ⟨.of_quiet hquiet, by rw [hinactive, countP_quiet hquiet]; rfl⟩
  | @decided rate verdict body' u existing r id firstSeen lastSeen rated parsed active decision =>
      obtain rfl := parsed.unique hparsed
      obtain ⟨u', heq, haccount⟩ := hfound (some u) (by rw [← hname]; simp [loginLookups])
      obtain rfl := Option.some.inj heq
      obtain ⟨hid, -, hhash, hactive⟩ := UserRow.account_eq haccount
      rw [← hhash] at hwrong
      have hprint : (loginDevice X q id firstSeen lastSeen u none).fingerprintHash = hash :=
        hg.fingerprint
      cases decision with
      | unverifiable password => simp [hwrong] at password
      | refusalFailed password =>
          exact absurd hstatus (by simp [respond, errorResponse, ProxyError.statusCode])
      | mfaRefused password gate => simp [hwrong] at password
      | riskFailed password gate scored => simp [hwrong] at password
      | blocked password gate scored block audited => simp [hwrong] at password
      | opened password gate scored block opened => simp [hwrong] at password
      | @refused audit password audited =>
          have hlookups : ∀ e ∈ [.utcNow .lastSeen lastSeen, .utcNow .firstSeen firstSeen,
              .newUuid id, .findUserByUsername body'.username (.ok (some u))] ++ rate,
              e.isLookup = false ∧ e.isUpsert = false := by
            intro e he
            obtain he | he := List.mem_append.mp he
            · simp only [List.mem_cons, List.not_mem_nil, or_false] at he
              obtain rfl | rfl | rfl | rfl := he
              all_goals exact ⟨rfl, rfl⟩
            · exact rated.quiet e he
          have hupsert : (upsertOf q u ((loginDevice X q id firstSeen lastSeen u
              existing).decreaseTrust 15)).fingerprintHash = hash := by
            rw [← hprint]
            cases existing <;> rfl
          have hhistory := Guessed.of_pair audited.quiet hlookups hid rfl hupsert
          rw [← hactive, active, List.append_assoc]
          unfold loginLookups
          rw [hprint, hid]
          exact ⟨hhistory, countP_pair audited.quiet hlookups⟩

/-! ### The trust that is left -/

/-- The trust of a device, as it was found. A new device starts at 50. -/
def trustOf (existing : Option DeviceRow) : Int := (existing.map DeviceRow.trustScore).getD 50

/-- What a wrong password leaves of the trust it has found. -/
theorem decreased_trust {q : Request} {u : UserRow} {id : Uuid} {firstSeen lastSeen : Int}
    {existing : Option DeviceRow}
    (hrow : ∀ row, existing = some row → TrustWellFormed row.trustScore row.isTrusted) :
    (upsertOf q u ((loginDevice X q id firstSeen lastSeen u existing).decreaseTrust 15)).trustScore =
      max 0 (trustOf existing - 15) := by
  have hwf : (loginDevice X q id firstSeen lastSeen u existing).WellFormed :=
    loginDevice_wellFormed hrow
  have hread : ((loginDevice X q id firstSeen lastSeen u existing).trustScore : Int) =
      trustOf existing := by
    cases existing with
    | none => rfl
    | some row => exact DeviceFingerprint.restore_exact (hrow row rfl) _
  show asI32 ((loginDevice X q id firstSeen lastSeen u existing).trustScore - 15) = _
  have hle := hwf.le
  rw [asI32_of_le (by omega)]
  omega

/-- Of the threads in `K` nothing is seen but guesses, and nobody else upserts
the fingerprint. -/
structure GuessesOnly (X : External) {srv : ProxyServer} (user : UserRow) (hash : String)
    (K : Finset ℕ) (seg : ProxyTrace X srv) : Prop where
  guessed : ∀ t ∈ K, Guessed X user hash (own t seg)
  others : ∀ x ∈ seg, ∀ d ∈ Entry.upsert x, d.fingerprintHash = hash → x.tid ∈ K

theorem GuessesOnly.of_suffix {user : UserRow} {hash : String} {K : Finset ℕ}
    {seg seg' : ProxyTrace X srv} (h : GuessesOnly X user hash K seg') (hsub : seg <:+ seg') :
    GuessesOnly X user hash K seg where
  guessed t ht := (h.guessed t ht).of_suffix (own_suffix hsub t)
  others x hx := h.others x (hsub.subset hx)

/-- The stored trust has been lowered once for every upsert of the chain. -/
structure Decayed (user : UserRow) (hash : String) (K : Finset ℕ) (t₀ : Int) (w : World)
    (seg : ProxyTrace X srv) : Prop where
  owner : ∀ row, w.devices.lookup hash = some row → row.userId = user.id
  stored : trustOf (w.findDevice user.id hash) = max 0 (t₀ - 15 * (decays hash seg).chain)
  found : ∀ t ∈ K, ∀ existing, .findDeviceByFingerprint user.id hash (.ok existing) ∈ own t seg →
    trustOf existing = max 0 (t₀ - 15 * ((decays hash seg).seen t).2)
  row : 0 < (decays hash seg).upserts → (w.findDevice user.id hash).isSome = true

section Decay

variable {user : UserRow} {hash : String} {K : Finset ℕ} {t₀ : Int} {w' : World}
  {seg seg' : ProxyTrace X srv}

theorem findDevice_of_lookup {userId : Uuid}
    (hdev : w'.devices.lookup hash = w.devices.lookup hash) :
    w'.findDevice userId hash = w.findDevice userId hash := by
  unfold World.findDevice
  rw [hdev]

/-- A step that neither looks the device up nor writes it. -/
theorem Decayed.frame (hJ : Decayed user hash K t₀ w seg)
    (hdev : w'.devices.lookup hash = w.devices.lookup hash)
    (hsame : decays hash seg' = decays hash seg)
    (hfound : ∀ t ∈ K, ∀ existing,
      .findDeviceByFingerprint user.id hash (.ok existing) ∈ own t seg' →
        .findDeviceByFingerprint user.id hash (.ok existing) ∈ own t seg) :
    Decayed user hash K t₀ w' seg' where
  owner row hrow := hJ.owner row (hdev ▸ hrow)
  stored := by rw [findDevice_of_lookup hdev, hsame, hJ.stored]
  found t ht existing hmem := by rw [hsame, hJ.found t ht existing (hfound t ht existing hmem)]
  row hpos := by
    rw [findDevice_of_lookup hdev]
    exact hJ.row (hsame ▸ hpos)

theorem mem_own_cons {t t' : ℕ} {e e' : Event} (hne : e' ≠ e)
    (hmem : e' ∈ own t (⟨t', w, .act e⟩ :: seg)) : e' ∈ own t seg := by
  by_cases ht : t' = t
  · subst ht
    rw [own_act_self] at hmem
    exact (List.mem_cons.mp hmem).resolve_left hne
  · rwa [own_act_ne ht] at hmem

/-- A guess finds the trust that is stored, and sees the chain behind it. -/
theorem Decayed.lookup {t : ℕ} {userId : Uuid} {hash' : String}
    {r : Except Fault (Option DeviceRow)} (hJ : Decayed user hash K t₀ w seg)
    (hguess : GuessesOnly X user hash K
      (⟨t, w, .act (.findDeviceByFingerprint userId hash' r)⟩ :: seg))
    (hact : World.act X t (.findDeviceByFingerprint userId hash' r) w = some w') :
    Decayed user hash K t₀ w' (⟨t, w, .act (.findDeviceByFingerprint userId hash' r)⟩ :: seg) := by
  have hdecays : decays hash (⟨t, w, .act (.findDeviceByFingerprint userId hash' r)⟩ :: seg) =
      if hash' = hash then (decays hash seg).lookup t else decays hash seg := rfl
  have hchain : (decays hash (⟨t, w, .act (.findDeviceByFingerprint userId hash' r)⟩ ::
      seg)).chain = (decays hash seg).chain ∧
      (decays hash (⟨t, w, .act (.findDeviceByFingerprint userId hash' r)⟩ :: seg)).upserts =
        (decays hash seg).upserts := by
    rw [hdecays]
    split
    · exact ⟨rfl, rfl⟩
    · exact ⟨rfl, rfl⟩
  obtain rfl : w' = w := by
    have hread : w.answer (w.findDevice userId hash') r = some w' := hact
    exact (World.answer_eq_some hread).1
  refine ⟨hJ.owner, ?_, ?_, ?_⟩
  · rw [hchain.1]
    exact hJ.stored
  · intro t' ht' existing hmem
    by_cases ht : t = t'
    · subst ht
      have hguessed := hguess.guessed t ht'
      rw [own_act_self] at hguessed hmem
      obtain ⟨⟨existing', rfl, rfl, rfl⟩, hnone⟩ :=
        hguessed.lookup userId hash' r _ (List.suffix_refl _)
      obtain heq | hold := List.mem_cons.mp hmem
      · obtain rfl : existing = existing' := by simpa using heq
        obtain ⟨-, rfl⟩ := World.device_reply hact
        rw [hdecays, if_pos rfl]
        simpa [Decays.lookup] using hJ.stored
      · have hlookup := hnone _ hold
        simp [Event.isLookup] at hlookup
    · have hseen : (decays hash (⟨t, w', .act (.findDeviceByFingerprint userId hash' r)⟩ ::
          seg)).seen t' = (decays hash seg).seen t' := by
        rw [hdecays]
        split
        · exact Function.update_of_ne (Ne.symm ht) _ _
        · rfl
      rw [own_act_ne ht] at hmem
      rw [hseen]
      exact hJ.found t' ht' existing hmem
  · rw [hchain.2]
    exact hJ.row

/-- The upsert of a guess puts it at the end of the chain it has seen. -/
theorem Decayed.upsert {t : ℕ} {d : DeviceUpsert} {r : Except Fault Unit}
    (hJ : Decayed user hash K t₀ w seg)
    (hguess : GuessesOnly X user hash K (⟨t, w, .act (.upsertDevice d r)⟩ :: seg))
    (hwf : ∀ row, .findDeviceByFingerprint user.id hash (.ok (some row)) ∈ own t seg →
      TrustWellFormed row.trustScore row.isTrusted) (hhash : d.fingerprintHash = hash)
    (hact : World.act X t (.upsertDevice d r) w = some w') :
    Decayed user hash K t₀ w' (⟨t, w, .act (.upsertDevice d r)⟩ :: seg) := by
  have ht : t ∈ K := hguess.others _ List.mem_cons_self d rfl hhash
  have hguessed := hguess.guessed t ht
  rw [own_act_self] at hguessed
  obtain ⟨rfl, -, q, u, existing, id, first, last, hid, hmem, hd⟩ :=
    hguessed.upsert d r _ (List.suffix_refl _)
  have hstored : w.upsertDevice d = some w' := hact
  obtain ⟨row, hdev, hscore, -, howner⟩ := upsertDevice_row hstored
  have hdecays : decays hash (⟨t, w, .act (.upsertDevice d (.ok ()))⟩ :: seg) =
      (decays hash seg).upsert t := if_pos hhash
  have huser : row.userId = user.id := by
    rw [howner, hhash]
    cases hold : w.devices.lookup hash with
    | none =>
        show d.userId = user.id
        rw [hd]
        exact hid
    | some old => exact hJ.owner old hold
  have hfind : w'.findDevice user.id hash = some ⟨row.trustScore, row.isTrusted⟩ := by
    rw [findDevice_insert hdev, if_pos hhash.symm, if_pos huser]
  refine ⟨?_, ?_, ?_, ?_⟩
  · intro row' hrow'
    rw [hdev, hhash, AList.lookup_insert] at hrow'
    rw [← Option.some.inj hrow', huser]
  · have hseen := hJ.found t ht existing hmem
    have hdecreased : d.trustScore = max 0 (trustOf existing - 15) := by
      rw [hd]
      refine decreased_trust ?_
      rintro row' rfl
      exact hwf row' hmem
    rw [hfind, hdecays]
    show row.trustScore = max 0 (t₀ - 15 * (((decays hash seg).seen t).2 + 1 : ℕ))
    rw [hscore, hdecreased, hseen]
    push_cast
    omega
  · intro t' ht' existing' hmem'
    rw [hdecays]
    exact hJ.found t' ht' existing' (mem_own_cons (by simp) hmem')
  · intro _
    rw [hfind]
    rfl

theorem Decayed.act {t : ℕ} {e : Event} (hJ : Decayed user hash K t₀ w seg)
    (hguess : GuessesOnly X user hash K (⟨t, w, .act e⟩ :: seg))
    (hwf : ∀ row, .findDeviceByFingerprint user.id hash (.ok (some row)) ∈ own t seg →
      TrustWellFormed row.trustScore row.isTrusted)
    (hact : World.act X t e w = some w') : Decayed user hash K t₀ w' (⟨t, w, .act e⟩ :: seg) := by
  have hother (hsame : decays hash (⟨t, w, .act e⟩ :: seg) = decays hash seg)
      (hdev : w'.devices.lookup hash = w.devices.lookup hash)
      (hlookup : ∀ existing, .findDeviceByFingerprint user.id hash (.ok existing) ≠ e) :
      Decayed user hash K t₀ w' (⟨t, w, .act e⟩ :: seg) :=
    hJ.frame hdev hsame fun _ _ existing hmem => mem_own_cons (hlookup existing) hmem
  cases e with
  | findDeviceByFingerprint userId hash' r => exact hJ.lookup hguess hact
  | upsertDevice d r =>
      by_cases hhash : d.fingerprintHash = hash
      · exact hJ.upsert hguess hwf hhash hact
      · refine hother (if_neg hhash) ?_ (by simp)
        obtain hsame | ⟨d', r', heq, hstored⟩ := World.act_devices hact
        · rw [hsame]
        · obtain ⟨rfl, -⟩ : d = d' ∧ r = r' := by simpa using heq
          obtain ⟨row, hdev, -⟩ := upsertDevice_row hstored
          rw [hdev, AList.lookup_insert_ne (Ne.symm hhash)]
  | _ =>
      refine hother rfl ?_ (by simp)
      obtain hsame | ⟨d, r, heq, -⟩ := World.act_devices hact
      · rw [hsame]
      · simp at heq

end Decay

/-! ### Guesses at once -/

section Guesses

variable {user : UserRow} {hash : String} {K : Finset ℕ} {τ : ℕ} {w₀ : World} {q₀ : Request}
  {seg tr₀ : ProxyTrace X srv} {x₀ : Entry (proxySystem X srv)}

/-- The row of a fingerprint keeps its owner. -/
theorem owner_kept (h : Run A w (seg ++ x₀ :: tr₀)) (hstart : ∃ q, x₀.item = .start q)
    {row : DeviceRecord} (hrow : x₀.pre.devices.lookup hash = some row) :
    ∃ row', w.devices.lookup hash = some row' ∧ row'.userId = row.userId := by
  refine (h.since (proxy_contract X srv) (fun w _ => ∃ row', w.devices.lookup hash = some row' ∧
    row'.userId = row.userId) ?_ ?_ ?_ ?_ ?_).1
  · intro w _ _ hen
    obtain ⟨t, w₁, item⟩ := x₀
    obtain ⟨q, rfl⟩ : ∃ q, item = .start q := hstart
    cases hen
    exact ⟨row, hrow, rfl⟩
  · intro w w' seg m _ hJ henv
    obtain ⟨-, rfl⟩ : w.clock ≤ m ∧ w.advance m = w' := by simpa using henv
    exact hJ
  · exact fun _ hJ _ => hJ
  · rintro w w' seg t q e - ⟨old, hold, howner⟩ - - - hact -
    obtain hsame | ⟨d, r, -, hstored⟩ := World.act_devices hact
    · exact ⟨old, hsame ▸ hold, howner⟩
    · obtain ⟨new, hdev, -, -, hnew⟩ := upsertDevice_row hstored
      rw [hdev]
      by_cases hkey : hash = d.fingerprintHash
      · subst hkey
        rw [hold] at hnew
        exact ⟨new, AList.lookup_insert _, hnew.trans howner⟩
      · rw [AList.lookup_insert_ne hkey]
        exact ⟨old, hold, howner⟩
  · exact fun _ hJ _ _ _ => hJ

/-- The invariant of a stretch of guesses. -/
theorem decayed_run (h : Run A w (seg ++ ⟨τ, w₀, .start q₀⟩ :: tr₀))
    (hown : ∀ row, w₀.devices.lookup hash = some row → row.userId = user.id)
    (hguess : GuessesOnly X user hash K seg) :
    Decayed user hash K (trustOf (w₀.findDevice user.id hash)) w seg := by
  refine (h.since (proxy_contract X srv) (fun w seg => GuessesOnly X user hash K seg →
    Decayed user hash K (trustOf (w₀.findDevice user.id hash)) w seg) ?_ ?_ ?_ ?_ ?_).1 hguess
  · intro w hrun _ hen _
    cases hen
    refine ⟨hown, ?_, fun t _ existing hmem => (List.not_mem_nil hmem).elim, fun hpos => ?_⟩
    · have hnonneg : 0 ≤ trustOf (w₀.findDevice user.id hash) := by
        unfold trustOf
        cases hfind : w₀.findDevice user.id hash with
        | none => decide
        | some row =>
            obtain ⟨stored, hstored, -, rfl⟩ := World.findDevice_eq_some hfind
            exact ((trust_sound hrun.reachable).stored hash stored hstored).nonneg
      show _ = max 0 (_ - 15 * ((0 : ℕ) : Int))
      omega
    · exact absurd hpos (Nat.lt_irrefl 0)
  · intro w w' seg m _ hJ henv hguess
    obtain ⟨-, rfl⟩ : w.clock ≤ m ∧ w.advance m = w' := by simpa using henv
    exact (hJ hguess).frame rfl rfl fun _ _ _ hmem => hmem
  · intro w seg t q hJ _ hguess
    exact (hJ (hguess.of_suffix (List.suffix_cons _ _))).frame rfl rfl fun _ _ _ hmem => hmem
  · intro w w' seg t q e hrun hJ _ _ _ hact _ hguess
    have hbefore := hguess.of_suffix (List.suffix_cons _ _)
    refine (hJ hbefore).act hguess (fun row hmem => ?_) hact
    have hsub : own t seg ⊆ own t (seg ++ ⟨τ, w₀, .start q₀⟩ :: tr₀) := by
      rw [own_append]
      exact List.subset_append_left _ _
    exact (trust_sound hrun.reachable).found t _ _ row (hsub hmem)
  · intro w seg t q o _ hJ _ _ _ hguess
    exact (hJ (hguess.of_suffix (List.suffix_cons _ _))).frame rfl rfl fun _ _ _ hmem => hmem

def Event.upserts (hash : String) : Event → Bool
  | .upsertDevice d _ => decide (d.fingerprintHash = hash)
  | _ => false

theorem decays_upserts (hash : String) (seg : ProxyTrace X srv) :
    (decays hash seg).upserts = seg.countP fun x => x.item.isEvent (Event.upserts hash) := by
  induction seg with
  | nil => rfl
  | cons x seg ih =>
      rw [List.countP_cons, ← ih]
      show (Decays.step hash x (decays hash seg)).upserts = _
      unfold Decays.step
      obtain ⟨t, w, item⟩ := x
      cases item with
      | start q => rfl
      | done o => rfl
      | act e =>
          cases e with
          | findDeviceByFingerprint userId hash' r =>
              by_cases hkey : hash' = hash
              · simp [hkey, Decays.lookup, Item.isEvent, Event.upserts]
              · simp [hkey, Item.isEvent, Event.upserts]
          | upsertDevice d r =>
              by_cases hkey : d.fingerprintHash = hash
              · simp [hkey, Decays.upsert, Item.isEvent, Event.upserts]
              · simp [hkey, Item.isEvent, Event.upserts]
          | _ => rfl

/-- The requests in `K` are guesses, each has been refused, and nobody else
writes the fingerprint. -/
structure Guesses (X : External) {srv : ProxyServer} (user : UserRow) (hash : String)
    (K : Finset ℕ) (x₀ : Entry (proxySystem X srv)) (seg : ProxyTrace X srv) : Prop where
  first : x₀.tid ∈ K
  account : x₀.pre.userByUsername user.username = some user
  guess : ∀ t ∈ K, ∃ q, Started t q (seg ++ [x₀]) ∧ Guess X user hash q
  refused : ∀ t ∈ K, Returned t (errorResponse (.authenticationFailed "invalid credentials")) seg
  others : ∀ x ∈ seg, ∀ d ∈ Entry.upsert x, d.fingerprintHash = hash → x.tid ∈ K

theorem Guesses.guessed (h : Run A w (seg ++ ⟨τ, w₀, .start q₀⟩ :: tr₀))
    (hguesses : Guesses X user hash K ⟨τ, w₀, .start q₀⟩ seg) {t : ℕ} (ht : t ∈ K) :
    Guessed X user hash (own t seg) ∧
      (own t seg).countP Event.isUpsert = if user.isActive then 1 else 0 := by
  obtain ⟨q, hq, hguess⟩ := hguesses.guess t ht
  obtain ⟨w₁, hdone⟩ := hguesses.refused t ht
  have htrace : seg ++ ⟨τ, w₀, .start q₀⟩ :: tr₀ = (seg ++ [⟨τ, w₀, .start q₀⟩]) ++ tr₀ := by simp
  have hown : own t (seg ++ ⟨τ, w₀, .start q₀⟩ :: tr₀) = own t seg := by
    have hwhole := h
    rw [htrace] at hwhole
    rw [htrace, hwhole.own_of_started hq, own_append, own_start, own_nil, List.append_nil]
  obtain ⟨r, hend, hr⟩ := answered_own h (hq.mono (htrace ▸ List.subset_append_left _ _))
    (List.mem_append_left _ hdone)
  rw [hown, hguess.route] at hend
  have hstatus : (respond r).status = 401 := by
    rw [← hr]
    rfl
  refine hguess.refused (handleLogin_ends hend) hstatus fun found hmem => ?_
  -- the account that is found is the one there was when the guesses began
  obtain ⟨w₂, hentry⟩ := mem_own.mp hmem
  obtain ⟨post, mid, rfl⟩ := List.append_of_mem hentry
  rw [List.append_assoc, List.cons_append] at h
  obtain ⟨hrun, -, w₃, hen⟩ := h.entry
  obtain ⟨-, -, -, hact⟩ := enabled_event hen
  obtain ⟨-, rfl⟩ := World.userByUsername_reply hact
  exact (accounts_kept hrun).userByUsername hguesses.account

theorem Guesses.only (h : Run A w (seg ++ ⟨τ, w₀, .start q₀⟩ :: tr₀))
    (hguesses : Guesses X user hash K ⟨τ, w₀, .start q₀⟩ seg) : GuessesOnly X user hash K seg where
  guessed _ ht := (hguesses.guessed h ht).1
  others := hguesses.others

/-- Every guess has made its upsert, if the account is active. -/
theorem Guesses.upserts (h : Run A w (seg ++ ⟨τ, w₀, .start q₀⟩ :: tr₀))
    (hguesses : Guesses X user hash K ⟨τ, w₀, .start q₀⟩ seg) :
    (decays hash seg).upserts = if user.isActive then K.card else 0 := by
  have heach (t : ℕ) (ht : t ∈ K) :
      (own t seg).countP (Event.upserts hash) = if user.isActive then 1 else 0 := by
    obtain ⟨hguessed, hcount⟩ := hguesses.guessed h ht
    rw [← hcount]
    refine List.countP_congr fun e he => ?_
    cases e with
    | upsertDevice d r =>
        obtain ⟨l, hl⟩ := suffix_of_mem he
        have hhash := (hguessed.upsert d r l hl).2.1
        simp [Event.upserts, Event.isUpsert, hhash]
    | _ => simp [Event.upserts, Event.isUpsert]
  rw [decays_upserts, countP_own fun x hx hupsert => ?_, Finset.sum_congr rfl heach]
  · cases user.isActive with
    | true => simp
    | false => simp
  · obtain ⟨t, w₁, item⟩ := x
    cases item with
    | act e =>
        cases e with
        | upsertDevice d r =>
            exact hguesses.others _ hx d rfl (of_decide_eq_true hupsert)
        | _ => simp [Item.isEvent, Event.upserts] at hupsert
    | _ => simp [Item.isEvent] at hupsert

theorem trustOf_eq_iff {found : Option DeviceRow} {score : Int} (hsome : found.isSome = true) :
    (∃ flag, found = some ⟨score, flag⟩) ↔ trustOf found = score := by
  obtain ⟨⟨score', flag⟩, rfl⟩ := Option.isSome_iff_exists.mp hsome
  constructor
  · rintro ⟨flag', heq⟩
    simp only [Option.some.injEq, DeviceRow.mk.injEq] at heq
    exact heq.1
  · rintro rfl
    exact ⟨flag, rfl⟩

/-- **What wrong passwords cost.** Of any number of refused guesses at once,
the trust that is left shows them all if and only if no other user has the
fingerprint and, the account being active, no upsert of one guess came between
the lookup and the upsert of another, unless the upserts that did follow each
other have used up the trust. -/
theorem guesses_cost_trust (h : Run A w (seg ++ ⟨τ, w₀, .start q₀⟩ :: tr₀))
    (hguesses : Guesses X user hash K ⟨τ, w₀, .start q₀⟩ seg) :
    (∃ flag, w.findDevice user.id hash =
      some ⟨max 0 (trustOf (w₀.findDevice user.id hash) - 15 * K.card), flag⟩) ↔
    (∀ row, w₀.devices.lookup hash = some row → row.userId = user.id) ∧
      (user.isActive = true ∧ (decays hash seg).overlap = false ∨
        trustOf (w₀.findDevice user.id hash) ≤ 15 * (decays hash seg).chain) := by
  by_cases hown : ∀ row, w₀.devices.lookup hash = some row → row.userId = user.id
  swap
  · -- the row stays with its owner, and the user never finds one
    refine iff_of_false ?_ fun hboth => hown hboth.1
    rintro ⟨flag, hfind⟩
    push Not at hown
    obtain ⟨row, hrow, hne⟩ := hown
    obtain ⟨row', hrow', howner⟩ := owner_kept h ⟨q₀, rfl⟩ hrow
    obtain ⟨stored, hstored, huser, -⟩ := World.findDevice_eq_some hfind
    obtain rfl := Option.some.inj (hrow'.symm.trans hstored)
    exact hne (howner.symm.trans huser)
  have hdecayed := decayed_run h hown (hguesses.only h)
  have hordered := decays_ordered hash seg
  have hupserts := hguesses.upserts h
  have hcard : 0 < K.card := Finset.card_pos.mpr ⟨τ, hguesses.first⟩
  have hstored := hdecayed.stored
  rw [and_iff_right hown]
  cases hactive : user.isActive with
  | true =>
      rw [hactive, if_pos rfl] at hupserts
      rw [trustOf_eq_iff (hdecayed.row (by omega)), hstored]
      cases hover : (decays hash seg).overlap with
      | false =>
          have hchain := (hordered.serial hover).1
          refine iff_of_true ?_ (.inl ⟨rfl, rfl⟩)
          rw [hchain, hupserts]
      | true =>
          have hchain := (hordered.overlapped hover).1
          simp only [Bool.true_eq_false, and_false, false_or]
          omega
  | false =>
      rw [hactive, if_neg (by simp)] at hupserts
      have hchain : (decays hash seg).chain = 0 := by
        cases hover : (decays hash seg).overlap with
        | false => exact (hordered.serial hover).1.trans hupserts
        | true =>
            have hlt := (hordered.overlapped hover).1
            omega
      simp only [Bool.false_eq_true, false_and, false_or]
      rw [hchain] at hstored ⊢
      constructor
      · rintro ⟨flag, hfind⟩
        have hscore : trustOf (w.findDevice user.id hash) = max 0
            (trustOf (w₀.findDevice user.id hash) - 15 * K.card) := by
          rw [hfind]
          rfl
        omega
      · intro hused
        have hsome : (w.findDevice user.id hash).isSome = true := by
          cases hfind : w.findDevice user.id hash with
          | some row => rfl
          | none =>
              -- a device without a row has a trust of 50
              have hnew : trustOf none = 50 := rfl
              rw [hfind, hnew] at hstored
              omega
        rw [trustOf_eq_iff hsome]
        omega

end Guesses

/-! ### Two guesses -/

namespace Scenario

/-- Alice with another password. -/
def guessed : UserRow := { alice with passwordHash := "$argon2id$v=19$m=19456,t=2,p=1$b3RoZXI$aGFzaA" }

/-- The fingerprint of every device, as `external` hashes. -/
def print : String := external.sha256 ""

/-- Thread `t` serves a login of Alice, and refuses it. -/
def guesses (t : ℕ) (tr : Trace System) : Bool :=
  (tr.any fun x => match x.item with
    | .start q => decide (x.tid = t ∧ q.route = .login ∧ q.body = some aliceLogin)
    | _ => false) &&
  tr.any fun x => match x.item with
    | .done o =>
        decide (x.tid = t ∧ o = errorResponse (.authenticationFailed "invalid credentials"))
    | _ => false

/-- Threads 0 and 1 serve the two, 0 being the first, nobody else writes a
device, and there was none before. -/
def twoGuesses (tr : Trace System) : Bool :=
  guesses 0 tr && guesses 1 tr &&
    (tr.all fun x => (Entry.upsert x).all fun _ => decide (x.tid ≤ 1)) &&
    match tr.getLast? with
    | some ⟨0, w₀, .start _⟩ =>
        decide (w₀.userByUsername "alice" = some guessed ∧ w₀.devices.lookup print = none)
    | _ => false

theorem guesses_spec {t : ℕ} {tr : Trace System} (h : guesses t tr = true) :
    (∃ q, Started t q tr ∧ Guess external guessed print q) ∧
      Returned t (errorResponse (.authenticationFailed "invalid credentials")) tr := by
  obtain ⟨hstart, hdone⟩ := Bool.and_eq_true_iff.mp h
  obtain ⟨⟨t₁, w₁, item₁⟩, hmem₁, h₁⟩ := List.any_eq_true.mp hstart
  obtain ⟨⟨t₂, w₂, item₂⟩, hmem₂, h₂⟩ := List.any_eq_true.mp hdone
  constructor
  · split at h₁
    · rename_i q heq
      obtain ⟨rfl, hroute, hbody⟩ := of_decide_eq_true h₁
      obtain rfl : item₁ = .start q := heq
      have hparse : external.parseLoginBody aliceLogin = some ⟨"alice", password, none, none⟩ := by
        simp [external]
      refine ⟨q, ⟨w₁, hmem₁⟩, hroute, ⟨_, ⟨aliceLogin, hbody, hparse⟩, rfl, ?_⟩, rfl⟩
      exact congrArg Except.ok (by decide)
    · simp at h₁
  · split at h₂
    · rename_i o heq
      obtain ⟨rfl, rfl⟩ := of_decide_eq_true h₂
      obtain rfl : item₂ = .done _ := heq
      exact ⟨w₂, hmem₂⟩
    · simp at h₂

theorem exists_guesses {tr : Trace System} (h : twoGuesses tr = true) :
    ∃ seg τ w₀ q₀, tr = seg ++ [⟨τ, w₀, .start q₀⟩] ∧
      Guesses external guessed print {0, 1} ⟨τ, w₀, .start q₀⟩ seg ∧
      w₀.devices.lookup print = none := by
  simp only [twoGuesses, Bool.and_eq_true] at h
  obtain ⟨⟨⟨hzero, hone⟩, hothers⟩, hlast⟩ := h
  split at hlast
  · rename_i w₀ q₀ hlast'
    obtain ⟨seg, rfl⟩ := List.getLast?_eq_some_iff.mp hlast'
    have hreturned {t : ℕ} {o : Response}
        (h : Returned t o (seg ++ [(⟨0, w₀, .start q₀⟩ : Entry System)])) : Returned t o seg := by
      obtain ⟨w₁, hmem⟩ := h
      obtain hmem | hmem := List.mem_append.mp hmem
      · exact ⟨w₁, hmem⟩
      · simp at hmem
    obtain ⟨hguess₀, hrefused₀⟩ := guesses_spec hzero
    obtain ⟨hguess₁, hrefused₁⟩ := guesses_spec hone
    obtain ⟨haccount, hnone⟩ := of_decide_eq_true hlast
    refine ⟨seg, 0, w₀, q₀, rfl, ⟨by simp, haccount, ?_, ?_, ?_⟩, hnone⟩
    · intro t ht
      obtain rfl | rfl : t = 0 ∨ t = 1 := by simpa using ht
      · exact hguess₀
      · exact hguess₁
    · intro t ht
      obtain rfl | rfl : t = 0 ∨ t = 1 := by simpa using ht
      · exact hreturned hrefused₀
      · exact hreturned hrefused₁
    · intro x hx d hd _
      have hall := List.all_eq_true.mp hothers x (List.mem_append_left _ hx)
      rw [Option.mem_def] at hd
      rw [hd] at hall
      have hle : x.tid ≤ 1 := of_decide_eq_true hall
      simp only [Finset.mem_insert, Finset.mem_singleton]
      omega
  · simp at hlast

end Scenario

open Scenario in
/-- One guess after the other costs 30. -/
theorem guesses_cost_trust_run : ∃ (w w₀ : World) (seg : ProxyTrace external server) (τ : ℕ)
    (q₀ : Request), Reachable w (seg ++ [⟨τ, w₀, .start q₀⟩]) ∧
      Guesses external guessed print {0, 1} ⟨τ, w₀, .start q₀⟩ seg ∧
      ∃ flag, w.findDevice guessed.id print = some ⟨20, flag⟩ := by
  have hplay : plays (fun _ _ => True) [guessed] (.start 0 (login aliceLogin) :: steps 0 12 ++
      .start 1 (login aliceLogin) :: steps 1 11)
      (fun p => twoGuesses p.trace && !(decays print p.trace).overlap) = true := by decide +kernel
  obtain ⟨p, hrun, hcheck⟩ := run_of_plays (world_initial (by simp) (by simp) (by simp)) hplay
  obtain ⟨htwo, hserial⟩ := Bool.and_eq_true_iff.mp hcheck
  obtain ⟨seg, τ, w₀, q₀, htrace, hguesses, hnone⟩ := exists_guesses htwo
  rw [htrace] at hrun hserial
  have hnew : trustOf (w₀.findDevice guessed.id print) = 50 := by
    unfold World.findDevice
    rw [hnone]
    rfl
  have hoverlap : (decays print seg).overlap = false := by
    have hsame : decays print (seg ++ [⟨τ, w₀, .start q₀⟩]) = decays print seg := by
      unfold decays
      rw [List.foldr_append]
      rfl
    rw [← hsame]
    simpa using hserial
  have hcost := (guesses_cost_trust hrun hguesses).mpr ⟨by simp [hnone], .inl ⟨rfl, hoverlap⟩⟩
  rw [hnew] at hcost
  exact ⟨p.world, w₀, seg, τ, q₀, hrun, hguesses, hcost⟩

open Scenario in
/-- Two guesses that look the device up before either upserts cost 15. -/
theorem guesses_lost : ¬ ∀ (w w₀ : World) (seg tr₀ : ProxyTrace external server) (τ : ℕ)
    (q₀ : Request) (user : UserRow) (hash : String) (K : Finset ℕ),
    Reachable w (seg ++ ⟨τ, w₀, .start q₀⟩ :: tr₀) →
    Guesses external user hash K ⟨τ, w₀, .start q₀⟩ seg →
    ∃ flag, w.findDevice user.id hash =
      some ⟨max 0 (trustOf (w₀.findDevice user.id hash) - 15 * K.card), flag⟩ := by
  intro hclaim
  have hplay : plays (fun _ _ => True) [guessed] (.start 0 (login aliceLogin) ::
      .start 1 (login aliceLogin) :: steps 0 7 ++ steps 1 6 ++ steps 0 5 ++ steps 1 5)
      (fun p => twoGuesses p.trace &&
        decide ((p.world.findDevice guessed.id print).map DeviceRow.trustScore = some 35)) =
        true := by decide +kernel
  obtain ⟨p, hrun, hcheck⟩ := run_of_plays (world_initial (by simp) (by simp) (by simp)) hplay
  obtain ⟨htwo, hleft⟩ := Bool.and_eq_true_iff.mp hcheck
  obtain ⟨seg, τ, w₀, q₀, htrace, hguesses, hnone⟩ := exists_guesses htwo
  rw [htrace] at hrun
  obtain ⟨flag, hfind⟩ := hclaim p.world w₀ seg [] τ q₀ guessed print {0, 1} hrun hguesses
  have hnew : trustOf (w₀.findDevice guessed.id print) = 50 := by
    unfold World.findDevice
    rw [hnone]
    rfl
  rw [hnew] at hfind
  rw [hfind] at hleft
  simp at hleft

end ZeroTrustProxy
