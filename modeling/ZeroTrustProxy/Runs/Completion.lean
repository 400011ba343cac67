import Mathlib.Data.Fintype.EquivFin
import ZeroTrustProxy.Concurrent.Progress
import ZeroTrustProxy.Runs.Scenario
import ZeroTrustProxy.Runs.Unhindered

/-!
That every request is answered.

No handler waits for another one and none goes round for ever, so the requests that
are not answered are those that panic. The panics of the source are an `unwrap` on a
stored secret that does not decode and a lifetime that `chrono` cannot hold. The
secrets that are stored are the ones `generate_secret` has made, whoever enrols and
in which order: from a table in which every secret decodes, no request comes to a
panic.
-/

namespace ZeroTrustProxy

open Concurrent Program Handler SessionManager JwtManager

variable {X : External} {srv : ProxyServer}
  {A : ProxyTrace X srv → Entry (proxySystem X srv) → Prop} {w w' : World}
  {seg tr tr₀ : ProxyTrace X srv} {x₀ : Entry (proxySystem X srv)} {req : Request}
  {h : List Event} {t : ℕ}

/-! ### The handlers that do not panic -/

theorem createUser_panicless {username email passwordHash : String} :
    Panicless (createUser username email passwordHash) := by
  refine never_call nofun fun r => ?_
  cases r with
  | ok row => exact never_ret
  | error f => exact never_throw

theorem handleRegister_panicless : Panicless (handleRegister X req) := by
  apply never_bind
  · exact checkRateLimit_panicless
  intro _
  apply never_bind
  · exact okOr_panicless
  intro bytes
  apply never_bind
  · exact okOr_panicless
  intro body
  apply never_ite
  · exact never_throw
  apply never_bind
  · exact never_call nofun fun _ => unwrap_panicless
  intro found
  apply never_ite
  · exact never_throw
  apply never_bind
  · exact never_call nofun fun _ => mapErr_panicless
  intro passwordHash
  apply never_bind
  · exact createUser_panicless
  · exact fun _ => never_ret

theorem deleteSession_panicless {id : String} : Panicless (deleteSession id) :=
  never_call nofun fun _ => unwrap_panicless

theorem handleLogout_panicless : Panicless (handleLogout req) := by
  apply never_bind
  · exact bearerClaims_panicless
  intro claims
  apply never_bind
  · exact deleteSession_panicless
  · exact fun _ => never_ret

theorem scanRest_panicless (left : ℕ) : Panicless (scanRest left) := by
  induction left with
  | zero => exact never_ret
  | succ left ih =>
      refine never_call nofun fun r => ?_
      cases r with
      | error f => exact never_ret
      | ok keys => exact never_bind ih fun _ => never_ret

theorem readUserSession_panicless {userId key : String} :
    Panicless (readUserSession X userId key) := by
  refine never_call nofun fun r => ?_
  cases r with
  | error f => exact never_ret
  | ok data =>
      cases data with
      | none => exact never_ret
      | some data =>
          cases hparse : data.parseSession X with
          | error e =>
              simp only [hparse]
              exact never_ret
          | ok session =>
              simp only [hparse]
              apply never_ite
              · exact never_bind (never_call nofun fun _ => never_ret) fun _ => never_ret
              · exact never_ret

theorem readUserSessions_panicless {userId : String} (keys : List String) :
    Panicless (readUserSessions X userId keys) := by
  induction keys with
  | nil => exact never_ret
  | cons key keys ih =>
      apply never_bind
      · exact readUserSession_panicless
      · exact fun _ => never_bind ih fun _ => never_ret

theorem deleteSessions_panicless (sessions : List Session) :
    Panicless (deleteSessions sessions) := by
  induction sessions with
  | nil => exact never_ret
  | cons session sessions ih => exact never_bind deleteSession_panicless fun _ => ih

theorem scanSessionKeys_panicless : Panicless scanSessionKeys := by
  apply never_bind
  · exact never_call nofun fun _ => unwrap_panicless
  intro page
  apply never_bind
  · exact scanRest_panicless _
  · exact fun _ => never_ret

theorem revokeUserSessions_panicless {userId : String} :
    Panicless (revokeUserSessions X userId) := by
  apply never_bind
  · exact never_bind scanSessionKeys_panicless fun keys => readUserSessions_panicless keys
  intro sessions
  apply never_bind
  · exact deleteSessions_panicless sessions
  · exact fun _ => never_ret

theorem handleLogoutAll_panicless : Panicless (handleLogoutAll X req) := by
  apply never_bind
  · exact bearerClaims_panicless
  intro claims
  apply never_bind
  · exact revokeUserSessions_panicless
  · exact fun _ => never_ret

/-! ### The stored secrets decode -/

/-- Every secret in the table decodes. -/
def SecretsDecode (X : External) (w : World) : Prop :=
  ∀ u ∈ w.users, ∀ secret, u.mfaSecret = some secret → X.decodeSecret secret ≠ none

/-- What `generate_secret` can make decodes: 32 characters of the Base32 alphabet. -/
def GeneratedDecode (X : External) : Prop :=
  ∀ secret : String, secret.length = 32 → (∀ c ∈ secret.toList, c ∈ secretCharset) →
    X.decodeSecret secret ≠ none

theorem World.generated_reply {secret : String}
    (hact : World.act X t (.generateSecret secret) w = some w') :
    secret.length = 32 ∧ ∀ c ∈ secret.toList, c ∈ secretCharset := by
  simp only [World.act, World.accept, Bool.and_eq_true, decide_eq_true_eq, List.all_eq_true,
    List.contains_iff_mem, Option.ite_none_right_eq_some] at hact
  exact hact.1

theorem SecretsDecode.act (hJ : SecretsDecode X w) {e : Event}
    (hact : World.act X t e w = some w')
    (hwrite : ∀ id secret r, e = .setUserMfaSecret id secret r → X.decodeSecret secret ≠ none) :
    SecretsDecode X w' := by
  intro u hu secret hsecret
  obtain hsame | ⟨id, secret', r, heq, hset⟩ | ⟨_, _, _, _, row, -, hshape, -, hadd⟩ :=
    World.act_users hact
  · rw [hsame] at hu
    exact hJ u hu secret hsecret
  · rw [hset] at hu
    obtain ⟨v, hv, rfl⟩ := List.mem_map.mp hu
    split at hsecret
    · obtain rfl := Option.some.inj hsecret
      exact hwrite id secret' r heq
    · exact hJ v hv secret hsecret
  · rw [hadd] at hu
    obtain hold | hnew := List.mem_append.mp hu
    · exact hJ u hold secret hsecret
    · obtain rfl := List.mem_singleton.mp hnew
      rw [hshape] at hsecret
      simp at hsecret

/-- The secret that is written has been generated by the thread that writes it. -/
theorem secret_generated (hgen : GeneratedDecode X) (hrun : Run A w tr) {id : Uuid}
    {secret : String} {q : Request} (hL : SecretWrite X q (own t tr) id secret) :
    X.decodeSecret secret ≠ none := by
  obtain ⟨-, hmem, -⟩ := hL
  obtain ⟨l, hl⟩ := suffix_of_mem hmem
  obtain ⟨_, _, _, _, _, -, -, -, -, -, hact⟩ := history_event hrun hl
  obtain ⟨hlength, hchars⟩ := World.generated_reply hact
  exact hgen secret hlength hchars

/-- From a table in which every secret decodes, every table is one. -/
theorem secrets_decode (hgen : GeneratedDecode X) (hdec : SecretsDecode X x₀.pre)
    (hrun : Run A w (seg ++ x₀ :: tr₀)) :
    SecretsDecode X w ∧ Past (fun w _ => SecretsDecode X w) seg := by
  refine hrun.since (proxy_contract X srv) (fun w _ => SecretsDecode X w) ?_ ?_ ?_ ?_ ?_
  · intro w₁ hrun₀ _ hen
    cases hen with
    | start => exact hdec
    | done => exact hdec
    | act r hq hpath hact =>
        obtain ⟨q, -, hL, hact'⟩ := enabled_event (.act r hq hpath hact)
        refine hdec.act hact' fun id secret r' heq => ?_
        rw [heq] at hL
        exact secret_generated hgen hrun₀ hL
  · intro w w' seg m _ hJ henv
    obtain ⟨-, rfl⟩ : w.clock ≤ m ∧ w.advance m = w' := by simpa using henv
    exact hJ
  · exact fun _ hJ _ => hJ
  · intro w w' seg t' q e hrun' hJ _ _ hL hact' _
    refine hJ.act hact' fun id secret r' heq => ?_
    subst heq
    exact secret_generated hgen hrun' hL
  · exact fun _ hJ _ _ _ => hJ

/-! ### No panic -/

theorem userByUsername_mem {username : String} {u : UserRow}
    (hact : World.act X t (.findUserByUsername username (.ok (some u))) w = some w') :
    u ∈ w.users := by
  have hfound := (World.userByUsername_reply hact).2
  exact List.mem_of_find?_eq_some hfound.symm

/-- A request that has come to a panic has found a secret that does not decode, or
the lifetimes cannot be held. -/
theorem panic_cause {q : Request} (hcalls : (handleRequest X srv q).Calls h .panic) :
    ¬ LifetimesHeld srv.config ∨ ∃ user secret, user.mfaSecret = some secret ∧
      X.decodeSecret secret = none ∧
      ((∃ username, .findUserByUsername username (.ok (some user)) ∈ h) ∨
        ∃ id, .findUserById id (.ok (some user)) ∈ h) := by
  have hpanic := handleRequest_panics hcalls
  cases hroute : q.route <;> rw [hroute] at hpanic
  case login =>
    have hlogin := handleLogin_panics hpanic
    obtain ⟨body, hparsed⟩ : ∃ body, ParsesLogin X q body := by
      cases hlogin with
      | code id firstSeen lastSeen rated parsed secret => exact ⟨_, parsed⟩
      | start id firstSeen lastSeen rated parsed gate scored given started => exact ⟨_, parsed⟩
    obtain ⟨user, hfound⟩ := hlogin.found hparsed
    obtain hsession | htoken | hcode := hlogin.cause hparsed hfound
    · exact .inl fun hheld => by simp [hheld.1] at hsession
    · exact .inl fun hheld => by simp [hheld.2] at htoken
    · obtain ⟨secret, hsecret, hnone⟩ := hcode.secret
      exact .inr ⟨user, secret, hsecret, hnone, .inl ⟨_, hfound⟩⟩
  case mfaVerify =>
    obtain ⟨_, userId, user, secret, _, -, -, hfound, hsecret, -, hnone⟩ :=
      handleMfaVerify_panics hpanic
    exact .inr ⟨user, secret, hsecret, hnone, .inr ⟨userId, hfound⟩⟩
  case register => exact (handleRegister_panicless _ hpanic).elim
  case mfaEnroll => exact (handleMfaEnroll_panicless _ hpanic).elim
  case logout => exact (handleLogout_panicless _ hpanic).elim
  case logoutAll => exact (handleLogoutAll_panicless _ hpanic).elim
  case proxied =>
    exact (never_bind authorize_panicless (fun _ => forwardUpstream_panicless) _ hpanic).elim
  case health => exact (never_ret _ hpanic).elim
  case metrics => exact (never_ret _ hpanic).elim

/-- A request that comes after a table in which every secret decodes does not
panic. -/
theorem never_panics (hgen : GeneratedDecode X) (hheld : LifetimesHeld srv.config)
    (hdec : SecretsDecode X x₀.pre) (hrun : Run A w (seg ++ x₀ :: tr₀))
    (hnew : ∀ y ∈ tr₀, y.tid ≠ t) {q : Request} :
    ¬ (handleRequest X srv q).Calls (own t (seg ++ x₀ :: tr₀)) .panic := by
  intro hcalls
  obtain hlifetimes | ⟨user, secret, hsecret, hnone, hfound⟩ := panic_cause hcalls
  · exact hlifetimes hheld
  -- the row was in the table when it was found
  have hrow {e : Event} (he : e ∈ own t (seg ++ x₀ :: tr₀))
      (hmem : ∀ w₁ w₂, World.act X t e w₁ = some w₂ → user ∈ w₁.users) : False := by
    obtain ⟨w₁, hentry⟩ := mem_own.mp he
    obtain ⟨post, pre, hsplit⟩ := List.append_of_mem hentry
    obtain ⟨-, -, q', w₂, -, -, hact⟩ := event_entry (hsplit ▸ hrun)
    have hdec₁ : SecretsDecode X w₁ := by
      obtain hseg | hx₀ := List.mem_append.mp hentry
      · obtain ⟨pre', hpast⟩ := suffix_of_mem hseg
        exact (secrets_decode hgen hdec hrun).2 _ pre' hpast
      · obtain rfl | hold := List.mem_cons.mp hx₀
        · exact hdec
        · exact (hnew _ hold rfl).elim
    exact hdec₁ user (hmem w₁ w₂ hact) secret hsecret hnone
  obtain ⟨username, hmem⟩ | ⟨id, hmem⟩ := hfound
  · exact hrow hmem fun _ _ => userByUsername_mem
  · exact hrow hmem fun _ _ hact => List.mem_of_find?_eq_some (World.userById_reply hact).2.symm

/-! ### Every call is replied to -/

/-- The command fails only where it cannot succeed. -/
def Refused (X : External) (t : ℕ) (e : Event) (w : World) : Prop :=
  e.failed = true → ∀ e' w', e'.command = e.command → World.act X t e' w = some w' →
    e'.failed = true

theorem Event.exists_reply {e : Event} {c : Cmd} (he : e.command = c) : ∃ r, e = c.event r := by
  subst he
  cases e with
  | getSessionCall => exact ⟨(), rfl⟩
  | getSessionReturn => exact ⟨(), rfl⟩
  | _ => exact ⟨_, rfl⟩

theorem exists_fresh_uuid (drawn : List Uuid) : ∃ id, id ∉ drawn := by
  have : Infinite Uuid := Infinite.of_injective Uuid.mk fun _ _ h => congrArg Uuid.text h
  obtain ⟨id, hid⟩ := Infinite.exists_notMem_finset drawn.toFinset
  exact ⟨id, by simpa using hid⟩

theorem exists_fresh_token (tokens : List (String × Claims)) :
    ∃ token, tokens.lookup token = none := by
  obtain ⟨token, htoken⟩ := Infinite.exists_notMem_finset (tokens.map Prod.fst).toFinset
  refine ⟨token, List.lookup_eq_none_iff.mpr fun p hp => ?_⟩
  have hne : token ≠ p.1 := by
    rintro rfl
    exact htoken (by simpa using ⟨p.2, hp⟩)
  simpa using hne

/-- There is a reply to every call but a panic. -/
theorem exists_reply (t : ℕ) (c : Cmd) (w : World) (hc : c ≠ .panic) :
    ∃ r w', World.act X t (c.event r) w = some w' := by
  have fault : Fault := ⟨false, ""⟩
  cases c with
  | utcNow use => exact ⟨w.clock, w, by simp [Cmd.event, World.act, World.accept]⟩
  | newUuid =>
      obtain ⟨id, hid⟩ := exists_fresh_uuid w.drawn
      exact ⟨id, _, by simp [Cmd.event, World.act, World.accept, hid]; rfl⟩
  | generateSecret =>
      have hmade : (decide (scriptSecret.length = 32) &&
          scriptSecret.toList.all (secretCharset.contains ·)) = true := by decide
      exact ⟨scriptSecret, w, congrArg (fun b => World.accept b w) hmade⟩
  | totpCheck totp token =>
      exact ⟨X.totpCheck totp token w.clock, w, by simp [Cmd.event, World.act, World.accept]⟩
  | jwtEncode claims =>
      obtain ⟨token, htoken⟩ := exists_fresh_token w.tokens
      exact ⟨.ok token, _, by simp [Cmd.event, World.act, World.accept, htoken]; rfl⟩
  | jwtDecode token =>
      cases hlookup : w.tokens.lookup token with
      | none => exact ⟨.error "", w, by simp [Cmd.event, World.act, hlookup]⟩
      | some claims =>
          cases hlive : claims.unexpired w.clock with
          | true => exact ⟨.ok claims, w, by simp [Cmd.event, World.act, World.accept, hlookup, hlive]⟩
          | false =>
              exact ⟨.error "", w, by simp [Cmd.event, World.act, World.accept, hlookup, hlive]⟩
  | hashPassword password => exact ⟨.error "", w, rfl⟩
  | upstream q => exact ⟨.error "", w, rfl⟩
  | getSessionCall id => exact ⟨(), w, rfl⟩
  | getSessionReturn id r => exact ⟨(), w, rfl⟩
  | panic => exact (hc rfl).elim
  | createUser username email passwordHash =>
      exact ⟨.error (fault, ⟨⟨""⟩, "", "", "", false, none, false⟩), _, rfl⟩
  | _ => exact ⟨.error fault, _, rfl⟩

/-- The stores and the clock reply to every call, and no storage command has to fail
where it could succeed. -/
theorem proxy_responsive : Responsive (proxySystem X srv) (Refused X) := by
  intro t c w hc
  by_cases hsucceeds : ∃ r w', World.act X t (c.event r) w = some w' ∧ (c.event r).failed = false
  · obtain ⟨r, w', hact, hok⟩ := hsucceeds
    exact ⟨r, w', hact, fun hfailed => by simp [hok] at hfailed⟩
  · have hne : c ≠ .panic := by
      rintro rfl
      exact hc.elim fun r => r.elim
    obtain ⟨r, w', hact⟩ := exists_reply (X := X) t c w hne
    refine ⟨r, w', hact, fun _ e' w₁ hsame hact' => ?_⟩
    obtain ⟨r', rfl⟩ := Event.exists_reply (hsame.trans (Cmd.command_event c r))
    by_contra hok
    exact hsucceeds ⟨r', w₁, hact', by simpa using hok⟩

namespace Scenario

/-- Base32 without padding: five bits a character, the bits left over dropped. -/
def base32Decode (s : String) : Option (List UInt8) :=
  if s.toList.all (secretCharset.contains ·) then
    let bits := 5 * s.length
    let n := s.toList.foldl (fun n c => 32 * n + secretCharset.idxOf c) 0
    some ((List.range (bits / 8)).map fun i => UInt8.ofNat (n / 2 ^ (bits - 8 * (i + 1))))
  else none

example : base32Decode secret = some secretBytes := by decide +kernel

def decoding : External := { external with decodeSecret := base32Decode }

theorem base32_generated : GeneratedDecode decoding := by
  intro s _ hchars
  simpa [decoding, base32Decode] using hchars

end Scenario

end ZeroTrustProxy
