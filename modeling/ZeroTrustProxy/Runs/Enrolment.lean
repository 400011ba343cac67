import ZeroTrustProxy.Runs.Registration

/-!
What an enrolment makes.

An enrolment writes a secret into the row of the token's subject and switches its second
factor on. No statement switches it off again, and only another enrolment of the same user
puts another secret in its place. So from the answer on the password of the account is not
enough: whatever else is under way, a login that comes later gets nothing without a code that
has been checked against a secret the user has been given since.
-/

namespace ZeroTrustProxy

open Concurrent Program

variable {X : External} {srv : ProxyServer}
  {A : ProxyTrace X srv → Entry (proxySystem X srv) → Prop} {w w' : World}
  {tr seg pre : ProxyTrace X srv} {t τ : ℕ} {id : Uuid} {secret : String}

/-- A step of `seg` has written the secret into the row of the user. -/
def SecretWritten (id : Uuid) (secret : String) (seg : ProxyTrace X srv) : Prop :=
  ∃ y ∈ seg, ∃ r, y.item = .act (.setUserMfaSecret id secret r)

theorem SecretWritten.mono {seg' : ProxyTrace X srv} (h : SecretWritten id secret seg)
    (hsub : seg ⊆ seg') : SecretWritten id secret seg' := by
  obtain ⟨y, hy, r, hitem⟩ := h
  exact ⟨y, hsub hy, r, hitem⟩

/-- The row of the user asks for a code, by a secret that has been written in `seg`. -/
def AsksForCode (id : Uuid) (seg : ProxyTrace X srv) (w : World) : Prop :=
  ∃ row secret, w.userById id = some row ∧ row.mfaEnabled = true ∧ row.mfaSecret = some secret ∧
    SecretWritten id secret seg

theorem AsksForCode.mono {seg' : ProxyTrace X srv} (h : AsksForCode id seg w) (hsub : seg ⊆ seg') :
    AsksForCode id seg' w := by
  obtain ⟨row, secret, hrow, henabled, hsecret, hwritten⟩ := h
  exact ⟨row, secret, hrow, henabled, hsecret, hwritten.mono hsub⟩

/-- No statement switches a second factor off. -/
theorem AsksForCode.act {e : Event} (h : AsksForCode id seg w)
    (hact : World.act X t e w = some w') : AsksForCode id (⟨t, w, .act e⟩ :: seg) w' := by
  obtain ⟨row, secret, hrow, henabled, hsecret, hwritten⟩ := h
  have hkept := hwritten.mono (List.subset_cons_self ⟨t, w, .act e⟩ seg)
  rcases World.act_users hact with hsame | ⟨id', secret', r, rfl, hset⟩ |
    ⟨_, _, _, _, new, -, -, -, hadd⟩
  · exact ⟨row, secret, by rwa [World.userById, hsame], henabled, hsecret, hkept⟩
  · have hfind : w'.userById id = (w.setUserMfaSecret id' secret').userById id := by
      rw [World.userById, hset, World.userById]
    by_cases hid : id' = id
    · subst hid
      refine ⟨row.withSecret secret', secret', ?_, rfl, rfl, _, List.mem_cons_self, r, rfl⟩
      rw [hfind, userById_setUserMfaSecret_self hrow]
    · exact ⟨row, secret, by rw [hfind, userById_setUserMfaSecret hid, hrow], henabled, hsecret,
        hkept⟩
  · refine ⟨row, secret, ?_, henabled, hsecret, hkept⟩
    have hbefore : w.users.find? (fun u => u.id = id) = some row := hrow
    rw [World.userById, hadd, List.find?_append, hbefore]
    rfl

/-- From the write on, the row asks for a code. -/
theorem asks_since {w₀ : World} {user : UserRow}
    (hrun : Run A w (seg ++ ⟨t, w₀, .act (.setUserMfaSecret id secret (.ok ()))⟩ :: pre))
    (hrow : w₀.userById id = some user) :
    AsksForCode id (seg ++ [⟨t, w₀, .act (.setUserMfaSecret id secret (.ok ()))⟩]) w := by
  refine (hrun.since (proxy_contract X srv) (fun w seg => AsksForCode id
    (seg ++ [⟨t, w₀, .act (.setUserMfaSecret id secret (.ok ()))⟩]) w) ?_ ?_ ?_ ?_ ?_).1
  · intro w₁ _ _ hen
    obtain ⟨_, _, _, hact⟩ := enabled_event hen
    obtain rfl : w₀.setUserMfaSecret id secret = w₁ := Option.some.inj hact
    exact ⟨user.withSecret secret, secret, userById_setUserMfaSecret_self hrow, rfl, rfl,
      _, List.mem_singleton_self _, .ok (), rfl⟩
  · intro w w' seg m _ hJ henv
    obtain ⟨-, rfl⟩ : w.clock ≤ m ∧ w.advance m = w' := by simpa using henv
    exact hJ
  · exact fun _ hJ _ => hJ.mono (List.subset_cons_self _ _)
  · exact fun _ hJ _ _ _ hact _ => hJ.act hact
  · exact fun _ hJ _ _ _ => hJ.mono (List.subset_cons_self _ _)

/-! ### An enrolment that has been answered -/

/-- The write of the secret by thread `t`. -/
def secretWrite (t : ℕ) (w₀ : World) (id : Uuid) (secret : String) : Entry (proxySystem X srv) :=
  ⟨t, w₀, .act (.setUserMfaSecret id secret (.ok ()))⟩

/-- An enrolment that is answered has written its secret into the row of the token's
subject, which was there. -/
theorem enrolled_of_answer (hrun : Run A w tr) {q : Request} {w₁ : World} {o : Response}
    (hq : Started t q tr) (hroute : q.route = .mfaEnroll) (hdone : ⟨t, w₁, .done o⟩ ∈ tr)
    (hok : o.status = 200) :
    ∃ claims user secret row post w₀ pre, Bearer q (own t tr) claims ∧
      claims.sub = user.id.text ∧ o = enrollAnswer secret user ∧
      tr = post ++ secretWrite t w₀ user.id secret :: pre ∧
      w₀.userById user.id = some row ∧ row.account = user.account := by
  obtain ⟨r, hend, rfl⟩ := answered_own hrun hq hdone
  rw [hroute] at hend
  obtain ⟨o', rfl⟩ : ∃ o, r = .ok o := respond_success (by omega)
  generalize hh : own t tr = h at hend
  have henrol := handleMfaEnroll_ends hend
  generalize hr : (Except.ok o' : Except ProxyError Response) = r at henrol
  cases henrol with
  | @written token claims userId user secret x bearer subject =>
      cases x with
      | error f => simp [Except.map, Except.mapError] at hr
      | ok u =>
          obtain rfl := Except.ok.inj hr
          have hbearer : Bearer q (own t tr) claims := by
            cases bearer with
            | valid header => exact ⟨_, header, by simp [hh]⟩
          have hsubject := (hbearer.issued hrun List.suffix_rfl).subject subject
          have hlast : .setUserMfaSecret userId secret (.ok ()) :: .generateSecret secret ::
              .findUserById userId (.ok (some user)) :: token <:+ own t tr := by rw [hh]
          obtain ⟨post, pre, w₀, w₂, -, rfl, hpre, hrun₀, -, -, -⟩ := history_event hrun hlast
          -- the row the lookup has found is still there at the write
          have hfound : .findUserById userId (.ok (some user)) :: token <:+ own t pre :=
            hpre ▸ List.suffix_cons _ _
          obtain ⟨mid, before, w₃, w₄, -, rfl, -, -, -, -, hact⟩ := history_event hrun₀ hfound
          have hrow := (World.userById_reply hact).2.symm
          obtain rfl := userById_id hrow
          obtain ⟨row, hrow₀, haccount⟩ := (accounts_kept hrun₀).userById hrow
          exact ⟨claims, user, secret, row, post, w₀, _, hh ▸ hbearer, hsubject, rfl, rfl,
            hrow₀, haccount⟩
  | _ => simp at hr

/-- What a login that succeeds has found and has been given. -/
theorem LoginRun.success {q : Request} {h : List Event} {o : Response}
    (hl : LoginRun X srv q h (.ok o)) :
    ∃ body user mfa token, ParsesLogin X q body ∧
      .findUserByUsername body.username (.ok (some user)) ∈ h ∧ FactorGiven X user body h ∧
      o = loginAnswer srv user mfa token := by
  cases hl with
  | decided id firstSeen lastSeen rated parsed active decision =>
      cases decision with
      | opened password gate scored block opened =>
          obtain ⟨token, rfl⟩ := opened.answer
          refine ⟨_, _, _, token, parsed, ?_, gate.given.mono ?_, rfl⟩
          · simp [loginLookups]
          · intro e he
            simp [he]

/-- **Enrolment binds.** Once an enrolment has been answered with a secret, the row of the
token's subject asks for a code for as long as the server runs, by a secret written no earlier
than that one; and a login by its name that arrives afterwards succeeds only with a code that
has been checked against a secret written no earlier, whatever the other requests do. -/
theorem enrolment_binds (hrun : Run A w (seg ++ tr)) {q : Request} {w₁ : World} {o : Response}
    (hq : Started t q tr) (hroute : q.route = .mfaEnroll) (hdone : ⟨t, w₁, .done o⟩ ∈ tr)
    (hok : o.status = 200) :
    ∃ claims user secret post w₀ pre, Bearer q (own t tr) claims ∧ claims.sub = user.id.text ∧
      o = enrollAnswer secret user ∧ tr = post ++ secretWrite t w₀ user.id secret :: pre ∧
      (∃ row, w.userById user.id = some row ∧ row.account = user.account) ∧
      AsksForCode user.id (seg ++ post ++ [secretWrite t w₀ user.id secret]) w ∧
      ∀ τ q' o', (∀ y ∈ tr, y.tid ≠ τ) → Started τ q' (seg ++ tr) → q'.route = .login →
        (∃ body, ParsesLogin X q' body ∧ body.username = user.username) →
        Returned τ o' (seg ++ tr) → o'.status = 200 →
          ∃ body secret' code, ParsesLogin X q' body ∧ body.mfaToken = some code ∧
            CodeChecked X (own τ (seg ++ tr)) secret' code ∧
            SecretWritten user.id secret'
              (seg ++ post ++ [secretWrite t w₀ user.id secret]) := by
  obtain ⟨wₜ, hrunₜ⟩ := hrun.of_suffix (List.suffix_append seg tr)
  obtain ⟨claims, user, secret, row, post, w₀, pre, hbearer, hsubject, ho, rfl, hrow, haccount⟩ :=
    enrolled_of_answer hrunₜ hq hroute hdone hok
  have hasks {w₂ : World} {mid : ProxyTrace X srv}
      (hrun₂ : Run A w₂ (mid ++ (post ++ secretWrite t w₀ user.id secret :: pre))) :
      AsksForCode user.id (mid ++ post ++ [secretWrite t w₀ user.id secret]) w₂ := by
    rw [← List.append_assoc] at hrun₂
    exact asks_since hrun₂ hrow
  have hkept {w₂ : World} {mid : ProxyTrace X srv}
      (hrun₂ : Run A w₂ (mid ++ (post ++ secretWrite t w₀ user.id secret :: pre))) :
      ∃ row, w₂.userById user.id = some row ∧ row.account = user.account := by
    rw [← List.append_assoc] at hrun₂
    obtain ⟨u, hu, haccount'⟩ := (accounts_kept hrun₂).userById hrow
    exact ⟨u, hu, haccount'.trans haccount⟩
  refine ⟨claims, user, secret, post, w₀, pre, hbearer, hsubject, ho, rfl, hkept hrun,
    hasks hrun, ?_⟩
  rintro τ q' o' hnew hq' hlogin ⟨body, hparsed, hname⟩ ⟨w₂, hdone'⟩ hok'
  obtain ⟨r, hend, rfl⟩ := answered_own hrun hq' hdone'
  rw [hlogin] at hend
  obtain ⟨o', rfl⟩ : ∃ o, r = .ok o := respond_success (by omega)
  obtain ⟨body', found, mfa, token, hparsed', hmem, hgiven, -⟩ := (handleLogin_ends hend).success
  obtain rfl := hparsed'.unique hparsed
  obtain ⟨after, w₃, mid, w₄, rfl, hrun₃, -, hact⟩ := event_after hrun hnew hmem
  obtain ⟨row', secret', hrow', henabled, hsecret, hwritten⟩ := hasks hrun₃
  -- the name leads to the row that asks for a code
  have hfound : found = row' := by
    obtain ⟨u, hu, haccount'⟩ := hkept hrun₃
    obtain rfl := Option.some.inj (hu.symm.trans hrow')
    have husername := (UserRow.account_eq haccount').2.1
    have hlookup := (World.userByUsername_reply hact).2
    rw [hname, ← husername, userByUsername_of_userById hrun₃ hu] at hlookup
    exact Option.some.inj hlookup
  subst hfound
  obtain hnone | ⟨secret'', code, hsecret'', hcode, hchecked⟩ := hgiven
  · simp [henabled] at hnone
  · obtain rfl := Option.some.inj (hsecret.symm.trans hsecret'')
    refine ⟨body', secret', code, hparsed', hcode, hchecked, hwritten.mono ?_⟩
    intro y hy
    simp only [List.append_assoc, List.cons_append, List.mem_append, List.mem_cons] at hy ⊢
    tauto

namespace Scenario

/-- Thread 1 has enrolled Alice, and thread 2 has logged in as Alice since. -/
def enrolsAlice (p : Play (proxySystem enrolling server)) : Bool :=
  clean p.world.clock p.trace &&
  played 1 (fun q => decide (q.route = .mfaEnroll)) (fun o => decide (o.status = 200))
    (upTo 1 p.trace) &&
  played 2 (fun q => decide (q.route = .login ∧ q.body = some aliceLoginEnrolled))
    (fun o => decide (o.status = 200)) p.trace &&
  ((upTo 1 p.trace).all fun y => decide (y.tid ≠ 2)) &&
  p.world.users.all fun u => decide (u.username = "alice")

def enrollingRequest (t n : ℕ) (q : Request) : List (Move (proxySystem enrolling server)) :=
  .start t q :: List.replicate n (.step t 0)

/-- Alice logs in, enrols and logs in again with a code. -/
theorem enrolment_binds_run : ∃ (w : World) (tr : ProxyTrace enrolling server) (o : Response)
    (id : Uuid) (secret code : String), Reachable w tr ∧ Returned 2 o tr ∧ o.status = 200 ∧
      AsksForCode id tr w ∧ SecretWritten id secret tr ∧
      CodeChecked enrolling (own 2 tr) secret code := by
  have hplay : ((Play.start (world [alice])).run (World.reply enrolling)
      (fun (_ : ProxyTrace enrolling server) _ => True)
      (enrollingRequest 0 24 (login aliceLogin) ++
        enrollingRequest 1 5 (authorized "POST" "/auth/mfa/enroll" "token-0" "") ++
        enrollingRequest 2 24 (login aliceLoginEnrolled))).any enrolsAlice = true := by
    decide +kernel
  obtain ⟨p, hp, hcheck⟩ := (Option.any_eq_true _ _).mp hplay
  have hrun := (Play.run_sound (world_initial (by decide) (by decide) (by decide)) hp).reached
  simp only [enrolsAlice, Bool.and_eq_true] at hcheck
  obtain ⟨⟨⟨⟨hclean, hplayed⟩, hplayed'⟩, hnew⟩, hnames⟩ := hcheck
  obtain ⟨seg, hseg⟩ := upTo_suffix 1 p.trace
  have hcleaned : clean p.world.clock (upTo 1 p.trace) = true :=
    List.all_eq_true.mpr fun y hy => List.all_eq_true.mp hclean y ((upTo_suffix 1 _).subset hy)
  obtain ⟨q, o, hq, ho, hdone⟩ := exists_turn hplayed hcleaned
  obtain ⟨q', o', hq', ho', hdone'⟩ := exists_turn hplayed' hclean
  obtain ⟨hroute', hbody'⟩ := of_decide_eq_true hq'
  cases hdone.finished with
  | answered started done =>
      cases hdone'.finished with
      | @answered w' _ started' done' =>
          obtain ⟨claims, user, secret, post, w₀, pre, -, -, -, htr, ⟨row, hrow, haccount⟩, hasks,
            hlogin⟩ := enrolment_binds (hseg.symm ▸ hrun) started (of_decide_eq_true hq) done
              (of_decide_eq_true ho)
          have hname : user.username = "alice" := by
            rw [← (UserRow.account_eq haccount).2.1]
            have hmem : row ∈ p.world.users := List.mem_of_find?_eq_some hrow
            exact of_decide_eq_true (List.all_eq_true.mp hnames row hmem)
          have hparsed : ParsesLogin enrolling q' ⟨"alice", password, none, some scriptCode⟩ :=
            ⟨aliceLoginEnrolled, hbody', by simp [enrolling]⟩
          rw [hseg] at hlogin
          have hall : seg ++ post ++ [secretWrite 1 w₀ user.id secret] ⊆ p.trace := by
            rw [← hseg, show upTo 1 p.trace = _ from htr]
            intro y hy
            simp only [List.append_assoc, List.mem_append, List.mem_cons, List.not_mem_nil,
              or_false] at hy ⊢
            obtain hy | hy | hy := hy
            · exact .inl hy
            · exact .inr (.inl hy)
            · exact .inr (.inr (.inl hy))
          have hlater (y : Entry (proxySystem enrolling server)) (hy : y ∈ upTo 1 p.trace) :
              y.tid ≠ 2 := of_decide_eq_true (List.all_eq_true.mp hnew y hy)
          obtain ⟨-, secret', code, -, -, hchecked, hwritten⟩ := hlogin 2 q' o' hlater started'
            hroute' ⟨_, hparsed, hname.symm⟩ ⟨w', done'⟩ (of_decide_eq_true ho')
          exact ⟨p.world, p.trace, o', user.id, secret', code, hrun, ⟨w', done'⟩,
            of_decide_eq_true ho', hasks.mono hall, hwritten.mono hall, hchecked⟩

end Scenario

end ZeroTrustProxy
