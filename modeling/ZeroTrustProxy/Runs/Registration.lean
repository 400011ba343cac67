import ZeroTrustProxy.Contract.RegisterExits
import ZeroTrustProxy.Runs.Bootstrap

/-!
What a registration makes.

The lookup by which `handle_register` refuses a name that is taken and the
insertion of the row are two statements, and other requests may come in between.
What keeps the accounts apart are the unique columns of the table. A row that has
been inserted is not taken away, and no statement changes its name, its address or
its password: so a registration that has been answered can be relied on.
-/

namespace ZeroTrustProxy

open Concurrent Program

variable {X : External} {srv : ProxyServer}
  {A : ProxyTrace X srv → Entry (proxySystem X srv) → Prop} {w w' : World}
  {tr seg pre : ProxyTrace X srv} {t t' : ℕ}

/-! ### The insertion -/

namespace World

/-- A row goes in where its id, its name and its address are new. -/
theorem createUser_fresh {row : UserRow} (h : w.createUser row = some w') :
    (∀ u ∈ w.users, u.id ≠ row.id ∧ u.username ≠ row.username ∧ u.email ≠ row.email) ∧
      w'.users = w.users ++ [row] := by
  unfold createUser at h
  split at h
  · rename_i hok
    simp only [Bool.and_eq_true, List.all_eq_true, decide_eq_true_eq] at hok
    refine ⟨fun u hu => ?_, by rw [← Option.some.inj h]⟩
    obtain ⟨⟨hid, hname⟩, hemail⟩ := hok.1.1.1.1 u hu
    exact ⟨hid, hname, hemail⟩
  · simp at h

theorem created_reply {username email passwordHash : String} {row : UserRow}
    (h : World.act X t (.createUser username email passwordHash (.ok row)) w = some w') :
    row = ⟨row.id, username, email, passwordHash, false, none, true⟩ ∧
      (∀ u ∈ w.users, u.id ≠ row.id ∧ u.username ≠ row.username ∧ u.email ≠ row.email) ∧
      w'.users = w.users ++ [row] := by
  have hinsert : w.insertUser username email passwordHash row = some w' := h
  unfold insertUser at hinsert
  split at hinsert
  · rename_i hshape
    exact ⟨hshape, createUser_fresh hinsert⟩
  · simp at hinsert

theorem hashed_reply {password hash : String}
    (h : World.act X t (.hashPassword password (.ok hash)) w = some w') :
    X.verifyPassword password hash = .ok true := by
  simp only [World.act] at h
  split at h
  · assumption
  · simp at h

end World

/-- The accounts there are after a step are there ever after. -/
theorem accounts_kept_after {e : Event} {w₀ w₁ : World}
    (h : Run A w (seg ++ ⟨t, w₀, .act e⟩ :: pre)) (hact : World.act X t e w₀ = some w₁) :
    AccountsKept w₁ w := by
  refine (h.since (proxy_contract X srv) (fun w _ => AccountsKept w₁ w) ?_ ?_ ?_ ?_ ?_).1
  · intro w₂ _ _ hen
    obtain ⟨_, _, _, hact'⟩ := enabled_event hen
    obtain rfl := Option.some.inj (hact.symm.trans hact')
    exact List.prefix_refl _
  · intro w w' seg m _ hJ henv
    obtain ⟨-, rfl⟩ : w.clock ≤ m ∧ w.advance m = w' := by simpa using henv
    exact hJ
  · exact fun _ hJ _ => hJ
  · exact fun _ hJ _ _ _ hact' _ => hJ.trans (act_accountsKept hact')
  · exact fun _ hJ _ _ _ => hJ

/-- The row of an account that nobody enrols stays as it is. -/
theorem row_kept_after {e : Event} {w₀ w₁ : World} {u : UserRow}
    (h : Run A w (seg ++ ⟨t, w₀, .act e⟩ :: pre)) (hact : World.act X t e w₀ = some w₁)
    (hrow : w₁.userById u.id = some u) (hno : NoEnrolment u.id seg) : w.userById u.id = some u := by
  refine (h.since (proxy_contract X srv)
    (fun w seg => NoEnrolment u.id seg → w.userById u.id = some u) ?_ ?_ ?_ ?_ ?_).1 hno
  · intro w₂ _ _ hen _
    obtain ⟨_, _, _, hact'⟩ := enabled_event hen
    obtain rfl := Option.some.inj (hact.symm.trans hact')
    exact hrow
  · intro w w' seg m _ hJ henv
    obtain ⟨-, rfl⟩ : w.clock ≤ m ∧ w.advance m = w' := by simpa using henv
    exact hJ
  · exact fun _ hJ _ hno => hJ fun y hy => hno y (List.mem_cons_of_mem _ hy)
  · intro w w' seg t' q e' _ hJ _ _ _ hact' _ hno
    have hbefore := hJ fun y hy => hno y (List.mem_cons_of_mem _ hy)
    refine userById_act hact' (fun secret r heq => ?_) hbefore
    exact hno _ List.mem_cons_self secret r (by rw [heq])
  · exact fun _ hJ _ _ _ hno => hJ fun y hy => hno y (List.mem_cons_of_mem _ hy)

/-! ### A registration that has been answered -/

theorem respond_success {r : Except ProxyError Response} (hok : (respond r).status < 400) :
    ∃ o, r = .ok o := by
  cases r with
  | ok o => exact ⟨o, rfl⟩
  | error e =>
      have herror : (errorResponse e).status < 400 := hok
      have := e.statusCode_ne_ok
      simp only [errorResponse] at herror
      omega

/-- Thread `t` has registered the account of the row. -/
structure Registered (tr : ProxyTrace X srv) (t : ℕ) (body : RegisterBody) (row : UserRow) :
    Prop where
  parsed : ∃ q, Started t q tr ∧ q.route = .register ∧ ParsesRegister X q body
  long : 12 ≤ body.password.utf8ByteSize
  hashed : .hashPassword body.password (.ok row.passwordHash) ∈ own t tr
  inserted : .createUser body.username body.email row.passwordHash (.ok row) ∈ own t tr

theorem registered_of_answer (hrun : Run A w tr) {q : Request} {w₀ : World} {o : Response}
    (hq : Started t q tr) (hroute : q.route = .register) (hdone : ⟨t, w₀, .done o⟩ ∈ tr)
    (hok : o.status = 201) : ∃ body row, Registered tr t body row ∧ ParsesRegister X q body ∧
      o = registerAnswer row := by
  obtain ⟨r, hend, rfl⟩ := answered_own hrun hq hdone
  rw [hroute] at hend
  obtain ⟨o', rfl⟩ : ∃ o, r = .ok o := respond_success (by omega)
  generalize hh : own t tr = h at hend
  cases handleRegister_ends hend with
  | @created rate body hash row rated parsed password =>
      have hmem : .createUser body.username body.email hash (.ok row) ∈ own t tr := by simp [hh]
      obtain ⟨l, hl⟩ := suffix_of_mem hmem
      obtain ⟨_, _, _, _, _, -, -, -, -, -, hact⟩ := history_event hrun hl
      have hhash : hash = row.passwordHash := by rw [(World.created_reply hact).1]
      subst hhash
      refine ⟨body, row, ⟨⟨q, hq, hroute, parsed⟩, password, ?_, hmem⟩, parsed, rfl⟩
      simp [hh]

namespace Registered

variable {body : RegisterBody} {row : UserRow}

/-- The insertion, with what it has found and what it has left. -/
theorem entry (h : Registered tr t body row) (hrun : Run A w tr) :
    ∃ seg w₀ pre w₁, tr = seg ++ ⟨t, w₀, .act
        (.createUser body.username body.email row.passwordHash (.ok row))⟩ :: pre ∧
      Run A w₀ pre ∧ World.act X t
        (.createUser body.username body.email row.passwordHash (.ok row)) w₀ = some w₁ := by
  obtain ⟨l, hl⟩ := suffix_of_mem h.inserted
  obtain ⟨seg, pre, w₀, w₁, -, rfl, -, hrun₀, -, -, hact⟩ := history_event hrun hl
  exact ⟨seg, w₀, pre, w₁, rfl, hrun₀, hact⟩

theorem shape (h : Registered tr t body row) (hrun : Run A w tr) :
    row = ⟨row.id, body.username, body.email, row.passwordHash, false, none, true⟩ := by
  obtain ⟨_, _, _, _, -, -, hact⟩ := h.entry hrun
  exact (World.created_reply hact).1

theorem verifies (h : Registered tr t body row) (hrun : Run A w tr) :
    X.verifyPassword body.password row.passwordHash = .ok true := by
  obtain ⟨l, hl⟩ := suffix_of_mem h.hashed
  obtain ⟨_, _, _, _, _, -, -, -, -, -, hact⟩ := history_event hrun hl
  exact World.hashed_reply hact

/-- The insertion leaves the row to be found by its id. -/
theorem found (hrun : Run A w (seg ++ ⟨t, w', .act
      (.createUser body.username body.email row.passwordHash (.ok row))⟩ :: pre)) {w₁ : World}
    (hact : World.act X t (.createUser body.username body.email row.passwordHash (.ok row)) w' =
      some w₁) : w₁.userById row.id = some row := by
  obtain ⟨-, -, w₂, hen⟩ := hrun.entry
  obtain ⟨hrun', hA, -⟩ := hrun.entry
  obtain ⟨_, _, _, hact'⟩ := enabled_event hen
  obtain rfl := Option.some.inj (hact.symm.trans hact')
  refine userById_of_mem (Run.step hrun' hen hA) ?_
  rw [(World.created_reply hact).2.2]
  exact List.mem_append_right _ List.mem_cons_self

/-- The account is found by its id and by its name for as long as the server
runs. -/
theorem kept (h : Registered tr t body row) (hrun : Run A w tr) :
    ∃ u, w.userById row.id = some u ∧ w.userByUsername body.username = some u ∧
      u.account = row := by
  obtain ⟨seg, w₀, pre, w₁, rfl, -, hact⟩ := h.entry hrun
  obtain ⟨u, hu, haccount⟩ := (accounts_kept_after hrun hact).userById (found hrun hact)
  have hshape := h.shape hrun
  have hsame : u.account = row := by
    rw [haccount, hshape]
    rfl
  have hname : u.username = body.username := by
    have husername : u.account.username = row.username := by rw [hsame]
    rw [hshape] at husername
    exact husername
  exact ⟨u, hu, hname ▸ userByUsername_of_userById hrun hu, hsame⟩

/-- A registration differs from one that has inserted its row before. -/
theorem differs_of_before {body' : RegisterBody} {row' : UserRow} {w₀ : World}
    (hrun : Run A w (seg ++ ⟨t, w₀, .act
      (.createUser body.username body.email row.passwordHash (.ok row))⟩ :: pre))
    (hmem : .createUser body'.username body'.email row'.passwordHash (.ok row') ∈ own t' seg) :
    row.id ≠ row'.id ∧ row.username ≠ row'.username ∧ row.email ≠ row'.email := by
  obtain ⟨w₂, hentry⟩ := mem_own.mp hmem
  obtain ⟨post, mid, rfl⟩ := List.append_of_mem hentry
  obtain ⟨-, -, q, w₁, -, -, hact⟩ := event_entry hrun
  rw [List.append_assoc, List.cons_append] at hrun
  obtain ⟨hrun₂, -, -, w₃, -, -, hact'⟩ := event_entry hrun
  obtain ⟨-, hfresh, -⟩ := World.created_reply hact'
  obtain ⟨u, hu, haccount⟩ := (accounts_kept_after hrun₂ hact).userById (found hrun₂ hact)
  obtain ⟨hid, hname, hemail⟩ := hfresh u (List.mem_of_find?_eq_some hu)
  obtain ⟨hid', hname', -, -⟩ := UserRow.account_eq haccount
  have hemail' : u.account.email = row.account.email := congrArg UserRow.email haccount
  change u.email = row.email at hemail'
  exact ⟨hid' ▸ hid, hname' ▸ hname, hemail' ▸ hemail⟩

/-- Two registrations differ in their ids, their names and their addresses. -/
theorem differs {body' : RegisterBody} {row' : UserRow} (h : Registered tr t body row)
    (h' : Registered tr t' body' row') (hrun : Run A w tr) (hne : t ≠ t') :
    row.id ≠ row'.id ∧ row.username ≠ row'.username ∧ row.email ≠ row'.email := by
  obtain ⟨seg, w₀, pre, w₁, rfl, hrun₀, hact⟩ := h.entry hrun
  have hmem := h'.inserted
  rw [own_append, own_act_ne hne, List.mem_append] at hmem
  obtain hlater | hearlier := hmem
  · exact differs_of_before hrun hlater
  · -- the other one has come first
    obtain ⟨w₂, hentry⟩ := mem_own.mp hearlier
    obtain ⟨post, mid, rfl⟩ := List.append_of_mem hentry
    have hrun' : Run A w ((seg ++ ⟨t, w₀, .act
        (.createUser body.username body.email row.passwordHash (.ok row))⟩ :: post) ++
        ⟨t', w₂, .act
          (.createUser body'.username body'.email row'.passwordHash (.ok row'))⟩ :: mid) := by
      simpa using hrun
    have hmem' : .createUser body.username body.email row.passwordHash (.ok row) ∈
        own t (seg ++ ⟨t, w₀, .act
          (.createUser body.username body.email row.passwordHash (.ok row))⟩ :: post) := by
      simp [own_append]
    obtain ⟨hid, hname, hemail⟩ := differs_of_before hrun' hmem'
    exact ⟨hid.symm, hname.symm, hemail.symm⟩

theorem mono (h : Registered tr t body row) : Registered (seg ++ tr) t body row := by
  obtain ⟨q, hq, hroute, hparsed⟩ := h.parsed
  have hown := (own_suffix (List.suffix_append seg tr) t).subset
  exact ⟨⟨q, hq.mono (List.subset_append_right seg tr), hroute, hparsed⟩, h.long, hown h.hashed,
    hown h.inserted⟩

/-- Until it is enrolled, the account has the row it was registered with. -/
theorem unenrolled (h : Registered tr t body row) (hrun : Run A w tr)
    (hno : NoEnrolment row.id tr) : w.userById row.id = some row := by
  obtain ⟨seg, w₀, pre, w₁, rfl, -, hact⟩ := h.entry hrun
  exact row_kept_after hrun hact (found hrun hact) fun y hy => hno y (List.mem_append_left _ hy)

/-- A login that comes later finds the row. -/
theorem looked_up (h : Registered tr t body row) (hrun : Run A w (seg ++ tr)) {τ : ℕ}
    (hnew : ∀ y ∈ tr, y.tid ≠ τ) (hno : NoEnrolment row.id (seg ++ tr)) {found : Option UserRow}
    (hmem : .findUserByUsername body.username (.ok found) ∈ own τ (seg ++ tr)) :
    found = some row := by
  obtain ⟨post, w₁, pre, w₂, rfl, hrun₁, -, hact⟩ := event_after hrun hnew hmem
  have hreg : Registered (pre ++ tr) t body row := h.mono
  have hrow := hreg.unenrolled hrun₁ fun y hy => hno y (by simp at hy ⊢; tauto)
  have hname : row.username = body.username := by rw [hreg.shape hrun₁]
  rw [(World.userByUsername_reply hact).2, ← hname]
  exact userByUsername_of_userById hrun₁ hrow

end Registered

namespace Scenario

def carolRegister : String :=
  "\x7b\"username\":\"carol\",\"email\":\"carol@example.org\",\"password\":\"correct horse battery\"\x7d"

def carolLogin : String :=
  "\x7b\"username\":\"carol\",\"password\":\"correct horse battery\"\x7d"

def carolBody : RegisterBody := ⟨"carol", "carol@example.org", password⟩

def registering : External :=
  { external with
    parseRegisterBody := fun s => if s = carolRegister then some carolBody else none
    parseLoginBody := fun s => if s = carolLogin then some ⟨"carol", password, none, none⟩ else none }

/-- The replies to the commands of a registration, with those of the other commands. -/
def registerReply (mode t : ℕ) (c : Cmd) (w : World) : Option c.Resp :=
  match c with
  | .hashPassword _ => some (.ok passwordHash)
  | .createUser username email hash =>
      some (.ok ⟨⟨"ca401000-0000-4000-8000-000000000003"⟩, username, email, hash, false, none, true⟩)
  | c => World.reply registering mode t c w

def register (body : String) : Request :=
  ⟨"POST", ⟨none, none, "/auth/register"⟩, [], some body, home⟩

/-- Thread 0 has registered Carol, and thread 1 has logged in as Carol since. -/
def registersCarol (tr : ProxyTrace registering server) : Bool :=
  played 0 (fun q => decide (q.route = .register ∧ q.body = some carolRegister))
    (fun o => decide (o.status = 201)) (upTo 0 tr) &&
  played 1 (fun q => decide (q.route = .login ∧ q.body = some carolLogin)) (fun _ => true) tr &&
  ((upTo 0 tr).all fun y => decide (y.tid ≠ 1)) && tr.all fun x => !x.item.isAct enrolment

def registration : List (Move (proxySystem registering server)) :=
  .start 0 (register carolRegister) :: List.replicate 6 (.step 0 0) ++
    .start 1 (login carolLogin) :: List.replicate 24 (.step 1 0)

theorem carol_registers : ((Play.start (world [alice, bob])).run registerReply
    (fun (_ : ProxyTrace registering server) _ => True) registration).any
      (fun p => clean p.world.clock p.trace && registersCarol p.trace) = true := by
  decide +kernel

/-- What the run of `registration` has come to. -/
theorem registration_run : ∃ (w : World) (seg tr : ProxyTrace registering server)
    (q q' : Request) (o : Response) (answer : Option Response), Reachable w (seg ++ tr) ∧
      clean w.clock (seg ++ tr) = true ∧ Finished tr 0 q (some o) ∧ q.route = .register ∧
      q.body = some carolRegister ∧ o.status = 201 ∧ (∀ y ∈ tr, y.tid ≠ 1) ∧
      Finished (seg ++ tr) 1 q' answer ∧ q'.route = .login ∧ q'.body = some carolLogin ∧
      ∀ id, NoEnrolment id (seg ++ tr) := by
  obtain ⟨p, hp, hcheck⟩ := (Option.any_eq_true _ _).mp carol_registers
  have hrun := (Play.run_sound (world_initial (by decide) (by decide) (by decide)) hp).reached
  simp only [registersCarol, Bool.and_eq_true] at hcheck
  obtain ⟨hclean, ⟨⟨hplayed, hplayed'⟩, hnew⟩, hnone⟩ := hcheck
  obtain ⟨seg, hseg⟩ := upTo_suffix 0 p.trace
  have hcleaned : clean p.world.clock (upTo 0 p.trace) = true :=
    List.all_eq_true.mpr fun y hy => List.all_eq_true.mp hclean y ((upTo_suffix 0 _).subset hy)
  obtain ⟨q, o, hq, ho, hdone⟩ := exists_turn hplayed hcleaned
  obtain ⟨q', o', hq', -, hdone'⟩ := exists_turn hplayed' hclean
  obtain ⟨hroute, hbody⟩ := of_decide_eq_true hq
  obtain ⟨hroute', hbody'⟩ := of_decide_eq_true hq'
  refine ⟨p.world, seg, upTo 0 p.trace, q, q', o, some o', hseg.symm ▸ hrun, hseg.symm ▸ hclean,
    hdone.finished, hroute, hbody, of_decide_eq_true ho, ?_, hseg.symm ▸ hdone'.finished, hroute',
    hbody', ?_⟩
  · exact fun y hy => of_decide_eq_true (List.all_eq_true.mp hnew y hy)
  · intro id y hy secret r hitem
    have hone := List.all_eq_true.mp hnone y (hseg ▸ hy)
    simp [hitem, Item.isAct, enrolment] at hone

end Scenario

end ZeroTrustProxy
