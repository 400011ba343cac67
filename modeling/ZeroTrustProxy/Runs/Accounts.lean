import ZeroTrustProxy.Runs.SecondFactor

/-!
What stays of an account.

The statements on the `users` table insert a row or set the second factor of
one. An account is therefore found by its name or its id for as long as the
server runs, with the password and the activity it was created with.
-/

namespace ZeroTrustProxy

open Concurrent

variable {X : External} {srv : ProxyServer}
  {A : ProxyTrace X srv → Entry (proxySystem X srv) → Prop} {w w' : World}
  {tr seg tr₀ : ProxyTrace X srv} {x₀ : Entry (proxySystem X srv)}

/-- A row without its second factor. -/
def UserRow.account (u : UserRow) : UserRow := { u with mfaEnabled := false, mfaSecret := none }

theorem UserRow.account_eq {u u' : UserRow} (h : u.account = u'.account) :
    u.id = u'.id ∧ u.username = u'.username ∧ u.passwordHash = u'.passwordHash ∧
      u.isActive = u'.isActive := by
  obtain ⟨id, username, email, passwordHash, enabled, secret, isActive⟩ := u
  obtain ⟨id', username', email', passwordHash', enabled', secret', isActive'⟩ := u'
  simp only [UserRow.account, UserRow.mk.injEq] at h
  exact ⟨h.1, h.2.1, h.2.2.2.1, h.2.2.2.2.2.2⟩

/-- The accounts of `w` are those of `w'`, at the same place, and there may be
more. -/
def AccountsKept (w w' : World) : Prop :=
  w.users.map UserRow.account <+: w'.users.map UserRow.account

theorem AccountsKept.trans {w'' : World} (h : AccountsKept w w') (h' : AccountsKept w' w'') :
    AccountsKept w w'' :=
  List.IsPrefix.trans h h'

theorem setUserMfaSecret_account (w : World) (id : Uuid) (secret : String) :
    (w.setUserMfaSecret id secret).users.map UserRow.account = w.users.map UserRow.account := by
  simp only [World.setUserMfaSecret, List.map_map]
  refine List.map_congr_left fun u _ => ?_
  show UserRow.account (if u.id = id then _ else u) = u.account
  split <;> rfl

theorem act_accountsKept {t : ℕ} {e : Event} (hact : World.act X t e w = some w') :
    AccountsKept w w' := by
  unfold AccountsKept
  rcases World.act_users hact with hsame | ⟨id, secret, r, -, hset⟩ |
    ⟨_, _, _, _, row, -, -, -, hadd⟩
  · rw [hsame]
  · rw [hset, setUserMfaSecret_account]
  · rw [hadd, List.map_append]
    exact List.prefix_append _ _

/-- The accounts there were before a step are there ever after. -/
theorem accounts_kept (h : Run A w (seg ++ x₀ :: tr₀)) : AccountsKept x₀.pre w := by
  refine (h.since (proxy_contract X srv) (fun w _ => AccountsKept x₀.pre w) ?_ ?_ ?_ ?_ ?_).1
  · intro w _ _ hen
    obtain ⟨t, w₀, item⟩ := x₀
    cases item with
    | act e =>
        obtain ⟨_, _, _, hact⟩ := enabled_event hen
        exact act_accountsKept hact
    | start q =>
        cases hen
        exact List.prefix_refl _
    | done o =>
        cases hen
        exact List.prefix_refl _
  · intro w w' seg m _ hJ henv
    obtain ⟨-, rfl⟩ : w.clock ≤ m ∧ w.advance m = w' := by simpa using henv
    exact hJ
  · exact fun _ hJ _ => hJ
  · exact fun _ hJ _ _ _ hact _ => hJ.trans (act_accountsKept hact)
  · exact fun _ hJ _ _ _ => hJ

/-- A search by what does not change finds the same account. -/
theorem AccountsKept.find (h : AccountsKept w w') {p : UserRow → Bool}
    (hp : ∀ u, p u.account = p u) {u : UserRow} (hu : w.users.find? p = some u) :
    ∃ u', w'.users.find? p = some u' ∧ u'.account = u.account := by
  have hcomp : p ∘ UserRow.account = p := funext hp
  obtain ⟨more, hmore⟩ := h
  have hbefore : (w.users.map UserRow.account).find? p = some u.account := by
    rw [List.find?_map, hcomp, hu]
    rfl
  have hafter : (w'.users.map UserRow.account).find? p = some u.account := by
    rw [← hmore, List.find?_append, hbefore]
    rfl
  rw [List.find?_map, hcomp, Option.map_eq_some_iff] at hafter
  exact hafter

theorem AccountsKept.userByUsername (h : AccountsKept w w') {username : String} {u : UserRow}
    (hu : w.userByUsername username = some u) :
    ∃ u', w'.userByUsername username = some u' ∧ u'.account = u.account :=
  h.find (fun _ => rfl) hu

theorem AccountsKept.userById (h : AccountsKept w w') {id : Uuid} {u : UserRow}
    (hu : w.userById id = some u) : ∃ u', w'.userById id = some u' ∧ u'.account = u.account :=
  h.find (fun _ => rfl) hu

end ZeroTrustProxy
