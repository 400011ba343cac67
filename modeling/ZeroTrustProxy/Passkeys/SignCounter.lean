import ZeroTrustProxy.Passkeys.Clients

/-!
The sign counter under concurrent sign-ins.

A refresh writes the larger of the counter of the copy its sign-in has loaded
and the counter of its result, whatever has been stored since the load. The
counter of a credential goes back exactly when a sign-in with a larger counter
lands between the load and the refresh of another.
-/

namespace ZeroTrustProxy

open Concurrent Program

variable {W : Webauthn} {S : PasskeyStore W}

/-! ### What a sign-in does -/

/-- A sign-in loads the records of its user, and then refreshes the one with
its credential id. Other clients are not restricted. -/
def ClientLicence : PasskeyClient W → List (PasskeyEvent W) → PasskeyCall W → Prop
  | .any _, _, _ => True
  | .signIn userId credId result, h, c =>
      (c = .getPasskeys userId ∧ h = []) ∨
        ∃ records record, h = [⟨.getPasskeys userId, records⟩] ∧
          records.find? (fun record => decide (record.credId = credId)) = some record ∧
          c = .updatePasskey (refreshed record result)

theorem client_contract (S : PasskeyStore W) :
    Contract (clientSystem S) ClientLicence (fun _ _ _ => True) := by
  intro q
  cases q with
  | any p =>
      have hany (h : List (PasskeyEvent W)) : p.Obeys (fun _ _ => True) h
          (fun _ _ => True) (fun _ _ => True) := by
        induction p generalizing h with
        | ret a => trivial
        | throw e => trivial
        | call c next ih => exact ⟨trivial, fun r => ih r _⟩
      exact hany []
  | signIn userId credId result =>
      show (ZeroTrustProxy.signIn userId credId result).Obeys _ _ _ _
      simp only [ZeroTrustProxy.signIn, storeCall, obeys_bind, obeys_call, obeys_ret]
      refine ⟨.inl ⟨rfl, rfl⟩, fun records => ?_⟩
      cases hfind : records.find? fun record => decide (record.credId = credId) with
      | none => trivial
      | some record =>
          simp only [refreshPasskey, storeCall, obeys_bind, obeys_call, obeys_ret, obeys_ofExcept]
          exact ⟨.inr ⟨records, record, rfl, hfind, rfl⟩, fun r => ⟨fun _ _ => trivial, fun _ _ => trivial⟩⟩

/-- The counter that is stored for a credential, and zero for none. -/
def storedCounter (S : PasskeyStore W) (userId credId : String) (s : S.State) : ℕ :=
  (((S.getPasskeys userId s).find? fun record => decide (record.credId = credId)).map
    fun record => W.counter record.passkey).getD 0

theorem storedCounter_eq (K : KeyedStore S) {userId credId : String} {s : S.State}
    (hvalid : K.Valid s) {passkey : W.Passkey} (hview : K.view s (userId, credId) = some passkey) :
    storedCounter S userId credId s = W.counter passkey := by
  rw [storedCounter, K.find hvalid, hview]
  rfl

theorem storedCounter_congr (K : KeyedStore S) {userId credId : String} {s s' : S.State}
    (hvalid : K.Valid s) (hvalid' : K.Valid s')
    (hview : K.view s' (userId, credId) = K.view s (userId, credId)) :
    storedCounter S userId credId s' = storedCounter S userId credId s := by
  rw [storedCounter, storedCounter, K.find hvalid, K.find hvalid', hview]

/-! ### A period of sign-ins -/

/-- A call that may change what is stored under `k`. -/
def PasskeyCall.writes (k : String × String) : PasskeyCall W → Prop
  | savePasskey record => record.key = k
  | getPasskeys _ => False
  | updatePasskey record => record.key = k
  | deletePasskey userId credId => (userId, credId) = k

/-- In `period` the credential is written by sign-ins only, which have started
in it and have results of this credential. -/
def OnlySignIns (userId credId : String) (period : Trace (clientSystem S)) : Prop :=
  ∀ t w e, ⟨t, w, .act e⟩ ∈ period → e.call.writes (userId, credId) →
    ∃ result, Started t (PasskeyClient.signIn userId credId result) period ∧
      W.encode (W.resultCredId result) = credId

/-- A record of the credential is stored, under the encoding of its own id. -/
def Enrolled (S : PasskeyStore W) (userId credId : String) (s : S.State) : Prop :=
  ∃ record ∈ S.getPasskeys userId s, record.credId = credId ∧
    W.encode (W.credId record.passkey) = credId

/-- A refresh with a result of counter `n` has succeeded within `seg`. -/
def Landed (userId credId : String) (period seg : Trace (clientSystem S)) (n : ℕ) : Prop :=
  ∃ t w record result, ⟨t, w, .act ⟨.updatePasskey record, .ok ()⟩⟩ ∈ seg ∧
    record.key = (userId, credId) ∧ Started t (PasskeyClient.signIn userId credId result) period ∧
    n = W.resultCounter result

/-- The counter never goes back, and is now at least that of every result whose
refresh has succeeded. -/
def CounterKept (userId credId : String) (w : PasskeyWorld S) (period : Trace (clientSystem S)) :
    Prop :=
  (∀ t e w₁ w₂, ⟨t, w₁, .act e⟩ ∈ period → (clientSystem S).act t e w₁ = some w₂ →
    storedCounter S userId credId w₁.store ≤ storedCounter S userId credId w₂.store) ∧
  ∀ n, Landed userId credId period period n → n ≤ storedCounter S userId credId w.store

/-- Between the load and the refresh of a sign-in no refresh lands whose
counter is larger than both the one it has loaded and that of its result. -/
def NoneOvertaken (userId credId : String) (period : Trace (clientSystem S)) : Prop :=
  ∀ t result post w₁ e mid w₂ records pre,
    period = post ++ ⟨t, w₁, .act e⟩ :: (mid ++ ⟨t, w₂, .act ⟨.getPasskeys userId, records⟩⟩ :: pre) →
    Started t (PasskeyClient.signIn userId credId result) period → e.call.writes (userId, credId) →
    ∀ n, Landed userId credId period mid n →
      n ≤ max (storedCounter S userId credId w₂.store) (W.resultCounter result)

theorem CallEffect.untouched {K : KeyedStore S} {e : PasskeyEvent W} {s s' : S.State}
    (h : CallEffect K e s s') {k : String × String} (hne : ¬ e.call.writes k) :
    K.view s' k = K.view s k := by
  cases h with
  | saved record hview =>
      rw [hview]
      exact Function.update_of_ne (Ne.symm hne) _ _
  | updated record hbefore hview =>
      rw [hview]
      exact Function.update_of_ne (Ne.symm hne) _ _
  | deleted userId credId hview =>
      rw [hview]
      exact Function.update_of_ne (Ne.symm hne) _ _
  | _ => rfl

section Period

variable {userId credId : String} {full seg tr₀ : Trace (clientSystem S)} {t τ : ℕ}
  {q : PasskeyClient W} {w₀ w₁ w w' : PasskeyWorld S} {e : PasskeyEvent W}

theorem signIn_unique (hrun : Reachable w (full ++ ⟨τ, w₀, .start q⟩ :: tr₀))
    {result result' : W.AuthenticationResult}
    (h : Started t (PasskeyClient.signIn userId credId result) (full ++ [⟨τ, w₀, .start q⟩]))
    (h' : Started t (PasskeyClient.signIn userId credId result') (full ++ [⟨τ, w₀, .start q⟩])) :
    result = result' := by
  have hfull : full ++ [⟨τ, w₀, .start q⟩] ⊆ full ++ ⟨τ, w₀, .start q⟩ :: tr₀ := by
    apply List.append_subset.mpr
    exact ⟨List.subset_append_left _ _, by simp⟩
  exact (PasskeyClient.signIn.inj (hrun.started_unique (h.mono hfull) (h'.mono hfull))).2.2

/-- What a write of the credential is: the refresh of a sign-in that has loaded
its record within the period. -/
theorem signIn_load (K : KeyedStore S) (hrun : Reachable w (full ++ ⟨τ, w₀, .start q⟩ :: tr₀))
    (honly : OnlySignIns userId credId (full ++ [⟨τ, w₀, .start q⟩]))
    (hsub : ⟨t, w₁, .act e⟩ :: seg <:+ full) (hwrites : e.call.writes (userId, credId)) :
    ∃ result passkey mid w₂ records pre,
      Started t (PasskeyClient.signIn userId credId result) (full ++ [⟨τ, w₀, .start q⟩]) ∧
      W.encode (W.resultCredId result) = credId ∧
      seg = mid ++ ⟨t, w₂, .act ⟨.getPasskeys userId, records⟩⟩ :: pre ∧
      own t seg = [⟨.getPasskeys userId, records⟩] ∧
      K.view w₂.store (userId, credId) = some passkey ∧
      e.call = .updatePasskey (refreshed ⟨userId, credId, passkey⟩ result) := by
  obtain ⟨result, hstarted, hgenuine⟩ :=
    honly t w₁ e (List.mem_append_left _ (hsub.subset List.mem_cons_self)) hwrites
  have hfull : full ++ ⟨τ, w₀, .start q⟩ :: tr₀ = (full ++ [⟨τ, w₀, .start q⟩]) ++ tr₀ := by simp
  have hfresh := (hfull ▸ hrun).fresh_of_started hstarted
  obtain ⟨post, rfl⟩ := hsub
  have hsplit : post ++ ⟨t, w₁, .act e⟩ :: seg ++ ⟨τ, w₀, .start q⟩ :: tr₀ =
      post ++ ⟨t, w₁, .act e⟩ :: (seg ++ ⟨τ, w₀, .start q⟩ :: tr₀) := by simp
  have hrun' := hrun
  rw [hsplit] at hrun'
  obtain ⟨hbefore, -, w₃, hen⟩ := hrun'.entry
  obtain ⟨q', hq, hL, hact⟩ := hen.licensed (client_contract S)
  have hq' : Started t q' (post ++ ⟨t, w₁, .act e⟩ :: seg ++ ⟨τ, w₀, .start q⟩ :: tr₀) := by
    refine hq.mono fun y hy => ?_
    rw [hsplit]
    exact List.mem_append_right _ (List.mem_cons_of_mem _ hy)
  have hstarted' : Started t (PasskeyClient.signIn userId credId result)
      (post ++ ⟨t, w₁, .act e⟩ :: seg ++ ⟨τ, w₀, .start q⟩ :: tr₀) := by
    refine hstarted.mono fun y hy => ?_
    rw [hfull]
    exact List.mem_append_left _ hy
  obtain rfl := hrun.started_unique hq' hstarted'
  have hown : own t (seg ++ ⟨τ, w₀, .start q⟩ :: tr₀) = own t seg := by
    rw [own_append, own_start, own_eq_nil hfresh, List.append_nil]
  rw [hown] at hL
  rcases hL with ⟨hget, -⟩ | ⟨records, record, hload, hfind, hcall⟩
  · have hget' : e.call = .getPasskeys userId := hget
    rw [hget'] at hwrites
    exact hwrites.elim
  · obtain ⟨mid, w₂, pre, rfl, -⟩ := own_last hload
    have hloaded : Reachable w₁ (mid ++ ⟨t, w₂, .act ⟨.getPasskeys userId, records⟩⟩ ::
        (pre ++ ⟨τ, w₀, .start q⟩ :: tr₀)) := by
      simpa using hbefore
    obtain ⟨hrun₂, -, w₄, hen₂⟩ := hloaded.entry
    obtain ⟨-, -, -, hact₂⟩ := hen₂.licensed (client_contract S)
    obtain ⟨hrecords, -⟩ := Option.ite_none_right_eq_some.mp hact₂
    have hrecords' : S.getPasskeys userId w₂.store = records := hrecords
    rw [← hrecords', K.find (enrolment K hrun₂).valid] at hfind
    obtain ⟨passkey, hview, rfl⟩ := Option.map_eq_some_iff.mp hfind
    exact ⟨result, passkey, mid, w₂, records, pre, hstarted, hgenuine, rfl, hload, hview, hcall⟩

/-- The credential is in the map, under the encoding of its own id. -/
def Genuine (K : KeyedStore S) (userId credId : String) (w : PasskeyWorld S) : Prop :=
  ∃ passkey, K.view w.store (userId, credId) = some passkey ∧ W.encode (W.credId passkey) = credId

theorem Genuine.of_enrolled {K : KeyedStore S} (hvalid : K.Valid w.store)
    (h : Enrolled S userId credId w.store) : Genuine K userId credId w := by
  obtain ⟨⟨u, c, passkey⟩, hmem, rfl, hencode⟩ := h
  obtain ⟨rfl, hview⟩ := (K.get hvalid userId _).mp hmem
  exact ⟨passkey, hview, hencode⟩

theorem CallEffect.update {K : KeyedStore S} {s s' : S.State} (h : CallEffect K e s s')
    {record : PasskeyRecord W} (hcall : e.call = .updatePasskey record)
    (hthere : K.view s record.key ≠ none) : e = ⟨.updatePasskey record, .ok ()⟩ ∧
      K.view s' = Function.update (K.view s) record.key (some record.passkey) := by
  cases h with
  | updated record' hbefore hview =>
      obtain rfl : record' = record := PasskeyCall.updatePasskey.inj hcall
      exact ⟨rfl, hview⟩
  | unknown record' hview =>
      obtain rfl : record' = record := PasskeyCall.updatePasskey.inj hcall
      exact (hthere hview).elim
  | saved | refused | listed | deleted => cases hcall

theorem enrolled_kept (K : KeyedStore S) (hrun : Reachable w (full ++ ⟨τ, w₀, .start q⟩ :: tr₀))
    (honly : OnlySignIns userId credId (full ++ [⟨τ, w₀, .start q⟩]))
    (hgenuine : Genuine K userId credId w₀)
    (h : Reachable w₁ (seg ++ ⟨τ, w₀, .start q⟩ :: tr₀)) (hsub : seg <:+ full) :
    Genuine K userId credId w₁ := by
  refine (h.since (client_contract S) (fun w seg => seg <:+ full → Genuine K userId credId w)
    ?_ ?_ ?_ ?_ ?_).1 hsub
  · intro w _ _ hen _
    cases hen
    exact hgenuine
  · intro w w' seg now _ hJ hm hsub
    obtain rfl := Option.some.inj hm
    exact hJ hsub
  · exact fun _ hJ _ hsub => hJ ((List.suffix_cons _ _).trans hsub)
  · intro w w' seg t q' e hbefore hJ hpast _ _ hact _ hsub
    obtain ⟨old, hold, hencode⟩ := hJ ((List.suffix_cons _ _).trans hsub)
    obtain ⟨-, heffect, -⟩ := client_step K (enrolment K hbefore).valid hact
    by_cases hwrites : e.call.writes (userId, credId)
    · obtain ⟨result, passkey, mid, w₂, records, pre, -, -, rfl, -, hview, hcall⟩ :=
        signIn_load K hrun honly hsub hwrites
      -- the copy that was loaded is of the same credential
      have hload : ⟨t, w₂, .act ⟨.getPasskeys userId, records⟩⟩ :: pre <:+
          mid ++ ⟨t, w₂, .act ⟨.getPasskeys userId, records⟩⟩ :: pre := List.suffix_append _ _
      obtain ⟨passkey', hview', hencode'⟩ := hpast _ pre hload
        ((List.suffix_cons _ _).trans (hload.trans ((List.suffix_cons _ _).trans hsub)))
      obtain rfl := Option.some.inj (hview.symm.trans hview')
      have hthere : K.view w.store (refreshed ⟨userId, credId, passkey⟩ result).key ≠ none :=
        Option.ne_none_iff_exists'.mpr ⟨old, hold⟩
      obtain ⟨-, hset⟩ := heffect.update hcall hthere
      refine ⟨W.updateCredential passkey result, ?_, by rw [W.updateCredential_credId, hencode']⟩
      rw [hset]
      exact Function.update_self _ _ _
    · exact ⟨old, by rw [heffect.untouched hwrites, hold], hencode⟩
  · exact fun _ hJ _ _ _ hsub => hJ ((List.suffix_cons _ _).trans hsub)

/-- The write of a refresh: the larger of the counter that was loaded and that
of the result. -/
theorem refresh_counter (K : KeyedStore S) (hrun : Reachable w (full ++ ⟨τ, w₀, .start q⟩ :: tr₀))
    (honly : OnlySignIns userId credId (full ++ [⟨τ, w₀, .start q⟩]))
    (hgenuine : Genuine K userId credId w₀)
    (h : Reachable w₁ (seg ++ ⟨τ, w₀, .start q⟩ :: tr₀)) (hsub : ⟨t, w₁, .act e⟩ :: seg <:+ full)
    (hact : (clientSystem S).act t e w₁ = some w') (hwrites : e.call.writes (userId, credId)) :
    ∃ result record mid w₂ records pre,
      Started t (PasskeyClient.signIn userId credId result) (full ++ [⟨τ, w₀, .start q⟩]) ∧
      e = ⟨.updatePasskey record, .ok ()⟩ ∧ record.key = (userId, credId) ∧
      seg = mid ++ ⟨t, w₂, .act ⟨.getPasskeys userId, records⟩⟩ :: pre ∧
      own t seg = [⟨.getPasskeys userId, records⟩] ∧
      storedCounter S userId credId w'.store =
        max (storedCounter S userId credId w₂.store) (W.resultCounter result) := by
  obtain ⟨result, passkey, mid, w₂, records, pre, hstarted, hresult, rfl, hown, hview, hcall⟩ :=
    signIn_load K hrun honly hsub hwrites
  have hseg := (List.suffix_cons _ _).trans hsub
  obtain ⟨old, hold, -⟩ := enrolled_kept K hrun honly hgenuine h hseg
  have hload : ⟨t, w₂, .act ⟨.getPasskeys userId, records⟩⟩ :: pre <:+
      mid ++ ⟨t, w₂, .act ⟨.getPasskeys userId, records⟩⟩ :: pre := List.suffix_append _ _
  have hloaded : Reachable w₁ (mid ++ ⟨t, w₂, .act ⟨.getPasskeys userId, records⟩⟩ ::
      (pre ++ ⟨τ, w₀, .start q⟩ :: tr₀)) := by
    simpa using h
  obtain ⟨hrun₂, -⟩ := hloaded.entry
  obtain ⟨passkey', hview', hencode⟩ := enrolled_kept K hrun honly hgenuine hrun₂
    ((List.suffix_cons _ _).trans (hload.trans hseg))
  obtain rfl := Option.some.inj (hview.symm.trans hview')
  have hsameId : W.resultCredId result = W.credId passkey :=
    W.encode_injective (hresult.trans hencode.symm)
  obtain ⟨hvalid, heffect, -⟩ := client_step K (enrolment K h).valid hact
  have hthere : K.view w₁.store (refreshed ⟨userId, credId, passkey⟩ result).key ≠ none :=
    Option.ne_none_iff_exists'.mpr ⟨old, hold⟩
  obtain ⟨he, hset⟩ := heffect.update hcall hthere
  have hview₁ : K.view w'.store (userId, credId) = some (W.updateCredential passkey result) := by
    rw [hset]
    exact Function.update_self _ _ _
  refine ⟨result, _, mid, w₂, records, pre, hstarted, he, rfl, rfl, hown, ?_⟩
  rw [storedCounter_eq K hvalid hview₁, storedCounter_eq K (enrolment K hrun₂).valid hview,
    W.updateCredential_counter passkey result hsameId]

theorem Landed.mono {period : Trace (clientSystem S)} {seg seg' : Trace (clientSystem S)} {n : ℕ}
    (h : Landed userId credId period seg n) (hsub : seg ⊆ seg') :
    Landed userId credId period seg' n := by
  obtain ⟨t, w, record, result, hmem, hrest⟩ := h
  exact ⟨t, w, record, result, hsub hmem, hrest⟩

/-- What is kept of the counters while no sign-in is overtaken. What is stored
is the largest of what any load has seen and what has landed since. -/
structure CountersSince (userId credId : String) (period : Trace (clientSystem S))
    (w : PasskeyWorld S) (seg : Trace (clientSystem S)) : Prop where
  steps : ∀ t e w₁ w₂, ⟨t, w₁, .act e⟩ ∈ seg → (clientSystem S).act t e w₁ = some w₂ →
    storedCounter S userId credId w₁.store ≤ storedCounter S userId credId w₂.store
  landed : ∀ n, Landed userId credId period seg n → n ≤ storedCounter S userId credId w.store
  loaded : ∀ t w₂ records post pre,
    seg = post ++ ⟨t, w₂, .act ⟨.getPasskeys userId, records⟩⟩ :: pre →
    storedCounter S userId credId w₂.store ≤ storedCounter S userId credId w.store ∧
    ∀ B, storedCounter S userId credId w₂.store ≤ B →
      (∀ n, Landed userId credId period post n → n ≤ B) →
      storedCounter S userId credId w.store ≤ B

/-- A step that does not write the credential. -/
theorem CountersSince.quiet {period : Trace (clientSystem S)} {item : Item (clientSystem S)}
    (h : CountersSince userId credId period w seg)
    (hsame : storedCounter S userId credId w'.store = storedCounter S userId credId w.store)
    (hquiet : ∀ e, item = .act e → ¬ e.call.writes (userId, credId))
    (hact : ∀ e, item = .act e → (clientSystem S).act t e w = some w') :
    CountersSince userId credId period w' (⟨t, w, item⟩ :: seg) where
  steps := by
    intro t' e w₁ w₂ hmem hstep
    rcases List.mem_cons.mp hmem with heq | hold
    · obtain ⟨rfl, rfl, hitem⟩ := Entry.mk.inj heq
      obtain rfl := Option.some.inj (hstep.symm.trans (hact e hitem.symm))
      exact hsame.ge
    · exact h.steps t' e w₁ w₂ hold hstep
  landed := by
    rintro n ⟨t', w₁, record, result, hmem, hkey, hrest⟩
    rcases List.mem_cons.mp hmem with heq | hold
    · exact (hquiet _ (Entry.mk.inj heq).2.2.symm hkey).elim
    · rw [hsame]
      exact h.landed n ⟨t', w₁, record, result, hold, hkey, hrest⟩
  loaded := by
    intro t' w₂ records post pre hseg
    cases post with
    | nil =>
        obtain ⟨heq, -⟩ := List.cons.inj hseg
        obtain ⟨-, rfl, -⟩ := Entry.mk.inj heq
        exact ⟨hsame.ge, fun B hB _ => hsame.trans_le hB⟩
    | cons y post =>
        obtain ⟨-, rfl⟩ := List.cons.inj hseg
        obtain ⟨hle, hleast⟩ := h.loaded t' w₂ records post pre rfl
        rw [hsame]
        exact ⟨hle, fun B hB hall => hleast B hB fun n hn => hall n (hn.mono (List.subset_cons_self _ _))⟩

/-- A refresh that overtakes no one writes the larger of what is stored and its
own result. -/
theorem CountersSince.refresh {period : Trace (clientSystem S)}
    (h : CountersSince userId credId period w seg) (hwrites : e.call.writes (userId, credId))
    (hact : (clientSystem S).act t e w = some w') (result : W.AuthenticationResult)
    (hunique : ∀ result', Started t (PasskeyClient.signIn userId credId result') period →
      result' = result)
    (hlands : Landed userId credId period [⟨t, w, .act e⟩] (W.resultCounter result))
    (hcounter : storedCounter S userId credId w'.store =
      max (storedCounter S userId credId w.store) (W.resultCounter result)) :
    CountersSince userId credId period w' (⟨t, w, .act e⟩ :: seg) where
  steps := by
    intro t' e' w₁ w₂ hmem hstep
    rcases List.mem_cons.mp hmem with heq | hold
    · obtain ⟨rfl, rfl, hitem⟩ := Entry.mk.inj heq
      obtain rfl := Item.act.inj hitem
      obtain rfl := Option.some.inj (hstep.symm.trans hact)
      omega
    · exact h.steps t' e' w₁ w₂ hold hstep
  landed := by
    rintro n ⟨t', w₁, record, result', hmem, hkey, hstarted, rfl⟩
    rcases List.mem_cons.mp hmem with heq | hold
    · obtain ⟨rfl, -, -⟩ := Entry.mk.inj heq
      rw [hunique result' hstarted, hcounter]
      exact le_max_right _ _
    · have hle := h.landed _ ⟨t', w₁, record, result', hold, hkey, hstarted, rfl⟩
      omega
  loaded := by
    intro t' w₂ records post pre hseg
    cases post with
    | nil =>
        obtain ⟨heq, -⟩ := List.cons.inj hseg
        obtain ⟨-, -, hitem⟩ := Entry.mk.inj heq
        rw [Item.act.inj hitem] at hwrites
        exact hwrites.elim
    | cons y post =>
        obtain ⟨rfl, rfl⟩ := List.cons.inj hseg
        obtain ⟨hle, hleast⟩ := h.loaded t' w₂ records post pre rfl
        refine ⟨by omega, fun B hB hall => ?_⟩
        have hbefore := hleast B hB fun n hn => hall n (hn.mono (List.subset_cons_self _ _))
        have hmine : W.resultCounter result ≤ B := hall _ (hlands.mono (by simp))
        omega

theorem counters_since (K : KeyedStore S)
    (hrun : Reachable w (full ++ ⟨τ, w₀, .start q⟩ :: tr₀))
    (honly : OnlySignIns userId credId (full ++ [⟨τ, w₀, .start q⟩]))
    (hgenuine : Genuine K userId credId w₀)
    (hnone : NoneOvertaken userId credId (full ++ [⟨τ, w₀, .start q⟩]))
    (h : Reachable w₁ (seg ++ ⟨τ, w₀, .start q⟩ :: tr₀)) (hsub : seg <:+ full) :
    CountersSince userId credId (full ++ [⟨τ, w₀, .start q⟩]) w₁ seg := by
  refine (h.since (client_contract S) (fun w seg => seg <:+ full →
    CountersSince userId credId (full ++ [⟨τ, w₀, .start q⟩]) w seg) ?_ ?_ ?_ ?_ ?_).1 hsub
  · intro w _ _ _ _
    refine ⟨by simp, ?_, by simp⟩
    rintro n ⟨t, w, record, result, hmem, -⟩
    simp at hmem
  · intro w w' seg now _ hJ hm hsub
    obtain rfl := Option.some.inj hm
    have hJ' := hJ hsub
    exact ⟨hJ'.steps, hJ'.landed, hJ'.loaded⟩
  · intro w seg t q' hJ _ hsub
    exact (hJ ((List.suffix_cons _ _).trans hsub)).quiet rfl (by simp) (by simp)
  · intro w w' seg t q' e hbefore hJ _ _ _ hact _ hsub
    have hJ' := hJ ((List.suffix_cons _ _).trans hsub)
    by_cases hwrites : e.call.writes (userId, credId)
    · obtain ⟨result, record, mid, w₂, records, pre, hstarted, rfl, hkey, rfl, -, hcounter⟩ :=
        refresh_counter K hrun honly hgenuine hbefore hsub hact hwrites
      obtain ⟨hle, hleast⟩ := hJ'.loaded t w₂ records mid pre rfl
      obtain ⟨post, hpost⟩ := hsub
      -- what has landed since the load is no larger than what is written
      have hwritten : storedCounter S userId credId w.store ≤
          max (storedCounter S userId credId w₂.store) (W.resultCounter result) := by
        refine hleast _ (le_max_left _ _) fun n hn => ?_
        refine hnone t result post w _ mid w₂ records (pre ++ [⟨τ, w₀, .start q⟩]) ?_ hstarted
          hwrites n hn
        rw [← hpost]
        simp
      refine hJ'.refresh hwrites hact result ?_ ?_ ?_
      · exact fun result' hstarted' => signIn_unique hrun hstarted' hstarted
      · exact ⟨t, w, record, result, List.mem_cons_self, hkey, hstarted, rfl⟩
      · omega
    · obtain ⟨hvalid, heffect, -⟩ := client_step K (enrolment K hbefore).valid hact
      refine hJ'.quiet ?_ ?_ ?_
      · exact storedCounter_congr K (enrolment K hbefore).valid hvalid (heffect.untouched hwrites)
      · rintro e' heq
        obtain rfl := Item.act.inj heq
        exact hwrites
      · rintro e' heq
        obtain rfl := Item.act.inj heq
        exact hact
  · intro w seg t q' o _ hJ _ _ _ hsub
    exact (hJ ((List.suffix_cons _ _).trans hsub)).quiet rfl (by simp) (by simp)

/-- While no step lets the counter go back, what any step has left is a lower
bound. -/
theorem counter_after (h : Reachable w (seg ++ ⟨τ, w₀, .start q⟩ :: tr₀))
    (hsteps : ∀ t e w₁ w₂, ⟨t, w₁, .act e⟩ ∈ seg → (clientSystem S).act t e w₁ = some w₂ →
      storedCounter S userId credId w₁.store ≤ storedCounter S userId credId w₂.store)
    {t : ℕ} {w₁ w₂ : PasskeyWorld S} (hmem : ⟨t, w₁, .act e⟩ ∈ seg)
    (hact : (clientSystem S).act t e w₁ = some w₂) :
    storedCounter S userId credId w₂.store ≤ storedCounter S userId credId w.store := by
  refine (h.since (client_contract S) (fun w seg =>
    (∀ t e w₁ w₂, ⟨t, w₁, .act e⟩ ∈ seg → (clientSystem S).act t e w₁ = some w₂ →
      storedCounter S userId credId w₁.store ≤ storedCounter S userId credId w₂.store) →
    ∀ t e w₁ w₂, ⟨t, w₁, .act e⟩ ∈ seg → (clientSystem S).act t e w₁ = some w₂ →
      storedCounter S userId credId w₂.store ≤ storedCounter S userId credId w.store)
    ?_ ?_ ?_ ?_ ?_).1 hsteps t e w₁ w₂ hmem hact
  · simp
  · intro w w' seg now _ hJ hm hsteps
    obtain rfl := Option.some.inj hm
    exact hJ hsteps
  · intro w seg t q' hJ _ hsteps t' e' w₁ w₂ hmem
    simp only [List.mem_cons, Entry.mk.injEq, reduceCtorEq, and_false, false_or] at hmem
    exact hJ (fun t e w₁ w₂ h => hsteps t e w₁ w₂ (List.mem_cons_of_mem _ h)) t' e' w₁ w₂ hmem
  · intro w w' seg t q' e _ hJ _ _ _ hact _ hsteps t' e' w₁ w₂ hmem hact'
    have hlast := hsteps t e w w' List.mem_cons_self hact
    rcases List.mem_cons.mp hmem with heq | hold
    · obtain ⟨rfl, rfl, hitem⟩ := Entry.mk.inj heq
      obtain rfl := Item.act.inj hitem
      obtain rfl := Option.some.inj (hact'.symm.trans hact)
      exact le_rfl
    · have hle := hJ (fun t e w₁ w₂ h => hsteps t e w₁ w₂ (List.mem_cons_of_mem _ h))
        t' e' w₁ w₂ hold hact'
      omega
  · intro w seg t q' o _ hJ _ _ _ hsteps t' e' w₁ w₂ hmem
    simp only [List.mem_cons, Entry.mk.injEq, reduceCtorEq, and_false, false_or] at hmem
    exact hJ (fun t e w₁ w₂ h => hsteps t e w₁ w₂ (List.mem_cons_of_mem _ h)) t' e' w₁ w₂ hmem

/-- The load of a sign-in is its only event before its refresh. -/
theorem load_unique {load : PasskeyEvent W} {mid mid' pre pre' : Trace (clientSystem S)}
    {w₂ w₂' : PasskeyWorld S} {load' : PasskeyEvent W}
    (hown : own t (mid ++ ⟨t, w₂, .act load⟩ :: pre) = [load'])
    (heq : mid ++ ⟨t, w₂, .act load⟩ :: pre = mid' ++ ⟨t, w₂', .act load'⟩ :: pre') : w₂ = w₂' := by
  have hrest {e : PasskeyEvent W} {w : PasskeyWorld S} {l l' : Trace (clientSystem S)}
      (h : own t (l ++ ⟨t, w, .act e⟩ :: l') = [load']) : own t l' = [] := by
    rw [own_append, own_act_self] at h
    have hlength := congrArg List.length h
    simp only [List.length_append, List.length_cons, List.length_nil] at hlength
    exact List.eq_nil_of_length_eq_zero (by omega)
  have hnone {l : Trace (clientSystem S)} (h : own t l = []) :
      ∀ y ∈ l, ¬ (y.tid = t ∧ ∃ e, y.item = .act e) := by
    rintro ⟨t', w, item⟩ hy ⟨rfl, e, rfl⟩
    have hmem : e ∈ own t' l := mem_own.mpr ⟨w, hy⟩
    rw [h] at hmem
    simp at hmem
  have hsplit := split_eq (p := fun y : Entry (clientSystem S) => y.tid = t ∧ ∃ e, y.item = .act e)
    heq ⟨rfl, _, rfl⟩ ⟨rfl, _, rfl⟩ (hnone (hrest hown)) (hnone (hrest (heq ▸ hown)))
  exact (Entry.mk.inj hsplit.1).2.1

end Period

/-- **The sign counter is kept exactly when no sign-in is overtaken.** For
either backend and any period in which the credential is enrolled and written
by sign-ins only: no step lets its counter go back and it ends at least as high
as every result that was accepted if and only if no refresh whose counter is
larger than what a sign-in has loaded and what it brings lands between the load
and the refresh of that sign-in. -/
theorem sign_counter_kept_iff (kind : PasskeyStoreKind) {userId credId : String}
    {seg tr₀ : Trace (clientSystem (passkeyStoreHandle W kind))} {τ : ℕ} {q : PasskeyClient W}
    {w₀ w : PasskeyWorld (passkeyStoreHandle W kind)}
    (h : Reachable w (seg ++ ⟨τ, w₀, .start q⟩ :: tr₀))
    (henrolled : Enrolled (passkeyStoreHandle W kind) userId credId w₀.store)
    (honly : OnlySignIns userId credId (seg ++ [⟨τ, w₀, .start q⟩])) :
    CounterKept userId credId w (seg ++ [⟨τ, w₀, .start q⟩]) ↔
      NoneOvertaken userId credId (seg ++ [⟨τ, w₀, .start q⟩]) := by
  have hact {t : ℕ} {e : PasskeyEvent W} {w₁ : PasskeyWorld (passkeyStoreHandle W kind)}
      (hmem : ⟨t, w₁, .act e⟩ ∈ seg ++ [⟨τ, w₀, .start q⟩]) : ⟨t, w₁, .act e⟩ ∈ seg := by
    simpa using hmem
  have hgenuine : Genuine (keyedStore W kind) userId credId w₀ :=
    .of_enrolled (enrolment (keyedStore W kind) h.entry.1).valid henrolled
  have hmoment {post rest : Trace (clientSystem (passkeyStoreHandle W kind))} {t : ℕ}
      {e : PasskeyEvent W} {w₁ : PasskeyWorld (passkeyStoreHandle W kind)}
      (hseg : seg = post ++ ⟨t, w₁, .act e⟩ :: rest) :
      Reachable w₁ (rest ++ ⟨τ, w₀, .start q⟩ :: tr₀) ∧
        ∃ w', (clientSystem (passkeyStoreHandle W kind)).act t e w₁ = some w' := by
    have hrun : Reachable w (post ++ ⟨t, w₁, .act e⟩ :: (rest ++ ⟨τ, w₀, .start q⟩ :: tr₀)) := by
      simpa [hseg] using h
    obtain ⟨hbefore, -, w', hen⟩ := hrun.entry
    obtain ⟨-, -, -, hstep⟩ := hen.licensed (client_contract _)
    exact ⟨hbefore, w', hstep⟩
  constructor
  · rintro ⟨hsteps, -⟩ t result post w₁ e mid w₂ records pre hperiod hstarted hwrites n hlanded
    obtain ⟨pre', hseg⟩ : ∃ pre', seg = post ++ ⟨t, w₁, .act e⟩ ::
        (mid ++ ⟨t, w₂, .act ⟨.getPasskeys userId, records⟩⟩ :: pre') := by
      have hcut : seg ++ ⟨τ, w₀, .start q⟩ :: [] = (post ++ ⟨t, w₁, .act e⟩ :: mid) ++
          ⟨t, w₂, .act ⟨.getPasskeys userId, records⟩⟩ :: pre := by
        simpa using hperiod
      rcases split_cases hcut (by simp) with ⟨pre', hseg, -⟩ | ⟨pre', -, hnil⟩
      · exact ⟨pre', by simpa using hseg⟩
      · simp at hnil
    obtain ⟨hbefore, w', hstep⟩ := hmoment hseg
    obtain ⟨result', record, mid', w₂', records', pre'', hstarted', -, -, hload, hown, hcounter⟩ :=
      refresh_counter (keyedStore W kind) h honly hgenuine hbefore
        ⟨post, hseg.symm⟩ hstep hwrites
    obtain rfl := signIn_unique h hstarted hstarted'
    obtain rfl : w₂ = w₂' := load_unique hown hload
    -- the refresh that has landed since is in what is stored
    obtain ⟨t', w₃, record', result', hmem, hkey, hstarted₃, rfl⟩ := hlanded
    obtain ⟨mid₁, mid₂, rfl⟩ := List.append_of_mem hmem
    have hseg₃ : seg = (post ++ ⟨t, w₁, .act e⟩ :: mid₁) ++ ⟨t', w₃, .act ⟨.updatePasskey record', .ok ()⟩⟩ ::
        (mid₂ ++ ⟨t, w₂, .act ⟨.getPasskeys userId, records⟩⟩ :: pre') := by
      simpa using hseg
    obtain ⟨hbefore₃, w₃', hstep₃⟩ := hmoment hseg₃
    obtain ⟨result'', record'', mid'', w₄, records'', pre₄, hstarted₄, -, -, -, -, hlanded⟩ :=
      refresh_counter (keyedStore W kind) h honly hgenuine hbefore₃ ⟨_, hseg₃.symm⟩ hstep₃ hkey
    obtain rfl := signIn_unique h hstarted₃ hstarted₄
    have hwithin {y : Entry (clientSystem (passkeyStoreHandle W kind))}
        (hy : y ∈ (mid₁ ++ ⟨t', w₃, .act ⟨.updatePasskey record', .ok ()⟩⟩ :: mid₂) ++
          ⟨t, w₂, .act ⟨.getPasskeys userId, records⟩⟩ :: pre') : y ∈ seg := by
      rw [hseg]
      exact List.mem_append_right _ (List.mem_cons_of_mem _ hy)
    have hafter : storedCounter (passkeyStoreHandle W kind) userId credId w₃'.store ≤
        storedCounter (passkeyStoreHandle W kind) userId credId w₁.store :=
      counter_after hbefore (fun t e w₁ w₂ hy hstep =>
        hsteps t e w₁ w₂ (List.mem_append_left _ (hwithin hy)) hstep) (by simp) hstep₃
    have hlast := hsteps t e w₁ w' (by simp [hseg]) hstep
    omega
  · intro hnone
    have hkept := counters_since (keyedStore W kind) h honly hgenuine hnone h List.suffix_rfl
    refine ⟨fun t e w₁ w₂ hmem hstep => hkept.steps t e w₁ w₂ (hact hmem) hstep, ?_⟩
    rintro n ⟨t, w₁, record, result, hmem, hrest⟩
    exact hkept.landed n ⟨t, w₁, record, result, hact hmem, hrest⟩

/-! ### Two sign-ins at once -/

/-- Thread `t` runs a sign-in whose result passes `f`. -/
def signsIn (t : ℕ) (userId credId : String) (f : W.AuthenticationResult → Bool)
    (tr : Trace (clientSystem S)) : Bool :=
  tr.any fun x => match x.item with
    | .start (.signIn u c result) => decide (x.tid = t ∧ u = userId ∧ c = credId) && f result
    | _ => false

theorem exists_signIn {t : ℕ} {userId credId : String} {f : W.AuthenticationResult → Bool}
    {tr : Trace (clientSystem S)} (h : signsIn t userId credId f tr = true) :
    ∃ result, Started t (PasskeyClient.signIn userId credId result) tr ∧ f result = true := by
  obtain ⟨⟨t', w, item⟩, hmem, hitem⟩ := List.any_eq_true.mp h
  split at hitem
  · rename_i u c result heq
    obtain ⟨hsame, hf⟩ := Bool.and_eq_true_iff.mp hitem
    obtain ⟨rfl, rfl, rfl⟩ := of_decide_eq_true hsame
    obtain rfl : item = .start (.signIn u c result) := heq
    exact ⟨result, ⟨w, hmem⟩, hf⟩
  · simp at hitem

instance (k : String × String) : DecidablePred (PasskeyCall.writes (W := W) k)
  | .savePasskey record => inferInstanceAs (Decidable (record.key = k))
  | .getPasskeys _ => .isFalse id
  | .updatePasskey record => inferInstanceAs (Decidable (record.key = k))
  | .deletePasskey userId credId => inferInstanceAs (Decidable ((userId, credId) = k))

def signInsOnly (userId credId : String) (period : Trace (clientSystem S)) : Bool :=
  period.all fun y => match y.item with
    | .act e => !decide (e.call.writes (userId, credId)) ||
        signsIn y.tid userId credId (fun r => decide (W.encode (W.resultCredId r) = credId)) period
    | _ => true

theorem onlySignIns {userId credId : String} {period : Trace (clientSystem S)}
    (h : signInsOnly userId credId period = true) : OnlySignIns userId credId period := by
  intro t w e hmem hwrites
  have hentry : (!decide (e.call.writes (userId, credId)) || signsIn t userId credId
      (fun r => decide (W.encode (W.resultCredId r) = credId)) period) = true :=
    List.all_eq_true.mp h _ hmem
  rw [decide_eq_true hwrites] at hentry
  obtain ⟨result, hstarted, hgenuine⟩ := exists_signIn hentry
  exact ⟨result, hstarted, of_decide_eq_true hgenuine⟩

def lands (userId credId : String) (n : ℕ) (period : Trace (clientSystem S)) : Bool :=
  period.any fun y => match y.item with
    | .act ⟨.updatePasskey record, .ok ()⟩ => decide (record.key = (userId, credId)) &&
        signsIn y.tid userId credId (fun r => decide (n = W.resultCounter r)) period
    | _ => false

theorem landed {userId credId : String} {n : ℕ} {period : Trace (clientSystem S)}
    (h : lands userId credId n period = true) : Landed userId credId period period n := by
  obtain ⟨⟨t, w, item⟩, hmem, hitem⟩ := List.any_eq_true.mp h
  split at hitem
  · rename_i record heq
    obtain ⟨hkey, hsignIn⟩ := Bool.and_eq_true_iff.mp hitem
    obtain ⟨result, hstarted, hcounter⟩ := exists_signIn hsignIn
    obtain rfl : item = .act ⟨.updatePasskey record, .ok ()⟩ := heq
    exact ⟨t, w, record, result, hmem, of_decide_eq_true hkey, hstarted, of_decide_eq_true hcounter⟩
  · simp at hitem

/-- The last step was the arrival of a client, in a state in which the
credential is enrolled. -/
def arrives (userId credId : String) (tr : Trace (clientSystem S)) : Bool :=
  match tr with
  | ⟨_, w₀, .start _⟩ :: _ => (S.getPasskeys userId w₀.store).any fun record =>
      decide (record.credId = credId ∧ W.encode (W.credId record.passkey) = credId)
  | _ => false

theorem exists_arrival {userId credId : String} {tr : Trace (clientSystem S)}
    (h : arrives userId credId tr = true) :
    ∃ τ w₀ q tr₀, tr = ⟨τ, w₀, .start q⟩ :: tr₀ ∧ Enrolled S userId credId w₀.store := by
  unfold arrives at h
  split at h
  · rename_i τ w₀ q tr₀
    obtain ⟨record, hmem, hrecord⟩ := List.any_eq_true.mp h
    exact ⟨τ, w₀, q, tr₀, rfl, record, hmem, of_decide_eq_true hrecord⟩
  · simp at h

namespace Scenario

/-- The credential is enrolled, and a sign-in arrives. -/
def signInArrives : List (Move (clientSystem memory)) :=
  [.start 0 enrolClient, .step 0 0, .step 0 0, .start 1 (signInClient 6)]

/-- Two sign-ins load the record; the one with the larger counter is first to
refresh it. -/
def overtaken : List (Move (clientSystem memory)) :=
  [.step 1 0, .start 2 (signInClient 5), .step 2 0, .step 1 0, .step 2 0]

/-- The same two sign-ins, with the smaller counter first. -/
def inOrder : List (Move (clientSystem memory)) :=
  [.step 1 0, .start 2 (signInClient 5), .step 2 0, .step 2 0, .step 1 0]

/-- The period that a script has played out, with what is stored at its end. -/
abbrev playsSignIns (script : List (Move (clientSystem memory)))
    (check : PasskeyWorld memory → Trace (clientSystem memory) → Bool) : Bool :=
  Play.playsThen (S := clientSystem memory) PasskeyWorld.reply (fun _ _ => True)
    ⟨memory.empty, 0⟩ signInArrives
    (fun p => arrives "user-1" credId p.trace) script fun p seg =>
      signInsOnly "user-1" credId (p.trace.take (seg.length + 1)) &&
        check p.world (p.trace.take (seg.length + 1))

theorem exists_period {script : List (Move (clientSystem memory))}
    {check : PasskeyWorld memory → Trace (clientSystem memory) → Bool}
    (h : playsSignIns script check = true) :
    ∃ (w w₀ : PasskeyWorld memory) (seg tr₀ : Trace (clientSystem memory)) (τ : ℕ)
      (q : PasskeyClient softwareAuthenticator),
      Reachable w (seg ++ ⟨τ, w₀, .start q⟩ :: tr₀) ∧ Enrolled memory "user-1" credId w₀.store ∧
      OnlySignIns "user-1" credId (seg ++ [⟨τ, w₀, .start q⟩]) ∧
      check w (seg ++ [⟨τ, w₀, .start q⟩]) = true := by
  obtain ⟨p, p', seg, -, harrives, htrace, hrun, hcheck⟩ := Play.of_playsThen rfl h
  obtain ⟨τ, w₀, q, tr₀, hp, henrolled⟩ := exists_arrival harrives
  rw [hp] at htrace
  have hperiod : p'.trace.take (seg.length + 1) = seg ++ [⟨τ, w₀, .start q⟩] := by
    rw [htrace, List.take_length_add_append]
    rfl
  rw [hperiod] at hcheck
  obtain ⟨honly, hcheck⟩ := Bool.and_eq_true_iff.mp hcheck
  exact ⟨p'.world, w₀, seg, tr₀, τ, q, htrace ▸ hrun, henrolled, onlySignIns honly, hcheck⟩

end Scenario

open Scenario in
/-- The stored counter falls from 6 to 5, with both refreshes accepted. -/
theorem sign_in_overtaken : ¬ ∀ (w w₀ : PasskeyWorld memory)
    (seg tr₀ : Trace (clientSystem memory)) (τ : ℕ) (q : PasskeyClient softwareAuthenticator),
    Reachable w (seg ++ ⟨τ, w₀, .start q⟩ :: tr₀) → Enrolled memory "user-1" credId w₀.store →
    OnlySignIns "user-1" credId (seg ++ [⟨τ, w₀, .start q⟩]) →
    CounterKept "user-1" credId w (seg ++ [⟨τ, w₀, .start q⟩]) := by
  intro hclaim
  have hplay : playsSignIns overtaken (fun w period =>
      lands "user-1" credId 6 period &&
        decide (storedCounter memory "user-1" credId w.store = 5)) = true := by
    decide +kernel
  obtain ⟨w, w₀, seg, tr₀, τ, q, hrun, henrolled, honly, hcheck⟩ := exists_period hplay
  obtain ⟨hlands, hstored⟩ := Bool.and_eq_true_iff.mp hcheck
  have hle := (hclaim w w₀ seg tr₀ τ q hrun henrolled honly).2 6 (landed hlands)
  rw [of_decide_eq_true hstored] at hle
  omega

open Scenario in
/-- With the refreshes in the order of their counters nothing is lost. -/
theorem sign_counter_kept_iff_run : ∃ (w w₀ : PasskeyWorld memory)
    (seg tr₀ : Trace (clientSystem memory)) (τ : ℕ) (q : PasskeyClient softwareAuthenticator),
    Reachable w (seg ++ ⟨τ, w₀, .start q⟩ :: tr₀) ∧
      lands "user-1" credId 6 (seg ++ [⟨τ, w₀, .start q⟩]) = true ∧
      (CounterKept "user-1" credId w (seg ++ [⟨τ, w₀, .start q⟩]) ↔
        NoneOvertaken "user-1" credId (seg ++ [⟨τ, w₀, .start q⟩])) := by
  have hplay : playsSignIns inOrder (fun _ period => lands "user-1" credId 6 period) = true := by
    decide +kernel
  obtain ⟨w, w₀, seg, tr₀, τ, q, hrun, henrolled, honly, hlands⟩ := exists_period hplay
  exact ⟨w, w₀, seg, tr₀, τ, q, hrun, hlands, sign_counter_kept_iff .memory hrun henrolled honly⟩

end ZeroTrustProxy
