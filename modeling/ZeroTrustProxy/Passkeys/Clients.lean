import ZeroTrustProxy.Concurrent.Script
import ZeroTrustProxy.Passkeys.Backends
import ZeroTrustProxy.Passkeys.Software

/-!
Concurrent clients of a passkey store.

A client is any program that calls the store; a sign-in is the one that loads
the passkeys of a user and refreshes the one that was used. What a call does to
the map of the store is said once, in `CallEffect`. Only a save puts a key in
the map and only a delete takes one out: a refresh that is overtaken by a
delete finds no row and fails.
-/

namespace ZeroTrustProxy

open Concurrent Program

variable {W : Webauthn} {S : PasskeyStore W}

structure PasskeyWorld (S : PasskeyStore W) where
  store : S.State
  now : Int

/-- A sign-in with a given result of the ceremony. What comes between the load
and the refresh does not touch the store. -/
def signIn (userId credId : String) (result : W.AuthenticationResult) :
    Program (passkeyInterface W) ProxyError Unit := do
  let records ← storeCall (.getPasskeys userId)
  match records.find? fun record => decide (record.credId = credId) with
  | some record => refreshPasskey record result
  | none => .throw (.authenticationFailed "no passkeys enrolled for this user")

inductive PasskeyClient (W : Webauthn) where
  | any (p : Program (passkeyInterface W) ProxyError Unit)
  | signIn (userId credId : String) (result : W.AuthenticationResult)

/-- Any number of clients of one store, which starts empty. The clock is
whatever the database says. -/
@[reducible] def clientSystem (S : PasskeyStore W) : System (passkeyInterface W) where
  World := PasskeyWorld S
  Req := PasskeyClient W
  Err := ProxyError
  Out := Unit
  Env := Int
  program
    | .any p => p
    | .signIn userId credId result => ZeroTrustProxy.signIn userId credId result
  init w := w.store = S.empty
  env now w := some { w with now := now }
  act _ e w :=
    if (S.perform w.now e.call w.store).1 = e.reply then
      some { w with store := (S.perform w.now e.call w.store).2 }
    else none

/-! ### What a call does -/

/-- The effect of a call on the map of a store, with its reply. -/
inductive CallEffect (K : KeyedStore S) : PasskeyEvent W → S.State → S.State → Prop
  | saved {s s' : S.State} (record : PasskeyRecord W)
      (hview : K.view s' = Function.update (K.view s) record.key (some record.passkey)) :
      CallEffect K ⟨.savePasskey record, .ok ()⟩ s s'
  | refused {s : S.State} (record : PasskeyRecord W) (e : ProxyError)
      (hview : K.view s record.key ≠ none) : CallEffect K ⟨.savePasskey record, .error e⟩ s s
  | listed {s : S.State} (userId : String) :
      CallEffect K ⟨.getPasskeys userId, S.getPasskeys userId s⟩ s s
  | updated {s s' : S.State} (record : PasskeyRecord W) (hbefore : K.view s record.key ≠ none)
      (hview : K.view s' = Function.update (K.view s) record.key (some record.passkey)) :
      CallEffect K ⟨.updatePasskey record, .ok ()⟩ s s'
  | unknown {s : S.State} (record : PasskeyRecord W) (hview : K.view s record.key = none) :
      CallEffect K ⟨.updatePasskey record, .error (unknownCredential record)⟩ s s
  | deleted {s s' : S.State} (userId credId : String)
      (hview : K.view s' = Function.update (K.view s) (userId, credId) none) :
      CallEffect K ⟨.deletePasskey userId credId, .ok ()⟩ s s'

theorem perform_effect (K : KeyedStore S) {s : S.State} (hvalid : K.Valid s) (now : Int)
    (c : PasskeyCall W) :
    K.Valid (S.perform now c s).2 ∧ CallEffect K ⟨c, (S.perform now c s).1⟩ s (S.perform now c s).2 := by
  cases c with
  | savePasskey record =>
      show K.Valid (S.savePasskey now record s).2 ∧
        CallEffect K ⟨.savePasskey record, (S.savePasskey now record s).1⟩ s
          (S.savePasskey now record s).2
      rcases K.save hvalid now record with ⟨hok, hvalid', hview⟩ | ⟨⟨e, he⟩, hview⟩
      · rw [hok]
        exact ⟨hvalid', .saved record hview⟩
      · rw [he]
        exact ⟨hvalid, .refused record e hview⟩
  | getPasskeys userId => exact ⟨hvalid, .listed userId⟩
  | updatePasskey record =>
      show K.Valid (S.updatePasskey record s).2 ∧
        CallEffect K ⟨.updatePasskey record, (S.updatePasskey record s).1⟩ s
          (S.updatePasskey record s).2
      rcases K.update hvalid record with ⟨hbefore, hok, hvalid', hview⟩ | ⟨hnone, he⟩
      · rw [hok]
        exact ⟨hvalid', .updated record hbefore hview⟩
      · rw [he]
        exact ⟨hvalid, .unknown record hnone⟩
  | deletePasskey userId credId =>
      show K.Valid (S.deletePasskey userId credId s).2 ∧
        CallEffect K ⟨.deletePasskey userId credId, (S.deletePasskey userId credId s).1⟩ s
          (S.deletePasskey userId credId s).2
      obtain ⟨hok, hvalid', hview⟩ := K.delete hvalid userId credId
      rw [hok]
      exact ⟨hvalid', .deleted userId credId hview⟩

/-- What a step of the clients does to the store. -/
theorem client_step (K : KeyedStore S) {t : ℕ} {e : PasskeyEvent W} {w w' : PasskeyWorld S}
    (hvalid : K.Valid w.store) (h : (clientSystem S).act t e w = some w') :
    K.Valid w'.store ∧ CallEffect K e w.store w'.store ∧ w'.now = w.now := by
  obtain ⟨c, r⟩ := e
  obtain ⟨hreply, hw⟩ := Option.ite_none_right_eq_some.mp h
  obtain rfl := Option.some.inj hw
  have heffect := perform_effect K hvalid w.now c
  rw [hreply] at heffect
  exact ⟨heffect.1, heffect.2, rfl⟩

/-! ### Reading the map -/

section Views

variable {K : KeyedStore S} {s : S.State} {userId credId : String}

/-- One record for a key that is in the map, and none for any other. -/
theorem KeyedStore.count (hvalid : K.Valid s) :
    (S.getPasskeys userId s).countP (fun record => decide (record.credId = credId)) =
      if (K.view s (userId, credId)).isSome then 1 else 0 := by
  have hcount : (S.getPasskeys userId s).countP (fun record => decide (record.credId = credId)) =
      ((S.getPasskeys userId s).map (·.credId)).count credId := by
    rw [List.count, List.countP_map]
    rfl
  rw [hcount, (K.get_nodup hvalid userId).count]
  refine if_congr ?_ rfl rfl
  rw [List.mem_map]
  constructor
  · rintro ⟨record, hmem, rfl⟩
    obtain ⟨rfl, hview⟩ := (K.get hvalid userId record).mp hmem
    exact Option.isSome_of_eq_some hview
  · intro hsome
    obtain ⟨passkey, hview⟩ := Option.isSome_iff_exists.mp hsome
    exact ⟨⟨userId, credId, passkey⟩, (K.get hvalid userId _).mpr ⟨rfl, hview⟩, rfl⟩

/-- The record that is found for a credential id. -/
theorem KeyedStore.find (hvalid : K.Valid s) :
    (S.getPasskeys userId s).find? (fun record => decide (record.credId = credId)) =
      (K.view s (userId, credId)).map fun passkey => ⟨userId, credId, passkey⟩ := by
  cases hfind : (S.getPasskeys userId s).find? fun record => decide (record.credId = credId) with
  | none =>
      have hview : K.view s (userId, credId) = none := by
        refine Option.eq_none_iff_forall_ne_some.mpr fun passkey hview => ?_
        have hmem := (K.get hvalid userId ⟨userId, credId, passkey⟩).mpr ⟨rfl, hview⟩
        simpa using List.find?_eq_none.mp hfind _ hmem
      rw [hview]
      rfl
  | some record =>
      obtain ⟨u, c, passkey⟩ := record
      obtain ⟨hu, hview⟩ := (K.get hvalid userId _).mp (List.mem_of_find?_eq_some hfind)
      have hc : c = credId := by simpa using List.find?_some hfind
      obtain rfl : u = userId := hu
      subst hc
      have hview' : K.view s (u, c) = some passkey := hview
      rw [hview']
      rfl

/-- Two states with the same entries for a user list the same records. -/
theorem KeyedStore.get_perm {s' : S.State} (hvalid : K.Valid s) (hvalid' : K.Valid s')
    (hsame : ∀ credId, K.view s' (userId, credId) = K.view s (userId, credId)) :
    (S.getPasskeys userId s').Perm (S.getPasskeys userId s) := by
  have hnodup : (S.getPasskeys userId s).Nodup := (K.get_nodup hvalid userId).of_map
  have hnodup' : (S.getPasskeys userId s').Nodup := (K.get_nodup hvalid' userId).of_map
  refine (List.perm_ext_iff_of_nodup hnodup' hnodup).mpr fun record => ?_
  rw [K.get hvalid, K.get hvalid']
  refine and_congr_right fun huser => ?_
  subst huser
  rw [PasskeyRecord.key, hsame]

end Views

/-! ### Which passkeys exist -/

/-- Whether the last save or delete of a key that succeeded was a save. -/
def lastSaved (k : String × String) : Trace (clientSystem S) → Bool
  | [] => false
  | ⟨_, _, .act ⟨.savePasskey record, .ok ()⟩⟩ :: tr =>
      if record.key = k then true else lastSaved k tr
  | ⟨_, _, .act ⟨.deletePasskey userId credId, .ok ()⟩⟩ :: tr =>
      if (userId, credId) = k then false else lastSaved k tr
  | _ :: tr => lastSaved k tr

/-- The map has the keys that were last saved. -/
structure Enrolment (K : KeyedStore S) (w : PasskeyWorld S) (tr : Trace (clientSystem S)) : Prop where
  valid : K.Valid w.store
  present : ∀ k, (K.view w.store k).isSome = lastSaved k tr

theorem Enrolment.act {K : KeyedStore S} {w w' : PasskeyWorld S} {tr : Trace (clientSystem S)}
    {t : ℕ} {e : PasskeyEvent W} (h : Enrolment K w tr)
    (hact : (clientSystem S).act t e w = some w') :
    Enrolment K w' (⟨t, w, .act e⟩ :: tr) := by
  obtain ⟨hvalid, heffect, -⟩ := client_step K h.valid hact
  refine ⟨hvalid, fun k => ?_⟩
  have hupdate {k' : String × String} {v : Option W.Passkey}
      (hview : K.view w'.store = Function.update (K.view w.store) k' v) :
      (K.view w'.store k).isSome = if k' = k then v.isSome else lastSaved k tr := by
    rw [hview]
    by_cases hk : k' = k
    · subst hk
      simp
    · rw [Function.update_of_ne (Ne.symm hk), if_neg hk, h.present]
  generalize w'.store = s' at heffect hupdate
  cases heffect with
  | saved record hview => exact hupdate hview
  | refused record e hview => exact h.present k
  | listed userId => exact h.present k
  | updated record hbefore hview =>
      rw [hupdate hview]
      by_cases hk : record.key = k
      · subst hk
        rw [if_pos rfl]
        show true = lastSaved record.key tr
        rw [← h.present, Option.isSome_iff_ne_none.mpr hbefore]
      · rw [if_neg hk]
        rfl
  | unknown record hview => exact h.present k
  | deleted userId credId hview => exact hupdate hview

theorem enrolment (K : KeyedStore S) {A : Trace (clientSystem S) → Entry (clientSystem S) → Prop}
    {w : PasskeyWorld S} {tr : Trace (clientSystem S)} (h : Run A w tr) : Enrolment K w tr := by
  refine (h.induct (Enrolment K) ?_ ?_ ?_).1
  · intro w hw
    obtain ⟨s, now⟩ := w
    obtain rfl : s = S.empty := hw
    exact ⟨K.valid_empty, fun k => by rw [K.view_empty]; rfl⟩
  · intro w w' tr now _ hJ hm
    obtain rfl := Option.some.inj hm
    exact ⟨hJ.valid, hJ.present⟩
  · intro w' tr x _ hJ _ hen _
    cases hen with
    | start hfresh => exact ⟨hJ.valid, hJ.present⟩
    | done hq hpath hopen => exact ⟨hJ.valid, hJ.present⟩
    | act r hq hpath hact => exact hJ.act hact

/-- The user whose credentials a call is about. -/
def PasskeyCall.user : PasskeyCall W → String
  | savePasskey record => record.userId
  | getPasskeys userId => userId
  | updatePasskey record => record.userId
  | deletePasskey userId _ => userId

/-- The other entries of the map are not touched. -/
theorem CallEffect.frame {K : KeyedStore S} {e : PasskeyEvent W} {s s' : S.State}
    (h : CallEffect K e s s') {userId : String} (hne : e.call.user ≠ userId) (credId : String) :
    K.view s' (userId, credId) = K.view s (userId, credId) := by
  have hother {k : String × String} {v : Option W.Passkey}
      (hview : K.view s' = Function.update (K.view s) k v) (hk : k.1 ≠ userId) :
      K.view s' (userId, credId) = K.view s (userId, credId) := by
    rw [hview]
    exact Function.update_of_ne (fun heq => hk (congrArg Prod.fst heq).symm) _ _
  cases h with
  | saved record hview => exact hother hview hne
  | updated record hbefore hview => exact hother hview hne
  | deleted u c hview => exact hother hview hne
  | _ => rfl

/-- An update never changes which keys are in the map. -/
theorem CallEffect.update_present {K : KeyedStore S} {record : PasskeyRecord W}
    {r : Except ProxyError Unit} {s s' : S.State}
    (h : CallEffect K ⟨.updatePasskey record, r⟩ s s') (k : String × String) :
    (K.view s' k).isSome = (K.view s k).isSome := by
  cases h with
  | unknown _ hview => rfl
  | updated _ hbefore hview =>
      rw [hview]
      by_cases hk : k = record.key
      · subst hk
        rw [Function.update_self, Option.isSome_iff_ne_none.mpr hbefore]
        rfl
      · rw [Function.update_of_ne hk]

theorem CallEffect.update_absent {K : KeyedStore S} {record : PasskeyRecord W}
    {r : Except ProxyError Unit} {s s' : S.State}
    (h : CallEffect K ⟨.updatePasskey record, r⟩ s s') (hnone : K.view s record.key = none) :
    r = .error (unknownCredential record) ∧ s' = s := by
  cases h with
  | unknown _ hview => exact ⟨rfl, rfl⟩
  | updated _ hbefore hview => exact (hbefore hnone).elim

/-- The reply the store gives. -/
def PasskeyWorld.reply (_ _ : ℕ) (c : PasskeyCall W) (w : PasskeyWorld S) : Option c.Resp :=
  some (S.perform w.now c w.store).1

namespace Scenario

abbrev memory := passkeyStoreHandle softwareAuthenticator .memory

def credId : String := (testRecord "user-1" 0).credId

def enrolClient : PasskeyClient softwareAuthenticator :=
  .any do
    let saved ← storeCall (.savePasskey (testRecord "user-1" 0))
    ofExcept saved

def unenrolClient : PasskeyClient softwareAuthenticator :=
  .any do
    let deleted ← storeCall (.deletePasskey "user-1" credId)
    ofExcept deleted

def signInClient (counter : ℕ) : PasskeyClient softwareAuthenticator :=
  .signIn "user-1" credId (testKey counter)

/-- The credential is deleted between the load and the refresh of a sign-in. -/
def overtakenByDelete : List (Move (clientSystem memory)) :=
  [.start 0 enrolClient, .step 0 0, .start 1 (signInClient 1), .step 1 0, .start 2 unenrolClient,
    .step 2 0, .step 1 0]

end Scenario

end ZeroTrustProxy
