import ZeroTrustProxy.Concurrent.Outcome
import ZeroTrustProxy.Model.World
import ZeroTrustProxy.Passkeys.Clients

/-!
Two copies of a passkey under one refresh.

`refresh_passkey` merges the result of an authentication into the record its
caller holds and writes the record to the store. The two steps are not tied
together: what the merge reports is dropped, and the record has changed before
the store is asked.
-/

namespace ZeroTrustProxy

open Concurrent Program

variable {W : Webauthn}

/-! ### The refresh and its caller -/

/-- A statement of the database that fails. The map in memory does not fail. -/
inductive StoreFault : PasskeyStoreKind → Type
  | postgres (fault : Fault) : StoreFault .postgres

def StoreFault.fault {kind : PasskeyStoreKind} : StoreFault kind → Fault
  | .postgres fault => fault

/-- `update_passkey` of a backend, with what may befall it. -/
def updateUnder (kind : PasskeyStoreKind) (fault : Option (StoreFault kind))
    (record : PasskeyRecord W) (s : (passkeyStoreHandle W kind).State) :
    Except ProxyError Unit × (passkeyStoreHandle W kind).State :=
  match fault with
  | none => (passkeyStoreHandle W kind).updatePasskey record s
  | some f =>
      (.error (.databaseError f.fault.text),
        if f.fault.executed then ((passkeyStoreHandle W kind).updatePasskey record s).2 else s)

/-- What a refresh leaves: its reply, the record of its caller and the store. -/
structure RefreshOutcome (S : PasskeyStore W) where
  reply : Except ProxyError Unit
  record : PasskeyRecord W
  store : S.State

/-- `refresh_passkey`, with the record that it changes for its caller. -/
def refreshPasskeyUnder (kind : PasskeyStoreKind) (fault : Option (StoreFault kind))
    (record : PasskeyRecord W) (result : W.AuthenticationResult)
    (s : (passkeyStoreHandle W kind).State) : RefreshOutcome (passkeyStoreHandle W kind) :=
  let record := refreshed record result
  let updated := updateUnder kind fault record s
  ⟨updated.1, record, updated.2⟩

/-- Where the database does not fail, this is the refresh that sign-ins make. -/
theorem refreshPasskeyUnder_none {kind : PasskeyStoreKind} {record : PasskeyRecord W}
    {result : W.AuthenticationResult} {s : (passkeyStoreHandle W kind).State} {now : Int} :
    let out := refreshPasskeyUnder kind none record result s
    let call := PasskeyCall.updatePasskey (refreshed record result)
    (passkeyStoreHandle W kind).perform now call s = (out.reply, out.store) ∧
      (refreshPasskey record result).Ends [⟨call, out.reply⟩] out.reply := by
  refine ⟨rfl, ?_⟩
  simp only [refreshPasskey, storeCall, call_bind, ret_bind, ends_call, ends_ofExcept]
  exact ⟨_, [], rfl, rfl, rfl⟩

/-! ### All or nothing -/

/-- The two stores hold the same records. -/
def SameRecords (S : PasskeyStore W) (s s' : S.State) : Prop :=
  ∀ userId record, record ∈ S.getPasskeys userId s' ↔ record ∈ S.getPasskeys userId s

/-- A refresh that succeeds has the counter of its result in the record and in
the store; one that fails has changed neither. -/
structure AllOrNothing {S : PasskeyStore W} (record : PasskeyRecord W)
    (result : W.AuthenticationResult) (s : S.State) (out : RefreshOutcome S) : Prop where
  advanced : out.reply = .ok () → W.resultCounter result ≤ W.counter out.record.passkey
  stored : out.reply = .ok () → ∃ row ∈ S.getPasskeys record.userId out.store,
    W.credId row.passkey = W.resultCredId result ∧ W.resultCounter result ≤ W.counter row.passkey
  kept : ∀ e, out.reply = .error e → out.record = record ∧ SameRecords S s out.store

/-- The store has a row for the record. -/
def HasRow (S : PasskeyStore W) (record : PasskeyRecord W) (s : S.State) : Prop :=
  ∃ row ∈ S.getPasskeys record.userId s, row.credId = record.credId

/-- The record, and another row with the credential of the result, have the
counter of the result already. -/
def Reached (S : PasskeyStore W) (record : PasskeyRecord W) (result : W.AuthenticationResult)
    (s : S.State) : Prop :=
  W.resultCounter result ≤ W.counter record.passkey ∧
    ∃ row ∈ S.getPasskeys record.userId s, row.credId ≠ record.credId ∧
      W.credId row.passkey = W.resultCredId result ∧ W.resultCounter result ≤ W.counter row.passkey

/-- The merge has nothing to change, and the row of the record, where a failed
statement has written it, holds the record already. -/
def NothingToDo (S : PasskeyStore W) (fault : Option Fault) (record : PasskeyRecord W)
    (result : W.AuthenticationResult) (s : S.State) : Prop :=
  W.updateCredential record.passkey result = record.passkey ∧
    ∀ f, fault = some f → f.executed = true →
      ∀ row ∈ S.getPasskeys record.userId s, row.credId = record.credId →
        row.passkey = record.passkey

section Updates

variable {S : PasskeyStore W} {K : KeyedStore S} {s : S.State} {record : PasskeyRecord W}

theorem hasRow_iff (hvalid : K.Valid s) : HasRow S record s ↔ K.view s record.key ≠ none := by
  constructor
  · rintro ⟨row, hmem, hid⟩
    obtain ⟨huser, hview⟩ := (K.get hvalid _ row).mp hmem
    have hkey : row.key = record.key := by rw [PasskeyRecord.key, huser, hid, PasskeyRecord.key]
    rw [← hkey, hview]
    simp
  · intro hsome
    obtain ⟨passkey, hview⟩ := Option.ne_none_iff_exists'.mp hsome
    exact ⟨⟨record.userId, record.credId, passkey⟩, (K.get hvalid _ _).mpr ⟨rfl, hview⟩, rfl⟩

/-- What is listed after an update that has found its row. -/
theorem mem_updated (record : PasskeyRecord W) {s' : S.State} (hvalid' : K.Valid s') (hvalid : K.Valid s)
    (hview : K.view s' = Function.update (K.view s) record.key (some record.passkey))
    (userId : String) (row : PasskeyRecord W) :
    row ∈ S.getPasskeys userId s' ↔
      (userId = record.userId ∧ row = record) ∨
        (row.key ≠ record.key ∧ row ∈ S.getPasskeys userId s) := by
  rw [K.get hvalid', K.get hvalid, hview]
  by_cases hkey : row.key = record.key
  · rw [hkey, Function.update_self]
    obtain ⟨huser, hid⟩ := Prod.mk.inj hkey
    constructor
    · rintro ⟨rfl, hpasskey⟩
      have hpasskey' : row.passkey = record.passkey := (Option.some.inj hpasskey).symm
      refine .inl ⟨huser, ?_⟩
      obtain ⟨u, c, p⟩ := row
      obtain rfl : u = record.userId := huser
      obtain rfl : c = record.credId := hid
      obtain rfl : p = record.passkey := hpasskey'
      rfl
    · rintro (⟨rfl, rfl⟩ | ⟨hne, -⟩)
      · exact ⟨rfl, rfl⟩
      · exact (hne rfl).elim
  · rw [Function.update_of_ne hkey]
    constructor
    · exact fun hrow => .inr ⟨hkey, hrow⟩
    · rintro (⟨rfl, rfl⟩ | ⟨-, hrow⟩)
      · exact (hkey rfl).elim
      · exact hrow

/-- A refresh whose row is there and whose update arrives. -/
theorem allOrNothing_arrived {result : W.AuthenticationResult} {s' : S.State}
    (hother : W.resultCredId result ≠ W.credId record.passkey →
      W.updateCredential record.passkey result = record.passkey)
    (hvalid : K.Valid s) (hvalid' : K.Valid s')
    (hview : K.view s' =
      Function.update (K.view s) record.key (some (refreshed record result).passkey)) :
    AllOrNothing record result s ⟨.ok (), refreshed record result, s'⟩ ↔
      W.resultCredId result = W.credId record.passkey ∨ Reached S record result s := by
  have hmem {row : PasskeyRecord W} :=
    mem_updated (refreshed record result) hvalid' hvalid hview record.userId row
  by_cases hsame : W.resultCredId result = W.credId record.passkey
  · have hcounter := W.updateCredential_counter record.passkey result hsame
    have hreached : W.resultCounter result ≤ W.counter (refreshed record result).passkey := by
      rw [refreshed, hcounter]
      exact le_max_right _ _
    refine ⟨fun _ => .inl hsame, fun _ => ⟨fun _ => hreached, fun _ => ?_, by simp⟩⟩
    refine ⟨refreshed record result, hmem.mpr (.inl ⟨rfl, rfl⟩), ?_, hreached⟩
    rw [refreshed, W.updateCredential_credId, hsame]
  · have hunchanged : refreshed record result = record := by
      rw [refreshed, hother hsame]
    rw [hunchanged] at hmem ⊢
    constructor
    · intro hall
      obtain ⟨row, hrow, hid, hcounter⟩ := hall.stored rfl
      refine .inr ⟨hall.advanced rfl, row, ?_⟩
      obtain ⟨-, rfl⟩ | ⟨hne, hbefore⟩ := hmem.mp hrow
      · exact (hsame hid.symm).elim
      · obtain ⟨huser, -⟩ := (K.get hvalid _ _).mp hbefore
        refine ⟨hbefore, fun hcred => hne ?_, hid, hcounter⟩
        rw [PasskeyRecord.key, huser, hcred, PasskeyRecord.key]
    · rintro (hid | ⟨hcounter, row, hbefore, hne, hid, hrow⟩)
      · exact (hsame hid).elim
      · refine ⟨fun _ => hcounter, fun _ => ⟨row, hmem.mpr (.inr ⟨?_, hbefore⟩), hid, hrow⟩, by simp⟩
        exact fun hkey => hne (Prod.mk.inj hkey).2

/-- Whether the caller's record has changed. -/
theorem refreshed_eq_iff {result : W.AuthenticationResult} :
    refreshed record result = record ↔
      W.updateCredential record.passkey result = record.passkey := by
  obtain ⟨u, c, p⟩ := record
  simp [refreshed]

/-- An update that was executed leaves the records as they were when it has
written what was there. -/
theorem sameRecords_updated {s' : S.State} (hvalid : K.Valid s) (hvalid' : K.Valid s')
    (hview : K.view s' = Function.update (K.view s) record.key (some record.passkey))
    (hrow : K.view s record.key ≠ none) :
    SameRecords S s s' ↔
      ∀ row ∈ S.getPasskeys record.userId s, row.credId = record.credId →
        row.passkey = record.passkey := by
  have hmem {userId : String} {row : PasskeyRecord W} :=
    mem_updated record hvalid' hvalid hview userId row
  constructor
  · intro hsame row hbefore hid
    obtain ⟨-, rfl⟩ | ⟨hne, -⟩ := hmem.mp ((hsame _ row).mpr hbefore)
    · rfl
    · obtain ⟨huser, -⟩ := (K.get hvalid _ _).mp hbefore
      refine (hne ?_).elim
      rw [PasskeyRecord.key, huser, hid, PasskeyRecord.key]
  · intro hkept
    obtain ⟨passkey, hpasskey⟩ := Option.ne_none_iff_exists'.mp hrow
    have hold : (⟨record.userId, record.credId, passkey⟩ : PasskeyRecord W) ∈
        S.getPasskeys record.userId s := (K.get hvalid _ _).mpr ⟨rfl, hpasskey⟩
    have hsame : K.view s' = K.view s := by
      rw [hview, Function.update_eq_self_iff, hpasskey, ← hkept _ hold rfl]
    intro userId row
    rw [K.get hvalid', K.get hvalid, hsame]

end Updates

/-- **When a refresh is all or nothing.** One whose update arrives and finds its
row is, if the result is of the credential of the record, or if the counters have
been reached before; one that fails is, if there was nothing to do. -/
theorem refresh_all_or_nothing (kind : PasskeyStoreKind)
    (hother : ∀ (p : W.Passkey) (r : W.AuthenticationResult), W.resultCredId r ≠ W.credId p →
      W.updateCredential p r = p)
    {w : PasskeyWorld (passkeyStoreHandle W kind)}
    {tr : Trace (clientSystem (passkeyStoreHandle W kind))} (hrun : Reachable w tr)
    (fault : Option (StoreFault kind)) (record : PasskeyRecord W) (result : W.AuthenticationResult) :
    AllOrNothing record result w.store (refreshPasskeyUnder kind fault record result w.store) ↔
      (fault = none ∧ HasRow (passkeyStoreHandle W kind) record w.store ∧
        (W.resultCredId result = W.credId record.passkey ∨
          Reached (passkeyStoreHandle W kind) record result w.store)) ∨
      ((fault ≠ none ∨ ¬ HasRow (passkeyStoreHandle W kind) record w.store) ∧
        NothingToDo (passkeyStoreHandle W kind) (fault.map StoreFault.fault) record result
          w.store) := by
  have hvalid := (enrolment (keyedStore W kind) hrun).valid
  have hfails {s' : (passkeyStoreHandle W kind).State} {e : ProxyError} :
      AllOrNothing record result w.store ⟨.error e, refreshed record result, s'⟩ ↔
        W.updateCredential record.passkey result = record.passkey ∧
          SameRecords (passkeyStoreHandle W kind) w.store s' := by
    constructor
    · intro hall
      obtain ⟨hrecord, hstore⟩ := hall.kept e rfl
      exact ⟨refreshed_eq_iff.mp hrecord, hstore⟩
    · rintro ⟨hmerge, hstore⟩
      exact ⟨by simp, by simp, fun _ _ => ⟨refreshed_eq_iff.mpr hmerge, hstore⟩⟩
  cases fault with
  | none =>
      obtain ⟨hrow, hok, hvalid', hview⟩ | ⟨hnone, hunknown⟩ :=
        (keyedStore W kind).update hvalid (refreshed record result)
      · have hhas : HasRow (passkeyStoreHandle W kind) record w.store := (hasRow_iff hvalid).mpr hrow
        have hout : refreshPasskeyUnder kind none record result w.store = ⟨.ok (),
            refreshed record result,
            ((passkeyStoreHandle W kind).updatePasskey (refreshed record result) w.store).2⟩ := by
          simp only [refreshPasskeyUnder, updateUnder, hok]
        rw [hout, allOrNothing_arrived (hother _ _) hvalid hvalid' hview]
        simp [hhas]
      · have hhas : ¬ HasRow (passkeyStoreHandle W kind) record w.store := fun hhas =>
          (hasRow_iff hvalid).mp hhas hnone
        have hout : refreshPasskeyUnder kind none record result w.store =
            ⟨.error (unknownCredential (refreshed record result)), refreshed record result,
              w.store⟩ := by
          simp only [refreshPasskeyUnder, updateUnder, hunknown]
        rw [hout, hfails]
        simp [hhas, NothingToDo, SameRecords]
  | some f =>
      have hout : refreshPasskeyUnder kind (some f) record result w.store =
          ⟨.error (.databaseError f.fault.text), refreshed record result, if f.fault.executed then
            ((passkeyStoreHandle W kind).updatePasskey (refreshed record result) w.store).2
            else w.store⟩ := rfl
      rw [hout, hfails]
      simp only [reduceCtorEq, false_and, ne_eq, not_false_eq_true, true_or, true_and, false_or,
        NothingToDo, Option.map_some, Option.some.injEq, forall_eq']
      apply and_congr_right
      intro hmerge
      have hunchanged := refreshed_eq_iff.mpr hmerge
      rw [hunchanged]
      cases hexecuted : f.fault.executed with
      | false => simp [SameRecords]
      | true =>
          simp only [if_true, forall_const]
          obtain ⟨hrow, -, hvalid', hview⟩ | ⟨hnone, hunknown⟩ :=
            (keyedStore W kind).update hvalid record
          · exact sameRecords_updated hvalid hvalid' hview hrow
          · rw [hunknown]
            refine ⟨fun _ row hmem hid => ?_, fun _ _ _ => Iff.rfl⟩
            exact ((hasRow_iff hvalid).mp ⟨row, hmem, hid⟩ hnone).elim

namespace Scenario

abbrev database := passkeyStoreHandle softwareAuthenticator .postgres

/-- A second credential of the user. -/
def otherKey (counter : ℕ) : SoftwareKey := ⟨"other-credential-id".toUTF8.toList, counter⟩

def enrolBoth : List (Move (clientSystem database)) :=
  [.start 0 (.any do
      let saved ← storeCall (.savePasskey (testRecord "user-1" 0))
      ofExcept saved), .step 0 0,
    .env 1, .start 1 (.any do
      let saved ← storeCall (.savePasskey (.new "user-1" (otherKey 0)))
      ofExcept saved), .step 1 0]

/-- The database closes the connection before it has executed a statement. -/
def closed : StoreFault .postgres := .postgres ⟨false, "connection closed"⟩

theorem exists_enrolled : ∃ (w : PasskeyWorld database) (tr : Trace (clientSystem database)),
    Reachable w tr ∧ testRecord "user-1" 0 ∈ database.getPasskeys "user-1" w.store ∧
      .new "user-1" (otherKey 0) ∈ database.getPasskeys "user-1" w.store := by
  have hplay : ((Play.start (S := clientSystem database) ⟨database.empty, 0⟩).run
      PasskeyWorld.reply (fun _ _ => True) enrolBoth).any (fun p =>
        decide ((postgresKeyed softwareAuthenticator).view p.world.store
          (testRecord "user-1" 0).key = some (testKey 0)) &&
        decide ((postgresKeyed softwareAuthenticator).view p.world.store
          (PasskeyRecord.new (W := softwareAuthenticator) "user-1" (otherKey 0)).key =
            some (otherKey 0))) = true := by
    decide +kernel
  obtain ⟨p, hp, hcheck⟩ := (Option.any_eq_true _ _).mp hplay
  obtain ⟨hfirst, hsecond⟩ := Bool.and_eq_true_iff.mp hcheck
  refine ⟨p.world, p.trace, (Play.run_sound rfl hp).reached, ?_, ?_⟩
  · exact ((postgresKeyed _).get trivial _ _).mpr ⟨rfl, of_decide_eq_true hfirst⟩
  · exact ((postgresKeyed _).get trivial _ _).mpr ⟨rfl, of_decide_eq_true hsecond⟩

/-- A refresh of one passkey with a result of the other succeeds and advances
neither, and one that the database fails has changed the caller's record. -/
theorem refresh_torn : ∃ (w : PasskeyWorld database) (tr : Trace (clientSystem database)),
    Reachable w tr ∧ testRecord "user-1" 0 ∈ database.getPasskeys "user-1" w.store ∧
      .new "user-1" (otherKey 0) ∈ database.getPasskeys "user-1" w.store ∧
      (refreshPasskeyUnder .postgres none (testRecord "user-1" 0) (otherKey 7) w.store).reply =
        .ok () ∧
      ¬ AllOrNothing (testRecord "user-1" 0) (otherKey 7) w.store
        (refreshPasskeyUnder .postgres none (testRecord "user-1" 0) (otherKey 7) w.store) ∧
      ¬ AllOrNothing (testRecord "user-1" 0) (testKey 7) w.store
        (refreshPasskeyUnder .postgres (some closed) (testRecord "user-1" 0) (testKey 7) w.store) := by
  obtain ⟨w, tr, hrun, hfirst, hsecond⟩ := exists_enrolled
  obtain ⟨-, hview⟩ := ((postgresKeyed _).get trivial _ _).mp hfirst
  obtain ⟨row, hlookup, -⟩ := Option.map_eq_some_iff.mp hview
  have hreply : (refreshPasskeyUnder .postgres none (testRecord "user-1" 0) (otherKey 7)
      w.store).reply = .ok () :=
    congrArg Prod.fst (@PostgresPasskeyStore.updatePasskey_known softwareAuthenticator w.store
      (refreshed (testRecord "user-1" 0) (otherKey 7)) row hlookup)
  refine ⟨w, tr, hrun, hfirst, hsecond, hreply, fun hall => ?_, fun hall => ?_⟩
  · have hlow : ¬ 7 ≤ (SoftwareKey.updateCredential (testKey 0) (otherKey 7)).counter := by
      decide +kernel
    exact hlow (hall.advanced hreply)
  · have hcounter : (SoftwareKey.updateCredential (testKey 0) (testKey 7)).counter ≠ 0 := by
      decide +kernel
    obtain ⟨hrecord, -⟩ := hall.kept _ rfl
    exact hcounter (congrArg (fun record => record.passkey.counter) hrecord)

/-- With a result of its own credential a refresh is all or nothing. -/
theorem refresh_all_or_nothing_run : ∃ (w : PasskeyWorld database)
    (tr : Trace (clientSystem database)), Reachable w tr ∧
      HasRow database (testRecord "user-1" 0) w.store ∧
      AllOrNothing (testRecord "user-1" 0) (testKey 7) w.store
        (refreshPasskeyUnder .postgres none (testRecord "user-1" 0) (testKey 7) w.store) := by
  obtain ⟨w, tr, hrun, hfirst, -⟩ := exists_enrolled
  have hrow : HasRow database (testRecord "user-1" 0) w.store := ⟨_, hfirst, rfl⟩
  have hother (p r : SoftwareKey) (hne : r.credId ≠ p.credId) : p.updateCredential r = p :=
    if_neg hne
  exact ⟨w, tr, hrun, hrow, (refresh_all_or_nothing .postgres hother hrun none _ _).mpr
    (.inl ⟨rfl, hrow, .inl rfl⟩)⟩

end Scenario

end ZeroTrustProxy
