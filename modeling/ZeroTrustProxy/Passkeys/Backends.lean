import ZeroTrustProxy.Model.Passkey

/-!
The two passkey backends as maps.

What a store is for is a partial function from `(user_id, cred_id)` to
passkeys. `KeyedStore` says what each call does to that function, and both
backends are shown to be one. They differ in one place only: a save under a key
that is there replaces the record in memory and is refused by Postgres.
-/

namespace ZeroTrustProxy

variable {W : Webauthn}

/-- A store that keeps a map: `view` is the map, `Valid` the states it can be
in. A save may refuse a key that is there. -/
structure KeyedStore (S : PasskeyStore W) where
  view : S.State → String × String → Option W.Passkey
  Valid : S.State → Prop
  valid_empty : Valid S.empty
  view_empty : ∀ k, view S.empty k = none
  get : ∀ {s}, Valid s → ∀ userId record, record ∈ S.getPasskeys userId s ↔
    record.userId = userId ∧ view s record.key = some record.passkey
  get_nodup : ∀ {s}, Valid s → ∀ userId, ((S.getPasskeys userId s).map (·.credId)).Nodup
  save : ∀ {s}, Valid s → ∀ now record,
    (S.savePasskey now record s).1 = .ok () ∧ Valid (S.savePasskey now record s).2 ∧
        view (S.savePasskey now record s).2 =
          Function.update (view s) record.key (some record.passkey) ∨
      (∃ e, S.savePasskey now record s = (.error e, s)) ∧ view s record.key ≠ none
  update : ∀ {s}, Valid s → ∀ record,
    (view s record.key ≠ none ∧ (S.updatePasskey record s).1 = .ok () ∧
        Valid (S.updatePasskey record s).2 ∧ view (S.updatePasskey record s).2 =
          Function.update (view s) record.key (some record.passkey)) ∨
      view s record.key = none ∧ S.updatePasskey record s = (.error (unknownCredential record), s)
  delete : ∀ {s}, Valid s → ∀ userId credId,
    (S.deletePasskey userId credId s).1 = .ok () ∧ Valid (S.deletePasskey userId credId s).2 ∧
      view (S.deletePasskey userId credId s).2 = Function.update (view s) (userId, credId) none

/-! ### Finite maps -/

section Maps

variable {V : Type} {m : AList fun _ : String × String => V}

theorem lookup_insert_map {β : Type} (k : String × String) (v : V) (f : V → β) :
    (fun k' => ((m.insert k v).lookup k').map f) =
      Function.update (fun k' => (m.lookup k').map f) k (some (f v)) := by
  funext k'
  by_cases hk : k' = k
  · subst hk
    simp
  · rw [Function.update_of_ne hk, AList.lookup_insert_ne hk]

theorem lookup_erase_map {β : Type} (k : String × String) (f : V → β) :
    (fun k' => ((m.erase k).lookup k').map f) =
      Function.update (fun k' => (m.lookup k').map f) k none := by
  funext k'
  by_cases hk : k' = k
  · subst hk
    simp
  · rw [Function.update_of_ne hk, AList.lookup_erase_ne hk]

/-- The entries of one user have distinct credential ids. -/
theorem nodup_credIds (userId : String) :
    ((m.entries.filter fun x => decide (x.1.1 = userId)).map fun x => x.1.2).Nodup := by
  have hkeys : (m.entries.map Sigma.fst).Nodup := m.nodupKeys
  have hsub : ((m.entries.filter fun x => decide (x.1.1 = userId)).map Sigma.fst).Nodup :=
    hkeys.sublist (List.filter_sublist.map _)
  refine List.Nodup.of_map (fun c => (userId, c)) ?_
  rw [List.map_map]
  have hsame : (m.entries.filter fun x => decide (x.1.1 = userId)).map
      ((fun c => (userId, c)) ∘ fun x => x.1.2) =
      (m.entries.filter fun x => decide (x.1.1 = userId)).map Sigma.fst := by
    refine List.map_congr_left fun x hx => ?_
    have huser : x.1.1 = userId := of_decide_eq_true (List.mem_filter.mp hx).2
    rw [← huser]
    rfl
  rw [hsame]
  exact hsub

end Maps

/-! ### The backends -/

namespace InMemoryPasskeyStore

variable {inner : PasskeyMap W} {record : PasskeyRecord W}

theorem updatePasskey_known {old : PasskeyRecord W} (h : inner.lookup record.key = some old) :
    updatePasskey record inner = (.ok (), inner.insert record.key record) := by
  simp only [updatePasskey, h]

theorem updatePasskey_unknown (h : inner.lookup record.key = none) :
    updatePasskey record inner = (.error (unknownCredential record), inner) := by
  simp only [updatePasskey, h]

end InMemoryPasskeyStore

namespace PostgresPasskeyStore

variable {table : PasskeyTable W} {record : PasskeyRecord W}

theorem savePasskey_known (now : Int) {row : PasskeyRow W}
    (h : table.lookup record.key = some row) :
    ∃ e, savePasskey now record table = (.error e, table) := by
  simp only [savePasskey, h]
  exact ⟨_, rfl⟩

theorem savePasskey_unknown (now : Int) (h : table.lookup record.key = none) :
    savePasskey now record table = (.ok (), table.insert record.key ⟨record.passkey, now⟩) := by
  simp only [savePasskey, h]

theorem updatePasskey_known {row : PasskeyRow W} (h : table.lookup record.key = some row) :
    updatePasskey record table =
      (.ok (), table.insert record.key { row with passkey := record.passkey }) := by
  simp only [updatePasskey, h]

theorem updatePasskey_unknown (h : table.lookup record.key = none) :
    updatePasskey record table = (.error (unknownCredential record), table) := by
  simp only [updatePasskey, h]

end PostgresPasskeyStore

/-- Every record is stored under its own key. -/
def PasskeyMap.Valid (inner : PasskeyMap W) : Prop :=
  ∀ k record, inner.lookup k = some record → record.key = k

theorem PasskeyMap.Valid.insert {inner : PasskeyMap W} (h : inner.Valid)
    (record : PasskeyRecord W) : PasskeyMap.Valid (inner.insert record.key record) := by
  intro k record' hlookup
  by_cases hk : k = record.key
  · subst hk
    obtain rfl := Option.some.inj ((AList.lookup_insert _).symm.trans hlookup)
    rfl
  · rw [AList.lookup_insert_ne hk] at hlookup
    exact h k record' hlookup

theorem PasskeyMap.Valid.erase {inner : PasskeyMap W} (h : inner.Valid) (k : String × String) :
    PasskeyMap.Valid (inner.erase k) := by
  intro k' record hlookup
  by_cases hk : k' = k
  · subst hk
    rw [AList.lookup_erase] at hlookup
    simp at hlookup
  · rw [AList.lookup_erase_ne hk] at hlookup
    exact h k' record hlookup

def inMemoryKeyed (W : Webauthn) : KeyedStore (inMemoryPasskeyStore W) where
  view inner k := (AList.lookup k inner).map PasskeyRecord.passkey
  Valid := PasskeyMap.Valid
  valid_empty := by
    intro k record hlookup
    have hnone : AList.lookup k (∅ : PasskeyMap W) = some record := hlookup
    simp at hnone
  view_empty k := by
    show (AList.lookup k (∅ : PasskeyMap W)).map PasskeyRecord.passkey = none
    simp
  get := by
    intro inner hvalid userId record
    show record ∈ InMemoryPasskeyStore.getPasskeys userId inner ↔ _
    unfold InMemoryPasskeyStore.getPasskeys
    constructor
    · intro hmem
      obtain ⟨⟨k, record'⟩, hx, rfl⟩ := List.mem_map.mp hmem
      obtain ⟨hentry, huser⟩ := List.mem_filter.mp hx
      have hlookup : AList.lookup k inner = some record' := AList.mem_lookup_iff.mpr hentry
      obtain rfl := hvalid k record' hlookup
      have hview : (AList.lookup record'.key inner).map PasskeyRecord.passkey =
          some record'.passkey := by
        rw [hlookup]
        rfl
      exact ⟨of_decide_eq_true huser, hview⟩
    · rintro ⟨rfl, hview⟩
      obtain ⟨record', hlookup, hpasskey⟩ := Option.map_eq_some_iff.mp hview
      have hkey := hvalid record.key record' hlookup
      obtain rfl : record' = record := by
        obtain ⟨u, c, p⟩ := record
        obtain ⟨u', c', p'⟩ := record'
        obtain ⟨rfl, rfl⟩ := Prod.mk.inj hkey
        obtain rfl : p' = p := hpasskey
        rfl
      exact List.mem_map.mpr ⟨⟨record'.key, record'⟩,
        List.mem_filter.mpr ⟨AList.mem_lookup_iff.mp hlookup, decide_eq_true rfl⟩, rfl⟩
  get_nodup := by
    intro inner hvalid userId
    show ((InMemoryPasskeyStore.getPasskeys userId inner).map (·.credId)).Nodup
    unfold InMemoryPasskeyStore.getPasskeys
    rw [List.map_map]
    have hsame : (inner.entries.filter fun x => decide (x.1.1 = userId)).map
        ((fun record : PasskeyRecord W => record.credId) ∘ fun x => x.2) =
        (inner.entries.filter fun x => decide (x.1.1 = userId)).map fun x => x.1.2 := by
      refine List.map_congr_left fun x hx => ?_
      have hkey := hvalid x.1 x.2 (AList.mem_lookup_iff.mpr (List.mem_filter.mp hx).1)
      exact congrArg Prod.snd hkey
    rw [hsame]
    exact nodup_credIds userId
  save := by
    intro inner hvalid now record
    exact .inl ⟨rfl, hvalid.insert record, lookup_insert_map _ _ PasskeyRecord.passkey⟩
  update := by
    intro inner hvalid record
    cases hlookup : AList.lookup record.key inner with
    | none => exact .inr ⟨rfl, InMemoryPasskeyStore.updatePasskey_unknown hlookup⟩
    | some old =>
        have heq : (inMemoryPasskeyStore W).updatePasskey record inner = _ :=
          InMemoryPasskeyStore.updatePasskey_known hlookup
        rw [heq]
        exact .inl ⟨by simp, rfl, hvalid.insert record,
          lookup_insert_map _ _ PasskeyRecord.passkey⟩
  delete := by
    intro inner hvalid userId credId
    exact ⟨rfl, hvalid.erase _, lookup_erase_map _ PasskeyRecord.passkey⟩

def postgresKeyed (W : Webauthn) : KeyedStore (postgresPasskeyStore W) where
  view table k := (AList.lookup k table).map PasskeyRow.passkey
  Valid _ := True
  valid_empty := trivial
  view_empty k := by
    show (AList.lookup k (∅ : PasskeyTable W)).map PasskeyRow.passkey = none
    simp
  get := by
    intro table _ userId record
    show record ∈ PostgresPasskeyStore.getPasskeys userId table ↔ _
    unfold PostgresPasskeyStore.getPasskeys
    simp only [List.mem_map, List.mem_mergeSort, List.mem_filter, decide_eq_true_eq]
    constructor
    · rintro ⟨⟨k, row⟩, ⟨hentry, rfl⟩, rfl⟩
      have hlookup : AList.lookup k table = some row := AList.mem_lookup_iff.mpr hentry
      exact ⟨rfl, by rw [PasskeyRecord.key]; simp [hlookup]⟩
    · rintro ⟨rfl, hview⟩
      obtain ⟨row, hlookup, hpasskey⟩ := Option.map_eq_some_iff.mp hview
      refine ⟨⟨record.key, row⟩, ⟨AList.mem_lookup_iff.mp hlookup, rfl⟩, ?_⟩
      rw [hpasskey]
      rfl
  get_nodup := by
    intro table _ userId
    show ((PostgresPasskeyStore.getPasskeys userId table).map (·.credId)).Nodup
    unfold PostgresPasskeyStore.getPasskeys
    rw [List.map_map]
    refine ((List.mergeSort_perm _ _).map _).nodup_iff.mpr ?_
    exact nodup_credIds userId
  save := by
    intro table _ now record
    cases hlookup : AList.lookup record.key table with
    | none =>
        have heq : (postgresPasskeyStore W).savePasskey now record table = _ :=
          PostgresPasskeyStore.savePasskey_unknown now hlookup
        rw [heq]
        exact .inl ⟨rfl, trivial, lookup_insert_map _ _ PasskeyRow.passkey⟩
    | some row => exact .inr ⟨PostgresPasskeyStore.savePasskey_known now hlookup, by simp⟩
  update := by
    intro table _ record
    cases hlookup : AList.lookup record.key table with
    | none => exact .inr ⟨rfl, PostgresPasskeyStore.updatePasskey_unknown hlookup⟩
    | some row =>
        have heq : (postgresPasskeyStore W).updatePasskey record table = _ :=
          PostgresPasskeyStore.updatePasskey_known hlookup
        rw [heq]
        exact .inl ⟨by simp, rfl, trivial, lookup_insert_map _ _ PasskeyRow.passkey⟩
  delete := by
    intro table _ userId credId
    exact ⟨rfl, trivial, lookup_erase_map _ PasskeyRow.passkey⟩

/-- Whichever backend is configured keeps a map. -/
def keyedStore (W : Webauthn) : (kind : PasskeyStoreKind) → KeyedStore (passkeyStoreHandle W kind)
  | .postgres => postgresKeyed W
  | .memory => inMemoryKeyed W

end ZeroTrustProxy
