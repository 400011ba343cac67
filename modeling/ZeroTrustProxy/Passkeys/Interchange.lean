import Mathlib.Logic.Equiv.Basic
import ZeroTrustProxy.Passkeys.Backends
import ZeroTrustProxy.Passkeys.Software

/-!
When the two passkey backends are interchangeable.

The same calls are made on an empty store of each kind. As long as no save
meets a key that is there the two stores keep the same map and give the same
replies; the first save that does is accepted by one and refused by the other.
-/

namespace ZeroTrustProxy

variable {W : Webauthn}

/-- Two replies to a call that are the same to a caller: both `Ok` or both
`Err`, or the same set of records. -/
def SameReply : (c : PasskeyCall W) → c.Resp → c.Resp → Prop
  | .getPasskeys _, l, l' => ∀ record, record ∈ l ↔ record ∈ l'
  | .savePasskey _, r, r' => r.isOk = r'.isOk
  | .updatePasskey _, r, r' => r.isOk = r'.isOk
  | .deletePasskey _ _, r, r' => r.isOk = r'.isOk

/-- All of `calls`, each made at its time, are answered alike. -/
def Interchangeable (S T : PasskeyStore W) : List (Int × PasskeyCall W) → S.State → T.State → Prop
  | [], _, _ => True
  | (now, c) :: calls, s, t =>
      SameReply c (S.perform now c s).1 (T.perform now c t).1 ∧
        Interchangeable S T calls (S.perform now c s).2 (T.perform now c t).2

/-- The keys that are enrolled after a call: a save adds its key and a delete
takes its key away. -/
def enrolledAfter (enrolled : String × String → Bool) : PasskeyCall W → String × String → Bool
  | .savePasskey record => Function.update enrolled record.key true
  | .deletePasskey userId credId => Function.update enrolled (userId, credId) false
  | _ => enrolled

/-- Every save is of a key that is not enrolled then. -/
def SavesNew (enrolled : String × String → Bool) : List (Int × PasskeyCall W) → Prop
  | [] => True
  | (_, c) :: calls =>
      (∀ record, c = .savePasskey record → enrolled record.key = false) ∧
        SavesNew (enrolledAfter enrolled c) calls

/-- The two stores keep the same map, and its keys are those enrolled. -/
structure SameMap {S T : PasskeyStore W} (KS : KeyedStore S) (KT : KeyedStore T)
    (enrolled : String × String → Bool) (s : S.State) (t : T.State) : Prop where
  left : KS.Valid s
  right : KT.Valid t
  same : KS.view s = KT.view t
  enrolled : ∀ k, enrolled k = (KS.view s k).isSome

section Calls

variable {S T : PasskeyStore W} {KS : KeyedStore S} {KT : KeyedStore T}
  {enrolled : String × String → Bool} {s : S.State} {t : T.State}

theorem SameMap.get (h : SameMap KS KT enrolled s t) (userId : String) :
    ∀ record, record ∈ S.getPasskeys userId s ↔ record ∈ T.getPasskeys userId t := by
  intro record
  rw [KS.get h.left, KT.get h.right, h.same]

/-- Two steps that put the same value under the same key. -/
theorem SameMap.set (h : SameMap KS KT enrolled s t) {k : String × String}
    {v : Option W.Passkey} {s' : S.State} {t' : T.State} (hs : KS.Valid s') (ht : KT.Valid t')
    (hs' : KS.view s' = Function.update (KS.view s) k v)
    (ht' : KT.view t' = Function.update (KT.view t) k v) :
    SameMap KS KT (Function.update enrolled k v.isSome) s' t' := by
  refine ⟨hs, ht, by rw [hs', ht', h.same], fun k' => ?_⟩
  rw [hs']
  by_cases hk : k' = k
  · subst hk
    simp
  · rw [Function.update_of_ne hk, Function.update_of_ne hk]
    exact h.enrolled k'

theorem SameMap.update (h : SameMap KS KT enrolled s t) (record : PasskeyRecord W) :
    (S.updatePasskey record s).1.isOk = (T.updatePasskey record t).1.isOk ∧
      SameMap KS KT enrolled (S.updatePasskey record s).2 (T.updatePasskey record t).2 := by
  rcases KS.update h.left record with ⟨hview, hok, hvalid, hset⟩ | ⟨hnone, hs⟩
  · rcases KT.update h.right record with ⟨hview', hok', hvalid', hset'⟩ | ⟨hnone, -⟩
    · have hthere : enrolled record.key = true := by
        rw [h.enrolled]
        exact Option.isSome_iff_ne_none.mpr hview
      have hsame := h.set hvalid hvalid' hset hset'
      rw [Option.isSome_some, ← hthere, Function.update_eq_self] at hsame
      exact ⟨by rw [hok, hok'], hsame⟩
    · exact (hview (by rw [h.same, hnone])).elim
  · rcases KT.update h.right record with ⟨hview', -⟩ | ⟨-, ht⟩
    · exact (hview' (by rw [← h.same, hnone])).elim
    · rw [hs, ht]
      exact ⟨rfl, h⟩

theorem SameMap.delete (h : SameMap KS KT enrolled s t) (userId credId : String) :
    (S.deletePasskey userId credId s).1.isOk = (T.deletePasskey userId credId t).1.isOk ∧
      SameMap KS KT (Function.update enrolled (userId, credId) false)
        (S.deletePasskey userId credId s).2 (T.deletePasskey userId credId t).2 := by
  obtain ⟨hok, hvalid, hset⟩ := KS.delete h.left userId credId
  obtain ⟨hok', hvalid', hset'⟩ := KT.delete h.right userId credId
  exact ⟨by rw [hok, hok'], h.set hvalid hvalid' hset hset'⟩

/-- A save of a new key is accepted by both. -/
theorem SameMap.save (h : SameMap KS KT enrolled s t) (now : Int) {record : PasskeyRecord W}
    (hnew : enrolled record.key = false) :
    (S.savePasskey now record s).1.isOk = (T.savePasskey now record t).1.isOk ∧
      SameMap KS KT (Function.update enrolled record.key true)
        (S.savePasskey now record s).2 (T.savePasskey now record t).2 := by
  have hnone : KS.view s record.key = none := by
    rw [h.enrolled] at hnew
    simpa using hnew
  rcases KS.save h.left now record with ⟨hok, hvalid, hset⟩ | ⟨-, hthere⟩
  · rcases KT.save h.right now record with ⟨hok', hvalid', hset'⟩ | ⟨-, hthere⟩
    · exact ⟨by rw [hok, hok'], h.set hvalid hvalid' hset hset'⟩
    · exact (hthere (by rw [← h.same, hnone])).elim
  · exact (hthere hnone).elim

end Calls

/-- A save of a key that is there is accepted in memory and refused by
Postgres. -/
theorem save_twice {enrolled : String × String → Bool} {s : (inMemoryPasskeyStore W).State}
    {t : (postgresPasskeyStore W).State}
    (h : SameMap (inMemoryKeyed W) (postgresKeyed W) enrolled s t) (now : Int)
    {record : PasskeyRecord W} (hold : enrolled record.key = true) :
    ((inMemoryPasskeyStore W).savePasskey now record s).1.isOk = true ∧
      ((postgresPasskeyStore W).savePasskey now record t).1.isOk = false := by
  refine ⟨rfl, ?_⟩
  have hview : (postgresKeyed W).view t record.key ≠ none := by
    rw [← h.same, ← Option.isSome_iff_ne_none, ← h.enrolled]
    exact hold
  obtain ⟨row, hrow⟩ : ∃ row, AList.lookup record.key t = some row := by
    refine Option.ne_none_iff_exists'.mp fun hnone => hview ?_
    show (AList.lookup record.key t).map PasskeyRow.passkey = none
    rw [hnone]
    rfl
  obtain ⟨e, he⟩ := PostgresPasskeyStore.savePasskey_known now hrow
  show (PostgresPasskeyStore.savePasskey now record t).1.isOk = false
  rw [he]
  rfl

theorem interchangeable_iff (calls : List (Int × PasskeyCall W))
    {enrolled : String × String → Bool} {s : (inMemoryPasskeyStore W).State}
    {t : (postgresPasskeyStore W).State}
    (h : SameMap (inMemoryKeyed W) (postgresKeyed W) enrolled s t) :
    Interchangeable (inMemoryPasskeyStore W) (postgresPasskeyStore W) calls s t ↔
      SavesNew enrolled calls := by
  induction calls generalizing enrolled s t with
  | nil => exact Iff.rfl
  | cons call calls ih =>
      obtain ⟨now, c⟩ := call
      cases c with
      | savePasskey record =>
          cases hold : enrolled record.key with
          | true =>
              obtain ⟨hok, herr⟩ := save_twice h now hold
              constructor
              · rintro ⟨hsame, -⟩
                have hboth : ((inMemoryPasskeyStore W).savePasskey now record s).1.isOk =
                    ((postgresPasskeyStore W).savePasskey now record t).1.isOk := hsame
                rw [hok, herr] at hboth
                exact (Bool.false_ne_true hboth.symm).elim
              · rintro ⟨hnew, -⟩
                have hfalse := hnew record rfl
                rw [hold] at hfalse
                exact (Bool.false_ne_true hfalse.symm).elim
          | false =>
              obtain ⟨hsame, hnext⟩ := h.save now hold
              refine and_congr ⟨fun _ => ?_, fun _ => hsame⟩ (ih hnext)
              rintro _ ⟨⟩
              exact hold
      | getPasskeys userId =>
          refine and_congr ⟨fun _ => ?_, fun _ => h.get userId⟩ (ih h)
          rintro record ⟨⟩
      | updatePasskey record =>
          obtain ⟨hsame, hnext⟩ := h.update record
          refine and_congr ⟨fun _ => ?_, fun _ => hsame⟩ (ih hnext)
          rintro record ⟨⟩
      | deletePasskey userId credId =>
          obtain ⟨hsame, hnext⟩ := h.delete userId credId
          refine and_congr ⟨fun _ => ?_, fun _ => hsame⟩ (ih hnext)
          rintro record ⟨⟩

/-- **The backends are interchangeable exactly as long as every save is of a
new key**: a key that has not been saved, or has been deleted since. -/
theorem passkey_stores_interchangeable (calls : List (Int × PasskeyCall W)) :
    Interchangeable (inMemoryPasskeyStore W) (postgresPasskeyStore W) calls
      (inMemoryPasskeyStore W).empty (postgresPasskeyStore W).empty ↔
      SavesNew (fun _ => false) calls := by
  refine interchangeable_iff calls ⟨(inMemoryKeyed W).valid_empty, (postgresKeyed W).valid_empty,
    ?_, fun k => ?_⟩
  · funext k
    rw [(inMemoryKeyed W).view_empty, (postgresKeyed W).view_empty]
  · rw [(inMemoryKeyed W).view_empty]
    rfl

/-- The registration of one credential, made twice. -/
def registeredTwice : List (Int × PasskeyCall softwareAuthenticator) :=
  [(0, .savePasskey (testRecord "user-1" 0)), (1, .savePasskey (testRecord "user-1" 0))]

/-- The map takes the second registration for a new one, the table refuses it. -/
theorem registered_twice :
    ¬ Interchangeable (inMemoryPasskeyStore softwareAuthenticator)
      (postgresPasskeyStore softwareAuthenticator) registeredTwice
      (inMemoryPasskeyStore softwareAuthenticator).empty
      (postgresPasskeyStore softwareAuthenticator).empty := by
  rintro ⟨-, hsecond, -⟩
  have hrefused : ((postgresPasskeyStore softwareAuthenticator).savePasskey 1 (testRecord "user-1" 0)
      ((postgresPasskeyStore softwareAuthenticator).savePasskey 0 (testRecord "user-1" 0)
        (postgresPasskeyStore softwareAuthenticator).empty).2).1.isOk = false := by
    decide +kernel
  exact Bool.false_ne_true (hrefused.symm.trans hsecond.symm)

end ZeroTrustProxy
