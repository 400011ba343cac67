import Mathlib.Data.List.AList
import Mathlib.Data.List.Sort
import ZeroTrustProxy.Model.Auth

/-!
Passkey storage: `src/auth/webauthn.rs`, `src/auth/passkey_store_pg.rs` and
`migrations/001_passkeys.sql`.

`webauthn-rs` and `base64` are parameters. Of a `Passkey` the code uses the
credential id and `update_credential`, which is given by its effect on the
sign counter. A store call is one atomic step: the map is guarded by a lock,
and every Postgres call is one statement. What a database cannot store (a NUL
character, a key too long for an index) counts as a failure of the database.
-/

namespace ZeroTrustProxy

open Concurrent Program

/-- `webauthn_rs` and the encoder of credential ids. -/
structure Webauthn where
  Passkey : Type
  decEq : DecidableEq Passkey
  AuthenticationResult : Type
  credId : Passkey → List UInt8
  counter : Passkey → ℕ
  resultCredId : AuthenticationResult → List UInt8
  resultCounter : AuthenticationResult → ℕ
  /-- `Passkey::update_credential`, of which the callers drop the result. -/
  updateCredential : Passkey → AuthenticationResult → Passkey
  updateCredential_credId : ∀ p r, credId (updateCredential p r) = credId p
  updateCredential_counter : ∀ p r, resultCredId r = credId p →
    counter (updateCredential p r) = max (counter p) (resultCounter r)
  /-- `URL_SAFE_NO_PAD.encode`. -/
  encode : List UInt8 → String
  encode_injective : Function.Injective encode

variable {W : Webauthn}

instance : DecidableEq W.Passkey := W.decEq

structure PasskeyRecord (W : Webauthn) where
  userId : String
  credId : String
  passkey : W.Passkey
  deriving DecidableEq

namespace PasskeyRecord

def new (userId : String) (passkey : W.Passkey) : PasskeyRecord W :=
  ⟨userId, W.encode (W.credId passkey), passkey⟩

/-- `(user_id, cred_id)`, the key of a record in both backends. -/
def key (record : PasskeyRecord W) : String × String := (record.userId, record.credId)

end PasskeyRecord

/-- The error of an update that finds no row. -/
def unknownCredential (record : PasskeyRecord W) : ProxyError :=
  .authenticationFailed
    ("unknown passkey credential " ++ record.credId ++ " for user " ++ record.userId)

/-- The trait `PasskeyStore`, with the state of the store made explicit. A save
also has the time at which it runs, which a database stamps on the row. -/
structure PasskeyStore (W : Webauthn) where
  State : Type
  empty : State
  savePasskey : Int → PasskeyRecord W → State → Except ProxyError Unit × State
  getPasskeys : String → State → List (PasskeyRecord W)
  updatePasskey : PasskeyRecord W → State → Except ProxyError Unit × State
  deletePasskey : String → String → State → Except ProxyError Unit × State

/-! ### The in-memory store -/

/-- The guarded `HashMap`. -/
abbrev PasskeyMap (W : Webauthn) := AList fun _ : String × String => PasskeyRecord W

namespace InMemoryPasskeyStore

/-- `insert`, which replaces what is under the key. -/
def savePasskey (record : PasskeyRecord W) (inner : PasskeyMap W) :
    Except ProxyError Unit × PasskeyMap W :=
  (.ok (), inner.insert record.key record)

def getPasskeys (userId : String) (inner : PasskeyMap W) : List (PasskeyRecord W) :=
  (inner.entries.filter fun x => decide (x.1.1 = userId)).map fun x => x.2

def updatePasskey (record : PasskeyRecord W) (inner : PasskeyMap W) :
    Except ProxyError Unit × PasskeyMap W :=
  match inner.lookup record.key with
  | some _ => (.ok (), inner.insert record.key record)
  | none => (.error (unknownCredential record), inner)

def deletePasskey (userId credId : String) (inner : PasskeyMap W) :
    Except ProxyError Unit × PasskeyMap W :=
  (.ok (), inner.erase (userId, credId))

end InMemoryPasskeyStore

def inMemoryPasskeyStore (W : Webauthn) : PasskeyStore W where
  State := PasskeyMap W
  empty := ∅
  savePasskey _ := InMemoryPasskeyStore.savePasskey
  getPasskeys := InMemoryPasskeyStore.getPasskeys
  updatePasskey := InMemoryPasskeyStore.updatePasskey
  deletePasskey := InMemoryPasskeyStore.deletePasskey

/-! ### The Postgres store -/

/-- The columns beside the primary key, without `last_used_at`, which nothing
reads. -/
structure PasskeyRow (W : Webauthn) where
  passkey : W.Passkey
  createdAt : Int

/-- The table `passkeys`, with `PRIMARY KEY (user_id, cred_id)`. -/
abbrev PasskeyTable (W : Webauthn) := AList fun _ : String × String => PasskeyRow W

namespace PostgresPasskeyStore

/-- `INSERT INTO passkeys ..`, which the primary key rejects for a key that is
there. `created_at` is `NOW()`. -/
def savePasskey (now : Int) (record : PasskeyRecord W) (table : PasskeyTable W) :
    Except ProxyError Unit × PasskeyTable W :=
  match table.lookup record.key with
  | some _ =>
      (.error (.databaseError "duplicate key value violates unique constraint \"passkeys_pkey\""),
        table)
  | none => (.ok (), table.insert record.key ⟨record.passkey, now⟩)

/-- `SELECT .. WHERE user_id = .. ORDER BY created_at`. -/
def getPasskeys (userId : String) (table : PasskeyTable W) : List (PasskeyRecord W) :=
  ((table.entries.filter fun x => decide (x.1.1 = userId)).mergeSort
    fun x y => decide (x.2.createdAt ≤ y.2.createdAt)).map fun x => ⟨x.1.1, x.1.2, x.2.passkey⟩

/-- `UPDATE passkeys SET passkey = ..`, and the check of the rows affected. -/
def updatePasskey (record : PasskeyRecord W) (table : PasskeyTable W) :
    Except ProxyError Unit × PasskeyTable W :=
  match table.lookup record.key with
  | some row => (.ok (), table.insert record.key { row with passkey := record.passkey })
  | none => (.error (unknownCredential record), table)

def deletePasskey (userId credId : String) (table : PasskeyTable W) :
    Except ProxyError Unit × PasskeyTable W :=
  (.ok (), table.erase (userId, credId))

end PostgresPasskeyStore

def postgresPasskeyStore (W : Webauthn) : PasskeyStore W where
  State := PasskeyTable W
  empty := ∅
  savePasskey := PostgresPasskeyStore.savePasskey
  getPasskeys := PostgresPasskeyStore.getPasskeys
  updatePasskey := PostgresPasskeyStore.updatePasskey
  deletePasskey := PostgresPasskeyStore.deletePasskey

/-! ### The configured store -/

inductive PasskeyStoreKind where
  | postgres
  | memory
  deriving DecidableEq

/-- `PasskeyStoreHandle`, which delegates every call to the backend the
configuration selects. -/
def passkeyStoreHandle (W : Webauthn) : PasskeyStoreKind → PasskeyStore W
  | .postgres => postgresPasskeyStore W
  | .memory => inMemoryPasskeyStore W

/-! ### Calls -/

/-- The calls of a store. -/
inductive PasskeyCall (W : Webauthn) where
  | savePasskey (record : PasskeyRecord W)
  | getPasskeys (userId : String)
  | updatePasskey (record : PasskeyRecord W)
  | deletePasskey (userId credId : String)

@[reducible] def PasskeyCall.Resp : PasskeyCall W → Type
  | getPasskeys _ => List (PasskeyRecord W)
  | _ => Except ProxyError Unit

instance : (c : PasskeyCall W) → DecidableEq c.Resp
  | .getPasskeys _ => inferInstanceAs (DecidableEq (List (PasskeyRecord W)))
  | .savePasskey _ | .updatePasskey _ | .deletePasskey _ _ =>
      inferInstanceAs (DecidableEq (Except ProxyError Unit))

/-- One call at the time `now`: its reply, and the store after it. -/
def PasskeyStore.perform (S : PasskeyStore W) (now : Int) :
    (c : PasskeyCall W) → S.State → c.Resp × S.State
  | .savePasskey record, s => S.savePasskey now record s
  | .getPasskeys userId, s => (S.getPasskeys userId s, s)
  | .updatePasskey record, s => S.updatePasskey record s
  | .deletePasskey userId credId, s => S.deletePasskey userId credId s

/-- A call together with its reply. -/
structure PasskeyEvent (W : Webauthn) where
  call : PasskeyCall W
  reply : call.Resp

@[reducible] def passkeyInterface (W : Webauthn) : Interface where
  Cmd := PasskeyCall W
  Resp := PasskeyCall.Resp
  Event := PasskeyEvent W
  event := PasskeyEvent.mk
  command := PasskeyEvent.call
  command_event _ _ := rfl

def storeCall (c : PasskeyCall W) : Program (passkeyInterface W) ProxyError c.Resp := .call c .ret

/-- The record `refresh_passkey` hands to the store: the caller's copy, with
the result of the authentication merged into it. -/
def refreshed (record : PasskeyRecord W) (result : W.AuthenticationResult) : PasskeyRecord W :=
  { record with passkey := W.updateCredential record.passkey result }

def refreshPasskey (record : PasskeyRecord W) (result : W.AuthenticationResult) :
    Program (passkeyInterface W) ProxyError Unit := do
  let updated ← storeCall (.updatePasskey (refreshed record result))
  ofExcept updated

/-! ### The token of a sign-in -/

/-- The token says that the second factor has been verified. -/
def mintPasskeyJwt (expirationHours : Int) (userId deviceId sessionId : String) (riskScore : ℕ) :
    Handler String :=
  JwtManager.generateToken expirationHours userId deviceId riskScore true sessionId

end ZeroTrustProxy
