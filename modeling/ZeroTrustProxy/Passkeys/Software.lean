import Mathlib.Data.List.Nodup
import ZeroTrustProxy.Model.Passkey

/-!
A software authenticator, for particular runs of the stores.

A credential is its id and its counter, and credential ids are written in
URL-safe Base64 without padding.
-/

namespace ZeroTrustProxy

/-! ### Base64 -/

def base64Alphabet : List Char :=
  "ABCDEFGHIJKLMNOPQRSTUVWXYZabcdefghijklmnopqrstuvwxyz0123456789-_".toList

def base64Digit (n : ℕ) : Char := base64Alphabet.getD n '='

theorem base64Digit_inj {m n : ℕ} (hm : m < 64) (hn : n < 64)
    (h : base64Digit m = base64Digit n) : m = n := by
  have hlength : base64Alphabet.length = 64 := by decide
  have hnodup : base64Alphabet.Nodup := by decide
  rw [← hlength] at hm hn
  have hsame : base64Alphabet[m] = base64Alphabet[n] := by simpa [base64Digit, hm, hn] using h
  exact hnodup.getElem_inj_iff.mp hsame

/-- Three bytes are four digits; a rest of one or two bytes is two or three. -/
def base64Digits : List UInt8 → List Char
  | [] => []
  | [a] => [base64Digit (a.toNat / 4), base64Digit (a.toNat % 4 * 16)]
  | [a, b] =>
      [base64Digit (a.toNat / 4), base64Digit (a.toNat % 4 * 16 + b.toNat / 16),
        base64Digit (b.toNat % 16 * 4)]
  | a :: b :: c :: bytes =>
      base64Digit (a.toNat / 4) :: base64Digit (a.toNat % 4 * 16 + b.toNat / 16) ::
        base64Digit (b.toNat % 16 * 4 + c.toNat / 64) :: base64Digit (c.toNat % 64) ::
          base64Digits bytes

theorem base64Digit_iff {m n : ℕ} (hm : m < 64) (hn : n < 64) :
    base64Digit m = base64Digit n ↔ m = n :=
  ⟨base64Digit_inj hm hn, congrArg base64Digit⟩

/-- Lists of different lengths modulo three have different numbers of digits;
otherwise the digits give every byte back. -/
theorem base64Digits_inj {bytes bytes' : List UInt8} (h : base64Digits bytes = base64Digits bytes') :
    bytes = bytes' := by
  have lt (a : UInt8) : a.toNat < 256 := a.toNat_lt
  induction bytes using base64Digits.induct generalizing bytes' with
  | case1 => cases bytes' using base64Digits.fun_cases <;> simp [base64Digits] at h ⊢
  | case2 a =>
      cases bytes' using base64Digits.fun_cases with
      | case2 a' =>
          have ha := lt a
          have ha' := lt a'
          simp (disch := omega) only [base64Digits, List.cons.injEq, base64Digit_iff] at h
          have hfirst : a = a' := UInt8.toNat_inj.mp (by omega)
          rw [hfirst]
      | _ => simp [base64Digits] at h
  | case3 a b =>
      cases bytes' using base64Digits.fun_cases with
      | case3 a' b' =>
          have ha := lt a
          have ha' := lt a'
          have hb := lt b
          have hb' := lt b'
          simp (disch := omega) only [base64Digits, List.cons.injEq, base64Digit_iff] at h
          have hfirst : a = a' := UInt8.toNat_inj.mp (by omega)
          have hsecond : b = b' := UInt8.toNat_inj.mp (by omega)
          rw [hfirst, hsecond]
      | _ => simp [base64Digits] at h
  | case4 a b c bytes ih =>
      cases bytes' using base64Digits.fun_cases with
      | case4 a' b' c' bytes' =>
          have ha := lt a
          have ha' := lt a'
          have hb := lt b
          have hb' := lt b'
          have hc := lt c
          have hc' := lt c'
          simp (disch := omega) only [base64Digits, List.cons.injEq, base64Digit_iff] at h
          have hfirst : a = a' := UInt8.toNat_inj.mp (by omega)
          have hsecond : b = b' := UInt8.toNat_inj.mp (by omega)
          have hthird : c = c' := UInt8.toNat_inj.mp (by omega)
          rw [hfirst, hsecond, hthird, ih h.2.2.2.2]
      | _ => simp [base64Digits] at h

def base64 (bytes : List UInt8) : String := String.ofList (base64Digits bytes)

theorem base64_injective : Function.Injective base64 := fun _ _ h =>
  base64Digits_inj (String.ofList_injective h)

/-! ### Credentials -/

structure SoftwareKey where
  credId : List UInt8
  counter : ℕ
  deriving DecidableEq

/-- The merge of a result: of another credential it is dropped. -/
def SoftwareKey.updateCredential (key result : SoftwareKey) : SoftwareKey :=
  if result.credId = key.credId then { key with counter := max key.counter result.counter } else key

@[reducible] def softwareAuthenticator : Webauthn where
  Passkey := SoftwareKey
  decEq := inferInstance
  AuthenticationResult := SoftwareKey
  credId := SoftwareKey.credId
  counter := SoftwareKey.counter
  resultCredId := SoftwareKey.credId
  resultCounter := SoftwareKey.counter
  updateCredential := SoftwareKey.updateCredential
  updateCredential_credId key result := by
    unfold SoftwareKey.updateCredential
    split <;> rfl
  updateCredential_counter key result h := by
    unfold SoftwareKey.updateCredential
    rw [if_pos h]
  encode := base64
  encode_injective := base64_injective

/-- A credential of the id `"test-credential-id"`. -/
def testKey (counter : ℕ) : SoftwareKey :=
  ⟨"test-credential-id".toUTF8.toList, counter⟩

def testRecord (userId : String) (counter : ℕ) : PasskeyRecord softwareAuthenticator :=
  .new userId (testKey counter)

example : (testRecord "alice" 0).credId = "dGVzdC1jcmVkZW50aWFsLWlk" := by decide +kernel

end ZeroTrustProxy
