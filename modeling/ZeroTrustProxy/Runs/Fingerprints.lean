import ZeroTrustProxy.Contract.Kinds
import ZeroTrustProxy.Runs.Rewards
import ZeroTrustProxy.Text.Fields

/-!
What a fingerprint says of its device.

The fields of a device are hashed one after another without separators. Equal
fingerprints belong to one device unless the fields of two devices spell the same
text, and with the metadata left out that happens as soon as the address of one
client ends what the fields of the other spell.
-/

namespace ZeroTrustProxy

open Concurrent Program DeviceFingerprint

variable {X : External} {srv : ProxyServer} {req : Request} {h : List Event}

/-! ### The hashed text -/

/-- The fields that are hashed, in their order. -/
def deviceFields (userAgent ipAddress : String) (metadata : DeviceMetadata) :
    List (Option (List Char)) :=
  [some userAgent.toList, some ipAddress.toList, metadata.screenResolution.map String.toList,
    metadata.timezone.map String.toList, metadata.language.map String.toList]

theorem toList_getD (field : Option String) :
    (field.getD "").toList = (field.map String.toList).getD [] := by
  cases field with
  | none => rfl
  | some s => rfl

theorem hashInput_toList {userAgent ipAddress : String} {metadata : DeviceMetadata} :
    (hashInput userAgent ipAddress metadata).toList =
      Fields.spelling (deviceFields userAgent ipAddress metadata) := by
  simp only [hashInput, deviceFields, String.toList_append, toList_getD, Fields.spelling_cons,
    Fields.spelling_nil, Option.getD_some, List.append_nil, List.append_assoc]

/-- The two devices agree on every field that is hashed. -/
structure SameDevice (userAgent ipAddress : String) (metadata : DeviceMetadata)
    (userAgent' ipAddress' : String) (metadata' : DeviceMetadata) : Prop where
  userAgent : userAgent = userAgent'
  ipAddress : ipAddress = ipAddress'
  screenResolution : metadata.screenResolution = metadata'.screenResolution
  timezone : metadata.timezone = metadata'.timezone
  language : metadata.language = metadata'.language

theorem deviceFields_inj {userAgent ipAddress userAgent' ipAddress' : String}
    {metadata metadata' : DeviceMetadata} :
    deviceFields userAgent ipAddress metadata = deviceFields userAgent' ipAddress' metadata' ↔
      SameDevice userAgent ipAddress metadata userAgent' ipAddress' metadata' := by
  have hmap {f f' : Option String} (heq : f.map String.toList = f'.map String.toList) : f = f' :=
    Option.map_injective (fun _ _ => String.toList_inj.mp) heq
  constructor
  · intro heq
    simp only [deviceFields, List.cons.injEq, Option.some.injEq, String.toList_inj, and_true] at heq
    obtain ⟨hagent, haddress, hresolution, hzone, hlanguage⟩ := heq
    exact ⟨hagent, haddress, hmap hresolution, hmap hzone, hmap hlanguage⟩
  · rintro ⟨rfl, rfl, hresolution, hzone, hlanguage⟩
    simp only [deviceFields, hresolution, hzone, hlanguage]

/-- On texts that the digest tells apart, fingerprints are equal when the texts
are. -/
theorem generateHash_inj {occurring : Set String} (hinj : Set.InjOn X.sha256 occurring)
    {userAgent ipAddress userAgent' ipAddress' : String} {metadata metadata' : DeviceMetadata}
    (hoccurs : hashInput userAgent ipAddress metadata ∈ occurring)
    (hoccurs' : hashInput userAgent' ipAddress' metadata' ∈ occurring) :
    generateHash X userAgent ipAddress metadata = generateHash X userAgent' ipAddress' metadata' ↔
      Fields.spelling (deviceFields userAgent ipAddress metadata) =
        Fields.spelling (deviceFields userAgent' ipAddress' metadata') := by
  rw [← hashInput_toList, ← hashInput_toList, String.toList_inj]
  exact hinj.eq_iff hoccurs hoccurs'

/-! ### Logins -/

/-- The user agent `handle_login` takes from a request. -/
def userAgentOf (req : Request) : String := (req.header "user-agent").getD "unknown"

/-- The text a login has hashed. -/
def fingerprintInput (req : Request) : String :=
  hashInput (userAgentOf req) req.remoteIp.text .empty

theorem fingerprintInput_toList :
    (fingerprintInput req).toList = (userAgentOf req).toList ++ req.remoteIp.text.toList := by
  rw [fingerprintInput, hashInput_toList]
  simp [deviceFields, DeviceMetadata.empty]

/-- A login decides without looking another device up. -/
theorem LoginVerdict.no_lookup {body : LoginBody} {user : UserRow} {device : DeviceFingerprint}
    {existing : Option DeviceRow} {r : Except ProxyError Response}
    (hv : LoginVerdict X srv req body user device existing h r) {userId : Uuid} {hash : String}
    {found : Except Fault (Option DeviceRow)} : .findDeviceByFingerprint userId hash found ∉ h := by
  have hscores {scores : List Event} {score : Except ProxyError RiskScore}
      (hr : LoginRiskRun srv req user device existing scores score) :
      .findDeviceByFingerprint userId hash found ∉ scores := by
    cases hr with
    | failed => simp
    | scored lastSeen timestamp now => simp
  cases hv with
  | unverifiable password => simp
  | refusalFailed password => simp
  | refused password audited =>
      simp only [List.mem_append, List.mem_singleton, reduceCtorEq, or_false]
      exact audited.kinds.not_mem (by simp [Event.kind])
  | mfaRefused password gate => exact gate.kinds.not_mem (by simp [Event.kind])
  | riskFailed password gate scored =>
      rw [List.mem_append, not_or]
      exact ⟨hscores scored, gate.kinds.not_mem (by simp [Event.kind])⟩
  | blocked password gate scored block audited =>
      rw [List.mem_append, List.mem_append, not_or, not_or]
      exact ⟨audited.kinds.not_mem (by simp [Event.kind]), hscores scored,
        gate.kinds.not_mem (by simp [Event.kind])⟩
  | opened password gate scored block opened =>
      rw [List.mem_append, List.mem_append, not_or, not_or]
      exact ⟨opened.kinds.not_mem (by simp [Event.kind]), hscores scored,
        gate.kinds.not_mem (by simp [Event.kind])⟩

/-- A login looks its device up under the fingerprint of its user agent and its
address. -/
theorem LoginRun.lookup {r : Except ProxyError Response} (hl : LoginRun X srv req h r)
    {userId : Uuid} {hash : String} {found : Except Fault (Option DeviceRow)}
    (hmem : .findDeviceByFingerprint userId hash found ∈ h) : hash = fingerprintOf X req := by
  have hrate {rate : List Event} {r : Except ProxyError Unit}
      (rated : RateRun (rateLimitKey "login" req.remoteIp) 10 300 rate r) :
      .findDeviceByFingerprint userId hash found ∉ rate :=
    rated.kinds.not_mem (by simp [Event.kind])
  have hlookups {body : LoginBody} {user : UserRow} {id : Uuid} {firstSeen lastSeen : Int}
      {found' : Except Fault (Option DeviceRow)} {rate : List Event}
      (rated : RateRun (rateLimitKey "login" req.remoteIp) 10 300 rate (.ok ()))
      (hmem : .findDeviceByFingerprint userId hash found ∈
        loginLookups X req body user id firstSeen lastSeen found' rate) :
      hash = fingerprintOf X req := by
    simp only [loginLookups, List.mem_cons, reduceCtorEq, false_or,
      Event.findDeviceByFingerprint.injEq] at hmem
    obtain ⟨-, hhash, -⟩ | hmem := hmem
    · exact hhash
    · exact (hrate rated hmem).elim
  cases hl with
  | limited rated => exact (hrate rated hmem).elim
  | unread rated body => exact (hrate rated hmem).elim
  | malformed rated body parse => exact (hrate rated hmem).elim
  | lookupFailed rated parsed =>
      simp only [List.mem_cons, reduceCtorEq, false_or] at hmem
      exact (hrate rated hmem).elim
  | unknown rated parsed inactive =>
      simp only [List.mem_cons, reduceCtorEq, false_or] at hmem
      exact (hrate rated hmem).elim
  | deviceFailed id firstSeen lastSeen rated parsed active => exact hlookups rated hmem
  | decided id firstSeen lastSeen rated parsed active decision =>
      obtain hmem | hmem := List.mem_append.mp hmem
      · exact (decision.no_lookup hmem).elim
      · exact hlookups rated hmem

/-! ### Forged user agents -/

theorem userAgentOf_eq {value : String} (hheaders : req.headers = [("user-agent", value)])
    (hvalue : headerToStr value = some value) : userAgentOf req = value := by
  simp [userAgentOf, Request.header, hheaders, hvalue]

theorem headerToStr_eq_some {value value' : String} :
    headerToStr value = some value' ↔ value' = value ∧
      ∀ c ∈ value.toList, ((32 ≤ c.toNat && c.toNat < 127) || c = '\t') = true := by
  simp only [headerToStr, Option.ite_none_right_eq_some, List.all_eq_true, Option.some.injEq]
  exact ⟨fun ⟨h, h'⟩ => ⟨h'.symm, h⟩, fun ⟨h, h'⟩ => ⟨h', h.symm⟩⟩

/-- A user agent that was taken from a request can be sent again. -/
theorem userAgentOf_header : headerToStr (userAgentOf req) = some (userAgentOf req) := by
  cases hagent : req.header "user-agent" with
  | none =>
      rw [userAgentOf, hagent]
      decide
  | some value =>
      rw [userAgentOf, hagent]
      obtain ⟨value', -, hvalue⟩ := Option.bind_eq_some_iff.mp hagent
      obtain ⟨rfl, -⟩ := headerToStr_eq_some.mp hvalue
      exact hvalue

/-- A client at `address` can send a user agent that spells the text of another
device exactly when its own address ends that text. -/
theorem exists_forgery {address : IpAddr} (haddress : address ≠ req.remoteIp)
    (hprintable : headerToStr req.remoteIp.text = some req.remoteIp.text) :
    (∃ req' : Request, req'.route = req.route ∧ req'.remoteIp = address ∧
      fingerprintInput req' = fingerprintInput req) ↔
      address.text.toList <:+ (userAgentOf req).toList ++ req.remoteIp.text.toList := by
  have htext {req' : Request} : fingerprintInput req' = fingerprintInput req ↔
      (userAgentOf req').toList ++ req'.remoteIp.text.toList =
        (userAgentOf req).toList ++ req.remoteIp.text.toList := by
    rw [← fingerprintInput_toList, ← fingerprintInput_toList, String.toList_inj]
  constructor
  · rintro ⟨req', -, rfl, hinput⟩
    exact ⟨_, htext.mp hinput⟩
  · rintro ⟨first, hfirst⟩
    have hagent : headerToStr (String.ofList first) = some (String.ofList first) := by
      refine headerToStr_eq_some.mpr ⟨rfl, fun c hc => ?_⟩
      rw [String.toList_ofList] at hc
      have hmem : c ∈ (userAgentOf req).toList ++ req.remoteIp.text.toList := by
        rw [← hfirst]
        exact List.mem_append_left _ hc
      obtain hmem | hmem := List.mem_append.mp hmem
      · exact (headerToStr_eq_some.mp userAgentOf_header).2 c hmem
      · exact (headerToStr_eq_some.mp hprintable).2 c hmem
    refine ⟨{ req with
      headers := [("user-agent", String.ofList first)]
      remoteIp := address }, rfl, rfl, ?_⟩
    rw [htext, userAgentOf_eq rfl hagent, String.toList_ofList]
    exact hfirst

/-- Two devices at different addresses spell one text with different user
agents. -/
theorem userAgentOf_ne {req' : Request} (haddress : req'.remoteIp ≠ req.remoteIp)
    (hinput : fingerprintInput req' = fingerprintInput req) :
    userAgentOf req' ≠ userAgentOf req := by
  intro hagent
  have htexts := congrArg String.toList hinput
  rw [fingerprintInput_toList, fingerprintInput_toList, hagent] at htexts
  have htext := String.toList_inj.mp (List.append_cancel_left htexts)
  exact haddress (congrArg IpAddr.mk htext)

/-- **What a fingerprint identifies.** On texts that the digest tells apart:
equal fingerprints belong to one device unless the fields of two spell one text
that they cut at different places; a client at another address cannot pick a user
agent that gives it the fingerprint of a device that has logged in unless its own
address ends what that device spells; and a login looks its device up under
nothing but the fingerprint of its user agent and address. -/
theorem fingerprint_identifies {occurring : Set String} (hinj : Set.InjOn X.sha256 occurring) :
    (∀ userAgent ipAddress metadata userAgent' ipAddress' metadata',
      hashInput userAgent ipAddress metadata ∈ occurring →
      hashInput userAgent' ipAddress' metadata' ∈ occurring →
      ((generateHash X userAgent ipAddress metadata =
          generateHash X userAgent' ipAddress' metadata' →
        SameDevice userAgent ipAddress metadata userAgent' ipAddress' metadata') ↔
        ¬ Fields.Ambiguous (deviceFields userAgent ipAddress metadata)
          (deviceFields userAgent' ipAddress' metadata'))) ∧
    (∀ (req : Request) (address : IpAddr), req.route = .login → address ≠ req.remoteIp →
      headerToStr req.remoteIp.text = some req.remoteIp.text → fingerprintInput req ∈ occurring →
      ((∀ req' : Request, req'.route = .login → req'.remoteIp = address →
          fingerprintInput req' ∈ occurring → userAgentOf req' ≠ userAgentOf req →
          fingerprintOf X req' ≠ fingerprintOf X req) ↔
        ¬ address.text.toList <:+ (userAgentOf req).toList ++ req.remoteIp.text.toList)) ∧
    ∀ srv req h r, (handleLogin X srv req).Ends h r → ∀ userId hash found,
      .findDeviceByFingerprint userId hash found ∈ h → hash = fingerprintOf X req := by
  refine ⟨?_, ?_, fun srv req h r hend userId hash found => (handleLogin_ends hend).lookup⟩
  · intro userAgent ipAddress metadata userAgent' ipAddress' metadata' hoccurs hoccurs'
    rw [generateHash_inj hinj hoccurs hoccurs', ← deviceFields_inj]
    exact Fields.determined_iff
  · intro req address hroute haddress hprintable hoccurs
    have hsame {req' : Request} (hoccurs' : fingerprintInput req' ∈ occurring) :
        fingerprintOf X req' = fingerprintOf X req ↔
          fingerprintInput req' = fingerprintInput req := hinj.eq_iff hoccurs' hoccurs
    rw [← exists_forgery haddress hprintable, not_exists]
    constructor
    · rintro hsafe req' ⟨hroute', rfl, hinput⟩
      have hoccurs' : fingerprintInput req' ∈ occurring := by rwa [hinput]
      have hagent := userAgentOf_ne haddress hinput
      exact hsafe req' (hroute'.trans hroute) rfl hoccurs' hagent ((hsame hoccurs').mpr hinput)
    · intro hnone req' hroute' haddress' hoccurs' hagent hhash
      apply hnone req'
      exact ⟨hroute'.trans hroute.symm, haddress', (hsame hoccurs').mp hhash⟩

namespace Scenario

def nearby : IpAddr := ⟨"11.1.1.1"⟩

def remote : IpAddr := ⟨"1.1.1.1"⟩

/-- Alice's login with this user agent from this address. -/
def loginFrom (userAgent : String) (address : IpAddr) : Request :=
  { login aliceLogin with
    headers := [("user-agent", userAgent)]
    remoteIp := address }

/-- SHA-256 on the texts of these logins. -/
def digests : External :=
  { external with
    sha256 := fun s =>
      if s = "curl/8.011.1.1.1" then
        "aca3a1a5190e83c852e8a3e3d34169024a6b0651fdea86e7353d5f847945685a"
      else if s = "curl/8.010.0.0.1" then
        "765698736aa6f2ee1946225f98f7a04691fc5b9e8e00ab1852376d59b40891d8"
      else "0d477e75a0b1fdedbb2e01cf276ff830468e6c92f169a3a3a37fbc60530e19a6"
    sha256_length := fun s => by
      split
      · decide
      · split
        · decide
        · decide }

/-- A client at `1.1.1.1` moves one character of the address into its user agent
and has the fingerprint of a device at `11.1.1.1`. -/
theorem fingerprint_forged : ∃ (X : External) (occurring : Set String) (req req' : Request),
    Set.InjOn X.sha256 occurring ∧ req.route = .login ∧ req'.route = .login ∧
      fingerprintInput req ∈ occurring ∧ fingerprintInput req' ∈ occurring ∧
      userAgentOf req' ≠ userAgentOf req ∧ req'.remoteIp ≠ req.remoteIp ∧
      fingerprintOf X req' = fingerprintOf X req := by
  refine ⟨digests, {"curl/8.011.1.1.1"}, loginFrom "curl/8.0" nearby, loginFrom "curl/8.01" remote,
    Set.injOn_singleton _ _, ?_⟩
  simp only [Set.mem_singleton_iff]
  decide +kernel

/-- The fingerprints of one user agent at two addresses. -/
theorem fingerprint_identifies_two :
    (generateHash digests "curl/8.0" "10.0.0.1" .empty =
        generateHash digests "curl/8.0" "11.1.1.1" .empty →
      SameDevice "curl/8.0" "10.0.0.1" .empty "curl/8.0" "11.1.1.1" .empty) ∧
    ∀ req' : Request, req'.route = .login → req'.remoteIp = home →
      fingerprintInput req' ∈ ({"curl/8.010.0.0.1", "curl/8.011.1.1.1"} : Set String) →
      userAgentOf req' ≠ "curl/8.0" →
      fingerprintOf digests req' ≠ fingerprintOf digests (loginFrom "curl/8.0" nearby) := by
  have hinj : Set.InjOn digests.sha256 {"curl/8.010.0.0.1", "curl/8.011.1.1.1"} := by
    rw [Set.injOn_pair]
    intro hdigest
    exact absurd hdigest (by decide +kernel)
  obtain ⟨hdevices, hlogins, -⟩ := fingerprint_identifies (X := digests) hinj
  constructor
  · apply (hdevices "curl/8.0" "10.0.0.1" .empty "curl/8.0" "11.1.1.1" .empty ?_ ?_).mpr
    · intro hambiguous
      exact absurd hambiguous.spelling (by decide +kernel)
    · exact .inl (by decide +kernel)
    · exact .inr (by decide +kernel)
  · apply (hlogins (loginFrom "curl/8.0" nearby) home (by decide +kernel) (by decide +kernel)
      (by decide +kernel) ?_).mpr
    · decide +kernel
    · exact .inr (by decide +kernel)

end Scenario

end ZeroTrustProxy
