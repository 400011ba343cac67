import ZeroTrustProxy.Runs.Recorded
import ZeroTrustProxy.Text.Delimited

/-!
Where a request is forwarded to.

The upstream address is the text of the backend with the target of the request
put behind it, and it is parsed again. A target that begins with a slash leads to
the configured authority and to the path the policy has seen. What the other
targets lead to depends on whether the backend has a path of its own.
-/

namespace ZeroTrustProxy

open Concurrent Program Delimited

variable {X : External} {srv : ProxyServer} {req : Request} {h : List Event} {u : Uri}

/-! ### The URI parser -/

/-- The characters that end an authority. -/
def endsAuthority (c : Char) : Bool := c = '/' || c = '?' || c = '#'

/-- How an absolute URI is parsed: the authority ends at the first delimiter, and
a fragment is dropped. -/
def ParsesAbsolute (X : External) : Prop :=
  ∀ scheme rest u, ':' ∉ scheme.toList → X.parseUri (scheme ++ "://" ++ rest) = some u →
    u.scheme.isSome = true ∧
    u.authority = some (String.ofList (rest.toList.takeWhile (!endsAuthority ·))) ∧
    u.pathQuery = String.ofList
      ((rest.toList.dropWhile (!endsAuthority ·)).takeWhile (· ≠ '#'))

/-- A URI as requests carry it. -/
structure RequestTarget (u : Uri) : Prop where
  /-- An authority that stands alone has no path. -/
  absent : u.pathAndQuery = none → u.pathQuery = ""
  present : u.scheme = none → u.authority = none → u.pathQuery ≠ ""
  shape : ∀ s, u.pathAndQuery = some s →
    s = "*" ∨ s.toList.head? = some '/' ∨ s.toList.head? = some '?'
  noFragment : '#' ∉ u.pathQuery.toList

/-- `scheme://authority` or `scheme://authority/path`. -/
structure Backend (base scheme authority path : String) : Prop where
  form : base = scheme ++ "://" ++ authority ++ path
  noColon : ':' ∉ scheme.toList
  nonempty : authority ≠ ""
  delimited : ∀ c ∈ authority.toList, endsAuthority c = false
  rooted : path = "" ∨ path.toList.head? = some '/'
  plain : '?' ∉ path.toList ∧ '#' ∉ path.toList

/-! ### Paths -/

theorem pathOf_toList {s : String} :
    (Uri.pathOf s).toList =
      if s.toList.takeWhile (· ≠ '?') = [] then ['/'] else s.toList.takeWhile (· ≠ '?') := by
  have hempty : String.ofList (s.toList.takeWhile (· ≠ '?')) = "" ↔
      s.toList.takeWhile (· ≠ '?') = [] := by
    rw [← String.toList_inj, String.toList_ofList]
    rfl
  unfold Uri.pathOf
  simp only [hempty]
  split
  · rfl
  · exact String.toList_ofList

/-- The path of the target is the one its path and query hold. -/
theorem RequestTarget.path_eq (ht : RequestTarget u) :
    u.path = (u.pathAndQuery.map Uri.pathOf).getD "" := by
  obtain ⟨scheme, authority, pathQuery⟩ := u
  cases scheme with
  | some scheme =>
      by_cases hempty : pathQuery = ""
      · subst hempty
        simp [Uri.path, Uri.hasPath, Uri.pathAndQuery, Uri.pathOf]
      · simp [Uri.path, Uri.hasPath, Uri.pathAndQuery, hempty]
  | none =>
      cases authority with
      | some authority =>
          obtain rfl : pathQuery = "" := ht.absent (by simp [Uri.pathAndQuery])
          simp [Uri.path, Uri.hasPath, Uri.pathAndQuery]
      | none =>
          have hpresent : pathQuery ≠ "" := ht.present rfl rfl
          simp [Uri.path, Uri.hasPath, Uri.pathAndQuery, hpresent]

theorem RequestTarget.noHash (ht : RequestTarget u) {s : String} (hs : u.pathAndQuery = some s) :
    '#' ∉ s.toList := by
  simp only [Uri.pathAndQuery, Option.ite_none_right_eq_some, Option.some.injEq] at hs
  obtain ⟨-, rfl⟩ := hs
  split
  · decide
  · exact ht.noFragment

/-! ### The backend -/

namespace Backend

variable {base scheme authority path : String}

theorem trimEndSlashes_toList {s : String} :
    (trimEndSlashes s).toList = s.toList.rdropWhile (· = '/') := by
  rw [trimEndSlashes, String.toList_ofList]
  rfl

/-- Only the path loses its trailing slashes. -/
theorem trimmed (hb : Backend base scheme authority path) :
    trimEndSlashes base = scheme ++ "://" ++ (authority ++ trimEndSlashes path) := by
  obtain ⟨c, hlast⟩ : ∃ c, authority.toList.getLast? = some c := by
    rw [← Option.isSome_iff_exists, List.getLast?_isSome]
    intro hempty
    exact hb.nonempty (String.toList_inj.mp hempty)
  have hslash : decide (c = '/') = false := by
    have hc := hb.delimited c (List.mem_of_getLast? hlast)
    simp only [endsAuthority, Bool.or_eq_false_iff] at hc
    exact hc.1.1
  have hfront : ((scheme ++ "://").toList ++ authority.toList).getLast? = some c := by
    rw [List.getLast?_append, hlast]
    rfl
  rw [← String.toList_inj, trimEndSlashes_toList, hb.form]
  simp only [String.toList_append (s := scheme ++ "://" ++ authority),
    String.toList_append (s := scheme ++ "://"), String.toList_append (s := authority),
    trimEndSlashes_toList]
  rw [rdropWhile_append hfront hslash, List.append_assoc]

/-- The path of the backend is absolute or empty, also without its trailing
slashes. -/
theorem trimmed_head (hb : Backend base scheme authority path) :
    trimEndSlashes path = "" ∨ (trimEndSlashes path).toList.head? = some '/' := by
  obtain hempty | hhead := hb.rooted
  · left
    rw [hempty]
    rfl
  · have hprefix : (trimEndSlashes path).toList <+: path.toList := by
      rw [trimEndSlashes_toList]
      exact List.rdropWhile_prefix _ _
    cases htrim : (trimEndSlashes path).toList with
    | nil => exact .inl (String.toList_inj.mp htrim)
    | cons c l =>
        right
        rw [htrim] at hprefix
        obtain ⟨rest, hrest⟩ := hprefix
        rw [← hrest] at hhead
        exact hhead

theorem trimmed_plain (hb : Backend base scheme authority path) :
    '?' ∉ (trimEndSlashes path).toList ∧ '#' ∉ (trimEndSlashes path).toList := by
  have hsub : (trimEndSlashes path).toList ⊆ path.toList := by
    rw [trimEndSlashes_toList]
    exact (List.rdropWhile_prefix _ _).subset
  exact ⟨fun hmem => hb.plain.1 (hsub hmem), fun hmem => hb.plain.2 (hsub hmem)⟩

end Backend

/-! ### The upstream address -/

/-- Whether the target, put behind the backend, keeps its path. -/
inductive Straight (target : Uri) (backendPath : String) : Prop
  | path {s : String} (given : target.pathAndQuery = some s) (slash : s.toList.head? = some '/')
  | query {s : String} (given : target.pathAndQuery = some s) (mark : s.toList.head? = some '?')
      (bare : backendPath = "")
  | asterisk (given : target.pathAndQuery = some "*") (nested : backendPath ≠ "")

section Address

variable {base scheme authority path : String} {target : Uri}

/-- How the backend is read with a text behind it. -/
theorem Backend.parsed (hb : Backend base scheme authority path) (hp : ParsesAbsolute X)
    {s : String} (hu : X.parseUri (trimEndSlashes base ++ s) = some u) :
    u.scheme.isSome = true ∧
      u.authority = some (String.ofList (authority.toList ++
        ((trimEndSlashes path).toList ++ s.toList).takeWhile (!endsAuthority ·))) ∧
      u.pathQuery = String.ofList
        ((((trimEndSlashes path).toList ++ s.toList).dropWhile (!endsAuthority ·)).takeWhile
          (· ≠ '#')) := by
  have hin : ∀ c ∈ authority.toList, (!endsAuthority c) = true := by
    intro c hc
    rw [hb.delimited c hc]
    rfl
  rw [hb.trimmed, String.append_assoc] at hu
  obtain ⟨hscheme, hauthority, hpath⟩ := hp _ _ _ hb.noColon hu
  rw [String.toList_append, String.toList_append, List.append_assoc,
    List.takeWhile_append_of_pos hin] at hauthority
  rw [String.toList_append, String.toList_append, List.append_assoc,
    List.dropWhile_append_of_pos hin] at hpath
  exact ⟨hscheme, hauthority, hpath⟩

/-- A text that begins with a delimiter leaves the authority alone. -/
theorem Backend.parsed_stops (hb : Backend base scheme authority path) (hp : ParsesAbsolute X)
    {s : String} (hu : X.parseUri (trimEndSlashes base ++ s) = some u) (hnoHash : '#' ∉ s.toList)
    (hstops : Stops (!endsAuthority ·) ((trimEndSlashes path).toList ++ s.toList)) :
    u.authority = some authority ∧
      u.path = Uri.pathOf (String.ofList ((trimEndSlashes path).toList ++ s.toList)) := by
  obtain ⟨hscheme, hauthority, hpath⟩ := hb.parsed hp hu
  have hnone : ∀ c ∈ ([] : List Char), (!endsAuthority c) = true := by simp
  have htake := takeWhile_append hnone hstops
  have hdrop := dropWhile_append hnone hstops
  rw [List.nil_append] at htake hdrop
  rw [htake, List.append_nil, String.ofList_toList] at hauthority
  have hplain : ∀ c ∈ (trimEndSlashes path).toList ++ s.toList, decide (c ≠ '#') = true := by
    intro c hc
    rw [decide_eq_true_eq]
    rintro rfl
    obtain hc | hc := List.mem_append.mp hc
    · exact hb.trimmed_plain.2 hc
    · exact hnoHash hc
  rw [hdrop, takeWhile_all hplain] at hpath
  refine ⟨hauthority, ?_⟩
  rw [← hpath, Uri.path, Uri.hasPath, hscheme, Bool.or_true, if_pos rfl]

theorem Backend.path_append (hb : Backend base scheme authority path) {s : String} :
    (Uri.pathOf (String.ofList ((trimEndSlashes path).toList ++ s.toList))).toList =
      if (trimEndSlashes path).toList ++ s.toList.takeWhile (· ≠ '?') = [] then ['/']
      else (trimEndSlashes path).toList ++ s.toList.takeWhile (· ≠ '?') := by
  have hin : ∀ c ∈ (trimEndSlashes path).toList, decide (c ≠ '?') = true := by
    intro c hc
    rw [decide_eq_true_eq]
    rintro rfl
    exact hb.trimmed_plain.1 hc
  rw [pathOf_toList, String.toList_ofList, List.takeWhile_append_of_pos hin]

/-- Where the authority is left alone, the paths are compared. -/
theorem Backend.compare (hb : Backend base scheme authority path) (hp : ParsesAbsolute X)
    {s policed : String} (hu : X.parseUri (trimEndSlashes base ++ s) = some u)
    (hnoHash : '#' ∉ s.toList)
    (hstops : Stops (!endsAuthority ·) ((trimEndSlashes path).toList ++ s.toList)) :
    (u.authority = some authority ∧ u.path = trimEndSlashes path ++ policed) ↔
      (if (trimEndSlashes path).toList ++ s.toList.takeWhile (· ≠ '?') = [] then ['/']
        else (trimEndSlashes path).toList ++ s.toList.takeWhile (· ≠ '?')) =
        (trimEndSlashes path).toList ++ policed.toList := by
  obtain ⟨hauthority, hpath⟩ := hb.parsed_stops hp hu hnoHash hstops
  rw [hpath, ← String.toList_inj, String.toList_append, hb.path_append]
  exact and_iff_right hauthority

theorem stops_of_head {c : Char} (hc : endsAuthority c = true) {l : List Char}
    (hhead : l.head? = some c) : Stops (!endsAuthority ·) l := by
  intro c' hc'
  obtain rfl : c = c' := Option.some.inj (hhead.symm.trans hc')
  show (!endsAuthority c) = false
  rw [hc]
  rfl

theorem Backend.trimmed_stops (hb : Backend base scheme authority path) :
    Stops (!endsAuthority ·) (trimEndSlashes path).toList := by
  obtain hempty | hhead := hb.trimmed_head
  · rw [hempty]
    exact stops_nil
  · exact stops_of_head (by decide) hhead

/-- A path behind the backend. -/
theorem Backend.address_slash (hb : Backend base scheme authority path) (hp : ParsesAbsolute X)
    {s : String} (hu : X.parseUri (trimEndSlashes base ++ s) = some u) (hnoHash : '#' ∉ s.toList)
    (hslash : s.toList.head? = some '/') :
    u.authority = some authority ∧ u.path = trimEndSlashes path ++ Uri.pathOf s := by
  have hstops := hb.trimmed_stops.append (stops_of_head (by decide) hslash)
  obtain ⟨l, hl⟩ := List.head?_eq_some_iff.mp hslash
  have hquery : s.toList.takeWhile (· ≠ '?') = '/' :: l.takeWhile (· ≠ '?') := by
    rw [hl, List.takeWhile_cons_of_pos (by decide)]
  rw [hb.compare hp hu hnoHash hstops, pathOf_toList, hquery, if_neg (by simp), if_neg (by simp)]

/-- A query behind the backend, whose own path is then the whole path. -/
theorem Backend.address_mark (hb : Backend base scheme authority path) (hp : ParsesAbsolute X)
    {s : String} (hu : X.parseUri (trimEndSlashes base ++ s) = some u) (hnoHash : '#' ∉ s.toList)
    (hmark : s.toList.head? = some '?') :
    (u.authority = some authority ∧ u.path = trimEndSlashes path ++ Uri.pathOf s) ↔
      trimEndSlashes path = "" := by
  have hstops := hb.trimmed_stops.append (stops_of_head (by decide) hmark)
  obtain ⟨l, hl⟩ := List.head?_eq_some_iff.mp hmark
  have hquery : s.toList.takeWhile (· ≠ '?') = [] := by
    rw [hl, List.takeWhile_cons_of_neg (by decide)]
  rw [hb.compare hp hu hnoHash hstops, pathOf_toList, hquery, if_pos rfl, List.append_nil]
  constructor
  · intro heq
    by_contra hne
    have hnonempty : (trimEndSlashes path).toList ≠ [] := fun hnil =>
      hne (String.toList_inj.mp hnil)
    rw [if_neg hnonempty] at heq
    simp at heq
  · intro hbare
    rw [hbare]
    rfl

/-- The asterisk becomes a part of what it follows: of the path where the backend
has one, and of the authority where it has none. -/
theorem Backend.address_asterisk (hb : Backend base scheme authority path) (hp : ParsesAbsolute X)
    (hu : X.parseUri (trimEndSlashes base ++ "*") = some u) :
    (u.authority = some authority ∧ u.path = trimEndSlashes path ++ Uri.pathOf "*") ↔
      trimEndSlashes path ≠ "" := by
  constructor
  · rintro ⟨hsame, -⟩ hbare
    obtain ⟨-, hauthority, -⟩ := hb.parsed hp hu
    have htail : ((trimEndSlashes path).toList ++ "*".toList).takeWhile (!endsAuthority ·) =
        ['*'] := by
      rw [hbare]
      decide
    rw [htail] at hauthority
    have hchars := congrArg String.toList (Option.some.inj (hauthority.symm.trans hsame))
    rw [String.toList_ofList] at hchars
    simp at hchars
  · intro hnested
    have hhead : ((trimEndSlashes path).toList ++ "*".toList).head? = some '/' := by
      obtain hempty | hhead := hb.trimmed_head
      · exact (hnested hempty).elim
      · rw [List.head?_append, hhead]
        rfl
    have hquery : "*".toList.takeWhile (· ≠ '?') = ['*'] := by decide
    have hpoliced : (Uri.pathOf "*").toList = ['*'] := by decide
    rw [hb.compare hp hu (by decide) (stops_of_head (by decide) hhead), hquery, hpoliced,
      if_neg (by simp)]

/-- Without a path the request is sent to the root, which the policy has not
seen. -/
theorem Backend.address_absent (hb : Backend base scheme authority path) (hp : ParsesAbsolute X)
    (hu : X.parseUri (trimEndSlashes base ++ "/") = some u) :
    ¬ (u.authority = some authority ∧ u.path = trimEndSlashes path ++ "") := by
  have hstops := hb.trimmed_stops.append (stops_of_head (l := "/".toList) (by decide) rfl)
  have hquery : "/".toList.takeWhile (· ≠ '?') = ['/'] := by decide
  rw [hb.compare hp hu (by decide) hstops, hquery, if_neg (by simp)]
  intro heq
  have hnil := List.append_cancel_left heq
  simp at hnil

/-- The address that is built keeps the configured authority and the policed path
exactly when the target is straight. -/
theorem Backend.address_iff (hb : Backend base scheme authority path) (hp : ParsesAbsolute X)
    (ht : RequestTarget target)
    (hu : X.parseUri (trimEndSlashes base ++ target.pathAndQuery.getD "/") = some u) :
    (u.authority = some authority ∧ u.path = trimEndSlashes path ++ target.path) ↔
      Straight target (trimEndSlashes path) := by
  rw [ht.path_eq]
  cases htarget : target.pathAndQuery with
  | none =>
      rw [htarget, Option.getD_none] at hu
      apply iff_of_false (hb.address_absent hp hu)
      rintro (⟨given, -⟩ | ⟨given, -, -⟩ | ⟨given, -⟩)
      · simp [htarget] at given
      · simp [htarget] at given
      · simp [htarget] at given
  | some s =>
      rw [htarget, Option.getD_some] at hu
      rw [Option.map_some, Option.getD_some]
      have hnoHash := ht.noHash htarget
      have hsame {s' : String} (given : target.pathAndQuery = some s') : s' = s :=
        Option.some.inj (given.symm.trans htarget)
      obtain rfl | hslash | hmark := ht.shape s htarget
      · rw [hb.address_asterisk hp hu]
        constructor
        · exact .asterisk htarget
        · rintro (⟨given, slash⟩ | ⟨given, mark, -⟩ | ⟨-, nested⟩)
          · exact absurd slash (by rw [hsame given]; decide)
          · exact absurd mark (by rw [hsame given]; decide)
          · exact nested
      · exact iff_of_true (hb.address_slash hp hu hnoHash hslash) (.path htarget hslash)
      · rw [hb.address_mark hp hu hnoHash hmark]
        constructor
        · exact .query htarget hmark
        · rintro (⟨given, slash⟩ | ⟨-, -, bare⟩ | ⟨given, -⟩)
          · rw [hsame given, hmark] at slash
            simp at slash
          · exact bare
          · obtain rfl := hsame given
            exact absurd hmark (by decide)

end Address

/-- What `forward_upstream` sends, and what it has parsed for it. -/
theorem forwardUpstream_calls {r : UpstreamRequest}
    (hcalls : (forwardUpstream X srv req).Calls h (.upstream r)) :
    X.parseUri (trimEndSlashes srv.config.defaultBackend ++ req.uri.pathAndQuery.getD "/") =
      some r.uri := by
  obtain ⟨body, -, hparse⟩ := calls_okOr_bind.mp hcalls
  obtain ⟨u, hu, hsend⟩ := calls_okOr_bind.mp hparse
  simp only [call_bind, calls_call, Cmd.upstream.injEq] at hsend
  obtain ⟨-, rfl⟩ | ⟨x, h', -, hrest⟩ := hsend
  · exact hu
  · exfalso
    cases x with
    | ok resp => exact hrest
    | error e => exact hrest

namespace Scenario

/-- The parser of absolute URIs, which leaves out what it does not accept. -/
def absoluteUri (s : String) : Option Uri :=
  match s.toList.dropWhile (· ≠ ':') with
  | ':' :: '/' :: '/' :: rest =>
      some ⟨some (String.ofList (s.toList.takeWhile (· ≠ ':'))),
        some (String.ofList (rest.takeWhile (!endsAuthority ·))),
        String.ofList ((rest.dropWhile (!endsAuthority ·)).takeWhile (· ≠ '#'))⟩
  | _ => none

def parsing : External := { external with parseUri := absoluteUri }

theorem parsing_absolute : ParsesAbsolute parsing := by
  intro scheme rest u hscheme hu
  have hin : ∀ c ∈ scheme.toList, decide (c ≠ ':') = true := by
    intro c hc
    rw [decide_eq_true_eq]
    rintro rfl
    exact hscheme hc
  have htext : (scheme ++ "://" ++ rest).toList =
      scheme.toList ++ ':' :: '/' :: '/' :: rest.toList := by
    rw [String.toList_append, String.toList_append, List.append_assoc]
    rfl
  have hdrop : (scheme ++ "://" ++ rest).toList.dropWhile (· ≠ ':') =
      ':' :: '/' :: '/' :: rest.toList := by
    rw [htext, dropWhile_append hin (stops_cons (by decide))]
  have hparsed : absoluteUri (scheme ++ "://" ++ rest) = some u := hu
  unfold absoluteUri at hparsed
  rw [hdrop] at hparsed
  obtain rfl := Option.some.inj hparsed
  exact ⟨rfl, rfl, rfl⟩

theorem backend_form : Backend server.config.defaultBackend "http" "backend:8080" "" where
  form := by decide
  noColon := by decide
  nonempty := by decide
  delimited := by
    have hall : "backend:8080".toList.all (fun c => !endsAuthority c) = true := by decide
    intro c hc
    simpa using List.all_eq_true.mp hall c hc
  rooted := .inl rfl
  plain := by decide

def parsingSteps (t n : ℕ) : List (Move (proxySystem parsing server)) :=
  List.replicate n (.step t 0)

/-- A login and a request of this method to this target with its token. -/
def forwarding (method target : String) : List (Move (proxySystem parsing server)) :=
  .start 0 (login aliceLogin) :: parsingSteps 0 24 ++
    .start 1 (authorized method target "token-0" "") :: parsingSteps 1 22

/-- Thread 1 serves a proxied request to this target. -/
def targets (target : String) (tr : ProxyTrace parsing server) : Bool :=
  tr.any fun x => match x.item with
    | .start q => decide (x.tid = 1 ∧ q.route = .proxied ∧ q.uri = ⟨none, none, target⟩)
    | _ => false

theorem exists_target {target : String} {tr : ProxyTrace parsing server}
    (h : targets target tr = true) :
    ∃ q, Started 1 q tr ∧ q.route = .proxied ∧ q.uri = ⟨none, none, target⟩ := by
  obtain ⟨⟨t, w₀, item⟩, hmem, hitem⟩ := List.any_eq_true.mp h
  split at hitem
  · rename_i q heq
    obtain ⟨rfl, hroute, huri⟩ := of_decide_eq_true hitem
    obtain rfl : item = .start q := heq
    exact ⟨q, ⟨w₀, hmem⟩, hroute, huri⟩
  · simp at hitem

/-- Thread 1 has sent a request to this address. -/
def sendsTo (u : Uri) (tr : ProxyTrace parsing server) : Bool :=
  tr.any fun x => match x.item with
    | .act (.upstream r _) => decide (x.tid = 1 ∧ r.uri = u)
    | _ => false

theorem exists_sent {u : Uri} {tr : ProxyTrace parsing server} (h : sendsTo u tr = true) :
    ∃ r x, .upstream r x ∈ own 1 tr ∧ r.uri = u := by
  obtain ⟨⟨t, w₀, item⟩, hmem, hitem⟩ := List.any_eq_true.mp h
  split at hitem
  · rename_i r x heq
    obtain ⟨rfl, huri⟩ := of_decide_eq_true hitem
    obtain rfl : item = .act (.upstream r x) := heq
    exact ⟨r, x, mem_own.mpr ⟨w₀, hmem⟩, huri⟩
  · simp at hitem

end Scenario

end ZeroTrustProxy
