import ZeroTrustProxy.Runs.Accounts
import ZeroTrustProxy.Runs.Audited
import ZeroTrustProxy.Runs.Updates

/-!
What the audit table takes.

A request that `authorize` lets through submits two rows, and the reply to
neither is looked at. Their columns are bounded and hold no NUL character, while
the path, the method and the device id come from the client. What else goes into
the rows always fits.
-/

namespace ZeroTrustProxy

open Concurrent Program AuditLogger

variable {X : External} {srv : ProxyServer}
  {A : ProxyTrace X srv → Entry (proxySystem X srv) → Prop} {w : World} {tr : ProxyTrace X srv}
  {req : Request} {h : List Event}

/-! ### Texts -/

theorem storable_iff {s : String} : World.storable s = true ↔ Char.ofNat 0 ∉ s.toList := by
  simp [World.storable]

theorem storable_append {s s' : String} :
    World.storable (s ++ s') = (World.storable s && World.storable s') := by
  rw [Bool.eq_iff_iff, Bool.and_eq_true, storable_iff, storable_iff, storable_iff]
  simp [not_or]

theorem storable_nat (n : ℕ) : World.storable (toString n) = true := by
  rw [storable_iff]
  intro hmem
  have hdigits : Char.ofNat 0 ∈ Nat.toDigits 10 n := by simpa [Nat.repr] using hmem
  have hdigit := Nat.isDigit_of_mem_toDigits (by decide) (by decide) hdigits
  exact absurd hdigit (by decide)

theorem storable_int (n : Int) : World.storable (toString n) = true := by
  cases n with
  | ofNat n => exact storable_nat n
  | negSucc n =>
      show World.storable ("-" ++ toString (n + 1)) = true
      rw [storable_append, storable_nat, Bool.and_true]
      decide

/-- The texts of the risk factors can be stored. -/
theorem factors_storable (now : Int) (context : RiskContext) :
    ∀ f ∈ RiskEngine.factors now context,
      World.storable f.name = true ∧ World.storable f.description = true := by
  intro f hf
  simp only [RiskEngine.factors, List.mem_append, Option.mem_toList, List.mem_ite_nil_right,
    List.mem_singleton] at hf
  obtain (((⟨-, rfl⟩ | ⟨-, rfl⟩) | htime) | hip) | ⟨-, rfl⟩ := hf
  · refine ⟨(by decide : World.storable "Device Trust" = true), ?_⟩
    rw [storable_append, storable_nat, Bool.and_true]
    decide
  · refine ⟨(by decide : World.storable "Failed Attempts" = true), ?_⟩
    rw [storable_append, storable_nat, Bool.true_and]
    decide
  · simp only [RiskEngine.calculateTimeRisk, Option.ite_none_right_eq_some, Option.some.injEq] at htime
    obtain ⟨-, rfl⟩ := htime
    exact ⟨by decide, by decide⟩
  · unfold RiskEngine.calculateIpChangeRisk at hip
    split at hip
    · simp only [Option.ite_none_right_eq_some, Option.some.injEq] at hip
      obtain ⟨-, rfl⟩ := hip
      exact ⟨by decide, by decide⟩
    · simp at hip
  · refine ⟨(by decide : World.storable "Session Age" = true), ?_⟩
    rw [storable_append, storable_append, storable_int, Bool.and_true]
    decide

/-! ### The two rows -/

/-- The event of a risk evaluation, as `log_risk_evaluation` fills it in. -/
def evaluationEvent (req : Request) (claims : Claims) (risk : RiskScore) (id : Uuid) : AuditEvent :=
  ⟨id.text, .riskEvaluation, some claims.sub, some claims.deviceId, req.remoteIp.text, "/",
    "evaluate_risk", .success, some risk.totalScore, factorsJson risk⟩

/-- The event of a request that has been let through. -/
def grantEvent (req : Request) (claims : Claims) (risk : RiskScore) (id : Uuid) : AuditEvent :=
  ⟨id.text, .authorization, some claims.sub, none, req.remoteIp.text, req.uri.path, req.method,
    .success, some risk.totalScore, .obj []⟩

theorem resource_of_accepted {row : AuditRow} (h : World.auditAccepted X w row = true) :
    row.resource.length ≤ 255 := by
  unfold World.auditAccepted at h
  rw [Bool.and_assoc, Bool.and_assoc, Bool.and_assoc, Bool.and_assoc, Bool.and_assoc,
    Bool.and_assoc, Bool.and_assoc] at h
  obtain ⟨-, h⟩ := Bool.and_eq_true_iff.mp h
  exact of_decide_eq_true (Bool.and_eq_true_iff.mp h).1

/-- The row of a request fits the table when its path and its method do. -/
theorem grant_accepted {claims : Claims} {risk : RiskScore} {id : Uuid} {user : UserRow}
    (hsub : claims.sub = user.id.text) (hknown : (w.userById user.id).isSome = true) :
    World.auditAccepted X w (rowOf X (grantEvent req claims risk id) id) = true ↔
      req.uri.path.length ≤ 255 ∧ req.method.length ≤ 100 ∧
        World.storable req.uri.path = true ∧ World.storable req.method = true := by
  have huser : (some claims.sub).bind X.parseUuid = some user.id := by
    rw [hsub]
    exact X.parseUuid_text user.id
  have hip : (X.parseIp req.remoteIp.text).isSome = true := by rw [X.parseIp_text]; rfl
  have htype : EventType.authorization.jsonStr.length ≤ 50 := by decide
  have houtcome : Outcome.success.jsonStr.length ≤ 20 := by decide
  simp only [World.auditAccepted, rowOf, grantEvent, huser, hknown, hip, htype, houtcome, if_true,
    Json.storable, Json.storableFields, Bool.and_eq_true, decide_eq_true_eq, and_true, true_and, and_assoc]

/-- A factor of a risk score, as the log has it. -/
def factorJson (f : RiskFactor) : Json :=
  .obj [("name", .str f.name), ("score", .num f.score), ("description", .str f.description)]

theorem factors_items_storable {fs : List RiskFactor}
    (hfs : ∀ f ∈ fs, World.storable f.name = true ∧ World.storable f.description = true) :
    Json.storableItems (fs.map factorJson) = true := by
  have hnames : World.storable "name" = true ∧ World.storable "score" = true ∧
      World.storable "description" = true := by decide
  induction fs with
  | nil => rfl
  | cons f fs ih =>
      obtain ⟨hname, hdescription⟩ := hfs f List.mem_cons_self
      have hrest := ih fun f' hf' => hfs f' (List.mem_cons_of_mem _ hf')
      simp only [List.map_cons, factorJson, Json.storableItems, Json.storable, Json.storableFields,
        hname, hdescription, hnames, Bool.and_true, Bool.true_and]
      exact hrest

/-- The metadata of a risk evaluation. -/
theorem evaluation_metadata {deviceId : String} {risk : RiskScore} :
    Json.withField "device_id" (.str deviceId) (factorsJson risk) =
      .obj [("factors", .arr (risk.factors.map factorJson)), ("device_id", .str deviceId)] := rfl

/-- The row of a risk evaluation fits when the device id of the token does. -/
theorem evaluation_accepted {claims : Claims} {id : Uuid} {user : UserRow} {now : Int}
    {context : RiskContext} (hsub : claims.sub = user.id.text)
    (hknown : (w.userById user.id).isSome = true) :
    World.auditAccepted X w (rowOf X (evaluationEvent req claims
      (srv.riskEngine.calculateRisk now context) id) id) = true ↔
      World.storable claims.deviceId = true := by
  have huser : (some claims.sub).bind X.parseUuid = some user.id := by
    rw [hsub]
    exact X.parseUuid_text user.id
  have hip : (X.parseIp req.remoteIp.text).isSome = true := by rw [X.parseIp_text]; rfl
  have hitems : Json.storableItems
      ((srv.riskEngine.calculateRisk now context).factors.map factorJson) = true :=
    factors_items_storable (factors_storable now context)
  have hnames : World.storable "factors" = true ∧ World.storable "device_id" = true := by decide
  have hfixed : EventType.riskEvaluation.jsonStr.length ≤ 50 ∧ "/".length ≤ 255 ∧
      "evaluate_risk".length ≤ 100 ∧ Outcome.success.jsonStr.length ≤ 20 ∧
      World.storable "/" = true ∧ World.storable "evaluate_risk" = true := by decide
  simp only [World.auditAccepted, rowOf, evaluationEvent, evaluation_metadata, huser, hknown, hip,
    hfixed, hitems, hnames, if_true, Json.storable, Json.storableFields, Bool.and_eq_true,
    decide_eq_true_eq, and_true, true_and]

/-! ### What is submitted -/

/-- The gates submit one row for a request they let through. -/
theorem gateRequest_passed {session : Session} {claims : Claims} {risk : RiskScore}
    (hend : (gateRequest X srv req session claims risk).Ends h (.ok ())) :
    ∃ id n x, h = [.insertAuditLog (rowOf X (grantEvent req claims risk id) id) x,
      .utcNow .auditTimestamp n, .newUuid id] := by
  have hlog (hend : (Handler.ignore (logAuthorization X claims.sub req.remoteIp.text req.uri.path
      req.method true risk.totalScore)).Ends h (.ok ())) :
      ∃ id n x, h = [.insertAuditLog (rowOf X (grantEvent req claims risk id) id) x,
        .utcNow .auditTimestamp n, .newUuid id] :=
    (audit_events (g := fun event => { event with riskScore := some risk.totalScore })
      (fun _ => rfl) hend).2
  simp only [gateRequest, ends_ite, ends_throw, reduceCtorEq, and_false, false_or] at hend
  obtain ⟨-, hend⟩ := hend
  cases hrec : risk.recommendation with
  | block =>
      simp only [hrec] at hend
      obtain ⟨_, h₁, h₂, rfl, -, hthrow⟩ | ⟨e, hok, -⟩ := ends_bind.mp hend
      · simp at hthrow
      · simp at hok
  | stepUpAuth =>
      simp only [hrec, ends_ite, ends_throw, reduceCtorEq, and_false, false_or] at hend
      exact hlog hend.2
  | allow =>
      simp only [hrec] at hend
      exact hlog hend

/-- The rows that `authorize` submits for a request it lets through, and the
token it reads first. -/
theorem authorize_rows (hend : (authorize X srv req).Ends h (.ok ())) :
    ∃ claims l now context id id' x x', BearerRun req [l] (.ok claims) ∧ (∃ h', h = h' ++ [l]) ∧
      ∀ row r, .insertAuditLog row r ∈ h ↔
        (row = rowOf X (evaluationEvent req claims
          (srv.riskEngine.calculateRisk now context) id) id ∧ r = x) ∨
        (row = rowOf X (grantEvent req claims
          (srv.riskEngine.calculateRisk now context) id') id' ∧ r = x') := by
  obtain ⟨claims, token, h₁, rfl, htoken, hafter⟩ | ⟨e, hok, -⟩ := ends_bind.mp hend
  swap
  · simp at hok
  have hbearer := bearerClaims_ends htoken
  obtain ⟨session, h₂, h₃, rfl, hsession, hchecks⟩ | ⟨e, hok, -⟩ := ends_bind.mp hafter
  swap
  · simp at hok
  obtain ⟨body, hfetch, rfl⟩ := getSession_ends hsession
  simp only [ends_ite, ends_throw, reduceCtorEq, and_false, false_or] at hchecks
  obtain ⟨-, ⟨-, hdeny⟩ | ⟨-, hscored⟩⟩ := hchecks
  · obtain ⟨_, h₄, h₅, rfl, -, hthrow⟩ | ⟨e, hok, -⟩ := ends_bind.mp hdeny
    · simp at hthrow
    · simp at hok
  obtain ⟨risk, scores, h₄, rfl, hrisk, hgated⟩ | ⟨e, hok, -⟩ := ends_bind.mp hscored
  swap
  · simp at hok
  obtain ⟨risk', hsame, hscore⟩ := evaluateRequestRisk_ends hrisk
  obtain rfl := Except.ok.inj hsame
  obtain ⟨_, evaluation, gate, rfl, hlog, hgate⟩ | ⟨e, hok, -⟩ := ends_bind.mp hgated
  swap
  · simp at hok
  obtain ⟨-, id, n, x, rfl⟩ := audit_events (g := fun event =>
    { event with riskScore := some risk.totalScore, metadata := factorsJson risk })
    (fun _ => rfl) hlog
  obtain ⟨id', n', x', rfl⟩ := gateRequest_passed hgate
  obtain ⟨l, rfl⟩ : ∃ l, token = [l] := by
    obtain ⟨token, rfl⟩ := hbearer.ok_inv
    exact ⟨_, rfl⟩
  have hquiet (row : AuditRow) (r : Except Fault Unit) : .insertAuditLog row r ∉ scores ∧
      .insertAuditLog row r ∉ sessionEvents claims.sessionId (.ok session) body ∧
      .insertAuditLog row r ≠ l := by
    refine ⟨hscore.kinds.not_mem (by simp [Event.kind]),
      (sessionEvents_kinds hfetch).not_mem (by simp [Event.kind]), fun heq => ?_⟩
    exact hbearer.kinds.not_mem (e := .insertAuditLog row r) (by simp [Event.kind]) (by simp [heq])
  have hcalc : ∃ now context, risk = srv.riskEngine.calculateRisk now context := by
    cases hscore with
    | intro => exact ⟨_, _, rfl⟩
  obtain ⟨now, context, rfl⟩ := hcalc
  refine ⟨claims, l, now, context, id, id', x, x', hbearer, ?_, fun row r => ?_⟩
  · exact ⟨_, rfl⟩
  · obtain ⟨hscores, hevents, hl⟩ := hquiet row r
    simp only [List.mem_append, List.mem_cons, List.not_mem_nil, hscores, hevents, hl, or_false,
      Event.insertAuditLog.injEq, reduceCtorEq]
    exact or_comm

/-- The subject of a validated token has a row. -/
theorem token_user (hrun : Run A w tr) {t : ℕ} {q : Request} {claims : Claims} {l : List Event}
    (hb : Bearer q l claims) (hl : l <:+ own t tr) :
    ∃ user : UserRow, claims.sub = user.id.text ∧ (w.userById user.id).isSome = true := by
  obtain ⟨t₀, q₀, h₀, user, mfa, x, hc, -, hsub⟩ := (hb.issued hrun hl).creation
  obtain ⟨body, hlogin⟩ := hc.login
  obtain ⟨l₂, hl₂⟩ := suffix_of_mem hlogin.found
  obtain ⟨post, pre, w₀, w₁, q', rfl, -, -, -, -, hact⟩ := history_event hrun (hl₂.trans hc.history)
  obtain ⟨-, hfound⟩ := World.userByUsername_reply hact
  have hmem : user ∈ w₀.users := List.mem_of_find?_eq_some hfound.symm
  obtain ⟨u, hu⟩ : ∃ u, w₀.userById user.id = some u := by
    refine Option.isSome_iff_exists.mp (List.find?_isSome.mpr ⟨user, hmem, by simp⟩)
  obtain ⟨u', hu', -⟩ := (accounts_kept hrun).userById hu
  exact ⟨user, hsub.symm.trans hc.userId, Option.isSome_of_eq_some hu'⟩

/-! ### The audit table and the client -/

/-- What the client has sent fits the columns it goes into. -/
structure Recordable (req : Request) (claims : Claims) : Prop where
  path : req.uri.path.length ≤ 255 ∧ World.storable req.uri.path = true
  method : req.method.length ≤ 100 ∧ World.storable req.method = true
  device : World.storable claims.deviceId = true

/-- **Which allowed requests are recorded.** A request that `authorize` lets
through submits a row of either kind, and the table takes every row it submits
exactly when the path, the method and the device id fit their columns. -/
theorem allowed_recorded (hrun : Run A w tr) {t : ℕ} (hend : (authorize X srv req).Ends h (.ok ()))
    (hsub : h <:+ own t tr) :
    ∃ claims, Bearer req h claims ∧
      (∃ row r, .insertAuditLog row r ∈ h ∧ row.eventType = EventType.riskEvaluation.jsonStr) ∧
      (∃ row r, .insertAuditLog row r ∈ h ∧ row.eventType = EventType.authorization.jsonStr) ∧
      ((∀ w₁ row r, .insertAuditLog row r ∈ h → ⟨t, w₁, .act (.insertAuditLog row r)⟩ ∈ tr →
          World.auditAccepted X w₁ row = true) ↔ Recordable req claims) := by
  obtain ⟨claims, l, now, context, id, id', x, x', hbearer, ⟨h', rfl⟩, hrows⟩ := authorize_rows hend
  have hb : Bearer req [l] claims := hbearer.bearer
  have hevaluation := (hrows _ x).mpr (.inl ⟨rfl, rfl⟩)
  have hgrant := (hrows _ x').mpr (.inr ⟨rfl, rfl⟩)
  -- a submission comes after the token has been read
  have hknown {w₁ : World} {row : AuditRow} {r : Except Fault Unit}
      (hmem : ⟨t, w₁, .act (.insertAuditLog row r)⟩ ∈ tr) :
      ∃ user : UserRow, claims.sub = user.id.text ∧ (w₁.userById user.id).isSome = true := by
    obtain ⟨post, pre, _, rfl, hrun₁, -, -⟩ := hrun.entry_of_mem hmem
    have hfirst : (own t (post ++ ⟨t, w₁, .act (.insertAuditLog row r)⟩ :: pre)).getLast? = some l := by
      obtain ⟨later, hlater⟩ := hsub
      rw [← hlater, ← List.append_assoc]
      exact List.getLast?_concat
    rw [own_append, own_act_self, List.getLast?_append_cons] at hfirst
    have hread : l ∈ own t pre := by
      cases hpre : own t pre with
      | nil =>
          rw [hpre] at hfirst
          obtain rfl : Event.insertAuditLog row r = l := by simpa using hfirst
          exact (hbearer.kinds.not_mem (by simp [Event.kind]) List.mem_cons_self).elim
      | cons e rest =>
          rw [hpre, List.getLast?_cons_cons] at hfirst
          exact List.mem_of_getLast? hfirst
    exact token_user hrun₁ (hb.of_subset (by simpa using hread)) (List.suffix_refl _)
  refine ⟨claims, hb.mono (List.suffix_append _ _), ⟨_, x, hevaluation, rfl⟩, ⟨_, x', hgrant, rfl⟩, ?_⟩
  constructor
  · intro haccepted
    obtain ⟨w₁, hmem₁⟩ := mem_own.mp (hsub.subset hevaluation)
    obtain ⟨w₂, hmem₂⟩ := mem_own.mp (hsub.subset hgrant)
    obtain ⟨user₁, hsub₁, hknown₁⟩ := hknown hmem₁
    obtain ⟨user₂, hsub₂, hknown₂⟩ := hknown hmem₂
    have hdevice := (evaluation_accepted hsub₁ hknown₁).mp (haccepted w₁ _ x hevaluation hmem₁)
    obtain ⟨hpath, hmethod, hpath', hmethod'⟩ :=
      (grant_accepted hsub₂ hknown₂).mp (haccepted w₂ _ x' hgrant hmem₂)
    exact ⟨⟨hpath, hpath'⟩, ⟨hmethod, hmethod'⟩, hdevice⟩
  · intro hfits w₁ row r hin hmem
    obtain ⟨user, hsub₁, hknown₁⟩ := hknown hmem
    obtain ⟨rfl, rfl⟩ | ⟨rfl, rfl⟩ := (hrows row r).mp hin
    · exact (evaluation_accepted hsub₁ hknown₁).mpr hfits.device
    · exact (grant_accepted hsub₁ hknown₁).mpr
        ⟨hfits.path.1, hfits.method.1, hfits.path.2, hfits.method.2⟩

/-- A proxied request that is answered with a success has been let through. -/
theorem authorized_of_answered (hrun : Run A w tr) {t : ℕ} {q : Request} {w₁ : World} {o : Response}
    (hq : Started t q tr) (hroute : q.route = .proxied) (hdone : ⟨t, w₁, .done o⟩ ∈ tr)
    (hok : o.status = 200) : Authorized X srv q (own t tr) := by
  obtain ⟨r, hend, rfl⟩ := answered_own hrun hq hdone
  obtain ⟨o, rfl⟩ := respond_ok hok
  rw [hroute] at hend
  obtain ⟨_, h₁, h₂, hown, hauthorize, -⟩ | ⟨e, he, -⟩ := ends_bind.mp hend
  · exact ⟨h₁, ⟨h₂, hown.symm⟩, hauthorize⟩
  · simp at he

namespace Scenario

/-- A slash and `n` letters. -/
def pathOfLength (n : ℕ) : String := "/" ++ String.ofList (List.replicate n 'a')

theorem pathOfLength_length (n : ℕ) : (Uri.pathOf (pathOfLength n)).length = n + 1 := by
  have hlist : (pathOfLength n).toList = '/' :: List.replicate n 'a' := by
    unfold pathOfLength
    rw [String.toList_append, String.toList_ofList, String.toList_ofList]
    rfl
  have hquery : (pathOfLength n).toList.takeWhile (· ≠ '?') = '/' :: List.replicate n 'a' := by
    rw [hlist, List.takeWhile_cons_of_pos (by decide), List.takeWhile_replicate]
    rfl
  unfold Uri.pathOf
  simp only [hquery]
  split
  case isTrue hempty => simpa using congrArg String.toList hempty
  case isFalse => rw [String.length_ofList, List.length_cons, List.length_replicate]

/-- A path of 256 characters. -/
def longPath : String := pathOfLength 255

def distant : External :=
  { external with
    parseUri := fun s =>
      if s = "http://backend:8080" ++ longPath then
        some ⟨some "http", some "backend:8080", longPath⟩
      else none }

def distantSteps (t n mode : ℕ) : List (Move (proxySystem distant server)) :=
  List.replicate n (.step t mode)

def distantStart (t : ℕ) (q : Request) : Move (proxySystem distant server) := .start t q

/-- The request to the long path is let through and forwarded, and the table
refuses its row. -/
theorem allowed_unrecorded : ∃ (w w₁ : World) (tr : ProxyTrace distant server) (t : ℕ)
    (q : Request) (h : List Event) (row : AuditRow) (r : Except Fault Unit), Reachable w tr ∧
      (authorize distant server q).Ends h (.ok ()) ∧ h <:+ own t tr ∧
      .insertAuditLog row r ∈ h ∧ ⟨t, w₁, .act (.insertAuditLog row r)⟩ ∈ tr ∧
      row.eventType = EventType.authorization.jsonStr ∧
      World.auditAccepted distant w₁ row = false := by
  have hplay : ((Play.start (S := proxySystem distant server) (world [alice])).run
      (World.reply distant) (fun (_ : ProxyTrace distant server) _ => True)
      (distantStart 0 (login aliceLogin) :: distantSteps 0 24 0 ++
        distantStart 1 (authorized "GET" longPath "token-0" "") :: distantSteps 1 19 0 ++
        distantSteps 1 1 1 ++ distantSteps 1 2 0)).any (fun p =>
      answered 1 p.trace && p.trace.any fun x => x.item.isStart fun (q : Request) =>
        decide (x.tid = 1 ∧ q.route = .proxied ∧ q.uri = ⟨none, none, longPath⟩)) = true := by
    decide +kernel
  obtain ⟨p, hp, hcheck⟩ := (Option.any_eq_true _ _).mp hplay
  have hrun := (Play.run_sound (world_initial (by simp) (by simp) (by simp)) hp).reached
  obtain ⟨hanswered, hstart⟩ := Bool.and_eq_true_iff.mp hcheck
  obtain ⟨w₂, o, hdone, hok⟩ := exists_answer hanswered
  obtain ⟨⟨t, w₀, item⟩, hmem, hitem⟩ := List.any_eq_true.mp hstart
  obtain ⟨q, heq, hitem⟩ := Item.isStart_eq hitem
  obtain rfl : item = .start q := heq
  obtain ⟨rfl, hroute, huri⟩ := of_decide_eq_true hitem
  obtain ⟨h, hsub, hend⟩ := authorized_of_answered hrun ⟨w₀, hmem⟩ hroute hdone hok
  obtain ⟨claims, l, now, context, id, id', x, x', -, -, hrows⟩ := authorize_rows hend
  have hgrant := (hrows _ x').mpr (.inr ⟨rfl, rfl⟩)
  obtain ⟨w₁, hmem₁⟩ := mem_own.mp (hsub.subset hgrant)
  refine ⟨p.world, w₁, p.trace, 1, q, h, _, x', hrun.reachable, hend, hsub, hgrant, hmem₁, rfl, ?_⟩
  by_contra haccepted
  have hpath : q.uri.path = Uri.pathOf longPath := by
    rw [huri]
    exact if_pos (by decide)
  have hlength : q.uri.path.length = 256 := by rw [hpath, longPath, pathOfLength_length]
  have hfits := resource_of_accepted (Bool.eq_true_of_not_eq_false haccepted)
  simp only [rowOf, grantEvent] at hfits
  omega

/-- The request to the short path is recorded. -/
theorem allowed_recorded_run : ∃ (w : World) (tr : ProxyTrace external server) (t : ℕ)
    (q : Request) (h : List Event) (claims : Claims), Reachable w tr ∧
      (authorize external server q).Ends h (.ok ()) ∧ h <:+ own t tr ∧ Bearer q h claims ∧
      ((∀ w₁ row r, .insertAuditLog row r ∈ h → ⟨t, w₁, .act (.insertAuditLog row r)⟩ ∈ tr →
        World.auditAccepted external w₁ row = true) ↔ Recordable q claims) := by
  have hplay : plays (fun _ _ => True) [alice]
      (.start 0 (login aliceLogin) :: steps 0 24 ++
        .start 1 (authorized "GET" "/data" "token-0" "") :: steps 1 22)
      (fun p => answered 1 p.trace && begins 1 .proxied p.trace) = true := by decide +kernel
  obtain ⟨p, hrun, hcheck⟩ := run_of_plays (world_initial (by simp) (by simp) (by simp)) hplay
  obtain ⟨hanswered, hbegins⟩ := Bool.and_eq_true_iff.mp hcheck
  obtain ⟨w₂, o, hdone, hok⟩ := exists_answer hanswered
  obtain ⟨q, hq, hroute⟩ := exists_started hbegins
  obtain ⟨h, hsub, hend⟩ := authorized_of_answered hrun hq hroute hdone hok
  obtain ⟨claims, hb, -, -, hiff⟩ := allowed_recorded hrun hend hsub
  exact ⟨p.world, p.trace, 1, q, h, claims, hrun, hend, hsub, hb, hiff⟩

end Scenario

end ZeroTrustProxy
