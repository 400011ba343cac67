import ZeroTrustProxy.Policy.DenyOverrides

/-!
What the engine decides on less information.

An attribute that is missing makes a condition fail, and one that is not a
number is compared as zero. Either can switch a rule off, or a comparison on.
For an Allow rule the former is harmless; a Deny rule it disarms. Which denials
survive every loss is therefore a matter of how the conditions of the Deny
rules relate to those of the Allow rules.
-/

namespace ZeroTrustProxy

namespace PolicyEngine

variable {F : FloatOps} {engine : PolicyEngine} {context context' : PolicyContext}

/-! ### Losing attributes -/

/-- Every condition of the engine on this attribute compares numbers. -/
def NumericOnly (engine : PolicyEngine) (k : String) : Prop :=
  ∀ rule ∈ engine.rules, ∀ c ∈ rule.conditions, c.attr = k →
    c.operator = .greaterThan ∨ c.operator = .lessThan

/-- The same request with every attribute kept, deleted or, where all its
conditions compare numbers, replaced by a text that is none. -/
structure Degraded (F : FloatOps) (engine : PolicyEngine) (context context' : PolicyContext) :
    Prop where
  userId : context'.userId = context.userId
  resource : context'.resource = context.resource
  action : context'.action = context.action
  lookups : ∀ k, context'.attributes.lookup k = context.attributes.lookup k ∨
    context'.attributes.lookup k = none ∨
    (NumericOnly engine k ∧ ∃ v v', context.attributes.lookup k = some v ∧
      context'.attributes.lookup k = some v' ∧ F.parse v' = none)

/-- The rule is about this resource and this action. -/
structure Concerns (rule : PolicyRule) (context : PolicyContext) : Prop where
  resource : Covers rule.resourcePattern context.resource
  action : context.action ∈ rule.actions

/-- The comparison of a condition when its attribute is read as zero. -/
def SatisfiedByZero (F : FloatOps) (c : Condition) : Prop :=
  match c.operator with
  | .greaterThan => F.lt (F.parseOrZero c.value) F.zero = true
  | .lessThan => F.lt F.zero (F.parseOrZero c.value) = true
  | _ => False

/-- The attribute of the condition is there, and satisfies it as it is, or as
zero if it is one of `garbled`. -/
def Passes (F : FloatOps) (context : PolicyContext) (garbled : List String) (c : Condition) :
    Prop :=
  ∃ v, context.attributes.lookup c.attr = some v ∧
    (c.attr ∉ garbled ∧ Satisfied F c v ∨ c.attr ∈ garbled ∧ SatisfiedByZero F c)

/-- These attributes can be replaced by texts that are not numbers. -/
def Garblable (F : FloatOps) (engine : PolicyEngine) (garbled : List String) : Prop :=
  ∀ k ∈ garbled, NumericOnly engine k ∧ ∃ text, F.parse text = none

/-- An unconditional rule denies the request; or it is denied by default, and
no Allow rule can be met, with any of its attributes read as zero, without a
Deny rule being met that needs no other attributes than those. -/
def FailSecure (F : FloatOps) (engine : PolicyEngine) (context : PolicyContext) : Prop :=
  (∃ deny ∈ engine.rules, deny.effect = .deny ∧ Concerns deny context ∧ deny.conditions = []) ∨
    engine.defaultDeny = true ∧
      ∀ garbled, Garblable F engine garbled →
        ∀ allow ∈ engine.rules, allow.effect = .allow → Concerns allow context →
          (∀ c ∈ allow.conditions, Passes F context garbled c) →
          ∃ deny ∈ engine.rules, deny.effect = .deny ∧ Concerns deny context ∧
            ∀ c ∈ deny.conditions, c.attr ∈ allow.conditions.map Condition.attr ∧
              Passes F context garbled c

theorem Applicable.concerns {rule : PolicyRule} (h : Applicable F context rule) :
    Concerns rule context := ⟨h.resource, h.action⟩

theorem Degraded.concerns_iff (h : Degraded F engine context context') {rule : PolicyRule} :
    Concerns rule context' ↔ Concerns rule context := by
  constructor
  · rintro ⟨hres, hact⟩
    exact ⟨h.resource ▸ hres, h.action ▸ hact⟩
  · rintro ⟨hres, hact⟩
    exact ⟨h.resource.symm ▸ hres, h.action.symm ▸ hact⟩

/-- A text that is not a number satisfies a comparison of numbers as zero does. -/
theorem satisfied_garbled {c : Condition} {v : String} (hparse : F.parse v = none)
    (hop : c.operator = .greaterThan ∨ c.operator = .lessThan) :
    Satisfied F c v ↔ SatisfiedByZero F c := by
  have hzero : F.parseOrZero v = F.zero := by simp [FloatOps.parseOrZero, hparse]
  unfold Satisfied SatisfiedByZero
  obtain hgt | hlt := hop
  · rw [hgt, hzero]
  · rw [hlt, hzero]

/-! ### The worst that can be done -/

/-- Only the attributes in `keep` are left, those in `garbled` as `text`. -/
def degrade (keep garbled : List String) (text : String) (context : PolicyContext) :
    PolicyContext :=
  { context with
    attributes := (context.attributes.filter fun e => decide (e.1 ∈ keep)).map fun e =>
      (e.1, if e.1 ∈ garbled then text else e.2) }

theorem lookup_degrade (keep garbled : List String) (text : String) (context : PolicyContext)
    (k : String) :
    (degrade keep garbled text context).attributes.lookup k =
      if k ∈ keep then
        (context.attributes.lookup k).map fun v => if k ∈ garbled then text else v
      else none := by
  show List.lookup k (List.map _ (List.filter _ context.attributes)) = _
  induction context.attributes with
  | nil => simp
  | cons e l ih =>
      obtain ⟨key, v⟩ := e
      by_cases hkey : k = key
      · subst hkey
        by_cases hkeep : k ∈ keep
        · simp [hkeep]
        · simp only [List.filter_cons, hkeep, decide_false, if_false] at ih ⊢
          exact ih
      · have hne : (k == key) = false := by simpa using hkey
        by_cases hkeep : key ∈ keep
        · simp only [List.filter_cons, hkeep, decide_true, if_true, List.map_cons,
            List.lookup_cons, hne]
          exact ih
        · simp only [List.filter_cons, hkeep, decide_false, List.lookup_cons, hne]
          exact ih

theorem degraded_degrade {keep garbled : List String} {text : String}
    (hgarbled : ∀ k ∈ garbled, NumericOnly engine k ∧ F.parse text = none) :
    Degraded F engine context (degrade keep garbled text context) := by
  refine ⟨rfl, rfl, rfl, fun k => ?_⟩
  rw [lookup_degrade]
  by_cases hkeep : k ∈ keep
  · rw [if_pos hkeep]
    cases hlookup : context.attributes.lookup k with
    | none => exact .inl rfl
    | some v =>
        by_cases hmem : k ∈ garbled
        · have hk := hgarbled k hmem
          exact .inr (.inr ⟨hk.1, v, text, rfl, by simp [hmem], hk.2⟩)
        · exact .inl (by simp [hmem])
  · exact .inr (.inl (if_neg hkeep))

/-- What a condition sees of the attributes that are left. -/
theorem passes_of_degrade {keep garbled : List String} {text : String}
    (hgarbled : ∀ k ∈ garbled, NumericOnly engine k ∧ F.parse text = none)
    {rule : PolicyRule} (hrule : rule ∈ engine.rules) {c : Condition} (hc : c ∈ rule.conditions) :
    (∃ v, (degrade keep garbled text context).attributes.lookup c.attr = some v ∧
      Satisfied F c v) ↔ c.attr ∈ keep ∧ Passes F context garbled c := by
  rw [lookup_degrade]
  by_cases hkeep : c.attr ∈ keep
  swap
  · simp [hkeep]
  simp only [hkeep, true_and]
  by_cases hmem : c.attr ∈ garbled
  · have hk := hgarbled c.attr hmem
    have hzero := satisfied_garbled hk.2 (hk.1 rule hrule c hc rfl)
    simp [Passes, hmem, hzero]
  · simp [Passes, hmem]

theorem applicable_degrade_iff {keep garbled : List String} {text : String}
    (hgarbled : ∀ k ∈ garbled, NumericOnly engine k ∧ F.parse text = none)
    {rule : PolicyRule} (hrule : rule ∈ engine.rules) :
    Applicable F (degrade keep garbled text context) rule ↔
      Concerns rule context ∧
        ∀ c ∈ rule.conditions, c.attr ∈ keep ∧ Passes F context garbled c := by
  constructor
  · rintro ⟨hres, hact, hconds⟩
    exact ⟨⟨hres, hact⟩, fun c hc => (passes_of_degrade hgarbled hrule hc).mp (hconds c hc)⟩
  · rintro ⟨⟨hres, hact⟩, hconds⟩
    exact ⟨hres, hact, fun c hc => (passes_of_degrade hgarbled hrule hc).mpr (hconds c hc)⟩

theorem Garblable.text {garbled : List String} (h : Garblable F engine garbled) :
    ∃ text, ∀ k ∈ garbled, NumericOnly engine k ∧ F.parse text = none := by
  by_cases hpartial : ∃ text, F.parse text = none
  · obtain ⟨text, htext⟩ := hpartial
    exact ⟨text, fun k hk => ⟨(h k hk).1, htext⟩⟩
  · exact ⟨"", fun k hk => absurd (h k hk).2 hpartial⟩

theorem evaluate_denied_iff :
    (evaluate F engine context).allowed = false ↔
      (∃ rule ∈ engine.rules, Applicable F context rule ∧ rule.effect = .deny) ∨
        engine.defaultDeny = true ∧
          ¬ ∃ rule ∈ engine.rules, Applicable F context rule ∧ rule.effect = .allow := by
  rw [← Bool.not_eq_true, evaluate_allowed_iff]
  by_cases hdeny : ∃ rule ∈ engine.rules, Applicable F context rule ∧ rule.effect = .deny
  · simp [hdeny]
  · cases engine.defaultDeny with
    | false => simp [hdeny]
    | true => simp [hdeny]

/-- An engine that still denies whatever is lost has a reason that no loss
takes away. -/
theorem failSecure_of_denied
    (h : ∀ context', Degraded F engine context context' →
      (evaluate F engine context').allowed = false) : FailSecure F engine context := by
  by_cases huncond : ∃ deny ∈ engine.rules,
    deny.effect = .deny ∧ Concerns deny context ∧ deny.conditions = []
  · exact .inl huncond
  refine .inr ⟨?_, ?_⟩
  · -- with every attribute gone, no conditional rule is left to deny the request
    have hnil : ∀ k ∈ ([] : List String), NumericOnly engine k ∧ F.parse "" = none := by simp
    obtain ⟨deny, hmem, happ, heffect⟩ | ⟨hdefault, -⟩ :=
      evaluate_denied_iff.mp (h (degrade [] [] "" context) (degraded_degrade hnil))
    · obtain ⟨hconcerns, hconds⟩ := (applicable_degrade_iff hnil hmem).mp happ
      refine absurd ⟨deny, hmem, heffect, hconcerns, ?_⟩ huncond
      apply List.eq_nil_iff_forall_not_mem.mpr
      intro c hc
      simpa using (hconds c hc).1
    · exact hdefault
  · -- with only the attributes of the Allow rule left, it applies
    intro garbled hgarblable allow hallow heffect hconcerns hpasses
    obtain ⟨text, hgarbled⟩ := hgarblable.text
    obtain ⟨deny, hmem, happ, hdeny⟩ | ⟨-, hnone⟩ := evaluate_denied_iff.mp
      (h (degrade (allow.conditions.map Condition.attr) garbled text context)
        (degraded_degrade hgarbled))
    · obtain ⟨hdenyConcerns, hconds⟩ := (applicable_degrade_iff hgarbled hmem).mp happ
      exact ⟨deny, hmem, hdeny, hdenyConcerns, hconds⟩
    · refine absurd ⟨allow, hallow, ?_, heffect⟩ hnone
      apply (applicable_degrade_iff hgarbled hallow).mpr
      exact ⟨hconcerns, fun c hc => ⟨List.mem_map_of_mem hc, hpasses c hc⟩⟩

/-! ### Any loss -/

/-- What a condition sees of a degraded attribute that is still there. -/
theorem Degraded.passes_iff (h : Degraded F engine context context') {rule : PolicyRule}
    (hrule : rule ∈ engine.rules) {c : Condition} (hc : c ∈ rule.conditions)
    {garbled : List String}
    (hgarbled : c.attr ∈ garbled ↔
      context'.attributes.lookup c.attr ≠ context.attributes.lookup c.attr)
    (hpresent : context'.attributes.lookup c.attr ≠ none) :
    (∃ v, context'.attributes.lookup c.attr = some v ∧ Satisfied F c v) ↔
      Passes F context garbled c := by
  obtain hkept | hgone | ⟨hnumeric, v, v', hlookup, hlookup', hparse⟩ := h.lookups c.attr
  · have hmem : c.attr ∉ garbled := fun hmem => hgarbled.mp hmem hkept
    simp [Passes, hkept, hmem]
  · exact absurd hgone hpresent
  · have hzero := satisfied_garbled hparse (hnumeric rule hrule c hc rfl)
    by_cases hmem : c.attr ∈ garbled
    · simp [Passes, hlookup, hlookup', hmem, hzero]
    · have heq : v' = v := by simpa [hlookup, hlookup', hmem] using hgarbled
      simp [Passes, hlookup, hlookup', hmem, heq]

/-- The attributes of an applicable rule that are not what they were. -/
theorem Degraded.garblable (h : Degraded F engine context context') {rule : PolicyRule}
    (happ : Applicable F context' rule) :
    Garblable F engine ((rule.conditions.map Condition.attr).filter fun k =>
      decide (context'.attributes.lookup k ≠ context.attributes.lookup k)) := by
  intro k hk
  obtain ⟨hmem, hne⟩ := List.mem_filter.mp hk
  obtain ⟨c, hc, rfl⟩ := List.mem_map.mp hmem
  obtain ⟨v, hlookup, -⟩ := happ.conditions c hc
  obtain hkept | hgone | ⟨hnumeric, _, v', -, -, hparse⟩ := h.lookups c.attr
  · simp [hkept] at hne
  · simp [hgone] at hlookup
  · exact ⟨hnumeric, v', hparse⟩

theorem Degraded.denied (h : Degraded F engine context context')
    (hsecure : FailSecure F engine context) : (evaluate F engine context').allowed = false := by
  rw [evaluate_denied_iff]
  obtain ⟨deny, hmem, heffect, hconcerns, hnil⟩ | ⟨hdefault, hshadow⟩ := hsecure
  · obtain ⟨hres, hact⟩ := h.concerns_iff.mpr hconcerns
    exact .inl ⟨deny, hmem, ⟨hres, hact, by simp [hnil]⟩, heffect⟩
  by_cases hallowed : ∃ rule ∈ engine.rules, Applicable F context' rule ∧ rule.effect = .allow
  swap
  · exact .inr ⟨hdefault, hallowed⟩
  -- a rule that still allows the request shows which attributes are left
  obtain ⟨allow, hallow, happ, heffect⟩ := hallowed
  have hpresent : ∀ c ∈ allow.conditions, context'.attributes.lookup c.attr ≠ none := by
    intro c hc
    obtain ⟨v, hlookup, -⟩ := happ.conditions c hc
    simp [hlookup]
  have hgarbled : ∀ k ∈ allow.conditions.map Condition.attr,
      (k ∈ (allow.conditions.map Condition.attr).filter fun k =>
        decide (context'.attributes.lookup k ≠ context.attributes.lookup k)) ↔
      context'.attributes.lookup k ≠ context.attributes.lookup k := by
    intro k hk
    rw [List.mem_filter]
    simp only [hk, true_and, decide_eq_true_eq]
  obtain ⟨deny, hmem, hdeny, hconcerns, hconds⟩ := hshadow _ (h.garblable happ) allow hallow heffect
    (h.concerns_iff.mp happ.concerns) fun c hc =>
      (h.passes_iff hallow hc (hgarbled _ (List.mem_map_of_mem hc)) (hpresent c hc)).mp
        (happ.conditions c hc)
  obtain ⟨hres, hact⟩ := h.concerns_iff.mpr hconcerns
  refine .inl ⟨deny, hmem, ⟨hres, hact, fun c hc => ?_⟩, hdeny⟩
  obtain ⟨hattr, hpasses⟩ := hconds c hc
  obtain ⟨c', hc', heq⟩ := List.mem_map.mp hattr
  exact (h.passes_iff hmem hc (hgarbled _ hattr) (heq ▸ hpresent c' hc')).mpr hpasses

/-- **When denials survive.** However much of a request is lost, it stays
denied exactly when the rules that apply to its resource and action say so
without the attributes that can be lost. -/
theorem denied_degraded_iff (F : FloatOps) (engine : PolicyEngine) (context : PolicyContext) :
    (∀ context', Degraded F engine context context' →
      (evaluate F engine context').allowed = false) ↔ FailSecure F engine context :=
  ⟨failSecure_of_denied, fun hsecure _ h => h.denied hsecure⟩

/-- A request is denied for its risk; without the attribute it is allowed, and
with one that is not a number too. -/
theorem denied_degraded_lost :
    let F : FloatOps :=
      ⟨Int, fun s => if s = "5" then some 5 else if s = "9" then some 9 else none, 0,
        fun a b => decide (a < b)⟩
    let allow : PolicyRule := ⟨"*", ["get"], [], .allow⟩
    let deny : PolicyRule := ⟨"*", ["get"], [⟨"risk", .greaterThan, "5"⟩], .deny⟩
    let engine : PolicyEngine := ⟨[⟨"p", "p", "", [allow, deny]⟩], true⟩
    let context (attributes : Attributes) : PolicyContext := ⟨"u", "/", "get", attributes⟩
    (evaluate F engine (context [("risk", "9")])).allowed = false ∧
      Degraded F engine (context [("risk", "9")]) (context []) ∧
      (evaluate F engine (context [])).allowed = true ∧
      Degraded F engine (context [("risk", "9")]) (context [("risk", "high")]) ∧
      (evaluate F engine (context [("risk", "high")])).allowed = true := by
  intro F allow deny engine context
  have hnumeric : NumericOnly engine "risk" := by
    unfold NumericOnly
    decide
  refine ⟨by decide +kernel, ⟨rfl, rfl, rfl, fun k => .inr (.inl rfl)⟩, by decide +kernel,
    ⟨rfl, rfl, rfl, fun k => ?_⟩, by decide +kernel⟩
  by_cases hk : k = "risk"
  · subst hk
    exact .inr (.inr ⟨hnumeric, "9", "high", rfl, rfl, by decide⟩)
  · have hne : (k == "risk") = false := by simpa using hk
    exact .inl (by simp [context, List.lookup_cons, hne])

end PolicyEngine

end ZeroTrustProxy
