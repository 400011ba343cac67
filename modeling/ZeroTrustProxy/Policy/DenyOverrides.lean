import Mathlib.Data.List.Perm.Basic
import ZeroTrustProxy.Model.Policy

/-!
Policy evaluation is deny-overrides.

The engine walks two nested loops with two flags, stops the walk over the
conditions of a rule at the first that fails, and decides four ways at the
end. What it computes does not depend on any of that: a request is allowed
when no applicable rule denies it and some applicable rule allows it, or none
has to.
-/

namespace ZeroTrustProxy

namespace PolicyEngine

variable (F : FloatOps) (context : PolicyContext)

/-! ### What a rule says -/

/-- The pattern is `*`, or a prefix followed by `*`, or the resource itself. -/
def Covers (pattern resource : String) : Prop :=
  pattern = "*" ∨ (∃ pre, pattern.toList = pre ++ ['*'] ∧ pre <+: resource.toList) ∨
    pattern = resource

/-- The comparison of a condition, on the value of its attribute. -/
def Satisfied (c : Condition) (v : String) : Prop :=
  match c.operator with
  | .equals => v = c.value
  | .notEquals => v ≠ c.value
  | .contains => c.value.toList <:+: v.toList
  | .greaterThan => F.lt (F.parseOrZero c.value) (F.parseOrZero v) = true
  | .lessThan => F.lt (F.parseOrZero v) (F.parseOrZero c.value) = true

structure Applicable (rule : PolicyRule) : Prop where
  resource : Covers rule.resourcePattern context.resource
  action : context.action ∈ rule.actions
  conditions : ∀ c ∈ rule.conditions, ∃ v,
    context.attributes.lookup c.attr = some v ∧ Satisfied F c v

/-- All rules of an engine, whatever policy they are in. -/
def rules (engine : PolicyEngine) : List PolicyRule := engine.policies.flatMap Policy.rules

variable {F context}

/-! ### The tests of the code -/

theorem stripStar_eq_some {pattern : String} {pre : List Char} :
    stripStar pattern = some pre ↔ pattern.toList = pre ++ ['*'] := by
  unfold stripStar
  constructor
  · intro h
    split at h
    · rename_i rest hrev
      obtain rfl := Option.some.inj h
      simpa using congrArg List.reverse hrev
    · simp at h
  · intro h
    have hrev : pattern.toList.reverse = '*' :: pre.reverse := by simp [h]
    simp [hrev]

theorem matchesResource_iff {pattern resource : String} :
    matchesResource pattern resource = true ↔ Covers pattern resource := by
  unfold matchesResource Covers
  by_cases hstar : pattern = "*"
  · simp [hstar]
  · rw [if_neg hstar]
    cases hstrip : stripStar pattern with
    | some pre =>
        have hpattern := stripStar_eq_some.mp hstrip
        simp only [List.isPrefixOf_iff_prefix, hstar, false_or]
        constructor
        · exact fun hpre => .inl ⟨pre, hpattern, hpre⟩
        · rintro (⟨pre', hpattern', hpre⟩ | rfl)
          · obtain rfl := List.append_cancel_right (hpattern.symm.trans hpattern')
            exact hpre
          · rw [hpattern]
            exact List.prefix_append _ _
    | none =>
        have hnone : ∀ pre, pattern.toList ≠ pre ++ ['*'] := fun pre hpattern => by
          simp [stripStar_eq_some.mpr hpattern] at hstrip
        simp [hstar, hnone]

theorem conditionMatches_iff {c : Condition} {v : String} :
    conditionMatches F c v = true ↔ Satisfied F c v := by
  unfold conditionMatches Satisfied
  cases c.operator <;> simp

/-- The loop that stops at the first failing condition checks them all. -/
theorem evaluateConditions_iff {cs : List Condition} {attributes : Attributes} :
    evaluateConditions F cs attributes = true ↔
      ∀ c ∈ cs, ∃ v, attributes.lookup c.attr = some v ∧ Satisfied F c v := by
  induction cs with
  | nil => simp [evaluateConditions]
  | cons c cs ih =>
      rw [evaluateConditions]
      cases hlookup : attributes.lookup c.attr with
      | none => simp [hlookup]
      | some v =>
          cases hmatch : conditionMatches F c v with
          | true => simp [hlookup, hmatch, ih, conditionMatches_iff.mp hmatch]
          | false =>
              have hnot : ¬ Satisfied F c v := fun h => by
                simp [conditionMatches_iff.mpr h] at hmatch
              simp [hlookup, hmatch, hnot]

/-- The test that the inner loop makes before it looks at the effect. -/
def applies (F : FloatOps) (context : PolicyContext) (rule : PolicyRule) : Bool :=
  matchesResource rule.resourcePattern context.resource && rule.actions.contains context.action
    && evaluateConditions F rule.conditions context.attributes

theorem applies_iff {rule : PolicyRule} :
    applies F context rule = true ↔ Applicable F context rule := by
  simp only [applies, Bool.and_eq_true, matchesResource_iff, evaluateConditions_iff,
    List.contains_iff_mem]
  exact ⟨fun h => ⟨h.1.1, h.1.2, h.2⟩, fun h => ⟨⟨h.resource, h.action⟩, h.conditions⟩⟩

/-! ### The flags -/

/-- One round of the inner loop raises the flag of an applicable rule's effect
and lowers none. -/
theorem tallyRule_flags (name : String) (acc : Tally) (rule : PolicyRule) :
    (tallyRule F context name acc rule).allowFound =
        (acc.allowFound || (applies F context rule && decide (rule.effect = .allow))) ∧
      (tallyRule F context name acc rule).denyFound =
        (acc.denyFound || (applies F context rule && decide (rule.effect = .deny))) := by
  unfold tallyRule applies
  cases matchesResource rule.resourcePattern context.resource
      && rule.actions.contains context.action with
  | false => simp
  | true =>
      cases evaluateConditions F rule.conditions context.attributes with
      | false => simp
      | true => cases rule.effect <;> simp

/-- A flag that every round can only raise is raised in the end exactly when
it was to begin with or some round has raised it. -/
theorem foldl_flag {α β : Type} (flag : β → Bool) {step : β → α → β} {raises : α → Bool}
    (h : ∀ b a, flag (step b a) = (flag b || raises a)) (l : List α) (b : β) :
    flag (l.foldl step b) = (flag b || l.any raises) := by
  induction l generalizing b with
  | nil => simp
  | cons a l ih => rw [List.foldl_cons, ih, h, List.any_cons, Bool.or_assoc]

theorem tally_flags (engine : PolicyEngine) :
    (tally F engine context).allowFound =
        engine.rules.any (fun r => applies F context r && decide (r.effect = .allow)) ∧
      (tally F engine context).denyFound =
        engine.rules.any (fun r => applies F context r && decide (r.effect = .deny)) := by
  have hpolicy {flag : Tally → Bool} {effect : Effect}
      (h : ∀ name acc rule, flag (tallyRule F context name acc rule) =
        (flag acc || (applies F context rule && decide (rule.effect = effect))))
      (hstart : flag ⟨false, false, []⟩ = false) :
      flag (tally F engine context) =
        engine.rules.any (fun r => applies F context r && decide (r.effect = effect)) := by
    have hfold := foldl_flag flag
      (fun acc policy => foldl_flag flag (h policy.name) policy.rules acc)
      engine.policies ⟨false, false, []⟩
    rw [hstart, Bool.false_or] at hfold
    rw [rules, List.any_flatMap]
    exact hfold
  exact ⟨hpolicy (fun name acc rule => (tallyRule_flags name acc rule).1) rfl,
    hpolicy (fun name acc rule => (tallyRule_flags name acc rule).2) rfl⟩

theorem any_applies_iff {engine : PolicyEngine} {effect : Effect} :
    engine.rules.any (fun r => applies F context r && decide (r.effect = effect)) = true ↔
      ∃ rule ∈ engine.rules, Applicable F context rule ∧ rule.effect = effect := by
  simp only [List.any_eq_true, Bool.and_eq_true, applies_iff, decide_eq_true_eq]

/-- The decision, by its two flags. -/
theorem evaluate_allowed (engine : PolicyEngine) :
    (evaluate F engine context).allowed =
      (!(tally F engine context).denyFound
        && ((tally F engine context).allowFound || !engine.defaultDeny)) := by
  unfold evaluate
  generalize tally F engine context = t
  obtain ⟨allowFound, denyFound, reasons⟩ := t
  cases denyFound <;> cases allowFound <;> cases engine.defaultDeny <;> rfl

theorem evaluate_allowed_iff {engine : PolicyEngine} :
    (evaluate F engine context).allowed = true ↔
      (¬ ∃ rule ∈ engine.rules, Applicable F context rule ∧ rule.effect = .deny) ∧
        ((∃ rule ∈ engine.rules, Applicable F context rule ∧ rule.effect = .allow) ∨
          engine.defaultDeny = false) := by
  rw [evaluate_allowed, (tally_flags engine).1, (tally_flags engine).2]
  simp only [Bool.and_eq_true, Bool.or_eq_true, Bool.not_eq_true', ← Bool.not_eq_true,
    any_applies_iff]

/-- **Deny overrides.** The engine allows a request exactly when no applicable
rule denies it and some applicable rule allows it or the default does; and
only the rules there are matter for that, not their order and not the policies
they are in. -/
theorem deny_overrides (F : FloatOps) (engine : PolicyEngine) (context : PolicyContext) :
    ((evaluate F engine context).allowed = true ↔
      (¬ ∃ rule ∈ engine.rules, Applicable F context rule ∧ rule.effect = .deny) ∧
        ((∃ rule ∈ engine.rules, Applicable F context rule ∧ rule.effect = .allow) ∨
          engine.defaultDeny = false)) ∧
      ∀ engine' : PolicyEngine, engine'.defaultDeny = engine.defaultDeny →
        engine'.rules.Perm engine.rules →
        (evaluate F engine' context).allowed = (evaluate F engine context).allowed := by
  refine ⟨evaluate_allowed_iff, fun engine' hdefault hperm => ?_⟩
  rw [Bool.eq_iff_iff, evaluate_allowed_iff, evaluate_allowed_iff, hdefault]
  simp only [hperm.mem_iff]

/-- A request that one rule allows and a later one denies, and the same rules
the other way round in one policy. -/
theorem deny_overrides_reordered :
    let F : FloatOps := ⟨Unit, fun _ => none, (), fun _ _ => false⟩
    let allow : PolicyRule := ⟨"*", ["get"], [], .allow⟩
    let deny : PolicyRule := ⟨"/admin*", ["get"], [], .deny⟩
    let engine : PolicyEngine :=
      ⟨[⟨"a", "a", "", [allow]⟩, ⟨"b", "b", "", [deny]⟩], true⟩
    let engine' : PolicyEngine := ⟨[⟨"c", "c", "", [deny, allow]⟩], true⟩
    let context : PolicyContext := ⟨"u", "/admin/keys", "get", []⟩
    (evaluate F engine' context).allowed = (evaluate F engine context).allowed ∧
      (evaluate F engine context).allowed = false := by
  intro F allow deny engine engine' context
  refine ⟨(deny_overrides F engine context).2 engine' rfl ?_, by decide +kernel⟩
  exact List.Perm.swap allow deny []

end PolicyEngine

end ZeroTrustProxy
