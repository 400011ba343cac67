import Mathlib.Data.List.Infix

/-!
The policy engine of `src/policy/mod.rs`.

Operands of `GreaterThan` and `LessThan` are parsed as `f64` with `0.0` in
place of what does not parse. The floats enter as a structure: a partial
parser, a zero and a comparison.
-/

namespace ZeroTrustProxy

/-- The floating-point operations of the condition evaluator. -/
structure FloatOps where
  Float : Type
  parse : String → Option Float
  zero : Float
  lt : Float → Float → Bool

/-- `s.parse::<f64>().unwrap_or(0.0)`. -/
def FloatOps.parseOrZero (F : FloatOps) (s : String) : F.Float :=
  (F.parse s).getD F.zero

/-- `HashMap<String, String>`, as its entries; a key has one entry. -/
abbrev Attributes := List (String × String)

structure PolicyContext where
  userId : String
  resource : String
  action : String
  attributes : Attributes

structure PolicyDecision where
  allowed : Bool
  reason : String
  requiredPermissions : List String
  deriving DecidableEq

inductive Effect where
  | allow
  | deny
  deriving DecidableEq

inductive Operator where
  | equals
  | notEquals
  | contains
  | greaterThan
  | lessThan
  deriving DecidableEq

structure Condition where
  attr : String
  operator : Operator
  value : String
  deriving DecidableEq

structure PolicyRule where
  resourcePattern : String
  actions : List String
  conditions : List Condition
  effect : Effect
  deriving DecidableEq

structure Policy where
  id : String
  name : String
  description : String
  rules : List PolicyRule
  deriving DecidableEq

structure PolicyEngine where
  policies : List Policy
  defaultDeny : Bool

namespace PolicyEngine

def new (defaultDeny : Bool) : PolicyEngine := ⟨[], defaultDeny⟩

def addPolicy (engine : PolicyEngine) (policy : Policy) : PolicyEngine :=
  { engine with policies := engine.policies ++ [policy] }

/-- `pattern.strip_suffix('*')`. -/
def stripStar (pattern : String) : Option (List Char) :=
  match pattern.toList.reverse with
  | '*' :: rest => some rest.reverse
  | _ => none

def matchesResource (pattern resource : String) : Bool :=
  if pattern = "*" then true
  else
    match stripStar pattern with
    | some pre => pre.isPrefixOf resource.toList
    | none => decide (pattern = resource)

/-- The comparison a condition makes, once its attribute has the value `v`. -/
def conditionMatches (F : FloatOps) (c : Condition) (v : String) : Bool :=
  match c.operator with
  | .equals => decide (v = c.value)
  | .notEquals => decide (v ≠ c.value)
  | .contains => decide (c.value.toList <:+: v.toList)
  | .greaterThan => F.lt (F.parseOrZero c.value) (F.parseOrZero v)
  | .lessThan => F.lt (F.parseOrZero v) (F.parseOrZero c.value)

/-- The loop over the conditions, which stops at the first that fails. -/
def evaluateConditions (F : FloatOps) : List Condition → Attributes → Bool
  | [], _ => true
  | c :: cs, attributes =>
      match attributes.lookup c.attr with
      | some v => if conditionMatches F c v then evaluateConditions F cs attributes else false
      | none => false

/-- The accumulators of the two nested loops of `evaluate`. -/
structure Tally where
  allowFound : Bool
  denyFound : Bool
  reasons : List String

/-- The body of the inner loop. -/
def tallyRule (F : FloatOps) (context : PolicyContext) (name : String) (acc : Tally)
    (rule : PolicyRule) : Tally :=
  if matchesResource rule.resourcePattern context.resource
      && rule.actions.contains context.action then
    if evaluateConditions F rule.conditions context.attributes then
      match rule.effect with
      | .allow => { acc with
          allowFound := true, reasons := acc.reasons ++ ["Allowed by policy: " ++ name] }
      | .deny => { acc with
          denyFound := true, reasons := acc.reasons ++ ["Denied by policy: " ++ name] }
    else acc
  else acc

def tallyPolicy (F : FloatOps) (context : PolicyContext) (acc : Tally) (policy : Policy) :
    Tally :=
  policy.rules.foldl (tallyRule F context policy.name) acc

def tally (F : FloatOps) (engine : PolicyEngine) (context : PolicyContext) : Tally :=
  engine.policies.foldl (tallyPolicy F context) ⟨false, false, []⟩

/-- The decision; a deny takes precedence. -/
def evaluate (F : FloatOps) (engine : PolicyEngine) (context : PolicyContext) :
    PolicyDecision :=
  let t := tally F engine context
  if t.denyFound then ⟨false, "; ".intercalate t.reasons, []⟩
  else if t.allowFound then ⟨true, "; ".intercalate t.reasons, []⟩
  else if engine.defaultDeny then ⟨false, "No matching policy - default deny", []⟩
  else ⟨true, "No matching policy - default allow", []⟩

end PolicyEngine

/-- The engine the proxy starts with: every authenticated request with one of
the common methods is allowed. -/
def buildDefaultPolicyEngine (defaultDeny : Bool) : PolicyEngine :=
  (PolicyEngine.new defaultDeny).addPolicy
    { id := "default-allow-authenticated"
      name := "Allow all authenticated requests (MVP default)"
      description := "Passes through anything that already cleared JWT/session/risk checks."
      rules := [
        { resourcePattern := "*"
          actions := ["get", "post", "put", "patch", "delete", "head", "options"]
          conditions := []
          effect := .allow }] }

end ZeroTrustProxy
