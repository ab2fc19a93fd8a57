import DataCheck.Datasets.Policies
import DataCheck.Lib.Rounding
import DataCheck.Validation.Rules

/-!
# Rule configurations (`datasets/schemas.py`)

A configuration is a JSON object.  A number of JSON is its value, and an object is the list of its
members in ascending order of their names, so that equal JSON values are equal terms.
-/

namespace DataCheck.Datasets

open Lib Validation

inductive Json where
  | null
  | bool (b : Bool)
  | num (q : ℚ)
  | str (s : PyStr)
  | arr (items : List Json)
  | obj (members : List (PyStr × Json))

/-- A `dict[str, object]` of JSON values. -/
abbrev Dict := List (PyStr × Json)

/-- `d.get(key)`, with `none` for an absent member. -/
def Dict.get? (d : Dict) (key : PyStr) : Option Json := (d.find? fun m => m.1 = key).map Prod.snd

/-- `extra="forbid"`: every member is one of the fields. -/
def Dict.only (d : Dict) (fields : List PyStr) : Bool := d.all fun m => m.1 ∈ fields

/-! ### The configuration models -/

/-- `EmptyRuleConfiguration.model_validate`; `none` is a `ValidationError`. -/
def EmptyRuleConfiguration.modelValidate (d : Dict) : Option Unit := if d.only [] then some () else none

def expectedTypeName : ExpectedType → PyStr
  | .string => py "string"
  | .integer => py "integer"
  | .number => py "number"
  | .boolean => py "boolean"
  | .date => py "date"
  | .datetime => py "datetime"

def expectedType? (name : PyStr) : Option ExpectedType :=
  [ExpectedType.string, .integer, .number, .boolean, .date, .datetime].find? fun t =>
    expectedTypeName t = name

structure TypeRuleConfiguration where
  expected_type : ExpectedType

/-- `TypeRuleConfiguration.model_validate` -/
def TypeRuleConfiguration.modelValidate (d : Dict) : Option TypeRuleConfiguration :=
  if d.only [py "expected_type"] then
    match Dict.get? d (py "expected_type") with
    | some (.str name) => (expectedType? name).map (⟨·⟩)
    | _ => none
  else none

/-- `TypeRuleConfiguration.model_dump` -/
def TypeRuleConfiguration.modelDump (c : TypeRuleConfiguration) : Dict :=
  [(py "expected_type", .str (expectedTypeName c.expected_type))]

/-- A validated range has a boundary, and its boundaries are in order. -/
structure RangeRuleConfiguration where
  minimum : Option Binary64
  maximum : Option Binary64
  has_boundary : minimum ≠ none ∨ maximum ≠ none
  ordered : ∀ a ∈ minimum, ∀ b ∈ maximum, a.val ≤ b.val

/-- `FiniteFloat | None`, after `validate_numeric_boundary`: absent or null, or a number that is not
too large for a float. -/
def numericBoundary : Option Json → Option (Option Binary64)
  | none => some none
  | some .null => some none
  | some (.num q) => (Binary64.ofRat q).map some
  | some _ => none

def RangeRuleConfiguration.validateBounds (minimum maximum : Option Binary64) :
    Option RangeRuleConfiguration :=
  if h : minimum ≠ none ∨ maximum ≠ none then
    if h' : ∀ a ∈ minimum, ∀ b ∈ maximum, a.val ≤ b.val then some ⟨minimum, maximum, h, h'⟩ else none
  else none

/-- `RangeRuleConfiguration.model_validate` -/
def RangeRuleConfiguration.modelValidate (d : Dict) : Option RangeRuleConfiguration :=
  if d.only [py "minimum", py "maximum"] then
    match numericBoundary (Dict.get? d (py "minimum")), numericBoundary (Dict.get? d (py "maximum")) with
    | some minimum, some maximum => validateBounds minimum maximum
    | _, _ => none
  else none

def boundaryJson : Option Binary64 → Json
  | none => .null
  | some x => .num x.val

/-- `RangeRuleConfiguration.model_dump` -/
def RangeRuleConfiguration.modelDump (c : RangeRuleConfiguration) : Dict :=
  [(py "maximum", boundaryJson c.maximum), (py "minimum", boundaryJson c.minimum)]

variable (U : Unicode) (P : Polars)

/-- A validated pattern passes the policy of patterns. -/
structure RegexRuleConfiguration where
  pattern : PyStr
  valid : validatePolarsRegex U P pattern = .ok pattern

/-- `RegexRuleConfiguration.model_validate` -/
def RegexRuleConfiguration.modelValidate (d : Dict) : Option (RegexRuleConfiguration U P) :=
  if d.only [py "pattern"] then
    match Dict.get? d (py "pattern") with
    | some (.str pattern) =>
      if h : 1 ≤ pattern.length ∧ pattern.length ≤ 256 ∧
          validatePolarsRegex U P pattern = .ok pattern then some ⟨pattern, h.2.2⟩
      else none
    | _ => none
  else none

variable {U P} in
/-- `RegexRuleConfiguration.model_dump` -/
def RegexRuleConfiguration.modelDump (c : RegexRuleConfiguration U P) : Dict :=
  [(py "pattern", .str c.pattern)]

/-! ### Rule requests -/

/-- The configuration of a `RuleCreateRequest`, by the request's `type`. -/
inductive RuleConfiguration where
  | required
  | unique
  | type (c : TypeRuleConfiguration)
  | range (c : RangeRuleConfiguration)
  | regex (c : RegexRuleConfiguration U P)

structure RuleCreateRequest where
  target_column : PyStr
  configuration : RuleConfiguration U P

variable {U P} in
/-- `payload.type` -/
def RuleConfiguration.typeName : RuleConfiguration U P → PyStr
  | .required => py "required"
  | .unique => py "unique"
  | .type _ => py "type"
  | .range _ => py "range"
  | .regex _ => py "regex"

/-- The configuration of a request of type `type`. -/
def RuleConfiguration.modelValidate (type : PyStr) (d : Dict) : Option (RuleConfiguration U P) :=
  if type = py "required" then (EmptyRuleConfiguration.modelValidate d).map fun _ => .required
  else if type = py "unique" then (EmptyRuleConfiguration.modelValidate d).map fun _ => .unique
  else if type = py "type" then (TypeRuleConfiguration.modelValidate d).map .type
  else if type = py "range" then (RangeRuleConfiguration.modelValidate d).map .range
  else if type = py "regex" then (RegexRuleConfiguration.modelValidate U P d).map .regex
  else none

/-- The schema `RuleCreateRequest` on a request body. -/
def RuleCreateRequest.modelValidate : Json → Option (RuleCreateRequest U P)
  | .obj d =>
    if d.all (fun m => m.1 ∈ [py "type", py "target_column", py "configuration"]) then
      match Dict.get? d (py "type"), Dict.get? d (py "target_column"),
          Dict.get? d (py "configuration") with
      | some (.str type), some (.str target_column), some (.obj configuration) =>
        (RuleConfiguration.modelValidate U P type configuration).map (⟨target_column, ·⟩)
      | _, _, _ => none
    else none
  | _ => none

variable {U P}

/-- `payload.configuration.model_dump(mode="json")` -/
def RuleConfiguration.modelDump : RuleConfiguration U P → Dict
  | .required => []
  | .unique => []
  | .type c => c.modelDump
  | .range c => c.modelDump
  | .regex c => c.modelDump

def canonicalRuleConfiguration (payload : RuleCreateRequest U P) : Dict :=
  payload.configuration.modelDump

/-! ### Dump and validate -/

lemma expectedType?_name (t : ExpectedType) : expectedType? (expectedTypeName t) = some t := by
  cases t <;> decide

lemma numericBoundary_json (x : Option Binary64) : numericBoundary (some (boundaryJson x)) = some x := by
  cases x with
  | none => rfl
  | some x => simp [boundaryJson, numericBoundary]

theorem TypeRuleConfiguration.modelValidate_modelDump (c : TypeRuleConfiguration) :
    TypeRuleConfiguration.modelValidate c.modelDump = some c := by
  have hget : Dict.get? c.modelDump (py "expected_type") =
      some (.str (expectedTypeName c.expected_type)) := rfl
  rw [TypeRuleConfiguration.modelValidate, if_pos (by rfl), hget]
  simp only [expectedType?_name, Option.map_some]

theorem RangeRuleConfiguration.modelValidate_modelDump (c : RangeRuleConfiguration) :
    RangeRuleConfiguration.modelValidate c.modelDump = some c := by
  have hmin : Dict.get? c.modelDump (py "minimum") = some (boundaryJson c.minimum) := rfl
  have hmax : Dict.get? c.modelDump (py "maximum") = some (boundaryJson c.maximum) := rfl
  rw [RangeRuleConfiguration.modelValidate, if_pos (by rfl), hmin, hmax]
  simp only [numericBoundary_json]
  rw [validateBounds, dif_pos c.has_boundary, dif_pos c.ordered]

theorem RegexRuleConfiguration.modelValidate_modelDump (c : RegexRuleConfiguration U P) :
    RegexRuleConfiguration.modelValidate U P c.modelDump = some c := by
  have hget : Dict.get? c.modelDump (py "pattern") = some (.str c.pattern) := rfl
  have hlen : 1 ≤ c.pattern.length ∧ c.pattern.length ≤ 256 := by
    have hv := c.valid
    unfold validatePolarsRegex at hv
    split at hv
    · cases hv
    · next h =>
      exact not_not.mp (not_or.mp h).1
  rw [RegexRuleConfiguration.modelValidate, if_pos (by rfl), hget]
  simp only [hlen, c.valid, and_self, dite_true]

/-- **A dumped configuration is validated again as itself.** -/
theorem RuleConfiguration.modelValidate_modelDump (c : RuleConfiguration U P) :
    RuleConfiguration.modelValidate U P c.typeName c.modelDump = some c := by
  cases c with
  | required => rfl
  | unique => rfl
  | type c =>
    exact congrArg (Option.map RuleConfiguration.type) (TypeRuleConfiguration.modelValidate_modelDump c)
  | range c =>
    exact congrArg (Option.map RuleConfiguration.range) (RangeRuleConfiguration.modelValidate_modelDump c)
  | regex c =>
    exact congrArg (Option.map RuleConfiguration.regex) (RegexRuleConfiguration.modelValidate_modelDump c)

end DataCheck.Datasets
