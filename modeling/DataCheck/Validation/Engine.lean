import DataCheck.Validation.Rules

/-!
# The validation engine (`validation/engine.py`)
-/

namespace DataCheck.Validation

open Lib

structure ValidationEngineResult where
  total_rows : ℕ
  rule_results : List RuleValidationResult

variable (U : Unicode) (P : Polars)

/-- `math.isfinite(boundary)`; an `int` beyond the floats is an `OverflowError`. -/
def Number.isFinite : Number → Bool
  | .int n => (Binary64.ofRat n).isSome
  | .float _ => true
  | .nonfinite => false

def validateRange (minimum maximum : Option Number) : Except InputFault Unit :=
  if minimum = none ∧ maximum = none then .error .rangeWithoutBoundary
  else if minimum.any (fun b => !b.isFinite) ∨ maximum.any (fun b => !b.isFinite) then
    .error .rangeNotFinite
  else match minimum, maximum with
    | some lo, some hi => if hi.value < lo.value then .error .rangeOrder else .ok ()
    | _, _ => .ok ()

def validateRegexPattern (pattern : PyStr) : Except InputFault Unit :=
  if pattern = [] then .error .regexEmpty
  else if P.contains pattern [some []] = none then .error .regexInvalid
  else .ok ()

/-- The part of `_validate_inputs` that looks at the rule family. -/
def validateCheck : Check → Except InputFault Unit
  | .range minimum maximum => validateRange minimum maximum
  | .regex pattern => validateRegexPattern P pattern
  | _ => .ok ()

/-- One round of the loop of `_validate_inputs`. -/
def validateInput (data : DataFrame) (seen_rule_ids : List Uuid) (rule : RuleSpec) :
    Except InputFault Unit :=
  if rule.rule_id ∈ seen_rule_ids then .error .ruleIdsNotUnique
  else if rule.target_column = [] then .error .targetColumnEmpty
  else match data.getColumn rule.target_column with
    | none => .error .targetColumnMissing
    | some column =>
      if column.isString = false then .error .targetColumnDtype else validateCheck P rule.check

def validateInputs (data : DataFrame) : (seen_rule_ids : List Uuid) → List RuleSpec →
    Except InputFault Unit
  | _, [] => .ok ()
  | seen_rule_ids, rule :: rules =>
    match validateInput P data seen_rule_ids rule with
    | .error f => .error f
    | .ok () => validateInputs data (rule.rule_id :: seen_rule_ids) rules

/-- The loop of `validate` over the rules. -/
def evaluateRules (data : DataFrame) : List RuleSpec → Except EngineError (List RuleValidationResult)
  | [] => .ok []
  | rule :: rules =>
    match data.getColumn rule.target_column with
    | none => .error (.input .targetColumnMissing)
    | some column =>
      match evaluateRule U P column.values rule with
      | .error x => .error x
      | .ok r =>
        match evaluateRules data rules with
        | .error x => .error x
        | .ok rs => .ok (r :: rs)

def validate (data : DataFrame) (rules : List RuleSpec) : Except EngineError ValidationEngineResult :=
  match validateInputs P data [] rules with
  | .error f => .error (.input f)
  | .ok () =>
    match evaluateRules U P data rules with
    | .error x => .error x
    | .ok rs => .ok ⟨data.height, rs⟩

variable {U P}

/-! ### What the results are -/

lemma evaluateRules_ok {data : DataFrame} :
    ∀ {rules : List RuleSpec} {rs : List RuleValidationResult}, evaluateRules U P data rules = .ok rs →
      List.Forall₂ (fun rule r => r.rule = rule ∧ r.Balanced data.height) rules rs := by
  intro rules
  induction rules with
  | nil => intro rs h; cases h; exact .nil
  | cons rule rules ih =>
    intro rs h
    rw [evaluateRules] at h
    split at h
    · cases h
    · next column hcol =>
      split at h
      · cases h
      · next r hr =>
        split at h
        · cases h
        · next rs' hrs =>
          cases h
          obtain ⟨hrule, hbal⟩ := evaluateRule_balanced hr
          rw [data.length_values column (DataFrame.getColumn_mem hcol).1] at hbal
          exact .cons ⟨hrule, hbal⟩ (ih hrs)

/-- **Every result is for its rule, in order, and its counts fit the table.** -/
theorem validate_ok {data : DataFrame} {rules : List RuleSpec} {e : ValidationEngineResult}
    (h : validate U P data rules = .ok e) :
    e.total_rows = data.height ∧
      List.Forall₂ (fun rule r => r.rule = rule ∧ r.Balanced data.height) rules e.rule_results := by
  unfold validate at h
  split at h
  · cases h
  · split at h
    · cases h
    · next rs hrs =>
      cases h
      exact ⟨rfl, evaluateRules_ok hrs⟩

/-! ### When the engine accepts its input -/

/-- A rule that `_validate_inputs` accepts on the table, whatever rules come before it. -/
structure Accepted (P : Polars) (data : DataFrame) (rule : RuleSpec) : Prop where
  column : rule.target_column ≠ [] ∧ rule.target_column ∈ data.names
  check : validateCheck P rule.check = .ok ()

lemma validateInputs_ok {data : DataFrame} (hs : ∀ c ∈ data.columns, c.isString = true) :
    ∀ {rules : List RuleSpec} {seen : List Uuid}, (∀ r ∈ rules, Accepted P data r) →
      (rules.map RuleSpec.rule_id).Nodup → (∀ r ∈ rules, r.rule_id ∉ seen) →
      validateInputs P data seen rules = .ok () := by
  intro rules
  induction rules with
  | nil => intro seen _ _ _; rfl
  | cons rule rules ih =>
    intro seen hacc hnd hseen
    rw [List.map_cons, List.nodup_cons] at hnd
    obtain ⟨⟨hne, hmem⟩, hcheck⟩ := hacc rule List.mem_cons_self
    obtain ⟨column, hcol⟩ := DataFrame.exists_getColumn hmem
    have hone : validateInput P data seen rule = .ok () := by
      rw [validateInput, if_neg (hseen rule List.mem_cons_self), if_neg hne, hcol]
      simp only [hs column (DataFrame.getColumn_mem hcol).1, Bool.true_eq_false, if_false, hcheck]
    rw [validateInputs, hone]
    refine ih (fun r hr => hacc r (List.mem_cons_of_mem _ hr)) hnd.2 fun r hr hs' => ?_
    rcases List.mem_cons.mp hs' with he | hs'
    · exact hnd.1 (List.mem_map.mpr ⟨r, hr, he⟩)
    · exact hseen r (List.mem_cons_of_mem _ hr) hs'

/-- Polars accepts or rejects a pattern by the pattern alone, and answers for every cell. -/
structure ByPattern (P : Polars) : Prop where
  pattern_alone : ∀ pattern values values',
    P.contains pattern values = none → P.contains pattern values' = none
  elementwise : ∀ pattern values found, P.contains pattern values = some found →
    found.length = values.length

lemma evaluateRule_isOk (hP : ByPattern P) (values : List (Option PyStr)) {rule : RuleSpec}
    (h : validateCheck P rule.check = .ok ()) : ∃ r, evaluateRule U P values rule = .ok r := by
  unfold evaluateRule
  cases hc : rule.check with
  | required => exact ⟨_, rfl⟩
  | unique => exact ⟨_, rfl⟩
  | type expected_type => exact ⟨_, rfl⟩
  | range minimum maximum => exact ⟨_, rfl⟩
  | regex pattern =>
    rw [hc, validateCheck, validateRegexPattern] at h
    have hcon : P.contains pattern [some []] ≠ none := by
      intro hn
      simp only [hn, if_true] at h
      split at h <;> cases h
    cases hv : P.contains pattern values with
    | none => exact absurd (hP.pattern_alone _ _ _ hv) hcon
    | some found =>
      have hl := hP.elementwise _ _ _ hv
      simp only [hv, hl, ne_eq, not_true_eq_false, if_false, Except.ok.injEq, exists_eq']

lemma evaluateRules_isOk (hP : ByPattern P) {data : DataFrame} :
    ∀ {rules : List RuleSpec}, (∀ r ∈ rules, Accepted P data r) →
      ∃ rs, evaluateRules U P data rules = .ok rs := by
  intro rules
  induction rules with
  | nil => exact fun _ => ⟨[], rfl⟩
  | cons rule rules ih =>
    intro hacc
    obtain ⟨⟨-, hmem⟩, hcheck⟩ := hacc rule List.mem_cons_self
    obtain ⟨column, hcol⟩ := DataFrame.exists_getColumn hmem
    obtain ⟨r, hr⟩ := evaluateRule_isOk (U := U) hP column.values hcheck
    obtain ⟨rs, hrs⟩ := ih fun r hr => hacc r (List.mem_cons_of_mem _ hr)
    exact ⟨r :: rs, by rw [evaluateRules, hcol]; simp only [hr, hrs]⟩

/-- **The engine accepts rules on columns of a textual table**, under pairwise distinct
identifiers. -/
theorem validate_isOk (hP : ByPattern P) {data : DataFrame} {rules : List RuleSpec}
    (hs : ∀ c ∈ data.columns, c.isString = true) (hacc : ∀ r ∈ rules, Accepted P data r)
    (hnd : (rules.map RuleSpec.rule_id).Nodup) : ∃ e, validate U P data rules = .ok e := by
  obtain ⟨rs, hrs⟩ := evaluateRules_isOk (U := U) hP hacc
  refine ⟨⟨data.height, rs⟩, ?_⟩
  rw [validate, validateInputs_ok hs hacc hnd fun _ _ => List.not_mem_nil]
  simp only [hrs]

end DataCheck.Validation
