import DataCheck.Datasets.Models
import DataCheck.Validation.Engine

/-!
# Adapters between stored state and the engine (`analysis/adapters.py`)
-/

namespace DataCheck.Analyses

open Lib Datasets Validation

/-- `AnalysisDataIntegrityError`, by its message. -/
inductive IntegrityFault where
  | csvUnparsable | columnsMismatch | rowCountMismatch | notTextual
  | ruleInvalid | ruleTypeUnsupported
  | overByteLimit | csvUnavailable | sizeMismatch | hashMismatch
  | engineRejected | resultCount | resultRowCount | resultOrder | resultCounts
  | sampleInvalid
  deriving DecidableEq

/-- The upload that an analysis is about (`analysis/service.py`). -/
structure SourceSnapshot where
  original_filename : PyStr
  content_sha256 : Digest
  size_bytes : ℕ
  row_count : ℕ
  column_names : List PyStr
  uploaded_at : Time
  deriving DecidableEq

structure PersistedRuleSnapshot where
  rule_id : Uuid
  rule_type : PyStr
  target_column : PyStr
  configuration : Dict

structure AdaptedRule where
  rule_id : Uuid
  rule_type : PyStr
  target_column : PyStr
  configuration : Dict
  spec : RuleSpec

variable (U : Unicode) (P : Polars)

def loadTextualCsv (content : Bytes) (expected_columns : List PyStr) (expected_row_count : ℕ) :
    Except IntegrityFault DataFrame :=
  match P.readCsv content with
  | none => .error .csvUnparsable
  | some frame =>
    if frame.names ≠ expected_columns then .error .columnsMismatch
    else if frame.height ≠ expected_row_count then .error .rowCountMismatch
    else if frame.columns.any fun c => !c.isString then .error .notTextual
    else .ok frame

/-- A validated configuration as a check of the engine. -/
def checkOf : RuleConfiguration U P → Check
  | .required => .required
  | .unique => .unique
  | .type c => .type c.expected_type
  | .range c => .range (c.minimum.map .float) (c.maximum.map .float)
  | .regex c => .regex c.pattern

def adaptRule (rule : PersistedRuleSnapshot) : Except IntegrityFault AdaptedRule :=
  if rule.rule_type ∈ ruleTypes then
    match RuleConfiguration.modelValidate U P rule.rule_type rule.configuration with
    | none => .error .ruleInvalid
    | some c => .ok {
        rule_id := rule.rule_id
        rule_type := rule.rule_type
        target_column := rule.target_column
        configuration := c.modelDump
        spec := ⟨rule.rule_id, rule.target_column, checkOf U P c⟩ }
  else .error .ruleTypeUnsupported

def adaptRules : List PersistedRuleSnapshot → Except IntegrityFault (List AdaptedRule)
  | [] => .ok []
  | rule :: rules =>
    match adaptRule U P rule with
    | .error x => .error x
    | .ok adapted =>
      match adaptRules rules with
      | .error x => .error x
      | .ok rest => .ok (adapted :: rest)

variable {U P}

lemma loadTextualCsv_ok {content : Bytes} {columns : List PyStr} {n : ℕ} {frame : DataFrame}
    (h : loadTextualCsv P content columns n = .ok frame) :
    frame.names = columns ∧ frame.height = n ∧ ∀ c ∈ frame.columns, c.isString = true := by
  unfold loadTextualCsv at h
  split at h
  · cases h
  · split_ifs at h with h1 h2 h3
    cases h
    refine ⟨not_not.mp h1, not_not.mp h2, fun c hc => ?_⟩
    by_contra hs
    exact h3 (List.any_eq_true.mpr ⟨c, hc, by simpa using hs⟩)

lemma loadTextualCsv_read {content : Bytes} {columns : List PyStr} {n : ℕ} {frame : DataFrame}
    (h : loadTextualCsv P content columns n = .ok frame) : P.readCsv content = some frame := by
  unfold loadTextualCsv at h
  split at h
  · cases h
  · next hread =>
    split_ifs at h
    cases h
    exact hread

lemma loadTextualCsv_error {content : Bytes} {columns : List PyStr} {n : ℕ} {f : IntegrityFault}
    (h : loadTextualCsv P content columns n = .error f) :
    f = .csvUnparsable ∨ f = .columnsMismatch ∨ f = .rowCountMismatch ∨ f = .notTextual := by
  unfold loadTextualCsv at h
  split at h
  · cases h
    exact Or.inl rfl
  · split_ifs at h <;> cases h <;> simp

/-- An adapted rule is the rule, with its configuration validated. -/
structure Adapts (U : Unicode) (P : Polars) (rule : PersistedRuleSnapshot) (a : AdaptedRule) :
    Prop where
  rule_id : a.rule_id = rule.rule_id
  rule_type : a.rule_type = rule.rule_type
  target_column : a.target_column = rule.target_column
  spec : ∃ c, RuleConfiguration.modelValidate U P rule.rule_type rule.configuration = some c ∧
    a.configuration = c.modelDump ∧ a.spec = ⟨rule.rule_id, rule.target_column, checkOf U P c⟩

lemma adaptRule_ok {rule : PersistedRuleSnapshot} {a : AdaptedRule} (h : adaptRule U P rule = .ok a) :
    Adapts U P rule a := by
  unfold adaptRule at h
  split at h
  · split at h
    · cases h
    · next c hc =>
      cases h
      exact ⟨rfl, rfl, rfl, c, hc, rfl, rfl⟩
  · cases h

lemma adaptRules_error {rules : List PersistedRuleSnapshot} {f : IntegrityFault}
    (h : adaptRules U P rules = .error f) : f = .ruleInvalid ∨ f = .ruleTypeUnsupported := by
  induction rules with
  | nil => cases h
  | cons rule rules ih =>
    rw [adaptRules] at h
    split at h
    · next x hx =>
      cases h
      unfold adaptRule at hx
      split at hx
      · split at hx
        · cases hx
          exact Or.inl rfl
        · cases hx
      · cases hx
        exact Or.inr rfl
    · split at h
      · next x hx =>
        cases h
        exact ih hx
      · cases h

/-- **Rules are adapted one by one, in order.** -/
theorem adaptRules_ok {rules : List PersistedRuleSnapshot} :
    ∀ {as : List AdaptedRule}, adaptRules U P rules = .ok as → List.Forall₂ (Adapts U P) rules as := by
  induction rules with
  | nil => intro as h; cases h; exact .nil
  | cons rule rules ih =>
    intro as h
    rw [adaptRules] at h
    split at h
    · cases h
    · next a ha =>
      split at h
      · cases h
      · next rest hrest =>
        cases h
        exact .cons (adaptRule_ok ha) (ih hrest)

lemma adaptRules_isOk {rules : List PersistedRuleSnapshot} :
    (∀ r ∈ rules, ∃ a, adaptRule U P r = .ok a) → ∃ as, adaptRules U P rules = .ok as := by
  induction rules with
  | nil => exact fun _ => ⟨[], rfl⟩
  | cons rule rules ih =>
    intro h
    obtain ⟨a, ha⟩ := h rule List.mem_cons_self
    obtain ⟨as, has⟩ := ih fun r hr => h r (List.mem_cons_of_mem _ hr)
    exact ⟨a :: as, by rw [adaptRules, ha]; simp only [has]⟩

/-! ### Storing and adapting a rule -/

/-- What a later analysis reads of the rule that a request created. -/
def snapshotOf (payload : RuleCreateRequest U P) (rule_id : Uuid) : PersistedRuleSnapshot where
  rule_id
  rule_type := payload.configuration.typeName
  target_column := payload.target_column
  configuration := canonicalRuleConfiguration payload

/-- The row that a request creates. -/
def ruleRow (payload : RuleCreateRequest U P) (id dataset_id : Uuid) (created_at : Time) :
    ValidationRule where
  id
  dataset_id
  rule_type := payload.configuration.typeName
  target_column := payload.target_column
  configuration := canonicalRuleConfiguration payload
  created_at

lemma typeName_mem (c : RuleConfiguration U P) : c.typeName ∈ ruleTypes := by
  cases c <;> simp [RuleConfiguration.typeName, ruleTypes]

lemma adaptRule_snapshot (payload : RuleCreateRequest U P) (rule_id : Uuid) :
    adaptRule U P (snapshotOf payload rule_id) = .ok
      ⟨rule_id, payload.configuration.typeName, payload.target_column, canonicalRuleConfiguration payload,
        rule_id, payload.target_column, checkOf U P payload.configuration⟩ := by
  have hmem : (snapshotOf payload rule_id).rule_type ∈ ruleTypes := typeName_mem _
  rw [adaptRule, if_pos hmem]
  simp only [snapshotOf, canonicalRuleConfiguration, RuleConfiguration.modelValidate_modelDump]

/-- The boundaries of a check are the boundaries of the configuration. -/
lemma map_float_injective : Function.Injective (Option.map Number.float) :=
  Option.map_injective fun _ _ h => by cases h; rfl

lemma checkOf_injective {c c' : RuleConfiguration U P} (h : checkOf U P c = checkOf U P c') : c = c' := by
  cases c with
  | range c =>
    cases c' with
    | range c' =>
      obtain ⟨lo, hi, _, _⟩ := c
      obtain ⟨lo', hi', _, _⟩ := c'
      simp only [checkOf, Check.range.injEq] at h
      obtain rfl := map_float_injective h.1
      obtain rfl := map_float_injective h.2
      rfl
    | _ => cases h
  | required => cases c' <;> first | rfl | cases h
  | unique => cases c' <;> first | rfl | cases h
  | type c =>
    cases c' with
    | type c' =>
      obtain ⟨t⟩ := c
      obtain ⟨t'⟩ := c'
      cases h
      rfl
    | _ => cases h
  | regex c =>
    cases c' with
    | regex c' =>
      obtain ⟨p, _⟩ := c
      obtain ⟨p', _⟩ := c'
      cases h
      rfl
    | _ => cases h

/-- Under one type, equal configurations are dumped equally, and different ones differently. -/
lemma modelDump_injective {c c' : RuleConfiguration U P} (ht : c.typeName = c'.typeName)
    (hd : c.modelDump = c'.modelDump) : c = c' := by
  have h := RuleConfiguration.modelValidate_modelDump c
  rw [ht, hd, RuleConfiguration.modelValidate_modelDump] at h
  exact (Option.some_injective _ h).symm

lemma eqMembers_canonical {r s : RuleCreateRequest U P}
    (ht : r.configuration.typeName = s.configuration.typeName) :
    Json.eqMembers (canonicalRuleConfiguration r) (canonicalRuleConfiguration s) = true ↔
      checkOf U P r.configuration = checkOf U P s.configuration := by
  rw [Json.eqMembers_iff]
  constructor
  · intro hd
    rw [modelDump_injective ht hd]
  · intro hc
    rw [canonicalRuleConfiguration, canonicalRuleConfiguration, checkOf_injective hc]

/-- **A stored rule is adapted to what was requested, and its stored configuration is a key for it**:
two requests of one type for one column are stored equally exactly when their checks agree, and the
constraint on definitions refuses a rule exactly when there is one with the same check. -/
theorem rule_configuration_roundTrip (U : Unicode) (P : Polars) :
    (∀ (payload : RuleCreateRequest U P) (rule_id : Uuid), ∃ a,
      adaptRules U P [snapshotOf payload rule_id] = .ok [a] ∧ a.rule_id = rule_id ∧
        a.rule_type = payload.configuration.typeName ∧ a.target_column = payload.target_column ∧
        a.configuration = canonicalRuleConfiguration payload ∧ a.spec = ⟨rule_id, payload.target_column,
          match payload.configuration with
          | .required => .required
          | .unique => .unique
          | .type c => .type c.expected_type
          | .range c => .range (c.minimum.map .float) (c.maximum.map .float)
          | .regex c => .regex c.pattern⟩) ∧
    (∀ r s : RuleCreateRequest U P, r.configuration.typeName = s.configuration.typeName →
      r.target_column = s.target_column →
      (Json.eqMembers (canonicalRuleConfiguration r) (canonicalRuleConfiguration s) = true ↔
        checkOf U P r.configuration = checkOf U P s.configuration)) ∧
    ∀ (r s : RuleCreateRequest U P) (id id' dataset_id dataset_id' : Uuid) (created_at created_at' : Time),
      (ruleRow r id dataset_id created_at).sameDefinition (ruleRow s id' dataset_id' created_at') = true ↔
        dataset_id = dataset_id' ∧ r.target_column = s.target_column ∧
          checkOf U P r.configuration = checkOf U P s.configuration := by
  refine ⟨fun payload rule_id => ?_, fun r s ht _ => eqMembers_canonical ht, fun r s id id' d d' t t' => ?_⟩
  · have hadapted := adaptRule_snapshot payload rule_id
    refine ⟨_, by rw [adaptRules, hadapted]; rfl, rfl, rfl, rfl, rfl, ?_⟩
    cases hc : payload.configuration <;> rfl
  · simp only [ruleRow, ValidationRule.sameDefinition, Bool.and_eq_true, beq_iff_eq, and_assoc]
    constructor
    · rintro ⟨hd, ht, hcol, hc⟩
      exact ⟨hd, hcol, (eqMembers_canonical ht).mp hc⟩
    · rintro ⟨hd, hcol, hc⟩
      have ht : r.configuration.typeName = s.configuration.typeName := by rw [checkOf_injective hc]
      exact ⟨hd, ht, hcol, (eqMembers_canonical ht).mpr hc⟩

end DataCheck.Analyses
