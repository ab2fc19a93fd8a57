import DataCheck.Datasets.Models

/-!
# Analysis rows (`analysis/models.py`)
-/

namespace DataCheck.Analyses

open Lib Datasets

/-- A row of `analyses`. -/
structure Analysis where
  id : Uuid
  dataset_id : Uuid
  source_original_filename : PyStr
  source_content_sha256 : Digest
  source_size_bytes : ℕ
  source_row_count : ℕ
  source_column_names : List PyStr
  source_uploaded_at : Time
  total_violation_count : ℤ
  quality_score : Option ℚ
  created_at : Time

/-- A row of `validation_results`. -/
structure ValidationResult where
  analysis_id : Uuid
  rule_position : ℕ
  source_rule_id : Uuid
  rule_type : PyStr
  target_column : PyStr
  configuration : Dict
  evaluated_count : ℤ
  passed_count : ℤ
  violation_count : ℤ
  skipped_count : ℤ
  violation_samples : List Dict

/-- The numbers of a `BIGINT` column. -/
def isBigint (n : ℤ) : Bool := -2 ^ 63 ≤ n && n < 2 ^ 63

namespace Analysis

/-- The CHECK constraints of `analyses`. -/
def checks (a : Analysis) : Bool :=
  1 ≤ a.source_size_bytes && a.source_size_bytes ≤ 10485760 &&
    1 ≤ a.source_column_names.length && a.source_column_names.length ≤ 256 &&
    0 ≤ a.total_violation_count && a.quality_score.all fun s => 0 ≤ s && s ≤ 100

/-- The row holds only what can be stored. -/
def storable (a : Analysis) : Bool :=
  storableText a.source_original_filename && a.source_column_names.all storableText &&
    isBigint a.source_row_count && isBigint a.total_violation_count

/-- The row as the database gives it back: `quality_score` is `Numeric(5, 2)`. -/
def stored (a : Analysis) : Analysis :=
  { a with quality_score := a.quality_score.map Decimal.twoDecimals }

end Analysis

namespace ValidationResult

/-- The CHECK constraints of `validation_results`. -/
def checks (r : ValidationResult) : Bool :=
  ruleTypes.contains r.rule_type && 1 ≤ r.target_column.length && r.target_column.length ≤ 128 &&
    trimmed r.target_column && 0 ≤ r.evaluated_count && 0 ≤ r.passed_count &&
    0 ≤ r.violation_count && 0 ≤ r.skipped_count &&
    r.evaluated_count == r.passed_count + r.violation_count && r.violation_samples.length ≤ 20

/-- The row holds only what can be stored. -/
def storable (r : ValidationResult) : Bool :=
  storableText r.rule_type && storableText r.target_column &&
    Json.storableMembers r.configuration && r.violation_samples.all Json.storableMembers &&
    isBigint r.evaluated_count && isBigint r.passed_count && isBigint r.violation_count &&
    isBigint r.skipped_count

end ValidationResult

end DataCheck.Analyses
