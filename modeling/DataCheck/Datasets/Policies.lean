import DataCheck.External

/-!
# Dataset policies (`datasets/policies.py`)
-/

namespace DataCheck.Datasets

open Lib

def maxDatasetNameLength : ℕ := 100
def maxFilenameLength : ℕ := 255
def maxColumnNameLength : ℕ := 128
def maxColumns : ℕ := 256
def maxRegexPatternLength : ℕ := 256

/-- `DatasetPolicyError`, by its code. -/
inductive PolicyCode where
  | invalid_dataset_name | invalid_filename | invalid_target_column | invalid_regex_pattern
  deriving DecidableEq

variable (U : Unicode) (P : Polars)

def normalizeDatasetName (value : PyStr) : Except PolicyCode PyStr :=
  let normalized := (U.nfc value).strip
  if ¬ (1 ≤ normalized.length ∧ normalized.length ≤ maxDatasetNameLength) ∨
      containsControl U normalized then
    .error .invalid_dataset_name
  else .ok normalized

def normalizeCsvFilename : Option PyStr → Except PolicyCode PyStr
  | none => .error .invalid_filename
  | some value =>
    let normalized := U.nfc value
    if ¬ (1 ≤ normalized.length ∧ normalized.length ≤ maxFilenameLength) ∨
        containsControl U normalized ∨ '/'.toNat ∈ normalized.map Fin.val ∨
        '\\'.toNat ∈ normalized.map Fin.val ∨ ¬ py ".csv" <:+ U.lower normalized then
      .error .invalid_filename
    else .ok normalized

def validateTargetColumn (value : PyStr) : Except PolicyCode PyStr :=
  if value ≠ value.strip ∨ ¬ (1 ≤ value.length ∧ value.length ≤ maxColumnNameLength) ∨
      containsControl U value then
    .error .invalid_target_column
  else .ok value

def validatePolarsRegex (pattern : PyStr) : Except PolicyCode PyStr :=
  if ¬ (1 ≤ pattern.length ∧ pattern.length ≤ maxRegexPatternLength) ∨ containsControl U pattern then
    .error .invalid_regex_pattern
  else if P.contains pattern [some []] = none then .error .invalid_regex_pattern
  else .ok pattern

variable {U P}

lemma validateTargetColumn_ok {value column : PyStr} (h : validateTargetColumn U value = .ok column) :
    column = value ∧ 1 ≤ value.length ∧ value.length ≤ maxColumnNameLength ∧ value = value.strip := by
  unfold validateTargetColumn at h
  split at h
  · cases h
  · next hv =>
    obtain ⟨hstrip, hv⟩ := not_or.mp hv
    obtain ⟨hlen, -⟩ := not_or.mp hv
    cases h
    exact ⟨rfl, (not_not.mp hlen).1, (not_not.mp hlen).2, not_not.mp hstrip⟩

/-- An accepted pattern is used as it is, and it compiles. -/
lemma validatePolarsRegex_ok {pattern p : PyStr} (h : validatePolarsRegex U P pattern = .ok p) :
    p = pattern ∧ pattern ≠ [] ∧ P.contains pattern [some []] ≠ none := by
  unfold validatePolarsRegex at h
  split at h
  · cases h
  · next hv =>
    split at h
    · cases h
    · next hc =>
      obtain ⟨hlen, -⟩ := not_or.mp hv
      cases h
      exact ⟨rfl, List.ne_nil_of_length_pos (not_not.mp hlen).1, hc⟩

end DataCheck.Datasets
