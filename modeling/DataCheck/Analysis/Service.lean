import DataCheck.Datasets.Service
import DataCheck.Analysis.Score

/-!
# The analysis service (`analysis/service.py`)
-/

namespace DataCheck.Analyses

open Lib Shared Datasets Validation

variable {σ : Type}

def readChunkBytes : ℕ := 65536

/-! ### References -/

structure ViolationSampleReference where
  row_number : ℤ
  value_preview : Option PyStr
  truncated : Bool

structure ValidationResultReference where
  rule_position : ℕ
  source_rule_id : Uuid
  rule_type : PyStr
  target_column : PyStr
  configuration : Dict
  evaluated_count : ℤ
  passed_count : ℤ
  violation_count : ℤ
  skipped_count : ℤ
  violation_samples : List ViolationSampleReference

structure AnalysisSummaryReference where
  analysis_id : Uuid
  dataset_id : Uuid
  quality_score : Option ℚ
  source_row_count : ℕ
  total_violation_count : ℤ
  created_at : Time

structure AnalysisDetailReference extends AnalysisSummaryReference where
  source : SourceSnapshot
  rule_results : List ValidationResultReference

def summaryReference (a : Analysis) : AnalysisSummaryReference :=
  ⟨a.id, a.dataset_id, a.quality_score, a.source_row_count, a.total_violation_count, a.created_at⟩

/-- `AnalysisService._sample_reference`: `isinstance(row_number, int)` is a whole number here. -/
def sampleReference (sample : Dict) : Except IntegrityFault ViolationSampleReference :=
  match sample.get? (py "row_number"), sample.get? (py "truncated") with
  | some (.num q), some (.bool truncated) =>
    if q.den ≠ 1 ∨ q.num < 1 then .error .sampleInvalid
    else match sample.get? (py "value_preview") with
      | none | some .null => .ok ⟨q.num, none, truncated⟩
      | some (.str s) => .ok ⟨q.num, some s, truncated⟩
      | some _ => .error .sampleInvalid
  | _, _ => .error .sampleInvalid

def resultReference (r : ValidationResult) : Except IntegrityFault ValidationResultReference :=
  match r.violation_samples.mapM sampleReference with
  | .error x => .error x
  | .ok samples => .ok {
      rule_position := r.rule_position
      source_rule_id := r.source_rule_id
      rule_type := r.rule_type
      target_column := r.target_column
      configuration := r.configuration
      evaluated_count := r.evaluated_count
      passed_count := r.passed_count
      violation_count := r.violation_count
      skipped_count := r.skipped_count
      violation_samples := samples }

def detailReference (a : Analysis) (results : List ValidationResult) :
    Except IntegrityFault AnalysisDetailReference :=
  match results.mapM resultReference with
  | .error x => .error x
  | .ok rule_results => .ok {
      toAnalysisSummaryReference := summaryReference a
      source := ⟨a.source_original_filename, a.source_content_sha256, a.source_size_bytes,
        a.source_row_count, a.source_column_names, a.source_uploaded_at⟩
      rule_results }

/-! ### The snapshot -/

/-- The loop of `_read_verified_content`; `except (OSError, ValueError)` is around it. -/
def readChunks : List Bytes → (content : Bytes) → Body σ Bytes
  | [], content => pure content
  | chunk :: chunks, content => do
    (Body.perform .read : Body σ Unit).catching fun _ => Body.raise (.integrityFault .csvUnavailable)
    if maxCsvBytes < (content ++ chunk).length then Body.raise (.integrityFault .overByteLimit)
    else readChunks chunks (content ++ chunk)

def readVerifiedContent (storage_key : StorageKey) (source : SourceSnapshot) : Body σ Bytes := do
  let file ← (openBinary storage_key : Body σ Bytes).catching fun _ =>
    Body.raise (.integrityFault .csvUnavailable)
  let content ← readChunks (chunks readChunkBytes file) []
  if content.length ≠ source.size_bytes then Body.raise (.integrityFault .sizeMismatch)
  else if sha256 content ≠ source.content_sha256 then Body.raise (.integrityFault .hashMismatch)
  else pure content

/-- The upload of a snapshot. -/
def sourceSnapshot (u : UploadColumns) : SourceSnapshot :=
  ⟨u.original_filename, u.content_sha256, u.size_bytes, u.row_count, u.column_names, u.uploaded_at⟩

/-- A rule of a snapshot. -/
def ruleSnapshot (r : ValidationRule) : PersistedRuleSnapshot :=
  ⟨r.id, r.rule_type, r.target_column, r.configuration⟩

def captureSnapshot (owner_id dataset_id : Uuid) :
    Body σ (SourceSnapshot × List PersistedRuleSnapshot × Bytes) :=
  Body.transaction do
    match ← getForOwnerForUpdate dataset_id owner_id with
    | none => Body.raise .datasetNotFound
    | some dataset =>
      match dataset.upload with
      | none => Body.raise .datasetNotReady
      | some upload =>
        let source := sourceSnapshot upload
        let rows ← listAllForDataset dataset.id
        if rows = [] then Body.raise .analysisRequiresRules
        else
          let rules := rows.map ruleSnapshot
          let content ← readVerifiedContent upload.storage_key source
          pure ((source, rules, content), [])

/-! ### The history -/

def previewJson : Option PyStr → Json
  | none => .null
  | some v => .str v

def sampleJson (s : ViolationSample) : Dict :=
  [(py "row_number", .num s.row_number), (py "truncated", .bool s.truncated),
    (py "value_preview", previewJson s.value_preview)]

/-- One round of `_result_models`, at the position `position`. -/
def resultModel (analysis_id : Uuid) (source : SourceSnapshot) (position : ℕ) (adapted : AdaptedRule)
    (result : RuleValidationResult) : Except IntegrityFault ValidationResult :=
  if result.rule ≠ adapted.spec then .error .resultOrder
  else if result.evaluated_count + result.skipped_count ≠ source.row_count then .error .resultCounts
  else .ok {
    analysis_id
    rule_position := position
    source_rule_id := adapted.rule_id
    rule_type := adapted.rule_type
    target_column := adapted.target_column
    configuration := adapted.configuration
    evaluated_count := result.evaluated_count
    passed_count := result.passed_count
    violation_count := result.violation_count
    skipped_count := result.skipped_count
    violation_samples := result.violation_samples.map sampleJson }

/-- `AnalysisService._result_models`, from the position `position` on; a `zip` that ends unevenly is
a `ValueError`. -/
def resultModels (analysis_id : Uuid) (source : SourceSnapshot) : (position : ℕ) → List AdaptedRule →
    List RuleValidationResult → Except Exn (List ValidationResult)
  | _, [], [] => .ok []
  | position, adapted :: adapteds, result :: results =>
    match resultModel analysis_id source position adapted result with
    | .error x => .error (.integrityFault x)
    | .ok row =>
      match resultModels analysis_id source (position + 1) adapteds results with
      | .error x => .error x
      | .ok rows => .ok (row :: rows)
  | _, _, _ => .error .zipLength

/-- The row of `analyses` that `_persist_analysis` writes. -/
def analysisModel (analysis_id dataset_id : Uuid) (source : SourceSnapshot)
    (results : List RuleValidationResult) (score : Option ℚ) (created_at : Time) : Analysis where
  id := analysis_id
  dataset_id
  source_original_filename := source.original_filename
  source_content_sha256 := source.content_sha256
  source_size_bytes := source.size_bytes
  source_row_count := source.row_count
  source_column_names := source.column_names
  source_uploaded_at := source.uploaded_at
  total_violation_count := (results.map RuleValidationResult.violation_count).sum
  quality_score := score
  created_at

/-- The writes of `_persist_analysis`. -/
def historyWrites (analysis : Analysis) (results : List ValidationResult) : List Write :=
  .insertAnalysis analysis :: results.map .insertResult

def persistAnalysis (dataset_id : Uuid) (source : SourceSnapshot) (adapted_rules : List AdaptedRule)
    (engine_result : ValidationEngineResult) : Body σ AnalysisDetailReference :=
  if adapted_rules.length ≠ engine_result.rule_results.length then
    Body.raise (.integrityFault .resultCount)
  else if engine_result.total_rows ≠ source.row_count then Body.raise (.integrityFault .resultRowCount)
  else do
    let analysis_id ← Body.uuid4
    let created_at ← Body.now
    match calculateQualityScore engine_result.rule_results with
    | none => Body.raise .invalidOperation
    | some score =>
      let analysis :=
        analysisModel analysis_id dataset_id source engine_result.rule_results score created_at
      let results ← Op.ofExcept
        (resultModels analysis_id source 0 adapted_rules engine_result.rule_results)
      Body.transaction do
        Body.flush (historyWrites analysis results)
        pure ((), historyWrites analysis results)
      Op.ofExcept ((detailReference analysis results).mapError .integrityFault)

/-! ### The methods -/

variable (U : Unicode) (P : Polars)

/-- `validate(frame, …)`, as `create_analysis` calls it. -/
def runEngine (frame : DataFrame) (specs : List RuleSpec) : Except Exn ValidationEngineResult :=
  match validate U P frame specs with
  | .ok e => .ok e
  | .error (.input _) => .error (.integrityFault .engineRejected)
  | .error .zipLength => .error .zipLength

def createAnalysis (owner_id dataset_id : Uuid) : Body σ AnalysisDetailReference := do
  let (source, rules, content) ← captureSnapshot owner_id dataset_id
  Body.perform (.captured source rules content)
  let frame ← Op.ofExcept
    ((loadTextualCsv P content source.column_names source.row_count).mapError .integrityFault)
  let adapted_rules ← Op.ofExcept ((adaptRules U P rules).mapError .integrityFault)
  let engine_result ← Op.ofExcept (runEngine U P frame (adapted_rules.map AdaptedRule.spec))
  persistAnalysis dataset_id source adapted_rules engine_result

def listAnalyses (owner_id dataset_id : Uuid) (limit offset : ℕ) :
    Body σ (List AnalysisSummaryReference) :=
  Body.transaction do
    match ← getForOwner dataset_id owner_id with
    | none => Body.raise .datasetNotFound
    | some _ =>
      let rows ← listForDatasetOwner dataset_id owner_id limit offset
      pure (rows.map summaryReference, [])

def getAnalysis (owner_id dataset_id analysis_id : Uuid) : Body σ AnalysisDetailReference :=
  Body.transaction do
    match ← getForDatasetOwner analysis_id dataset_id owner_id with
    | none => Body.raise .datasetNotFound
    | some analysis =>
      let results ← listForAnalysis analysis.id
      let detail ← Op.ofExcept ((detailReference analysis results).mapError .integrityFault)
      pure (detail, [])

end DataCheck.Analyses
