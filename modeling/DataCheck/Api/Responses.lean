import DataCheck.Api.Errors
import DataCheck.Identity.Passwords

/-!
# What an endpoint answers with (`datasets/schemas.py`, `analysis/schemas.py`)

The response models, and how the endpoints fill them with what the services return.  A model refuses a text
with a lone surrogate and a rule type that it does not list.
-/

namespace DataCheck.Api

open Lib Shared Datasets Analyses

/-! ### The texts of a JSON value -/

mutual

/-- The texts in a JSON value, the names of its members included. -/
def Json.texts : Json → List PyStr
  | .null => []
  | .bool _ => []
  | .num _ => []
  | .str s => [s]
  | .arr items => itemTexts items
  | .obj members => memberTexts members

/-- The texts in the items of an array. -/
def Json.itemTexts : List Json → List PyStr
  | [] => []
  | item :: items => texts item ++ itemTexts items

/-- The texts in the members of an object. -/
def Json.memberTexts : List (PyStr × Json) → List PyStr
  | [] => []
  | (name, value) :: members => name :: (texts value ++ memberTexts members)

end

mutual

/-- The texts of a value that can be stored can be stored. -/
lemma storableText_texts : ∀ j : Json, Json.storable j = true → ∀ s ∈ Json.texts j, storableText s = true
  | .null, _ => fun _ hs => (List.not_mem_nil hs).elim
  | .bool _, _ => fun _ hs => (List.not_mem_nil hs).elim
  | .num _, _ => fun _ hs => (List.not_mem_nil hs).elim
  | .str t, h => fun s hs => by
    obtain rfl := List.mem_singleton.mp hs
    exact h
  | .arr items, h => storableText_itemTexts items h
  | .obj members, h => storableText_memberTexts members h

lemma storableText_itemTexts : ∀ items : List Json, Json.storableItems items = true →
    ∀ s ∈ Json.itemTexts items, storableText s = true
  | [], _ => fun _ hs => (List.not_mem_nil hs).elim
  | item :: items, h => fun s hs => by
    rw [Json.storableItems, Bool.and_eq_true] at h
    rcases List.mem_append.mp hs with hs | hs
    · exact storableText_texts item h.1 s hs
    · exact storableText_itemTexts items h.2 s hs

lemma storableText_memberTexts : ∀ members : Dict, Json.storableMembers members = true →
    ∀ s ∈ Json.memberTexts members, storableText s = true
  | [], _ => fun _ hs => (List.not_mem_nil hs).elim
  | (name, value) :: members, h => fun s hs => by
    rw [Json.storableMembers, Bool.and_eq_true, Bool.and_eq_true] at h
    rcases List.mem_cons.mp hs with rfl | hs
    · exact h.1.1
    · rcases List.mem_append.mp hs with hs | hs
      · exact storableText_texts value h.1.2 s hs
      · exact storableText_memberTexts members h.2 s hs

end

/-! ### The models -/

/-- `s.encode("utf-8")` does not raise. -/
def encodable (s : PyStr) : Bool := !s.any Identity.isSurrogate

/-- A `str` of a model. -/
abbrev Text := {s : PyStr // encodable s = true}

/-- `Literal["required", "unique", "type", "range", "regex"]` -/
abbrev RuleType := {t : PyStr // t ∈ ruleTypes}

/-- A `dict[str, object]` that can be written as JSON. -/
abbrev Configuration := {d : Dict // (Json.memberTexts d).all encodable = true}

structure UploadMetadataResponse where
  original_filename : Text
  size_bytes : ℕ
  row_count : ℕ
  columns : List Text
  sha256 : PyStr
  uploaded_at : Time

structure DatasetSummary where
  id : Uuid
  name : Text
  has_upload : Bool
  created_at : Time
  updated_at : Time

structure DatasetDetail extends DatasetSummary where
  upload : Option UploadMetadataResponse

structure ValidationRuleResponse where
  id : Uuid
  dataset_id : Uuid
  type : RuleType
  target_column : Text
  configuration : Configuration
  created_at : Time

structure AnalysisSummary where
  id : Uuid
  dataset_id : Uuid
  quality_score : Option Binary64
  source_row_count : ℕ
  total_violation_count : ℤ
  created_at : Time

structure AnalysisSourceSnapshot where
  original_filename : Text
  content_sha256 : PyStr
  size_bytes : ℕ
  row_count : ℕ
  column_names : List Text
  uploaded_at : Time

structure ViolationSampleResponse where
  row_number : ℤ
  value_preview : Option Text
  truncated : Bool

structure ValidationResultResponse where
  rule_position : ℕ
  source_rule_id : Uuid
  rule_type : RuleType
  target_column : Text
  configuration : Configuration
  evaluated_count : ℤ
  passed_count : ℤ
  violation_count : ℤ
  skipped_count : ℤ
  violation_samples : List ViolationSampleResponse

structure AnalysisDetail extends AnalysisSummary where
  source : AnalysisSourceSnapshot
  rule_results : List ValidationResultResponse

/-- What the body of a response is made from. -/
inductive Content where
  /-- No body. -/
  | nothing
  | dataset (d : DatasetDetail)
  | datasets (ds : List DatasetSummary)
  | rule (r : ValidationRuleResponse)
  | rules (rs : List ValidationRuleResponse)
  | analysis (a : AnalysisDetail)
  | analyses (as : List AnalysisSummary)

/-! ### Filling them -/

/-- A value where a model accepts it; `none` is a `ValidationError`. -/
def accepted {α : Type} (p : α → Prop) [DecidablePred p] (a : α) : Option {a : α // p a} :=
  if h : p a then some ⟨a, h⟩ else none

def text (s : PyStr) : Option Text := accepted (fun s => encodable s = true) s

def ruleType (t : PyStr) : Option RuleType := accepted (fun t => t ∈ ruleTypes) t

def configurationOf (d : Dict) : Option Configuration :=
  accepted (fun d => (Json.memberTexts d).all encodable = true) d

/-- `None`, or what is made of the value. -/
def optional {α β : Type} (f : α → Option β) : Option α → Option (Option β)
  | none => some none
  | some a => (f a).map some

/-- A digit of `b.hex()`. -/
def hexDigit (n : ℕ) : PyChar := (py "0123456789abcdef").getD n 0

/-- `b.hex()` -/
def hexOf (b : Bytes) : PyStr := b.flatMap fun x => [hexDigit (x.toNat / 16), hexDigit (x.toNat % 16)]

def datasetSummary (dataset : DatasetReference) : Option DatasetSummary := do
  let name ← text dataset.name
  return {
    id := dataset.dataset_id
    name
    has_upload := dataset.upload.isSome
    created_at := dataset.created_at
    updated_at := dataset.updated_at }

/-- The upload of `_dataset_detail`. -/
def uploadMetadata (upload : UploadReference) : Option UploadMetadataResponse := do
  let original_filename ← text upload.original_filename
  let columns ← upload.columns.mapM text
  return {
    original_filename
    size_bytes := upload.size_bytes
    row_count := upload.row_count
    columns
    sha256 := hexOf upload.content_sha256.1
    uploaded_at := upload.uploaded_at }

def datasetDetail (dataset : DatasetReference) : Option DatasetDetail := do
  let summary ← datasetSummary dataset
  let upload ← optional uploadMetadata dataset.upload
  return { toDatasetSummary := summary, upload }

def ruleResponse (rule : ValidationRuleReference) : Option ValidationRuleResponse := do
  let type ← ruleType rule.rule_type
  let target_column ← text rule.target_column
  let configuration ← configurationOf rule.configuration
  return {
    id := rule.rule_id
    dataset_id := rule.dataset_id
    type
    target_column
    configuration
    created_at := rule.created_at }

def summaryResponse (analysis : AnalysisSummaryReference) : Option AnalysisSummary := do
  let quality_score ← optional Binary64.ofRat analysis.quality_score
  return {
    id := analysis.analysis_id
    dataset_id := analysis.dataset_id
    quality_score
    source_row_count := analysis.source_row_count
    total_violation_count := analysis.total_violation_count
    created_at := analysis.created_at }

/-- A sample of `_detail_response`. -/
def sampleResponse (sample : ViolationSampleReference) : Option ViolationSampleResponse := do
  let value_preview ← optional text sample.value_preview
  return { row_number := sample.row_number, value_preview, truncated := sample.truncated }

/-- A result of `_detail_response`. -/
def resultResponse (result : ValidationResultReference) : Option ValidationResultResponse := do
  let rule_type ← ruleType result.rule_type
  let target_column ← text result.target_column
  let configuration ← configurationOf result.configuration
  let violation_samples ← result.violation_samples.mapM sampleResponse
  return {
    rule_position := result.rule_position
    source_rule_id := result.source_rule_id
    rule_type
    target_column
    configuration
    evaluated_count := result.evaluated_count
    passed_count := result.passed_count
    violation_count := result.violation_count
    skipped_count := result.skipped_count
    violation_samples }

/-- The source of `_detail_response`. -/
def sourceResponse (source : SourceSnapshot) : Option AnalysisSourceSnapshot := do
  let original_filename ← text source.original_filename
  let column_names ← source.column_names.mapM text
  return {
    original_filename
    content_sha256 := hexOf source.content_sha256.1
    size_bytes := source.size_bytes
    row_count := source.row_count
    column_names
    uploaded_at := source.uploaded_at }

def detailResponse (analysis : AnalysisDetailReference) : Option AnalysisDetail := do
  let summary ← summaryResponse analysis.toAnalysisSummaryReference
  let source ← sourceResponse analysis.source
  let rule_results ← analysis.rule_results.mapM resultResponse
  return { toAnalysisSummary := summary, source, rule_results }

/-! ### What is stored is accepted -/

section Accepted

variable {α β : Type}

lemma accepted_of {p : α → Prop} [DecidablePred p] {a : α} (h : p a) : (accepted p a).isSome = true := by
  rw [accepted, dif_pos h]
  rfl

lemma isSome_bind {x : Option α} {f : α → Option β} (hx : x.isSome = true)
    (hf : ∀ a, x = some a → (f a).isSome = true) : (x >>= f).isSome = true := by
  cases x with
  | none => cases hx
  | some a => exact hf a rfl

lemma isSome_mapM {f : α → Option β} {l : List α} (h : ∀ a ∈ l, (f a).isSome = true) : (l.mapM f).isSome = true := by
  induction l with
  | nil => rfl
  | cons a l ih =>
    rw [List.mapM_cons]
    refine isSome_bind (h a List.mem_cons_self) fun b _ => ?_
    exact isSome_bind (ih fun c hc => h c (List.mem_cons_of_mem _ hc)) fun bs _ => rfl

lemma isSome_optional {f : α → Option β} {a : Option α} (h : ∀ b, a = some b → (f b).isSome = true) :
    (optional f a).isSome = true := by
  cases a with
  | none => rfl
  | some a => rw [optional, Option.isSome_map, h a rfl]

lemma encodable_of_storable {s : PyStr} (h : storableText s = true) : encodable s = true := by
  rw [encodable, Bool.not_eq_true', List.any_eq_false]
  intro c hc
  have hc' := List.all_eq_true.mp h c hc
  simp only [Bool.and_eq_true, Bool.not_eq_true', Bool.and_eq_false_iff, decide_eq_false_iff_not] at hc'
  simp only [Identity.isSurrogate, Bool.and_eq_true, decide_eq_true_eq]
  omega

lemma isSome_text {s : PyStr} (h : storableText s = true) : (text s).isSome = true :=
  accepted_of (encodable_of_storable h)

lemma isSome_configurationOf {d : Dict} (h : Json.storableMembers d = true) : (configurationOf d).isSome = true :=
  accepted_of (List.all_eq_true.mpr fun s hs => encodable_of_storable (storableText_memberTexts d h s hs))

end Accepted

lemma isSome_datasetSummary {d : Dataset} (h : d.storable = true) :
    (datasetSummary (datasetReference d)).isSome = true := by
  rw [Dataset.storable, Bool.and_eq_true] at h
  exact isSome_bind (isSome_text h.1) fun _ _ => rfl

lemma isSome_datasetDetail {d : Dataset} (h : d.storable = true) :
    (datasetDetail (datasetReference d)).isSome = true := by
  refine isSome_bind (isSome_datasetSummary h) fun _ _ => isSome_bind (isSome_optional fun u hu => ?_) fun _ _ => rfl
  obtain ⟨v, hv, rfl⟩ := Option.map_eq_some_iff.mp hu
  rw [Dataset.storable, Bool.and_eq_true, hv, Option.all_some, UploadColumns.storable, Bool.and_eq_true] at h
  refine isSome_bind (isSome_text h.2.1) fun _ _ => isSome_bind (isSome_mapM fun c hc => ?_) fun _ _ => rfl
  exact isSome_text (List.all_eq_true.mp h.2.2 c hc)

lemma isSome_ruleResponse {r : ValidationRule} (h : r.storable = true) (hc : r.checks = true) :
    (ruleResponse (ruleReference r)).isSome = true := by
  simp only [ValidationRule.storable, Bool.and_eq_true, and_assoc] at h
  obtain ⟨-, hcolumn, hconfiguration⟩ := h
  simp only [ValidationRule.checks, Bool.and_eq_true, List.contains_iff_mem, and_assoc] at hc
  obtain ⟨htype, -⟩ := hc
  refine isSome_bind (accepted_of htype) fun _ _ => isSome_bind (isSome_text hcolumn) fun _ _ => ?_
  exact isSome_bind (isSome_configurationOf hconfiguration) fun _ _ => rfl

lemma isSome_summaryResponse {a : Analysis} (hc : a.checks = true) :
    (summaryResponse (summaryReference a)).isSome = true := by
  refine isSome_bind (isSome_optional fun q hq => ?_) fun _ _ => rfl
  have hscore : a.quality_score.all (fun s => decide (0 ≤ s) && decide (s ≤ 100)) = true := by
    simp only [Analysis.checks, Bool.and_eq_true] at hc
    exact hc.2
  have hq' : a.quality_score = some q := hq
  rw [hq', Option.all_some, Bool.and_eq_true, decide_eq_true_eq, decide_eq_true_eq] at hscore
  obtain ⟨u, -, hunit, h1024, -⟩ := Binary64.exists_unit
  have hu : 1 ≤ u := hunit ▸ one_le_pow₀ (by norm_num)
  rw [Binary64.ofRat_isSome_iff, abs_of_nonneg hscore.1, h1024, hunit]
  linarith only [hscore.2, hu]

lemma sampleReference_ok {d : Dict} {s : ViolationSampleReference} (h : sampleReference d = .ok s) :
    ∀ t, s.value_preview = some t → d.get? (py "value_preview") = some (.str t) := by
  unfold sampleReference at h
  split at h
  · split at h
    · cases h
    · split at h <;> cases h
      all_goals intro t ht
      all_goals first | (cases ht; done) | skip
      cases ht
      assumption
  · cases h

lemma storable_of_mem : ∀ {d : Dict}, Json.storableMembers d = true → ∀ m ∈ d, m.2.storable = true
  | [], _ => fun _ hm => (List.not_mem_nil hm).elim
  | (name, value) :: d, h => fun m hm => by
    rw [Json.storableMembers, Bool.and_eq_true, Bool.and_eq_true] at h
    rcases List.mem_cons.mp hm with rfl | hm
    · exact h.1.2
    · exact storable_of_mem h.2 m hm

lemma storable_get {d : Dict} {key : PyStr} {j : Json} (h : Json.storableMembers d = true)
    (hj : d.get? key = some j) : j.storable = true := by
  obtain ⟨m, hm, rfl⟩ := Option.map_eq_some_iff.mp hj
  exact storable_of_mem h m (List.mem_of_find?_eq_some hm)

lemma isSome_resultResponse {r : ValidationResult} {result : ValidationResultReference}
    (h : resultReference r = .ok result) (hs : r.storable = true) (hc : r.checks = true) :
    (resultResponse result).isSome = true := by
  simp only [ValidationResult.storable, Bool.and_eq_true, and_assoc] at hs
  obtain ⟨-, hcolumn, hconfiguration, hstored, -⟩ := hs
  simp only [ValidationResult.checks, Bool.and_eq_true, List.contains_iff_mem, and_assoc] at hc
  obtain ⟨htype, -⟩ := hc
  unfold resultReference at h
  split at h
  · cases h
  next samples hsamples =>
  cases h
  refine isSome_bind (accepted_of htype) fun _ _ => isSome_bind (isSome_text hcolumn) fun _ _ => ?_
  refine isSome_bind (isSome_configurationOf hconfiguration) fun _ _ => ?_
  refine isSome_bind (isSome_mapM fun s hmem => ?_) fun _ _ => rfl
  obtain ⟨d, hd, hsample⟩ := (Core.mem_of_mapM hsamples).mp hmem
  refine isSome_bind (isSome_optional fun t ht => isSome_text ?_) fun _ _ => rfl
  exact storable_get (List.all_eq_true.mp hstored d hd) (sampleReference_ok hsample t ht)

/-- The response model accepts a stored analysis with its results. -/
lemma isSome_detailResponse {a : Analysis} {results : List ValidationResult} {detail : AnalysisDetailReference}
    (h : detailReference a results = .ok detail) (hs : a.storable = true) (hc : a.checks = true)
    (hr : ∀ r ∈ results, r.storable = true ∧ r.checks = true) : (detailResponse detail).isSome = true := by
  simp only [Analysis.storable, Bool.and_eq_true, and_assoc] at hs
  obtain ⟨hfilename, hcolumns, -⟩ := hs
  unfold detailReference at h
  split at h
  · cases h
  next rule_results hresults =>
  cases h
  refine isSome_bind (isSome_summaryResponse hc) fun _ _ => isSome_bind ?_ fun _ _ => isSome_bind ?_ fun _ _ => rfl
  · refine isSome_bind (isSome_text hfilename) fun _ _ => isSome_bind (isSome_mapM fun c hm => ?_) fun _ _ => rfl
    exact isSome_text (List.all_eq_true.mp hcolumns c hm)
  · refine isSome_mapM fun s hmem => ?_
    obtain ⟨r, hmem, hresult⟩ := (Core.mem_of_mapM hresults).mp hmem
    exact isSome_resultResponse hresult (hr r hmem).1 (hr r hmem).2

end DataCheck.Api
