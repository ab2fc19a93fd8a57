import DataCheck.Datasets.Storage

/-!
# The dataset service (`datasets/service.py`)
-/

namespace DataCheck.Datasets

open Lib Shared

variable {σ : Type}

/-! ### References -/

structure UploadReference where
  original_filename : PyStr
  size_bytes : ℕ
  row_count : ℕ
  columns : List PyStr
  content_sha256 : Digest
  uploaded_at : Time

structure DatasetReference where
  dataset_id : Uuid
  name : PyStr
  created_at : Time
  updated_at : Time
  upload : Option UploadReference

structure ValidationRuleReference where
  rule_id : Uuid
  dataset_id : Uuid
  rule_type : PyStr
  target_column : PyStr
  configuration : Dict
  created_at : Time

def datasetReference (d : Dataset) : DatasetReference where
  dataset_id := d.id
  name := d.name
  created_at := d.created_at
  updated_at := d.updated_at
  upload := d.upload.map fun u =>
    ⟨u.original_filename, u.size_bytes, u.row_count, u.column_names, u.content_sha256, u.uploaded_at⟩

def ruleReference (r : ValidationRule) : ValidationRuleReference :=
  ⟨r.id, r.dataset_id, r.rule_type, r.target_column, r.configuration, r.created_at⟩

/-! ### The methods -/

variable (U : Unicode)

def createDataset (owner_id : Uuid) (name : PyStr) : Body σ DatasetReference := do
  let normalized_name ← Body.policy (normalizeDatasetName U name)
  let now ← Body.now
  let id ← Body.uuid4
  let dataset : Dataset := ⟨id, owner_id, normalized_name, none, now, now⟩
  Body.transaction do
    Body.flush [.insertDataset dataset]
    pure ((), [.insertDataset dataset])
  pure (datasetReference dataset)

def listDatasets (owner_id : Uuid) (limit offset : ℕ) : Body σ (List DatasetReference) :=
  Body.transaction do
    let rows ← listForOwner owner_id limit offset
    pure (rows.map datasetReference, [])

def getDataset (owner_id dataset_id : Uuid) : Body σ DatasetReference :=
  Body.transaction do
    match ← getForOwner dataset_id owner_id with
    | none => Body.raise .datasetNotFound
    | some dataset => pure (datasetReference dataset, [])

/-- The variables of `upload_csv` that its `except BaseException` reads. -/
structure UploadLocals where
  installed_key : Option StorageKey
  committed : Bool

/-- The transaction of `upload_csv`. -/
def replaceUpload (owner_id dataset_id : Uuid) (safe_filename : PyStr) (candidate : CandidateFile)
    (structure_ : CsvStructure) (now : Time) (new_key : StorageKey) :
    Body UploadLocals ((DatasetReference × Option StorageKey) × List Write) := do
  match ← getForOwnerForUpdate dataset_id owner_id with
  | none => Body.raise .datasetNotFound
  | some dataset =>
    let columns ← targetColumns dataset.id
    if ¬ columns ⊆ structure_.column_names then Body.raise .incompatibleUpload
    else
      let old_key := dataset.upload.map UploadColumns.storage_key
      Op.assign fun v => { v with installed_key := some new_key }
      install candidate new_key
      let upload : UploadColumns :=
        { original_filename := safe_filename
          storage_key := new_key
          content_sha256 := candidate.content_sha256
          size_bytes := candidate.size_bytes
          row_count := structure_.row_count
          column_names := structure_.column_names
          uploaded_at := now }
      let updated_at ← Body.onupdate dataset.updated_at now
      let write := Write.updateUpload dataset.id upload updated_at
      Body.flush [write]
      pure ((datasetReference { dataset with upload := some upload, updated_at }, old_key), [write])

/-- The body of the `try` of `upload_csv`: its result, `old_key` and `new_key`. -/
def installUpload (owner_id dataset_id : Uuid) (safe_filename : PyStr) (candidate : CandidateFile) :
    Body UploadLocals (DatasetReference × Option StorageKey × StorageKey) := do
  let structure_ ← scanCandidate candidate
  let now ← Body.now
  let new_key ← newStorageKey
  let (result, old_key) ← Body.session do
    let r ← Body.begin
      (replaceUpload owner_id dataset_id safe_filename candidate structure_ now new_key)
    Op.assign fun v => { v with committed := true }
    pure r
  pure (result, old_key, new_key)

/-- `if installed_key is not None and not committed` -/
def removeInstalled (v : UploadLocals) : Body σ Unit :=
  match v.installed_key with
  | some key => if v.committed then pure () else removeQuietly key
  | none => pure ()

/-- The `except BaseException` of `upload_csv`. -/
def compensate (candidate : CandidateFile) (v : UploadLocals) (x : Exn) : Body σ DatasetReference := do
  discardCandidate candidate
  removeInstalled v
  Body.raise x

/-- `if old_key is not None and old_key != new_key`: the superseded file goes. -/
def removeSuperseded (old_key : Option StorageKey) (new_key : StorageKey) : Body σ Unit :=
  match old_key with
  | some key => if key ≠ new_key then removeQuietly key else pure ()
  | none => pure ()

def uploadCsv (owner_id dataset_id : Uuid) (original_filename : Option PyStr) (source : Source) :
    Body σ DatasetReference := do
  let safe_filename ← Body.policy (normalizeCsvFilename U original_filename)
  Body.transaction do
    match ← getForOwner dataset_id owner_id with
    | none => Body.raise .datasetNotFound
    | some _ => pure ((), [])
  let candidate ← writeCandidate source
  let (outcome, v) ← Op.withLocals ⟨none, false⟩
    (installUpload owner_id dataset_id safe_filename candidate)
  match outcome with
  | .error x => compensate candidate v x
  | .ok (result, old_key, new_key) => do
    removeSuperseded old_key new_key
    pure result

/-- The transaction of `create_rule`. -/
def insertRule (owner_id dataset_id : Uuid) (safe_column : PyStr) (rule : ValidationRule) :
    Body σ Unit :=
  Body.transaction do
    match ← getForOwnerForUpdate dataset_id owner_id with
    | none => Body.raise .datasetNotFound
    | some dataset =>
      match dataset.upload with
      | none => Body.raise .datasetNotReady
      | some upload =>
        if safe_column ∉ upload.column_names then Body.raise .unknownColumn
        else
          Body.flush [.insertRule rule]
          pure ((), [.insertRule rule])

def createRule (owner_id dataset_id : Uuid) (rule_type target_column : PyStr) (configuration : Dict) :
    Body σ ValidationRuleReference := do
  let safe_column ← Body.policy (validateTargetColumn U target_column)
  let now ← Body.now
  let id ← Body.uuid4
  let rule : ValidationRule := ⟨id, dataset_id, rule_type, safe_column, configuration, now⟩
  (insertRule owner_id dataset_id safe_column rule).catching fun x =>
    if x = .database (.integrity .uq_validation_rules_definition) then Body.raise .duplicateRule
    else Body.raise x
  pure (ruleReference rule)

def listRules (owner_id dataset_id : Uuid) (limit offset : ℕ) :
    Body σ (List ValidationRuleReference) :=
  Body.transaction do
    match ← getForOwner dataset_id owner_id with
    | none => Body.raise .datasetNotFound
    | some _ =>
      let rows ← listForDataset dataset_id limit offset
      pure (rows.map ruleReference, [])

def deleteRule (owner_id dataset_id rule_id : Uuid) : Body σ Unit :=
  Body.transaction do
    match ← getForOwner dataset_id owner_id with
    | none => Body.raise .datasetNotFound
    | some _ =>
      match ← getRule dataset_id rule_id with
      | none => Body.raise .datasetNotFound
      | some rule => pure ((), [.deleteRule rule.id])

end DataCheck.Datasets
