import DataCheck.Api.Requests
import DataCheck.Api.Responses

/-!
# The endpoints (`api/v1/datasets.py`, `api/v1/analyses.py`)

An endpoint is a `Route`: what it depends on, the call of a service that it makes for a request, and what
becomes of the reply or of the exception.
-/

namespace DataCheck.Api

open Lib Shared Datasets Analyses

/-- An endpoint that calls the dataset service or the analysis service. -/
structure Route where
  /-- `dependencies=[…]` -/
  dependencies : List Dependency
  /-- There is a parameter `payload`. -/
  payload : Bool
  /-- The context comes from `require_authenticated_mutation`, and not only from
  `require_authenticated_context`. -/
  mutation : Bool
  /-- The call for the authenticated user. -/
  call : HttpRequest → (owner_id : Uuid) → Except ApiExn Shared.Call
  /-- The `except` clauses; `none` where none is for the exception. -/
  handler : Exn → Option PublicError
  /-- The response model of the reply; `none` where it refuses it. -/
  content : Reply → Option Content
  status_code : ℕ
  /-- `responses=_error_responses(…)` -/
  responses : List ℕ

/-! ### Parameters -/

/-- A parameter that validates, or a `RequestValidationError`. -/
def validated {α : Type} (request : HttpRequest) : Option α → Except ApiExn α
  | some a => .ok a
  | none => .error (.requestValidation request.errors)

/-- The parameter `payload` of a model. -/
def HttpRequest.payload {α : Type} (request : HttpRequest) (modelValidate : Json → Option α) : Option α :=
  match request.json with
  | .value j => modelValidate j
  | _ => none

/-- `limit: Annotated[int, Query(ge=1, le=100)] = 50` -/
def HttpRequest.limit (request : HttpRequest) : Option ℕ :=
  match request.query "limit" with
  | none => none
  | some none => some 50
  | some (some n) => if 1 ≤ n ∧ n ≤ 100 then some n.toNat else none

/-- `offset: Annotated[int, Query(ge=0)] = 0` -/
def HttpRequest.offset (request : HttpRequest) : Option ℕ :=
  match request.query "offset" with
  | none => none
  | some none => some 0
  | some (some n) => if 0 ≤ n then some n.toNat else none

/-- A validated request has a name. -/
structure DatasetCreateRequest where
  name : Text

/-- `DatasetCreateRequest.model_validate` -/
def DatasetCreateRequest.modelValidate : Json → Option DatasetCreateRequest
  | .obj d =>
    if Dict.only d [py "name"] then
      match Dict.get? d (py "name") with
      | some (.str name) => (text name).map (⟨·⟩)
      | _ => none
    else none
  | _ => none

/-! ### Errors -/

def notFound : PublicError := ApiError.plain ⟨404, "not_found", "Resource not found."⟩

def invalidMultipart : PublicError :=
  ApiError.plain ⟨400, "invalid_multipart", "Upload must contain exactly one file part."⟩

/-- The `code` of a `DatasetPolicyError`. -/
def policyCode : PolicyCode → String
  | .invalid_dataset_name => "invalid_dataset_name"
  | .invalid_filename => "invalid_filename"
  | .invalid_target_column => "invalid_target_column"
  | .invalid_regex_pattern => "invalid_regex_pattern"

/-- The `code` of a `CsvStructureError`. -/
def csvCode : CsvCode → String
  | .empty_csv => "empty_csv"
  | .invalid_header => "invalid_header"
  | .duplicate_columns => "duplicate_columns"
  | .inconsistent_row_width => "inconsistent_row_width"
  | .invalid_utf8 => "invalid_utf8"
  | .malformed_csv => "malformed_csv"

/-- `except DatasetNotFound: raise _not_found() from None`, and nothing else. -/
def onlyNotFound : Exn → Option PublicError
  | .datasetNotFound => some notFound
  | _ => none

/-! ### Datasets -/

def createDataset : Route where
  dependencies := [.trustedOrigin, .jsonContentType]
  payload := true
  mutation := true
  call request owner_id := do
    let payload ← validated request (request.payload DatasetCreateRequest.modelValidate)
    return .createDataset owner_id payload.name.1
  handler
    | .datasetPolicy _ => some (validationError "name" "invalid_dataset_name" "Dataset name is invalid.")
    | _ => none
  content
    | .dataset dataset => (datasetDetail dataset).map .dataset
    | _ => none
  status_code := 201
  responses := [401, 403, 415, 422, 500, 503]

def listDatasets : Route where
  dependencies := []
  payload := false
  mutation := false
  call request owner_id := do
    let limit ← validated request request.limit
    let offset ← validated request request.offset
    return .listDatasets owner_id limit offset
  handler _ := none
  content
    | .datasets datasets => (datasets.mapM datasetSummary).map .datasets
    | _ => none
  status_code := 200
  responses := [401, 422, 500, 503]

def getDataset : Route where
  dependencies := []
  payload := false
  mutation := false
  call request owner_id := do
    let dataset_id ← validated request (request.path "dataset_id")
    return .getDataset owner_id dataset_id
  handler := onlyNotFound
  content
    | .dataset dataset => (datasetDetail dataset).map .dataset
    | _ => none
  status_code := 200
  responses := [401, 404, 422, 500, 503]

def uploadCsv : Route where
  dependencies := [.trustedOrigin, .multipartContentType]
  payload := false
  mutation := true
  call request owner_id := do
    let dataset_id ← validated request (request.path "dataset_id")
    match request.form with
    | some [(name, .upload filename file)] =>
      if name = py "file" then return .uploadCsv owner_id dataset_id filename file
      else .error (.api invalidMultipart)
    | _ => .error (.api invalidMultipart)
  handler
    | .datasetNotFound => some notFound
    | .datasetPolicy code =>
      let field := if code = .invalid_filename then "filename" else "file"
      some (validationError field (policyCode code) "Uploaded file is invalid.")
    | .csvStructure code => some (validationError "file" (csvCode code) "CSV structure is invalid.")
    | .fileTooLarge =>
      some (ApiError.plain ⟨413, "upload_too_large", "Upload exceeds the accepted size limit."⟩)
    | .incompatibleUpload =>
      some (ApiError.plain ⟨409, "upload_conflicts_with_rules",
        "Upload is incompatible with configured validation rules."⟩)
    | _ => none
  content
    | .dataset dataset => (datasetDetail dataset).map .dataset
    | _ => none
  status_code := 200
  responses := [400, 401, 403, 404, 409, 413, 415, 422, 500, 503]

def createRule (U : Unicode) (P : Polars) : Route where
  dependencies := [.trustedOrigin, .jsonContentType]
  payload := true
  mutation := true
  call request owner_id := do
    let dataset_id ← validated request (request.path "dataset_id")
    let payload ← validated request (request.payload (RuleCreateRequest.modelValidate U P))
    return .createRule owner_id dataset_id payload.configuration.typeName payload.target_column
      (canonicalRuleConfiguration payload)
  handler
    | .datasetNotFound => some notFound
    | .datasetNotReady =>
      some (ApiError.plain ⟨409, "dataset_not_ready",
        "Dataset requires a valid CSV upload before configuring rules."⟩)
    | .unknownColumn =>
      some (validationError "target_column" "unknown_column" "Target column does not exist in the dataset.")
    | .duplicateRule =>
      some (ApiError.plain ⟨409, "duplicate_rule", "An identical validation rule already exists."⟩)
    | .datasetPolicy _ =>
      some (validationError "target_column" "invalid_target_column" "Target column is invalid.")
    | _ => none
  content
    | .rule rule => (ruleResponse rule).map .rule
    | _ => none
  status_code := 201
  responses := [401, 403, 404, 409, 415, 422, 500, 503]

def listRules : Route where
  dependencies := []
  payload := false
  mutation := false
  call request owner_id := do
    let dataset_id ← validated request (request.path "dataset_id")
    let limit ← validated request request.limit
    let offset ← validated request request.offset
    return .listRules owner_id dataset_id limit offset
  handler := onlyNotFound
  content
    | .rules rules => (rules.mapM ruleResponse).map .rules
    | _ => none
  status_code := 200
  responses := [401, 404, 422, 500, 503]

def deleteRule : Route where
  dependencies := [.trustedOrigin]
  payload := false
  mutation := true
  call request owner_id := do
    let dataset_id ← validated request (request.path "dataset_id")
    let rule_id ← validated request (request.path "rule_id")
    return .deleteRule owner_id dataset_id rule_id
  handler := onlyNotFound
  content
    | .unit => some .nothing
    | _ => none
  status_code := 204
  responses := [401, 403, 404, 500, 503]

/-! ### Analyses -/

def createAnalysis : Route where
  dependencies := [.trustedOrigin]
  payload := false
  mutation := true
  call request owner_id := do
    let dataset_id ← validated request (request.path "dataset_id")
    return .createAnalysis owner_id dataset_id
  handler
    | .datasetNotFound => some notFound
    | .datasetNotReady =>
      some (ApiError.plain ⟨409, "dataset_not_ready", "Dataset requires a valid CSV upload before analysis."⟩)
    | .analysisRequiresRules =>
      some (ApiError.plain ⟨409, "analysis_requires_rules",
        "Dataset requires at least one validation rule before analysis."⟩)
    | _ => none
  content
    | .analysis analysis => (detailResponse analysis).map .analysis
    | _ => none
  status_code := 201
  responses := [401, 403, 404, 409, 422, 500, 503]

def listAnalyses : Route where
  dependencies := []
  payload := false
  mutation := false
  call request owner_id := do
    let dataset_id ← validated request (request.path "dataset_id")
    let limit ← validated request request.limit
    let offset ← validated request request.offset
    return .listAnalyses owner_id dataset_id limit offset
  handler := onlyNotFound
  content
    | .analyses analyses => (analyses.mapM summaryResponse).map .analyses
    | _ => none
  status_code := 200
  responses := [401, 404, 422, 500, 503]

def getAnalysis : Route where
  dependencies := []
  payload := false
  mutation := false
  call request owner_id := do
    let dataset_id ← validated request (request.path "dataset_id")
    let analysis_id ← validated request (request.path "analysis_id")
    return .getAnalysis owner_id dataset_id analysis_id
  handler := onlyNotFound
  content
    | .analysis analysis => (detailResponse analysis).map .analysis
    | _ => none
  status_code := 200
  responses := [401, 404, 422, 500, 503]

/-- The endpoints of both routers. -/
def routes (U : Unicode) (P : Polars) : List Route :=
  [createDataset, listDatasets, getDataset, uploadCsv, createRule U P, listRules, deleteRule,
    createAnalysis, listAnalyses, getAnalysis]

end DataCheck.Api
