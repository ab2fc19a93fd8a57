import DataCheck.Api.Middleware
import DataCheck.Api.Origins
import DataCheck.Shared.Calls

/-!
# Errors (`api/errors.py`)

What the handlers make of an exception that an endpoint raises.
-/

namespace DataCheck.Api

open Lib Shared Datasets

/-- A part of the path of a field: a `str` or an `int`. -/
inductive Loc where
  | name (s : PyStr)
  | index (i : ℕ)

structure ValidationIssue where
  field : List Loc
  code : PyStr
  message : String

/-- An `ApiError` with its `details`. -/
structure PublicError extends ApiError where
  details : Option (List ValidationIssue)

/-- An `ApiError` without `details`. -/
def ApiError.plain (e : ApiError) : PublicError := ⟨e, none⟩

/-- `policy_validation_error`, and `_validation_error` of the dataset routes. -/
def validationError (field code message : String) : PublicError where
  status_code := 422
  code := "validation_error"
  message := "Request validation failed."
  details := some [⟨[.name (py "body"), .name (py field)], py code, message⟩]

/-- An item of `RequestValidationError.errors()`: its `type`, and its `loc` with `none` for a part that is
neither a `str` nor an `int`. -/
structure ErrorItem where
  type : Option PyStr
  loc : List (Option Loc)

/-- The messages of `_validation_issues`. -/
def issueMessage (error_type : PyStr) : String :=
  if error_type = py "missing" then "Field is required."
  else if error_type = py "extra_forbidden" then "Extra fields are not permitted."
  else if error_type = py "string_type" then "Value must be a string."
  else "Invalid value."

def validationIssues (items : List ErrorItem) : List ValidationIssue :=
  items.map fun item =>
    let error_type := item.type.getD (py "invalid_value")
    ⟨item.loc.filterMap id, error_type, issueMessage error_type⟩

/-- The exceptions of an endpoint. -/
inductive ApiExn where
  | api (e : PublicError)
  | requestValidation (items : List ErrorItem)
  /-- `HTTPException` of the framework. -/
  | http (status_code : ℕ)
  /-- `AuthenticationRequired` -/
  | authenticationRequired
  /-- A `SQLAlchemyError` of the identity service. -/
  | database
  /-- `ValueError` of the clock of the identity service. -/
  | clock
  /-- An exception of the dataset service or the analysis service. -/
  | service (x : Exn)
  /-- `ResponseValidationError`: the response model refuses what the endpoint returned. -/
  | responseValidation

/-- `handle_database_error` -/
def serviceUnavailable : PublicError :=
  ApiError.plain ⟨503, "service_unavailable", "Service temporarily unavailable."⟩

/-- `unexpected_error_response` -/
def internalError : PublicError := ApiError.plain ⟨500, "internal_error", "Internal server error."⟩

/-- The answer to a request that failed: an `ErrorResponse`, or what the framework makes of its `HTTPException`. -/
inductive ErrorAnswer where
  | error (e : PublicError)
  | http (status_code : ℕ)

def ErrorAnswer.status_code : ErrorAnswer → ℕ
  | .error e => e.status_code
  | .http status_code => status_code

/-- What the client is told of an exception: the handlers of `register_error_handlers`, and
`SanitizedExceptionMiddleware` for every exception without one. -/
def ApiExn.answer : ApiExn → ErrorAnswer
  | .api e => .error e
  | .requestValidation items =>
    .error ⟨⟨422, "validation_error", "Request validation failed."⟩, some (validationIssues items)⟩
  | .http status_code => .http status_code
  | .database => .error serviceUnavailable
  | .service (.database _) => .error serviceUnavailable
  | _ => .error internalError

end DataCheck.Api
