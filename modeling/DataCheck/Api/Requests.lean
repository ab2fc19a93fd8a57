import DataCheck.Api.Errors

/-!
# What an endpoint is given (`api/dependencies.py`, `api/security.py`)

A request as the framework has read it, and the checks that the endpoints depend on.
-/

namespace DataCheck.Api

open Lib Shared Datasets Identity

inductive Environment where
  | development | test | production
  deriving DecidableEq

/-- What the endpoints read of `ApiSettings`. -/
structure ApiSettings where
  environment : Environment
  trusted_origins : List PyStr

/-- A part of a form: a text, or an uploaded file. -/
inductive FormPart where
  | text (value : PyStr)
  | upload (filename : Option PyStr) (file : Source)

/-- The body of a request for an endpoint with a payload. -/
inductive JsonBody where
  /-- There is none, or its type is not JSON. -/
  | absent
  /-- `JSONDecodeError` -/
  | malformed
  /-- Another exception of the JSON parser. -/
  | unreadable
  | value (j : Json)

/-- A request as the framework has read it. -/
structure HttpRequest extends Request where
  /-- `request.cookies.get(name)` -/
  cookie : PyStr → Option PyStr
  /-- A parameter of the path, where it is a UUID. -/
  path : String → Option Uuid
  /-- A parameter of the query: `none` where it is no integer, `some none` where it is not given. -/
  query : String → Option (Option ℤ)
  json : JsonBody
  /-- `request.form(…).multi_items()`; `none` is an `HTTPException`. -/
  form : Option (List (PyStr × FormPart))
  /-- What the framework reports where the body or a parameter does not validate. -/
  errors : List ErrorItem

/-! ### Cookies -/

structure CookiePolicy where
  name : PyStr
  secure : Bool
  httponly : Bool
  samesite : PyStr
  path : PyStr

def cookiePolicy : Environment → CookiePolicy
  | .production => ⟨py "__Host-datacheck_session", true, true, py "lax", py "/"⟩
  | _ => ⟨py "datacheck_session", false, true, py "lax", py "/"⟩

/-- `APIKeyCookie(name=…, auto_error=False)`: an empty value is no value. -/
def apiKeyCookie (name : String) (request : HttpRequest) : Option PyStr :=
  (request.cookie (py name)).filter fun value => value ≠ []

def getSessionCookie (settings : ApiSettings) (request : HttpRequest) : Option PyStr :=
  let development_cookie := apiKeyCookie "datacheck_session" request
  let production_cookie := apiKeyCookie "__Host-datacheck_session" request
  if (cookiePolicy settings.environment).secure then production_cookie else development_cookie

/-! ### Content types -/

def unsupportedMediaType : ApiError :=
  ⟨415, "unsupported_media_type", "Content-Type must be application/json with UTF-8 encoding."⟩

def unsupportedMultipartMediaType : ApiError :=
  ⟨415, "unsupported_media_type", "Content-Type must be multipart/form-data."⟩

/-- `s.lower()` of a header; a letter beyond ASCII has no ASCII letter as its lower case. -/
def lowerHeader (s : PyStr) : PyStr := s.map PyStr.asciiLower

/-- `s.strip('"')` -/
def stripQuotes (s : PyStr) : PyStr := ((s.dropWhile (· = 34)).reverse.dropWhile (· = 34)).reverse

def requireJsonContentType (request : Request) : Except ApiError Unit :=
  match request.getlist (py "content-type") with
  | [value] =>
    let sections := (PyStr.split 59 value).map PyStr.strip
    if lowerHeader (sections.headD []) ≠ py "application/json" then .error unsupportedMediaType
    else match sections.tail with
    | [] => .ok ()
    | [parameter] =>
      if 61 ∉ parameter then .error unsupportedMediaType
      else
        let name := (PyStr.before 61 parameter).strip
        let charset := lowerHeader (stripQuotes (PyStr.after 61 parameter).strip)
        if lowerHeader name ≠ py "charset" ∨ charset ≠ py "utf-8" then .error unsupportedMediaType
        else .ok ()
    | _ => .error unsupportedMediaType
  | _ => .error unsupportedMediaType

def requireMultipartContentType (request : Request) : Except ApiError Unit :=
  match request.getlist (py "content-type") with
  | [value] =>
    let media_type := lowerHeader (PyStr.before 59 value).strip
    if media_type ≠ py "multipart/form-data" then .error unsupportedMultipartMediaType else .ok ()
  | _ => .error unsupportedMultipartMediaType

/-! ### Dependencies -/

/-- The dependencies of a route that only look at the request. -/
inductive Dependency where
  /-- `enforce_trusted_origin` -/
  | trustedOrigin
  /-- `enforce_json_content_type` -/
  | jsonContentType
  /-- `enforce_multipart_content_type` -/
  | multipartContentType
  deriving DecidableEq

/-- A dependency raises, or lets the request pass. -/
def Dependency.enforce (settings : ApiSettings) (request : HttpRequest) : Dependency → Except ApiError Unit
  | .trustedOrigin => requireTrustedOrigin request.toRequest settings.trusted_origins
  | .jsonContentType => requireJsonContentType request.toRequest
  | .multipartContentType => requireMultipartContentType request.toRequest

/-- The dependencies, one after the other. -/
def enforceAll (settings : ApiSettings) (request : HttpRequest) : List Dependency → Except ApiError Unit
  | [] => .ok ()
  | d :: ds =>
    match d.enforce settings request with
    | .ok () => enforceAll settings request ds
    | .error e => .error e

lemma enforceAll_eq_ok {settings : ApiSettings} {request : HttpRequest} {ds : List Dependency} :
    enforceAll settings request ds = .ok () ↔ ∀ d ∈ ds, d.enforce settings request = .ok () := by
  induction ds with
  | nil => simp [enforceAll]
  | cons d ds ih =>
    rw [enforceAll, List.forall_mem_cons]
    cases hd : d.enforce settings request with
    | ok => simp [ih]
    | error e => simp

lemma Dependency.enforce_error {settings : ApiSettings} {request : HttpRequest} {d : Dependency} {e : ApiError}
    (h : d.enforce settings request = .error e) :
    d = .trustedOrigin ∧ e.status_code = 403 ∨ d ≠ .trustedOrigin ∧ e.status_code = 415 := by
  cases d with
  | trustedOrigin =>
    refine Or.inl ⟨rfl, ?_⟩
    simp only [enforce, requireTrustedOrigin] at h
    repeat' split at h
    all_goals first | (cases h; done) | (cases h; rfl)
  | jsonContentType =>
    refine Or.inr ⟨by decide, ?_⟩
    simp only [enforce, requireJsonContentType] at h
    repeat' split at h
    all_goals first | (cases h; done) | (cases h; rfl)
  | multipartContentType =>
    refine Or.inr ⟨by decide, ?_⟩
    simp only [enforce, requireMultipartContentType] at h
    repeat' split at h
    all_goals first | (cases h; done) | (cases h; rfl)

lemma enforceAll_error {settings : ApiSettings} {request : HttpRequest} {ds : List Dependency} {e : ApiError}
    (h : enforceAll settings request ds = .error e) :
    .trustedOrigin ∈ ds ∧ e.status_code = 403 ∨ (∃ d ∈ ds, d ≠ .trustedOrigin) ∧ e.status_code = 415 := by
  induction ds with
  | nil => cases h
  | cons d ds ih =>
    rw [enforceAll] at h
    split at h
    · rcases ih h with ⟨hm, he⟩ | ⟨⟨d', hd', hne⟩, he⟩
      · exact Or.inl ⟨List.mem_cons_of_mem _ hm, he⟩
      · exact Or.inr ⟨⟨d', List.mem_cons_of_mem _ hd', hne⟩, he⟩
    · next hd =>
      cases h
      rcases Dependency.enforce_error hd with ⟨rfl, he⟩ | ⟨hne, he⟩
      · exact Or.inl ⟨List.mem_cons_self, he⟩
      · exact Or.inr ⟨⟨d, List.mem_cons_self, hne⟩, he⟩

/-- The error of `require_authenticated_context`. -/
def authenticationRequired : PublicError :=
  ApiError.plain ⟨401, "authentication_required", "Authentication required."⟩

/-- The error of `require_authenticated_mutation`. -/
def invalidCsrfToken : PublicError := ApiError.plain ⟨403, "invalid_csrf_token", "CSRF token is invalid."⟩

end DataCheck.Api
