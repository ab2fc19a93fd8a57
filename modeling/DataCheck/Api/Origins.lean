import DataCheck.Api.Security
import DataCheck.Core.Settings

/-!
# The origin of a request (`api/security.py`)

`Origin` and `Referer` headers of ASCII texts.
-/

namespace DataCheck.Api

open Lib PyStr DataCheck.Core

structure ApiError where
  status_code : ℕ
  code : String
  message : String
deriving DecidableEq

def invalidOrigin : ApiError := ⟨403, "invalid_origin", "Request origin is not trusted."⟩

/-- A `ValueError` of `_origin_from_referer`: its own ("invalid Referer"), one of `urlsplit`, or one of
`canonicalize_origin`. -/
inductive RefererError where
  | invalid
  | url
  | origin (error : OriginError)
deriving DecidableEq

def originFromReferer (value : PyStr) : Except RefererError PyStr :=
  if value ≠ strip value then .error .invalid
  else match urlsplit value with
  | none => .error .url
  | some parsed =>
    if parsed.scheme.map asciiLower ≠ py "http" ∧ parsed.scheme.map asciiLower ≠ py "https" ∨
        (parsed.netloc = [] ∨ parsed.username ≠ none ∨ parsed.password ≠ none) then .error .invalid
    else match parsed.port with
    | none => .error .invalid
    | some port =>
      match parsed.hostname with
      | none => .error .invalid
      | some hostname =>
        match canonicalizeOrigin (urlOf parsed.scheme (netlocOf hostname port)) with
        | .error error => .error (.origin error)
        | .ok origin => .ok origin

def requireTrustedOrigin (request : Request) (trusted_origins : List PyStr) : Except ApiError Unit :=
  let origin : Option PyStr :=
    match request.getlist (py "origin") with
    | [value] => (canonicalizeOrigin value).toOption
    | _ :: _ :: _ => none
    | [] =>
      match request.getlist (py "referer") with
      | [value] => (originFromReferer value).toOption
      | _ => none
  match origin with
  | none => .error invalidOrigin
  | some origin => if origin ∈ trusted_origins then .ok () else .error invalidOrigin

/-! ### The origin part of a `Referer` -/

/-- The host of a URL with a canonical form, as `canonicalize_origin` is given it again. -/
lemma renders_of_canonical {value origin hostname : PyStr} {parsed : SplitResult} {port : Option ℕ}
    (hparsed : urlsplit value = some parsed)
    (hscheme : parsed.scheme = py "http" ∨ parsed.scheme = py "https") (hne : parsed.netloc ≠ [])
    (hat : 64 ∉ parsed.netloc) (hhostname : parsed.hostname = some hostname) (hport : parsed.port = some port)
    (h : canonicalizeOrigin (urlOf parsed.scheme (netlocOf hostname port)) = .ok origin) :
    42 ∉ parsed.netloc ∧ Renders parsed origin := by
  obtain ⟨tail, hw⟩ := exists_written hat (urlsplit_eq_some.mp hparsed).1
  obtain ⟨-, hstar, parsed', hparsed', -, -, -, hr⟩ := canonicalizeOrigin_eq_ok.mp h
  obtain ⟨hnil, rfl⟩ := SplitResult.hostname_eq_some.mp hhostname
  have hclosed : 93 ∉ SplitResult.lowerHost parsed.hostinfo.1 := fun hmem =>
    hw.closed ((mem_lowerHost (by decide)).mp hmem)
  have hhostSafe : ∀ c ∈ SplitResult.lowerHost parsed.hostinfo.1, isUnsafe c = false ∧ isDelimiter c = false := by
    refine SplitResult.forall_lowerHost (fun c hc => ?_) fun c hc => (urlsplit_netloc hparsed (hw.mem_host hc)).2
    rwa [isUnsafe_lower, isDelimiter_lower]
  have hsafe : ∀ c ∈ netlocOf (SplitResult.lowerHost parsed.hostinfo.1) port,
      isUnsafe c = false ∧ isDelimiter c = false := by
    intro c hc
    rcases mem_netlocOf hc with hc | rfl | rfl | rfl | hc
    · exact hhostSafe c hc
    · exact ⟨rfl, rfl⟩
    · exact ⟨rfl, rfl⟩
    · exact ⟨rfl, rfl⟩
    · have := isHarmless_of_alnum (c := c) (by rw [hc, Bool.or_true])
      exact ⟨this.1, this.2.1⟩
  rw [urlsplit_urlOf (isScheme_of hscheme) hsafe] at hparsed'
  split at hparsed'
  swap
  · cases hparsed'
  next hok =>
  cases hparsed'
  have hhosts : IsHost (SplitResult.lowerHost parsed.hostinfo.1) := by
    refine ⟨fun hmem => hat (hw.mem_host ((mem_lowerHost (by decide)).mp hmem)), fun hcolon => ⟨fun hopen => ?_, hclosed⟩,
      fun _ => hclosed⟩
    -- a bracket that nothing closes
    have hclose : 93 ∉ netlocOf (SplitResult.lowerHost parsed.hostinfo.1) port := by
      rw [netlocOf, if_neg hcolon, List.mem_append, not_or]
      exact ⟨hclosed, not_mem_portText (by decide) rfl⟩
    simp [bracketsOk, mem_netlocOf_of_mem hopen, hclose] at hok
  obtain ⟨-, -, -, hostname, host, port', hhostname', hcanonical, hport', horigin⟩ := hr
  obtain ⟨hhostname'', hport''⟩ := @IsHost.parsed_eq ⟨parsed.scheme, netlocOf _ port, [], [], []⟩ _ port hhosts
    (SplitResult.lowerHost_ne_nil hnil) (SplitResult.lowerHost_lowerHost _) rfl (port_le hport)
  cases hhostname'.symm.trans hhostname''
  cases hport'.symm.trans hport''
  refine ⟨fun hmem => ?_, hscheme, hne, hat, _, host, port, hhostname, hcanonical, hport, horigin⟩
  rcases hw.mem_netloc hport hmem with hc | hc | hc | hc | hc
  · refine hstar (List.mem_append_right _ (List.mem_cons_of_mem _ (List.mem_cons_of_mem _ (List.mem_cons_of_mem _ ?_))))
    exact mem_netlocOf_of_mem ((mem_lowerHost (by decide)).mpr hc)
  all_goals cases hc

/-- What a `Referer` is read as. -/
lemma originFromReferer_eq_ok {value origin : PyStr} : originFromReferer value = .ok origin ↔
    strip value = value ∧ ∃ parsed, urlsplit value = some parsed ∧ 42 ∉ parsed.netloc ∧ Renders parsed origin := by
  unfold originFromReferer
  constructor
  · intro h
    split at h
    · cases h
    next hstrip =>
    split at h
    · cases h
    next parsed hparsed =>
    split at h
    · cases h
    next huser =>
    split at h
    · cases h
    next port hport =>
    split at h
    · cases h
    next hostname hhostname =>
    split at h
    · cases h
    next horigin =>
    cases h
    rw [not_or, no_userinfo, scheme_lower hparsed] at huser
    exact ⟨(not_not.mp hstrip).symm, parsed, hparsed,
      renders_of_canonical hparsed (by tauto) huser.2.1 huser.2.2 hhostname hport horigin⟩
  · rintro ⟨hstrip, parsed, hparsed, hstar, hr⟩
    obtain ⟨hostname, host, port, hhostname, hhosts, hport, rfl⟩ := hr.exists_hosts hparsed hstar
    have hok : ¬ ((parsed.scheme.map asciiLower ≠ py "http" ∧ parsed.scheme.map asciiLower ≠ py "https") ∨
        (parsed.netloc = [] ∨ parsed.username ≠ none ∨ parsed.password ≠ none)) := by
      rw [not_or, no_userinfo, scheme_lower hparsed]
      exact ⟨fun hs => hr.1.elim hs.1 hs.2, hr.2.1, hr.2.2.1⟩
    rw [if_neg (not_not_intro hstrip.symm), hparsed]
    simp only [if_neg hok, hport, hhostname, hhosts.canonicalizeOrigin_urlOf hr.1 (port_le hport)]

/-- The origin part of a URL that no whitespace surrounds. -/
def originPart (value : PyStr) : Option PyStr :=
  if strip value = value then (urlsplit value).map fun parsed => urlOf parsed.scheme parsed.netloc else none

lemma canonicalizeOrigin_part {value origin : PyStr} {parsed : SplitResult} (hparsed : urlsplit value = some parsed) :
    canonicalizeOrigin (urlOf parsed.scheme parsed.netloc) = .ok origin ↔
      42 ∉ parsed.netloc ∧ Renders parsed origin := by
  have hsafe : ∀ c ∈ parsed.netloc, isUnsafe c = false ∧ isDelimiter c = false := fun c hc =>
    (urlsplit_netloc hparsed hc).2
  have hok := (urlsplit_eq_some.mp hparsed).1
  constructor
  · intro h
    obtain ⟨-, hstar, parsed', hparsed', -, -, -, hr⟩ := canonicalizeOrigin_eq_ok.mp h
    refine ⟨fun hmem => hstar (List.mem_append_right _ (List.mem_cons_of_mem _ (List.mem_cons_of_mem _
      (List.mem_cons_of_mem _ hmem)))), ?_⟩
    rcases urlsplit_scheme hparsed with hnone | hscheme
    · rw [hnone] at hparsed'
      have hs := hr.1
      rw [urlsplit_no_scheme (fun c hc => (hsafe c hc).1) hparsed'] at hs
      rcases hs with hs | hs
      · cases hs
      · cases hs
    · rw [urlsplit_urlOf hscheme hsafe, if_pos hok] at hparsed'
      cases hparsed'
      exact hr.congr rfl rfl
  · rintro ⟨hstar, hr⟩
    have hscheme := isScheme_of hr.1
    refine canonicalizeOrigin_eq_ok.mpr ⟨strip_urlOf hscheme hr.2.1 fun c => hr.isSpace_getLast hparsed hstar,
      star_not_mem_urlOf hscheme hstar, _, (urlsplit_urlOf hscheme hsafe).trans (if_pos hok), rfl, rfl, rfl,
      hr.congr rfl rfl⟩

/-- **A `Referer` counts as its origin part.** -/
theorem originFromReferer_iff {value origin : PyStr} : originFromReferer value = .ok origin ↔
    ∃ part, originPart value = some part ∧ canonicalizeOrigin part = .ok origin := by
  rw [originFromReferer_eq_ok]
  unfold originPart
  constructor
  · rintro ⟨hstrip, parsed, hparsed, hr⟩
    exact ⟨_, by rw [if_pos hstrip, hparsed]; rfl, (canonicalizeOrigin_part hparsed).mpr hr⟩
  · rintro ⟨part, hpart, hc⟩
    split at hpart
    · next hstrip =>
      obtain ⟨parsed, hparsed, rfl⟩ := Option.map_eq_some_iff.mp hpart
      exact ⟨hstrip, parsed, hparsed, (canonicalizeOrigin_part hparsed).mp hc⟩
    · cases hpart

/-- A path does not change the origin of a `Referer`. -/
lemma originFromReferer_append {value origin t : PyStr} (h : canonicalizeOrigin value = .ok origin)
    (ht : ∀ c ∈ (47 :: t).getLast?, isSpace c = false) : originFromReferer (value ++ 47 :: t) = .ok origin := by
  obtain ⟨hstrip, hstar, parsed, hparsed, -, -, -, hr⟩ := canonicalizeOrigin_eq_ok.mp h
  have hscheme : parsed.scheme ≠ [] := by
    rcases hr.1 with hs | hs
    · rw [hs]
      decide
    · rw [hs]
      decide
  obtain ⟨parsed', hparsed', hs, hn⟩ := urlsplit_append_slash hparsed hscheme hr.2.1 t
  have hne : value ≠ [] := by
    rintro rfl
    cases hparsed
    exact hscheme rfl
  have hstrip' : strip (value ++ 47 :: t) = value ++ 47 :: t := by
    refine strip_eq_self_iff.mpr ⟨?_, ?_⟩
    · rw [List.head?_append_of_ne_nil _ hne]
      exact (strip_eq_self_iff.mp hstrip).1
    · rwa [List.getLast?_append_of_ne_nil _ (List.cons_ne_nil _ _)]
  refine originFromReferer_eq_ok.mpr ⟨hstrip', parsed', hparsed', ?_, hr.congr hs hn⟩
  rw [hn]
  exact fun hmem => hstar (urlsplit_netloc hparsed hmem).1

/-! ### Trusted requests -/

/-- The text has the canonical form of a configured origin. -/
def IsTrusted (configured : List PyStr) (value : PyStr) : Prop :=
  ∃ origin, canonicalizeOrigin value = .ok origin ∧ ∃ o ∈ configured, canonicalizeOrigin o = .ok origin

lemma toOption_eq_some {ε α : Type} {x : Except ε α} {a : α} : x.toOption = some a ↔ x = .ok a := by
  cases x <;> simp [Except.toOption]

lemma requireTrustedOrigin_eq_ok {configured trusted : List PyStr}
    (h : validateTrustedOrigins configured = .ok trusted) {request : Request} :
    requireTrustedOrigin request trusted = .ok () ↔
      (∃ value, request.getlist (py "origin") = [value] ∧ IsTrusted configured value) ∨
      request.getlist (py "origin") = [] ∧ ∃ value part, request.getlist (py "referer") = [value] ∧
        originPart value = some part ∧ IsTrusted configured part := by
  have hpasses : ∀ found : Option PyStr, (match found with
      | none => .error invalidOrigin
      | some origin => if origin ∈ trusted then .ok () else .error invalidOrigin : Except ApiError Unit) = .ok () ↔
      ∃ origin, found = some origin ∧ ∃ o ∈ configured, canonicalizeOrigin o = .ok origin := by
    intro found
    cases found with
    | none => simp
    | some origin =>
      simp only [Option.some.injEq, exists_eq_left', ← mem_validateTrustedOrigins h]
      split <;> simp_all
  unfold requireTrustedOrigin
  rw [hpasses]
  rcases horigin : request.getlist (py "origin") with _ | ⟨value, _ | ⟨value', values⟩⟩
  · rcases hreferer : request.getlist (py "referer") with _ | ⟨value, _ | ⟨value', values⟩⟩
    · simp
    · simp only [toOption_eq_some, originFromReferer_iff, IsTrusted]
      constructor
      · rintro ⟨origin, ⟨part, hpart, hc⟩, htrusted⟩
        exact Or.inr ⟨trivial, value, part, rfl, hpart, origin, hc, htrusted⟩
      · rintro (⟨_, he, -⟩ | ⟨-, _, part, he, hpart, origin, hc, htrusted⟩)
        · cases he
        · cases he
          exact ⟨origin, ⟨part, hpart, hc⟩, htrusted⟩
    · simp
  · simp [toOption_eq_some, IsTrusted]
  · simp

/-- **`Origin` and `Referer` checks agree.**  For ASCII texts: a canonical origin is its own canonical form; a
`Referer` of an accepted origin and a path that does not end in whitespace has the same canonical form; two
accepted origins have one canonical form exactly where they have the same scheme, host and effective port.  So with
every accepted configuration a request passes exactly if its one `Origin`, or with no `Origin` the origin part of its
one `Referer`, has the canonical form of a configured origin. -/
theorem origin_checks_agree :
    (∀ value origin, canonicalizeOrigin value = .ok origin →
      canonicalizeOrigin origin = .ok origin ∧
      (∀ t, (∀ c ∈ (47 :: t).getLast?, isSpace c = false) → originFromReferer (value ++ 47 :: t) = .ok origin) ∧
      ∀ value' origin', canonicalizeOrigin value' = .ok origin' → (origin = origin' ↔ SameOrigin value value')) ∧
    ∀ configured trusted, validateTrustedOrigins configured = .ok trusted → ∀ request : Request,
      (requireTrustedOrigin request trusted = .ok () ↔
        (∃ value, request.getlist (py "origin") = [value] ∧ IsTrusted configured value) ∨
        request.getlist (py "origin") = [] ∧ ∃ value part, request.getlist (py "referer") = [value] ∧
          originPart value = some part ∧ IsTrusted configured part) := by
  refine ⟨fun value origin h => ⟨canonicalizeOrigin_again h, fun t ht => originFromReferer_append h ht,
    fun value' origin' h' => canonicalizeOrigin_eq_iff h h'⟩, fun configured trusted h request => ?_⟩
  exact requireTrustedOrigin_eq_ok h

/-- A request without an `Origin`, from a page of the application. -/
def Sample.fromPage : Request :=
  let bytes (s : String) : Bytes := (py s).map fun c => UInt8.ofNat c.val
  ⟨[(bytes "referer", bytes "HTTP://localhost:80/login?next=%2F")]⟩

/-- An origin with a default port and one without, and a request with a `Referer`, which passes. -/
theorem origin_checks_agree_sample :
    canonicalizeOrigin (py "http://localhost") = .ok (py "http://localhost") ∧
    originFromReferer (py "HTTP://LOCALHOST:80" ++ 47 :: py "login?next=%2F#f") = .ok (py "http://localhost") ∧
    SameOrigin (py "HTTP://LOCALHOST:80") (py "http://localhost:") ∧
    requireTrustedOrigin Sample.fromPage [py "http://localhost"] = .ok () := by
  have hupper : canonicalizeOrigin (py "HTTP://LOCALHOST:80") = .ok (py "http://localhost") := by decide +kernel
  have hempty : canonicalizeOrigin (py "http://localhost:") = .ok (py "http://localhost") := by decide +kernel
  have hconfigured : validateTrustedOrigins [py "http://LOCALHOST"] = .ok [py "http://localhost"] := by decide +kernel
  have hlast : (47 :: py "login?next=%2F#f").getLast? = some 102 := by decide +kernel
  obtain ⟨hagain, hreferer, hsame⟩ := origin_checks_agree.1 _ _ hupper
  refine ⟨hagain, hreferer _ fun c hc => ?_, (hsame _ _ hempty).mp rfl,
    (origin_checks_agree.2 _ _ hconfigured Sample.fromPage).mpr (Or.inr ⟨by decide +kernel, ?_⟩)⟩
  · rw [hlast] at hc
    cases hc
    rfl
  · have hpart : originPart (py "HTTP://localhost:80/login?next=%2F") = some (py "http://localhost:80") := by
      decide +kernel
    have htrusted : IsTrusted [py "http://LOCALHOST"] (py "http://localhost:80") :=
      ⟨py "http://localhost", by decide +kernel, py "http://LOCALHOST", List.mem_singleton_self _, by decide +kernel⟩
    exact ⟨_, _, by decide +kernel, hpart, htrusted⟩

end DataCheck.Api
