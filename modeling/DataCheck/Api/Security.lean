import DataCheck.Identity.Models
import Mathlib.Data.Set.Function

/-!
# Request checks (`api/security.py`, `api/dependencies.py`)
-/

namespace DataCheck.Api

open Lib Identity

def latin1 (b : Bytes) : PyStr := b.map fun x => ⟨x.toNat, toNat_lt_codePoints x⟩

/-- A request, by its headers; the server writes their names in lower case. -/
structure Request where
  headers : List (Bytes × Bytes)

/-- `request.headers.getlist(name)`, for a name in lower case. -/
def Request.getlist (request : Request) (name : PyStr) : List PyStr :=
  request.headers.filterMap fun header => if latin1 header.1 = name then some (latin1 header.2) else none

lemma latin1_bytes {s : PyStr} (h : ∀ c ∈ s, c.val < 256) : latin1 (s.map fun c => UInt8.ofNat c.val) = s := by
  rw [latin1, List.map_map]
  refine (List.map_congr_left fun c hc => ?_).trans (List.map_id s)
  have hc' : c.val % 256 = c.val := Nat.mod_eq_of_lt (h c hc)
  exact Fin.ext hc'

lemma exists_getlist {name value : PyStr} (hn : ∀ c ∈ name, c.val < 256) (hv : ∀ c ∈ value, c.val < 256) :
    ∃ request : Request, request.getlist name = [value] :=
  ⟨⟨[(name.map fun c => UInt8.ofNat c.val, value.map fun c => UInt8.ofNat c.val)]⟩, by
    simp [Request.getlist, latin1_bytes hn, latin1_bytes hv]⟩

/-! ### The CSRF token -/

def parseCsrfHeader (request : Request) : Option Bytes :=
  match request.getlist (py "x-csrf-token") with
  | [value] =>
    match decodeToken value with
    | .error _ => none
    | .ok token => some token
  | _ => none

/-- `require_authenticated_mutation` lets the request of a session with the CSRF token `expected` pass. -/
def csrfAccepted (expected : Bytes) (request : Request) : Bool :=
  match parseCsrfHeader request with
  | none => false
  | some supplied => csrfTokensMatch expected supplied

lemma csrfAccepted_iff {expected : Bytes} (hlen : expected.length = 32) {request : Request} :
    csrfAccepted expected request = true ↔ request.getlist (py "x-csrf-token") = [base64Encode expected] := by
  unfold csrfAccepted parseCsrfHeader
  constructor
  · intro h
    split at h
    · cases h
    next supplied hs =>
    split at hs
    · next value hv =>
      split at hs
      · cases hs
      next hraw =>
      cases hs
      obtain ⟨-, rfl⟩ := decodeToken_eq_ok.mp hraw
      rw [(csrfTokensMatch_iff.mp h).1, hv]
    · cases hs
  · intro h
    rw [h]
    simp only [decodeToken_eq_ok.mpr ⟨hlen, rfl⟩]
    exact csrfTokensMatch_iff.mpr ⟨rfl, hlen⟩

/-- **A token has one spelling.**  Every token is encoded as 43 characters of the alphabet that are
decoded again; any text at all is refused, or is the encoding of what it is decoded to.  So decoding is a
bijection from the encodings to the tokens, and a session has one cookie for its bearer token and one CSRF
header. -/
theorem token_one_spelling :
    (∀ b : Bytes, b.length = 32 → ∃ s, encodeToken b = .ok s ∧ s.length = 43 ∧
      (∀ c ∈ s, isTokenChar c = true) ∧ decodeToken s = .ok b) ∧
    (∀ s : PyStr, (∃ x, decodeToken s = .error x) ∨
      ∃ b, decodeToken s = .ok b ∧ b.length = 32 ∧ encodeToken b = .ok s) ∧
    Set.BijOn decodeToken {s | ∃ b, encodeToken b = .ok s} (Except.ok '' {b : Bytes | b.length = 32}) ∧
    ∀ s : UserSession, s.checks = true →
      (∀ bearer : Token, sha256 bearer.1 = s.token_hash →
        ∃! cookie, decodeToken cookie = .ok bearer.1 ∧ bearerHash (some cookie) = some s.token_hash) ∧
      (∀ cookie, bearerHash (some cookie) = some s.token_hash →
        ∃ bearer : Token, sha256 bearer.1 = s.token_hash ∧ decodeToken cookie = .ok bearer.1) ∧
      ∃! header, ∀ request : Request,
        csrfAccepted s.csrf_token request = true ↔ request.getlist (py "x-csrf-token") = [header] := by
  refine ⟨fun b hb => ?_, fun s => ?_, ⟨?_, ?_, ?_⟩, fun s hs => ⟨fun bearer hbearer => ?_, ?_, ?_⟩⟩
  · have hlen := base64Encode_length b
    rw [hb] at hlen
    exact ⟨base64Encode b, encodeToken_eq_ok.mpr ⟨hb, rfl⟩, hlen, isTokenChar_base64Encode b,
      decodeToken_eq_ok.mpr ⟨hb, rfl⟩⟩
  · cases hd : decodeToken s with
    | error x => exact Or.inl ⟨x, rfl⟩
    | ok b =>
      have hb := decodeToken_eq_ok.mp hd
      exact Or.inr ⟨b, rfl, hb.1, encodeToken_eq_ok.mpr hb⟩
  · rintro s ⟨b, hb⟩
    exact ⟨b, (encodeToken_eq_ok.mp hb).1, (decodeToken_eq_ok.mpr (encodeToken_eq_ok.mp hb)).symm⟩
  · rintro s ⟨b, hb⟩ s' ⟨b', hb'⟩ he
    rw [decodeToken_eq_ok.mpr (encodeToken_eq_ok.mp hb), decodeToken_eq_ok.mpr (encodeToken_eq_ok.mp hb')] at he
    cases he
    rw [hb] at hb'
    exact Except.ok.inj hb'
  · rintro _ ⟨b, hb, rfl⟩
    exact ⟨base64Encode b, ⟨b, encodeToken_eq_ok.mpr ⟨hb, rfl⟩⟩, decodeToken_eq_ok.mpr ⟨hb, rfl⟩⟩
  · refine ⟨base64Encode bearer.1, ⟨decodeToken_encode bearer, ?_⟩, fun cookie hc => ?_⟩
    · rw [bearerHash_encode, hbearer]
    · exact (decodeToken_eq_ok.mp hc.1).2
  · exact fun cookie hc => bearerHash_eq_some.mp hc
  · have hlen : s.csrf_token.length = 32 := by
      simp only [UserSession.checks, Bool.and_eq_true, beq_iff_eq] at hs
      exact hs.1.1.1.1.2
    refine ⟨base64Encode s.csrf_token, fun request => csrfAccepted_iff hlen, fun header hheader => ?_⟩
    -- a request with the one header that the session accepts
    obtain ⟨request, hrequest⟩ : ∃ request : Request,
        request.getlist (py "x-csrf-token") = [base64Encode s.csrf_token] := by
      refine exists_getlist (forall_mem_py (by decide)) fun c hc => ?_
      have hchar := isTokenChar_base64Encode s.csrf_token c hc
      simp only [isTokenChar, Bool.or_eq_true, Bool.and_eq_true, decide_eq_true_eq, beq_iff_eq] at hchar
      omega
    have hmine := (hheader request).mp ((csrfAccepted_iff hlen).mpr hrequest)
    rw [hrequest] at hmine
    exact (List.cons.inj hmine).1.symm

end DataCheck.Api
