import DataCheck.Lib.Sha256

/-!
# Tokens (`identity/tokens.py`)

Bearer tokens travel as unpadded URL-safe base64 and are stored by their hash only.
-/

namespace DataCheck.Identity

open Lib

def tokenBytes : ℕ := 32
def tokenEncodedLength : ℕ := 43

/-- `TokenEncodingError`, by its message. -/
inductive TokenEncodingError where
  | entropy | encodedLength | alphabet | invalid | decodedLength | notCanonical | sessionToken
  deriving DecidableEq

/-! ### Base64 -/

/-- The character of six bits, `-` for 62 and `_` for 63. -/
def base64Char (n : ℕ) : PyChar :=
  if h : n < 26 then ⟨n + 65, by omega⟩
  else if h' : n < 52 then ⟨n + 71, by omega⟩
  else if h'' : n < 62 then ⟨n - 4, by omega⟩
  else if n = 62 then ⟨45, by omega⟩
  else ⟨95, by omega⟩

/-- The six bits of a character, if it is one of `[A-Za-z0-9_-]`. -/
def base64Value (c : PyChar) : Option ℕ :=
  if 65 ≤ c.val ∧ c.val ≤ 90 then some (c.val - 65)
  else if 97 ≤ c.val ∧ c.val ≤ 122 then some (c.val - 71)
  else if 48 ≤ c.val ∧ c.val ≤ 57 then some (c.val + 4)
  else if c.val = 45 then some 62
  else if c.val = 95 then some 63
  else none

/-- `base64.urlsafe_b64encode(b).rstrip(b"=")` -/
def base64Encode : Bytes → PyStr
  | a :: b :: c :: rest =>
    let n := a.toNat * 65536 + b.toNat * 256 + c.toNat
    base64Char (n / 262144) :: base64Char (n / 4096 % 64) :: base64Char (n / 64 % 64) ::
      base64Char (n % 64) :: base64Encode rest
  | [a, b] =>
    let n := (a.toNat * 256 + b.toNat) * 4
    [base64Char (n / 4096), base64Char (n / 64 % 64), base64Char (n % 64)]
  | [a] =>
    let n := a.toNat * 16
    [base64Char (n / 64), base64Char (n % 64)]
  | [] => []

/-- The bytes of a sequence of six bits each; the bits left over at the end are dropped, and six bits
alone are `binascii.Error`. -/
def base64Decode : List ℕ → Option Bytes
  | a :: b :: c :: d :: rest =>
    let n := a * 262144 + b * 4096 + c * 64 + d
    (base64Decode rest).map fun bytes =>
      UInt8.ofNat (n / 65536) :: UInt8.ofNat (n / 256 % 256) :: UInt8.ofNat (n % 256) :: bytes
  | [a, b, c] =>
    let n := (a * 4096 + b * 64 + c) / 4
    some [UInt8.ofNat (n / 256), UInt8.ofNat (n % 256)]
  | [a, b] => some [UInt8.ofNat ((a * 64 + b) / 16)]
  | [_] => none
  | [] => some []

/-- A character that `base64Char` writes is read back. -/
lemma base64Value_char {n : ℕ} (hn : n < 64) : base64Value (base64Char n) = some n := by
  revert n
  decide +kernel

lemma sextets (n : ℕ) :
    n / 262144 * 262144 + n / 4096 % 64 * 4096 + n / 64 % 64 * 64 + n % 64 = n := by
  have h₂ : n / 4096 = n / 64 / 64 := (Nat.div_div_eq_div_mul n 64 64).symm
  have h₃ : n / 262144 = n / 64 / 64 / 64 := by rw [← h₂, Nat.div_div_eq_div_mul]
  rw [h₂, h₃]
  omega

lemma bytes_of_sum (a b c : UInt8) {n : ℕ} (hn : a.toNat * 65536 + b.toNat * 256 + c.toNat = n) :
    n < 16777216 ∧ UInt8.ofNat (n / 65536) = a ∧ UInt8.ofNat (n / 256 % 256) = b ∧
      UInt8.ofNat (n % 256) = c := by
  have ha := a.toNat_lt
  have hb := b.toNat_lt
  have hc := c.toNat_lt
  have h₁ : n / 65536 = a.toNat := by omega
  have h₂ : n / 256 % 256 = b.toNat := by omega
  have h₃ : n % 256 = c.toNat := by omega
  rw [h₁, h₂, h₃]
  exact ⟨by omega, UInt8.ofNat_toNat, UInt8.ofNat_toNat, UInt8.ofNat_toNat⟩

/-- **Base64 written is read back.** -/
theorem base64_roundTrip : ∀ b : Bytes,
    ∃ values, (base64Encode b).mapM base64Value = some values ∧ base64Decode values = some b
  | [] => ⟨[], rfl, rfl⟩
  | [a] => by
    have ha := a.toNat_lt
    have hb : UInt8.ofNat a.toNat = a := UInt8.ofNat_toNat
    refine ⟨[a.toNat * 16 / 64, a.toNat * 16 % 64], ?_, ?_⟩
    · simp only [base64Encode, List.mapM_cons, List.mapM_nil, base64Value_char, Nat.mod_lt,
        show a.toNat * 16 / 64 < 64 by omega, Nat.zero_lt_succ]
      rfl
    · simp only [base64Decode, Option.some.injEq, List.cons.injEq, and_true]
      rw [show (a.toNat * 16 / 64 * 64 + a.toNat * 16 % 64) / 16 = a.toNat by omega, hb]
  | [a, b] => by
    have ha := a.toNat_lt
    have hb := b.toNat_lt
    refine ⟨[(a.toNat * 256 + b.toNat) * 4 / 4096, (a.toNat * 256 + b.toNat) * 4 / 64 % 64,
      (a.toNat * 256 + b.toNat) * 4 % 64], ?_, ?_⟩
    · simp only [base64Encode, List.mapM_cons, List.mapM_nil, base64Value_char, Nat.mod_lt,
        show (a.toNat * 256 + b.toNat) * 4 / 4096 < 64 by omega, Nat.zero_lt_succ]
      rfl
    · generalize hn : a.toNat * 256 + b.toNat = n
      simp only [base64Decode, Option.some.injEq, List.cons.injEq, and_true]
      have h : (n * 4 / 4096 * 4096 + n * 4 / 64 % 64 * 64 + n * 4 % 64) / 4 = n := by omega
      rw [h, show n / 256 = a.toNat by omega, show n % 256 = b.toNat by omega]
      exact ⟨UInt8.ofNat_toNat, UInt8.ofNat_toNat⟩
  | a :: b :: c :: rest => by
    obtain ⟨values, hv, hd⟩ := base64_roundTrip rest
    generalize hn : a.toNat * 65536 + b.toNat * 256 + c.toNat = n
    obtain ⟨hlt, h₁, h₂, h₃⟩ := bytes_of_sum a b c hn
    have hq : n / 262144 < 64 := by omega
    refine ⟨n / 262144 :: n / 4096 % 64 :: n / 64 % 64 :: n % 64 :: values, ?_, ?_⟩
    · simp only [base64Encode, hn, List.mapM_cons, base64Value_char hq, base64Value_char (Nat.mod_lt _ _), hv,
        Nat.zero_lt_succ]
      rfl
    · simp only [base64Decode, hd, Option.map_some, sextets, h₁, h₂, h₃]

/-- The padding that is left off: three bytes are four characters. -/
lemma base64Encode_length : ∀ b : Bytes, (base64Encode b).length = (4 * b.length + 2) / 3
  | [] => rfl
  | [_] => by simp [base64Encode]
  | [_, _] => by simp [base64Encode]
  | _ :: _ :: _ :: rest => by
    have ih := base64Encode_length rest
    simp only [base64Encode, List.length_cons, ih]
    omega

/-! ### Tokens -/

/-- What `generate_token_bytes` draws. -/
abbrev Token := { b : Bytes // b.length = 32 }

/-- The token of one octet over and over. -/
def Token.replicate (x : UInt8) : Token := ⟨List.replicate 32 x, List.length_replicate⟩

def encodeToken (raw_token : Bytes) : Except TokenEncodingError PyStr :=
  if raw_token.length ≠ tokenBytes then .error .entropy
  else
    let encoded := base64Encode raw_token
    if encoded.length ≠ tokenEncodedLength then .error .encodedLength else .ok encoded

def decodeToken (encoded_token : PyStr) : Except TokenEncodingError Bytes :=
  if encoded_token.length ≠ tokenEncodedLength then .error .encodedLength
  else match encoded_token.mapM base64Value with
    | none => .error .alphabet
    | some values =>
      match base64Decode values with
      | none => .error .invalid
      | some decoded =>
        if decoded.length ≠ tokenBytes then .error .decodedLength
        else match encodeToken decoded with
          | .error x => .error x
          | .ok encoded => if encoded ≠ encoded_token then .error .notCanonical else .ok decoded

def hashSessionToken (raw_token : Bytes) : Except TokenEncodingError Digest :=
  if raw_token.length ≠ tokenBytes then .error .sessionToken else .ok (sha256 raw_token)

def csrfTokensMatch (expected supplied : Bytes) : Bool :=
  if expected.length ≠ tokenBytes ∨ supplied.length ≠ tokenBytes then false else expected = supplied

/-- `hash_session_token(decode_token(encoded_bearer))`, as `authenticate` and `logout` use it; `none`
is a missing or malformed token. -/
def bearerHash (encoded_bearer : Option PyStr) : Option Digest :=
  match encoded_bearer with
  | none => none
  | some encoded =>
    match decodeToken encoded with
    | .error _ => none
    | .ok raw =>
      match hashSessionToken raw with
      | .error _ => none
      | .ok digest => some digest

lemma encodeToken_eq (t : Token) : encodeToken t.1 = .ok (base64Encode t.1) := by
  have hlen := base64Encode_length t.1
  rw [t.2] at hlen
  simp [encodeToken, tokenBytes, tokenEncodedLength, t.2, hlen]

/-- **An encoded token is decoded.** -/
theorem decodeToken_encode (t : Token) : decodeToken (base64Encode t.1) = .ok t.1 := by
  obtain ⟨values, hv, hd⟩ := base64_roundTrip t.1
  have hlen := base64Encode_length t.1
  rw [t.2] at hlen
  simp [decodeToken, tokenBytes, tokenEncodedLength, hlen, hv, hd, t.2, encodeToken_eq]

/-- The token that was issued is the one whose hash is stored. -/
theorem bearerHash_encode (t : Token) : bearerHash (some (base64Encode t.1)) = some (sha256 t.1) := by
  simp [bearerHash, decodeToken_encode, hashSessionToken, tokenBytes, t.2]

/-! ### One spelling -/

/-- `[A-Za-z0-9_-]` -/
def isTokenChar (c : PyChar) : Bool :=
  (65 ≤ c.val && c.val ≤ 90) || (97 ≤ c.val && c.val ≤ 122) || (48 ≤ c.val && c.val ≤ 57) || c.val == 95 ||
    c.val == 45

lemma isTokenChar_base64Char (n : ℕ) : isTokenChar (base64Char n) = true := by
  unfold base64Char
  split
  · simp only [isTokenChar, Bool.or_eq_true, Bool.and_eq_true, decide_eq_true_eq]
    omega
  split
  · simp only [isTokenChar, Bool.or_eq_true, Bool.and_eq_true, decide_eq_true_eq]
    omega
  split
  · simp only [isTokenChar, Bool.or_eq_true, Bool.and_eq_true, decide_eq_true_eq]
    omega
  split <;> rfl

lemma isTokenChar_base64Encode : ∀ b : Bytes, ∀ c ∈ base64Encode b, isTokenChar c = true
  | [] => by simp [base64Encode]
  | [_] => by simp [base64Encode, isTokenChar_base64Char]
  | [_, _] => by simp [base64Encode, isTokenChar_base64Char]
  | _ :: _ :: _ :: rest => by
    have ih := isTokenChar_base64Encode rest
    simpa [base64Encode, isTokenChar_base64Char] using ih

lemma encodeToken_eq_ok {b : Bytes} {s : PyStr} : encodeToken b = .ok s ↔ b.length = 32 ∧ s = base64Encode b := by
  by_cases hlen : b.length = 32
  · rw [encodeToken_eq ⟨b, hlen⟩, Except.ok.injEq, eq_comm]
    exact ⟨fun h => ⟨hlen, h⟩, And.right⟩
  · have hne : b.length ≠ tokenBytes := hlen
    rw [encodeToken, if_pos hne]
    exact ⟨fun h => (nomatch h), fun h => absurd h.1 hlen⟩

/-- **A text is decoded to a token exactly if it is the encoding of that token.** -/
theorem decodeToken_eq_ok {s : PyStr} {b : Bytes} :
    decodeToken s = .ok b ↔ b.length = 32 ∧ s = base64Encode b := by
  constructor
  · intro h
    unfold decodeToken at h
    split at h
    · cases h
    split at h
    · cases h
    split at h
    · cases h
    next decoded _ =>
    split at h
    · cases h
    next hlen =>
    have hlen' : decoded.length = 32 := not_not.mp hlen
    rw [encodeToken_eq ⟨decoded, hlen'⟩] at h
    simp only at h
    split at h
    · cases h
    next hs =>
    cases h
    exact ⟨hlen', (not_not.mp hs).symm⟩
  · rintro ⟨hlen, rfl⟩
    exact decodeToken_encode ⟨b, hlen⟩

lemma bearerHash_eq_some {cookie : PyStr} {digest : Digest} :
    bearerHash (some cookie) = some digest ↔ ∃ t : Token, sha256 t.1 = digest ∧ decodeToken cookie = .ok t.1 := by
  constructor
  · intro h
    unfold bearerHash at h
    simp only at h
    split at h
    · cases h
    next raw hraw =>
    obtain ⟨hlen, -⟩ := decodeToken_eq_ok.mp hraw
    have hlen' : ¬ raw.length ≠ tokenBytes := not_not.mpr hlen
    rw [hashSessionToken, if_neg hlen'] at h
    exact ⟨⟨raw, hlen⟩, Option.some.inj h, hraw⟩
  · rintro ⟨t, rfl, hcookie⟩
    obtain ⟨-, rfl⟩ := decodeToken_eq_ok.mp hcookie
    exact bearerHash_encode t

lemma csrfTokensMatch_iff {expected supplied : Bytes} :
    csrfTokensMatch expected supplied = true ↔ expected = supplied ∧ expected.length = 32 := by
  unfold csrfTokensMatch tokenBytes
  split
  · next h =>
    constructor
    · intro h'
      cases h'
    · rintro ⟨rfl, hlen⟩
      simp [hlen] at h
  · next h =>
    rw [not_or, not_not, not_not] at h
    rw [decide_eq_true_eq]
    exact ⟨fun he => ⟨he, h.1⟩, fun he => he.1⟩

end DataCheck.Identity
