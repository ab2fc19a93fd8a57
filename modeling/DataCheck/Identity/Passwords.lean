import DataCheck.External

/-!
# Passwords (`identity/passwords.py`)

Argon2 is a parameter.
-/

namespace DataCheck.Identity

open Lib

/-- The exceptions of `argon2.PasswordHasher`. -/
inductive Argon2Error where
  | verifyMismatch | verification | invalidHash
  deriving DecidableEq

/-- What the code calls of `argon2.PasswordHasher`, by the parameters of the hasher. -/
structure Hasher (Profile Salt : Type) where
  /-- `hash(password)`, with the salt that it draws. -/
  hash : Profile → Salt → PyStr → PyStr
  /-- `verify(hash, password)` -/
  verify : Profile → PyStr → PyStr → Except Argon2Error Unit
  /-- `check_needs_rehash(hash)`; `none` is an `InvalidHashError`. -/
  checkNeedsRehash : Profile → PyStr → Option Bool

def minPasswordLength : ℕ := 15
def maxPasswordLength : ℕ := 128

/-- `PasswordPolicyError`, by its message. -/
inductive PasswordPolicyError where
  | utf8 | length
  deriving DecidableEq

inductive PasswordVerification where
  | isMatch | mismatch | malformed
  deriving DecidableEq

/-- A lone surrogate: `encode("utf-8")` raises `UnicodeEncodeError`. -/
def isSurrogate (c : PyChar) : Bool := 0xD800 ≤ c.val && c.val ≤ 0xDFFF

/-- `PasswordService.normalize_and_validate` -/
def normalizeAndValidate (U : Unicode) (password : PyStr) : Except PasswordPolicyError PyStr :=
  let normalized := U.nfc password
  if normalized.any isSurrogate then .error .utf8
  else if !(minPasswordLength ≤ normalized.length && normalized.length ≤ maxPasswordLength) then
    .error .length
  else .ok normalized

variable {Profile Salt : Type}

/-- `PasswordService.verify` -/
def verifyPassword (U : Unicode) (H : Hasher Profile Salt) (profile : Profile) (encoded_hash password : PyStr) :
    Except PasswordPolicyError PasswordVerification := do
  let normalized ← normalizeAndValidate U password
  match H.verify profile encoded_hash normalized with
  | .error .verifyMismatch => .ok .mismatch
  | .error .invalidHash | .error .verification => .ok .malformed
  | .ok () => .ok .isMatch

/-! ### What holds of them -/

/-- NFC is idempotent. -/
def NfcIdempotent (U : Unicode) : Prop := ∀ s, U.nfc (U.nfc s) = U.nfc s

/-- The hash was made from the password, under some parameters. -/
def Produced (H : Hasher Profile Salt) (encoded_hash password : PyStr) : Prop :=
  ∃ profile salt, encoded_hash = H.hash profile salt password

/-- An ideal hasher verifies exactly the password that was hashed, and reads the hashes it made. -/
structure Hasher.Ideal (H : Hasher Profile Salt) : Prop where
  verify_iff : ∀ {encoded_hash password}, Produced H encoded_hash password → ∀ profile candidate,
    H.verify profile encoded_hash candidate = .ok () ↔ candidate = password
  readable : ∀ {encoded_hash password}, Produced H encoded_hash password → ∀ profile,
    ∃ needs, H.checkNeedsRehash profile encoded_hash = some needs

variable {U : Unicode} {H : Hasher Profile Salt} {password normalized : PyStr}

lemma normalizeAndValidate_ok (h : normalizeAndValidate U password = .ok normalized) :
    normalized = U.nfc password := by
  simp only [normalizeAndValidate] at h
  split at h
  · cases h
  · split at h <;> cases h
    rfl

/-- A password that was normalized and validated stays as it is. -/
theorem normalizeAndValidate_again (hU : NfcIdempotent U) (h : normalizeAndValidate U password = .ok normalized) :
    normalizeAndValidate U normalized = .ok normalized := by
  obtain rfl := normalizeAndValidate_ok h
  refine Eq.trans ?_ h
  simp only [normalizeAndValidate, hU password]

theorem verifyPassword_of_ok (hU : NfcIdempotent U) (h : normalizeAndValidate U password = .ok normalized)
    (profile : Profile) (encoded_hash : PyStr) :
    ∃ verification, verifyPassword U H profile encoded_hash normalized = .ok verification ∧
      (verification = .isMatch ↔ H.verify profile encoded_hash normalized = .ok ()) := by
  have hagain : verifyPassword U H profile encoded_hash normalized =
      match H.verify profile encoded_hash normalized with
      | .error .verifyMismatch => .ok .mismatch
      | .error .invalidHash | .error .verification => .ok .malformed
      | .ok () => .ok .isMatch := by
    rw [verifyPassword, normalizeAndValidate_again hU h]
    rfl
  rw [hagain]
  cases H.verify profile encoded_hash normalized with
  | ok u => exact ⟨.isMatch, rfl, by simp⟩
  | error x => cases x <;> exact ⟨_, rfl, by simp⟩

end DataCheck.Identity
