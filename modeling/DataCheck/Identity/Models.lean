import DataCheck.External
import DataCheck.Identity.Email
import DataCheck.Identity.Tokens
import DataCheck.Lib.Table
import Mathlib.Algebra.GroupWithZero.Nat

/-!
# Identity rows (`identity/models.py`)
-/

namespace DataCheck.Identity

open Lib

/-- A row of `users`. -/
structure User where
  id : Uuid
  email : PyStr
  email_normalized : PyStr
  password_hash : PyStr
  created_at : Time
  updated_at : Time

/-- A row of `sessions`. -/
structure UserSession where
  id : Uuid
  user_id : Uuid
  token_hash : Digest
  csrf_token : Bytes
  created_at : Time
  last_seen_at : Time
  absolute_expires_at : Time
  revoked_at : Option Time
  deriving DecidableEq

/-- `timedelta(hours=n)`, in microseconds. -/
def hours (n : ℤ) : Time := n * 3600000000

def idleTimeout : Time := hours 2
def absoluteTimeout : Time := hours 12
def cleanupBatchSize : ℕ := 100

/-- The number of octets of a text in UTF-8. -/
def octetLength (s : PyStr) : ℕ :=
  (s.map fun c => if c.val < 0x80 then 1 else if c.val < 0x800 then 2 else if c.val < 0x10000 then 3
    else 4).sum

lemma octetLength_ascii {s : PyStr} (h : ∀ c ∈ s, c.val < 128) : octetLength s = s.length := by
  have hone : ∀ c ∈ s, (if c.val < 0x80 then 1 else if c.val < 0x800 then 2 else if c.val < 0x10000 then 3
      else 4) = 1 := fun c hc => if_pos (h c hc)
  rw [octetLength, List.map_congr_left hone]
  simp

namespace User

/-- The CHECK constraints of `users`. -/
def checks (u : User) : Bool :=
  3 ≤ octetLength u.email && octetLength u.email ≤ 254 && 3 ≤ octetLength u.email_normalized &&
    octetLength u.email_normalized ≤ 254 &&
    u.email_normalized == u.email_normalized.map PyStr.asciiLower && u.created_at ≤ u.updated_at

/-- The row that `register` makes. -/
def register (id : Uuid) (canonical_email : CanonicalEmail) (password_hash : PyStr) (now : Time) : User where
  id
  email := canonical_email.email
  email_normalized := canonical_email.email_normalized
  password_hash
  created_at := now
  updated_at := now

/-- The constraints accept the row that `register` makes. -/
lemma checks_register {c : CanonicalEmail} (hc : c.Canonical) (id : Uuid) (password_hash : PyStr) (now : Time) :
    (register id c password_hash now).checks = true := by
  have hlower : c.email_normalized.map PyStr.asciiLower = c.email_normalized := by
    rw [hc.normalized, List.map_map]
    exact List.map_congr_left fun x _ => PyStr.asciiLower_asciiLower x
  have hascii : ∀ x ∈ c.email_normalized, x.val < 128 := by
    rw [hc.normalized]
    exact List.forall_mem_map.mpr fun x hx => PyStr.asciiLower_lt (hc.ascii x hx)
  have hlen : c.email_normalized.length = c.email.length := by rw [hc.normalized, List.length_map]
  simp only [checks, register, octetLength_ascii hc.ascii, octetLength_ascii hascii, hlen, hlower, hc.length.1,
    hc.length.2, decide_true, beq_self_eq_true, le_refl, Bool.and_self]

/-- A row may be written again with a new hash, at or after its creation. -/
lemma checks_update {u : User} (hu : u.checks = true) (password_hash : PyStr) {now : Time}
    (hnow : u.created_at ≤ now) : ({ u with password_hash, updated_at := now } : User).checks = true := by
  simp only [checks, Bool.and_eq_true, decide_eq_true_eq] at hu ⊢
  exact ⟨hu.1, hnow⟩

end User

namespace UserSession

/-- The CHECK constraints of `sessions`. -/
def checks (s : UserSession) : Bool :=
  s.token_hash.1.length == 32 && s.csrf_token.length == 32 && s.created_at ≤ s.last_seen_at &&
    s.last_seen_at ≤ s.absolute_expires_at && s.absolute_expires_at == s.created_at + hours 12 &&
    s.revoked_at.all fun r => s.created_at ≤ r

/-- The row that `_issue_session` makes. -/
def issue (id user_id : Uuid) (raw_bearer raw_csrf : Bytes) (now : Time) : UserSession where
  id
  user_id
  token_hash := sha256 raw_bearer
  csrf_token := raw_csrf
  created_at := now
  last_seen_at := now
  absolute_expires_at := now + absoluteTimeout
  revoked_at := none

/-- The constraints accept the row that `_issue_session` makes. -/
lemma checks_issue (id user_id : Uuid) {raw_bearer raw_csrf : Bytes} (hc : raw_csrf.length = 32) (now : Time) :
    (issue id user_id raw_bearer raw_csrf now).checks = true := by
  have habs : now ≤ now + hours 12 := Int.le_add_of_nonneg_right (by decide)
  simp [checks, issue, absoluteTimeout, hc, habs, (sha256 raw_bearer).2]

end UserSession

/-- The tables of users and sessions. -/
structure IdentityDb where
  users : Table Uuid User User.id
  sessions : Table Uuid UserSession UserSession.id

end DataCheck.Identity
