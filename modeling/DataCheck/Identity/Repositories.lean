import DataCheck.Identity.Models
import Mathlib.Data.Prod.Lex

/-!
# Identity repositories (`identity/repositories.py`)

Each method is one statement on the tables.
-/

namespace DataCheck.Identity

open Lib

structure UserCredentialSnapshot where
  user_id : Uuid
  password_hash : PyStr

structure ActiveSessionSnapshot where
  session_id : Uuid
  user_id : Uuid
  csrf_token : Bytes
  absolute_expires_at : Time
  deriving DecidableEq

/-- A constraint whose violation is an `IntegrityError`. -/
inductive Constraint where
  | primaryKey | foreignKey | check | uq_users_email_normalized | uq_sessions_token_hash
  deriving DecidableEq

namespace IdentityDb

/-! ### Users -/

/-- `UserRepository.add` -/
def insertUser (db : IdentityDb) (u : User) : Except Constraint IdentityDb :=
  if !u.checks then .error .check
  else if (db.users.find? u.id).isSome then .error .primaryKey
  else if db.users.rows.any fun v => v.email_normalized == u.email_normalized then
    .error .uq_users_email_normalized
  else .ok { db with users := db.users.put u }

/-- The UPDATE of a user that was read before. -/
def updateUser (db : IdentityDb) (u : User) : Except Constraint IdentityDb :=
  if !u.checks then .error .check else .ok { db with users := db.users.put u }

/-- `UserRepository.get_credentials_by_email` -/
def getCredentialsByEmail (db : IdentityDb) (email_normalized : PyStr) : Option UserCredentialSnapshot :=
  (db.users.rows.find? fun u => u.email_normalized = email_normalized).map fun u =>
    ⟨u.id, u.password_hash⟩

/-! ### Sessions -/

/-- `SessionRepository.add` -/
def insertSession (db : IdentityDb) (s : UserSession) : Except Constraint IdentityDb :=
  if !s.checks then .error .check
  else if (db.sessions.find? s.id).isSome then .error .primaryKey
  else if db.sessions.rows.any fun r => r.token_hash == s.token_hash then .error .uq_sessions_token_hash
  else if (db.users.find? s.user_id).isNone then .error .foreignKey
  else .ok { db with sessions := db.sessions.put s }

/-- The predicate of `authenticate_and_touch`. -/
def touchable (token_hash : Digest) (now : Time) (s : UserSession) : Bool :=
  s.token_hash = token_hash && s.revoked_at = none && now < s.absolute_expires_at &&
    now - idleTimeout < s.last_seen_at

/-- `SessionRepository.authenticate_and_touch`: the row touched, and the tables afterwards. -/
def authenticateAndTouch (db : IdentityDb) (token_hash : Digest) (now : Time) :
    Option (ActiveSessionSnapshot × IdentityDb) :=
  match db.sessions.rows.find? (touchable token_hash now) with
  | none => none
  | some s => some (⟨s.id, s.user_id, s.csrf_token, s.absolute_expires_at⟩,
      { db with sessions := db.sessions.put { s with last_seen_at := max s.last_seen_at now } })

/-- `SessionRepository.get_for_update_by_token_hash` -/
def getForUpdateByTokenHash (db : IdentityDb) (token_hash : Digest) : Option UserSession :=
  db.sessions.rows.find? fun s => s.token_hash = token_hash

/-- The predicate of `delete_inactive_batch`. -/
def inactive (now : Time) (s : UserSession) : Bool :=
  s.revoked_at ≠ none || s.absolute_expires_at ≤ now || s.last_seen_at ≤ now - idleTimeout

/-- The identifiers that `delete_inactive_batch` selects, `SKIP LOCKED`. -/
def inactiveBatch (db : IdentityDb) (locked : List Uuid) (now : Time) : List Uuid :=
  ((sortOn (fun s => toLex (s.absolute_expires_at, s.id))
    (db.sessions.select fun s => inactive now s && s.id ∉ locked)).take cleanupBatchSize).map
      UserSession.id

/-- `DELETE FROM sessions WHERE id IN (…)` -/
def deleteSessions (db : IdentityDb) (ids : List Uuid) : IdentityDb :=
  { db with sessions := ids.foldl Table.erase db.sessions }

end IdentityDb

end DataCheck.Identity
