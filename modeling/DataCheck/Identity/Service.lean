import DataCheck.Identity.Passwords
import DataCheck.Identity.Sessions
import DataCheck.Lib.Solo

/-!
# Registering and logging in (`identity/service.py`)

The two methods as programs.  Their effects are readings of the clock, random draws, the hash of a
password, and one effect for each transaction.
-/

namespace DataCheck.Identity

open Lib

/-! ### References -/

structure UserReference where
  user_id : Uuid
  email : PyStr
  created_at : Time
  updated_at : Time
  deriving DecidableEq

structure SessionIssuance where
  user : UserReference
  session_id : Uuid
  bearer_token : PyStr
  csrf_token : PyStr
  absolute_expires_at : Time
  deriving DecidableEq

/-- The `UserReference` of a row. -/
def User.reference (u : User) : UserReference := ⟨u.id, u.email, u.created_at, u.updated_at⟩

/-- The `SessionIssuance` of a row and the tokens that were drawn for it. -/
def SessionMaterial.issuance (m : SessionMaterial) (user : UserReference) (row : UserSession) : SessionIssuance where
  user
  session_id := row.id
  bearer_token := base64Encode m.raw_bearer.1
  csrf_token := base64Encode m.raw_csrf.1
  absolute_expires_at := row.absolute_expires_at

/-- The exceptions of the service. -/
inductive IdentityExn where
  | emailPolicy (x : EmailPolicyError)
  | passwordPolicy (x : PasswordPolicyError)
  | malformedPasswordHash
  | duplicateIdentity
  | invalidCredentials
  | integrity (c : Constraint)
  deriving DecidableEq

/-! ### Transactions -/

namespace IdentityDb

variable (db : IdentityDb)

/-- The transaction of `register`: the user and its session. -/
def addIdentity (user : User) (row : UserSession) : Except Constraint IdentityDb := do
  let db ← db.insertUser user
  db.insertSession row

/-- The second transaction of `login`. -/
def addLogin (snapshot : UserCredentialSnapshot) (replacement_hash : Option PyStr) (row : UserSession)
    (now utc_now : Time) : Except IdentityExn (UserReference × IdentityDb) :=
  match db.users.find? snapshot.user_id with
  | none => .error .invalidCredentials
  | some user =>
    if user.password_hash ≠ snapshot.password_hash then .error .invalidCredentials
    else do
      let user := rehashed user replacement_hash now utc_now
      let db ← (db.updateUser user).mapError .integrity
      let db ← (db.insertSession row).mapError .integrity
      .ok (user.reference, db)

variable {db}

/-- The transaction of `register` as a step of the sessions. -/
theorem register_eq (user : User) (row : UserSession) : db.register user row =
    match db.addIdentity user row with
    | .ok db' => (.issued row, db')
    | .error .uq_users_email_normalized => (.duplicateIdentity, db)
    | .error c => (.integrityError c, db) := by
  have hsession : ∀ {db' : IdentityDb}, db'.insertSession row ≠ .error .uq_users_email_normalized := by
    intro db' h
    unfold insertSession at h
    repeat' split at h
    all_goals cases h
  unfold register addIdentity
  cases hu : db.insertUser user with
  | error c => cases c <;> rfl
  | ok db' =>
    simp only [bind, Except.bind]
    cases hs : db'.insertSession row with
    | ok db'' => rfl
    | error c =>
      cases c with
      | uq_users_email_normalized => exact absurd hs hsession
      | _ => rfl

/-- The second transaction of `login` as a step of the sessions. -/
theorem login_eq (snapshot : UserCredentialSnapshot) (replacement_hash : Option PyStr) (row : UserSession)
    (now utc_now : Time) : db.login snapshot replacement_hash row now utc_now =
      match db.addLogin snapshot replacement_hash row now utc_now with
      | .ok (_, db') => (.issued row, db')
      | .error (.integrity c) => (.integrityError c, db)
      | .error _ => (.invalidCredentials, db) := by
  unfold login addLogin
  cases db.users.find? snapshot.user_id with
  | none => rfl
  | some user =>
    dsimp only
    split
    · rfl
    · cases hu : db.updateUser (rehashed user replacement_hash now utc_now) with
      | error c => rfl
      | ok db' =>
        cases hs : db'.insertSession row with
        | error c => simp only [Except.mapError, bind, Except.bind, hs]
        | ok db'' => simp only [Except.mapError, bind, Except.bind, hs]

end IdentityDb

/-! ### Effects -/

/-- What the methods do to the world. -/
inductive IdentityEff (Profile : Type) where
  /-- `self._clock()` -/
  | now
  /-- `uuid.uuid4()` -/
  | uuid4
  /-- `generate_token_bytes()` -/
  | tokenBytes
  /-- `self._hasher.hash(password)` -/
  | hash (profile : Profile) (password : PyStr)
  /-- The first transaction of `login`. -/
  | getCredentialsByEmail (email_normalized : PyStr)
  /-- The transaction of `register`. -/
  | addIdentity (user : User) (row : UserSession)
  /-- The second transaction of `login`. -/
  | addLogin (snapshot : UserCredentialSnapshot) (replacement_hash : Option PyStr) (row : UserSession) (now : Time)
  /-- `cleanup_inactive_sessions(now=now)` -/
  | cleanup (now : Time)

def IdentityEff.Resp {Profile : Type} : IdentityEff Profile → Type
  | .now => Time
  | .uuid4 => Uuid
  | .tokenBytes => Token
  | .hash .. => PyStr
  | .getCredentialsByEmail _ => Option UserCredentialSnapshot
  | .addIdentity .. => Unit
  | .addLogin .. => UserReference
  | .cleanup _ => ℕ

/-! ### The methods -/

abbrev Method (Profile α : Type) : Type := Op (IdentityEff Profile) IdentityEff.Resp IdentityExn Unit α

/-- The fields of an `IdentityService`: the parameters of its hasher, and the hash of the dummy
password. -/
structure IdentityService (Profile : Type) where
  profile : Profile
  dummy_password_hash : PyStr

namespace Method

variable {Profile α : Type}

def perform (e : IdentityEff Profile) : Method Profile e.Resp := Op.perform e

/-- `raise x` -/
def raise (x : IdentityExn) : Method Profile α := Op.raise x

def now : Method Profile Time := perform .now

def uuid4 : Method Profile Uuid := perform .uuid4

/-- `generate_token_bytes()` -/
def tokenBytes : Method Profile Token := perform .tokenBytes

end Method

section Methods

variable {Profile Salt : Type} (U : Unicode) (H : Hasher Profile Salt) (self : IdentityService Profile)

/-- `PasswordService.normalize_and_validate` -/
def validPassword (password : PyStr) : Method Profile PyStr :=
  Op.ofExcept ((normalizeAndValidate U password).mapError .passwordPolicy)

/-- `PasswordService.hash` -/
def hashPassword (password : PyStr) : Method Profile PyStr := do
  let normalized ← validPassword U password
  Method.perform (.hash self.profile normalized)

def verify (encoded_hash password : PyStr) : Method Profile PasswordVerification :=
  Op.ofExcept ((verifyPassword U H self.profile encoded_hash password).mapError .passwordPolicy)

def checkNeedsRehash (encoded_hash : PyStr) : Method Profile Bool :=
  match H.checkNeedsRehash self.profile encoded_hash with
  | some needs => Op.pure needs
  | none => Method.raise .malformedPasswordHash

def verifyDummy (normalized_password : PyStr) : Method Profile Unit := do
  let _ ← verify U H self self.dummy_password_hash normalized_password
  pure ()

/-- What `_issue_session` draws. -/
def issueSession : Method Profile SessionMaterial := do
  let raw_bearer ← Method.tokenBytes
  let raw_csrf ← Method.tokenBytes
  let id ← Method.uuid4
  pure ⟨id, raw_bearer, raw_csrf⟩

def cleanupAfterSuccess (now : Time) : Method Profile Unit := do
  let _ ← (Method.perform (.cleanup now)).catching fun
    -- a `SQLAlchemyError`
    | .integrity _ => Op.pure (0 : ℕ)
    | x => Method.raise x
  pure ()

def register (email password : PyStr) : Method Profile SessionIssuance := do
  let canonical_email ← Op.ofExcept ((canonicalizeEmail email).mapError .emailPolicy)
  let normalized_password ← validPassword U password
  let password_hash ← hashPassword U self normalized_password
  let now ← Method.now
  let id ← Method.uuid4
  let user := User.register id canonical_email password_hash now
  let material ← issueSession
  let row := material.row user.id now
  (Method.perform (.addIdentity user row)).catching fun
    | .integrity .uq_users_email_normalized => Method.raise .duplicateIdentity
    | x => Method.raise x
  let result := material.issuance user.reference row
  cleanupAfterSuccess now
  pure result

/-- `replacement_hash` of `login` -/
def replacementHash (snapshot : UserCredentialSnapshot) (normalized_password : PyStr) :
    Method Profile (Option PyStr) := do
  let needs ← checkNeedsRehash H self snapshot.password_hash
  if needs then do
    let password_hash : PyStr ← hashPassword U self normalized_password
    pure (some password_hash)
  else pure none

/-- `login` after the credentials were read and the password was verified. -/
def issueLogin (snapshot : UserCredentialSnapshot) (normalized_password : PyStr) :
    Method Profile SessionIssuance := do
  let replacement_hash ← replacementHash U H self snapshot normalized_password
  let now ← Method.now
  let material ← issueSession
  let row := material.row snapshot.user_id now
  let user_reference : UserReference ← Method.perform (.addLogin snapshot replacement_hash row now)
  let result := material.issuance user_reference row
  cleanupAfterSuccess now
  pure result

def login (email password : PyStr) : Method Profile SessionIssuance := do
  let normalized_password ← validPassword U password
  match canonicalizeEmail email with
  | .error _ => do
    verifyDummy U H self normalized_password
    Method.raise .invalidCredentials
  | .ok canonical_email => do
    let snapshot : Option UserCredentialSnapshot ←
      Method.perform (.getCredentialsByEmail canonical_email.email_normalized)
    match snapshot with
    | none => do
      verifyDummy U H self normalized_password
      Method.raise .invalidCredentials
    | some snapshot => do
      match ← verify U H self snapshot.password_hash normalized_password with
      | .mismatch => Method.raise .invalidCredentials
      | .malformed => do
        verifyDummy U H self normalized_password
        Method.raise .invalidCredentials
      | .isMatch => issueLogin U H self snapshot normalized_password

end Methods

end DataCheck.Identity
