import DataCheck.Identity.Repositories

/-!
# Sessions over time (`identity/service.py`)

Issuing, authenticating, revoking and deleting a session, each as one atomic step on the tables with
its own reading of the clock.  The readings need not be in order.
-/

namespace DataCheck.Identity

open Lib

inductive SessionState where
  | revoked | absoluteExpired | idleExpired | active
  deriving DecidableEq

inductive LogoutResult where
  | revoked | alreadyInactive
  deriving DecidableEq

def classifySession (s : UserSession) (now : Time) : SessionState :=
  if s.revoked_at ≠ none then .revoked
  else if s.absolute_expires_at ≤ now then .absoluteExpired
  else if s.last_seen_at ≤ now - idleTimeout then .idleExpired
  else .active

/-- What `_issue_session` draws. -/
structure SessionMaterial where
  id : Uuid
  raw_bearer : Token
  raw_csrf : Token

/-- The row of `_issue_session`. -/
def SessionMaterial.row (m : SessionMaterial) (user_id : Uuid) (now : Time) : UserSession :=
  .issue m.id user_id m.raw_bearer.1 m.raw_csrf.1 now

/-- The tables, and every session row that was made so far: bearer tokens and identifiers are drawn
fresh, also after the row that had them was deleted. -/
structure SessionStore where
  db : IdentityDb
  drawn : List UserSession

/-- A step on the sessions: the transaction of a call that writes them. -/
inductive SessionCall where
  | register (user_id : Uuid) (canonical_email : CanonicalEmail) (password_hash : PyStr)
      (material : SessionMaterial) (now : Time)
  /-- `login`, and what `_utc_now()` gives a column with `onupdate=_utc_now`. -/
  | login (snapshot : UserCredentialSnapshot) (replacement_hash : Option PyStr)
      (material : SessionMaterial) (now utc_now : Time)
  | authenticate (encoded_bearer : Option PyStr) (now : Time)
  | logout (encoded_bearer : Option PyStr) (supplied_csrf_token : Option Bytes) (now : Time)
  /-- `cleanup_inactive_sessions`, while other transactions hold the rows `locked`. -/
  | cleanup (locked : List Uuid) (now : Time)

inductive SessionReply where
  | issued (s : UserSession)
  | authenticated (context : ActiveSessionSnapshot)
  | logout (result : LogoutResult)
  | deleted (n : ℕ)
  | duplicateIdentity
  | invalidCredentials
  | authenticationRequired
  | invalidCsrf
  | integrityError (c : Constraint)
  deriving DecidableEq

/-- The session row that a step tries to insert. -/
def SessionCall.row : SessionCall → Option UserSession
  | .register user_id _ _ material now => some (material.row user_id now)
  | .login snapshot _ material now _ => some (material.row snapshot.user_id now)
  | _ => none

namespace IdentityDb

variable (db : IdentityDb)

/-- The transaction of `register`. -/
def register (user : User) (row : UserSession) : SessionReply × IdentityDb :=
  match db.insertUser user with
  | .error .uq_users_email_normalized => (.duplicateIdentity, db)
  | .error c => (.integrityError c, db)
  | .ok db' =>
    match db'.insertSession row with
    | .error c => (.integrityError c, db)
    | .ok db'' => (.issued row, db'')

/-- The user row that the second transaction of `login` writes. -/
def rehashed (user : User) (replacement_hash : Option PyStr) (now utc_now : Time) : User :=
  match replacement_hash with
  | some password_hash =>
    -- a value that is already stored is not assigned, and `onupdate=_utc_now` fills the column
    let onupdate := decide (now = user.updated_at ∧ password_hash ≠ user.password_hash)
    { user with password_hash, updated_at := if onupdate then utc_now else now }
  | none => user

/-- The second transaction of `login`. -/
def login (snapshot : UserCredentialSnapshot) (replacement_hash : Option PyStr) (row : UserSession)
    (now utc_now : Time) : SessionReply × IdentityDb :=
  match db.users.find? snapshot.user_id with
  | none => (.invalidCredentials, db)
  | some user =>
    if user.password_hash ≠ snapshot.password_hash then (.invalidCredentials, db)
    else match db.updateUser (rehashed user replacement_hash now utc_now) with
      | .error c => (.integrityError c, db)
      | .ok db' =>
        match db'.insertSession row with
        | .error c => (.integrityError c, db)
        | .ok db'' => (.issued row, db'')

def authenticate (encoded_bearer : Option PyStr) (now : Time) : SessionReply × IdentityDb :=
  match bearerHash encoded_bearer with
  | none => (.authenticationRequired, db)
  | some token_hash =>
    match db.authenticateAndTouch token_hash now with
    | none => (.authenticationRequired, db)
    | some (active_session, db') =>
      match db'.users.find? active_session.user_id with
      | none => (.authenticationRequired, db)
      | some _ => (.authenticated active_session, db')

def logout (encoded_bearer : Option PyStr) (supplied_csrf_token : Option Bytes) (now : Time) :
    SessionReply × IdentityDb :=
  match bearerHash encoded_bearer with
  | none => (.logout .alreadyInactive, db)
  | some token_hash =>
    match db.getForUpdateByTokenHash token_hash with
    | none => (.logout .alreadyInactive, db)
    | some user_session =>
      if classifySession user_session now ≠ .active then (.logout .alreadyInactive, db)
      else match supplied_csrf_token with
        | none => (.invalidCsrf, db)
        | some supplied =>
          if csrfTokensMatch user_session.csrf_token supplied = false then (.invalidCsrf, db)
          else
            let row := { user_session with revoked_at := some now }
            -- the clock may read a time before the session was created
            if !row.checks then (.integrityError .check, db)
            else (.logout .revoked, { db with sessions := db.sessions.put row })

/-- `IdentityService.cleanup_inactive_sessions` -/
def cleanup (locked : List Uuid) (now : Time) : SessionReply × IdentityDb :=
  let session_ids := db.inactiveBatch locked now
  (.deleted session_ids.length, db.deleteSessions session_ids)

end IdentityDb

namespace SessionStore

/-- The identifier or the token of a row was drawn before. -/
def stale (st : SessionStore) (row : UserSession) : Bool :=
  st.drawn.any fun s => s.id == row.id || s.token_hash == row.token_hash

/-- What a step does to the tables. -/
def perform (st : SessionStore) : SessionCall → SessionReply × IdentityDb
  | .register user_id canonical_email password_hash material now =>
    st.db.register (.register user_id canonical_email password_hash now) (material.row user_id now)
  | .login snapshot replacement_hash material now utc_now =>
    st.db.login snapshot replacement_hash (material.row snapshot.user_id now) now utc_now
  | .authenticate encoded_bearer now => st.db.authenticate encoded_bearer now
  | .logout encoded_bearer supplied_csrf_token now =>
    st.db.logout encoded_bearer supplied_csrf_token now
  | .cleanup locked now => st.db.cleanup locked now

/-- One step; `none` where what is drawn is not fresh. -/
def step (st : SessionStore) (call : SessionCall) : Option (SessionReply × SessionStore) :=
  if call.row.any st.stale then none
  else
    let out := st.perform call
    some (out.1, ⟨out.2, call.row.toList ++ st.drawn⟩)

def start (users : Table Uuid User User.id) : SessionStore := ⟨⟨users, .empty⟩, []⟩

end SessionStore

/-! ### What one step does -/

/-- What a step does to the sessions. -/
inductive Stepped (db : IdentityDb) : SessionCall → SessionReply → IdentityDb → Prop
  /-- Nothing. -/
  | refused {call : SessionCall} {reply : SessionReply} (hi : ∀ s, reply ≠ .issued s)
      (ha : ∀ context, reply ≠ .authenticated context) (hl : reply ≠ .logout .revoked) :
      Stepped db call reply db
  /-- A session is inserted. -/
  | issued {call : SessionCall} {row : UserSession} (users : Table Uuid User User.id)
      (hrow : call.row = some row) (hchecks : row.checks = true) :
      Stepped db call (.issued row) ⟨users, db.sessions.put row⟩
  /-- A session is touched. -/
  | touched {encoded_bearer : Option PyStr} {now : Time} {s : UserSession} (hs : s ∈ db.sessions)
      (htoken : bearerHash encoded_bearer = some s.token_hash)
      (htouch : IdentityDb.touchable s.token_hash now s = true) :
      Stepped db (.authenticate encoded_bearer now)
        (.authenticated ⟨s.id, s.user_id, s.csrf_token, s.absolute_expires_at⟩)
        ⟨db.users, db.sessions.put { s with last_seen_at := max s.last_seen_at now }⟩
  /-- A session is revoked. -/
  | revoked {encoded_bearer : Option PyStr} {supplied : Bytes} {now : Time} {s : UserSession}
      (hs : s ∈ db.sessions) (htoken : bearerHash encoded_bearer = some s.token_hash)
      (hactive : classifySession s now = .active) (hcsrf : csrfTokensMatch s.csrf_token supplied = true)
      (hchecks : ({ s with revoked_at := some now } : UserSession).checks = true) :
      Stepped db (.logout encoded_bearer (some supplied) now) (.logout .revoked)
        ⟨db.users, db.sessions.put { s with revoked_at := some now }⟩
  /-- Sessions are deleted. -/
  | deleted {locked : List Uuid} {now : Time} :
      Stepped db (.cleanup locked now) (.deleted (db.inactiveBatch locked now).length)
        (db.deleteSessions (db.inactiveBatch locked now))

variable {db db' : IdentityDb}

namespace IdentityDb

lemma updateUser_ok {u : User} (h : db.updateUser u = .ok db') :
    u.checks = true ∧ db' = { db with users := db.users.put u } := by
  unfold updateUser at h
  split at h
  · cases h
  · next hc =>
    cases h
    exact ⟨by simpa using hc, rfl⟩

lemma insertUser_ok {u : User} (h : db.insertUser u = .ok db') :
    db' = { db with users := db.users.put u } := by
  unfold insertUser at h
  repeat' split at h
  all_goals first
    | cases h
      done
    | cases h
      rfl

lemma insertSession_ok {s : UserSession} (h : db.insertSession s = .ok db') :
    s.checks = true ∧ db' = { db with sessions := db.sessions.put s } := by
  unfold insertSession at h
  split at h
  · cases h
  · next hc =>
    refine ⟨by simpa using hc, ?_⟩
    repeat' split at h
    all_goals first
      | cases h
        done
      | cases h
        rfl

lemma register_stepped {call : SessionCall} {user : User} {row : UserSession}
    (hrow : call.row = some row) : Stepped db call (db.register user row).1 (db.register user row).2 := by
  unfold register
  split
  · exact .refused (by simp) (by simp) (by simp)
  · exact .refused (by simp) (by simp) (by simp)
  · next db₁ hu =>
    split
    · exact .refused (by simp) (by simp) (by simp)
    · next db₂ hs =>
      obtain ⟨hchecks, rfl⟩ := insertSession_ok hs
      rw [insertUser_ok hu]
      exact .issued _ hrow hchecks

lemma login_stepped {call : SessionCall} {snapshot : UserCredentialSnapshot}
    {replacement_hash : Option PyStr} {row : UserSession} {now utc_now : Time} (hrow : call.row = some row) :
    Stepped db call (db.login snapshot replacement_hash row now utc_now).1
      (db.login snapshot replacement_hash row now utc_now).2 := by
  unfold login
  split
  · exact .refused (by simp) (by simp) (by simp)
  · split
    · exact .refused (by simp) (by simp) (by simp)
    · split
      · exact .refused (by simp) (by simp) (by simp)
      · next db₁ hu =>
        split
        · exact .refused (by simp) (by simp) (by simp)
        · next db₂ hs =>
          obtain ⟨hchecks, rfl⟩ := insertSession_ok hs
          rw [(updateUser_ok hu).2]
          exact .issued _ hrow hchecks

lemma authenticate_stepped (encoded_bearer : Option PyStr) (now : Time) :
    Stepped db (.authenticate encoded_bearer now) (db.authenticate encoded_bearer now).1
      (db.authenticate encoded_bearer now).2 := by
  unfold authenticate
  split
  · exact .refused (by simp) (by simp) (by simp)
  · next token_hash htoken =>
    split
    · exact .refused (by simp) (by simp) (by simp)
    · next active_session db' hat =>
      split
      · exact .refused (by simp) (by simp) (by simp)
      · unfold authenticateAndTouch at hat
        split at hat
        · cases hat
        · next s hfind =>
          cases hat
          have htouch := List.find?_some hfind
          have hhash : s.token_hash = token_hash := by
            simp only [touchable, Bool.and_eq_true, decide_eq_true_eq] at htouch
            exact htouch.1.1.1
          subst hhash
          exact .touched (List.mem_of_find?_eq_some hfind) htoken htouch

lemma authenticate_reply (encoded_bearer : Option PyStr) (now : Time) :
    (db.authenticate encoded_bearer now).1 = .authenticationRequired ∨
      ∃ context, (db.authenticate encoded_bearer now).1 = .authenticated context := by
  unfold authenticate
  split
  · exact Or.inl rfl
  · split
    · exact Or.inl rfl
    · split
      · exact Or.inl rfl
      · exact Or.inr ⟨_, rfl⟩

lemma logout_stepped (encoded_bearer : Option PyStr) (supplied_csrf_token : Option Bytes) (now : Time) :
    Stepped db (.logout encoded_bearer supplied_csrf_token now)
      (db.logout encoded_bearer supplied_csrf_token now).1
      (db.logout encoded_bearer supplied_csrf_token now).2 := by
  unfold logout
  split
  · exact .refused (by simp) (by simp) (by simp)
  · next token_hash htoken =>
    split
    · exact .refused (by simp) (by simp) (by simp)
    · next s hfind =>
      split
      · exact .refused (by simp) (by simp) (by simp)
      · next hactive =>
        split
        · exact .refused (by simp) (by simp) (by simp)
        · next supplied =>
          split
          · exact .refused (by simp) (by simp) (by simp)
          · next hcsrf =>
            dsimp only
            split
            · exact .refused (by simp) (by simp) (by simp)
            · next hchecks =>
              have hhash : s.token_hash = token_hash := by simpa using List.find?_some hfind
              subst hhash
              exact .revoked (List.mem_of_find?_eq_some hfind) htoken (not_not.mp hactive)
                (by simpa using hcsrf) (by simpa using hchecks)

end IdentityDb

/-- **What a step does to the sessions is one of these.** -/
theorem SessionStore.perform_cases (st : SessionStore) (call : SessionCall) :
    Stepped st.db call (st.perform call).1 (st.perform call).2 := by
  cases call with
  | register => exact IdentityDb.register_stepped rfl
  | login => exact IdentityDb.login_stepped rfl
  | authenticate => exact IdentityDb.authenticate_stepped _ _
  | logout => exact IdentityDb.logout_stepped _ _ _
  | cleanup => exact .deleted

/-- A step draws a fresh row or none, and does one of these to the sessions. -/
theorem SessionStore.step_cases {st st' : SessionStore} {call : SessionCall} {reply : SessionReply}
    (h : st.step call = some (reply, st')) : Stepped st.db call reply st'.db ∧
      st'.drawn = call.row.toList ++ st.drawn ∧
      ∀ row, call.row = some row → ∀ s ∈ st.drawn, s.id ≠ row.id ∧ s.token_hash ≠ row.token_hash := by
  unfold step at h
  split at h
  · cases h
  · next hfresh =>
    cases h
    refine ⟨st.perform_cases call, rfl, fun row hrow s hs => ?_⟩
    rw [hrow, Option.any_some] at hfresh
    simp only [stale, List.any_eq_true, Bool.or_eq_true, beq_iff_eq, not_exists, not_and, not_or] at hfresh
    exact hfresh s hs

end DataCheck.Identity
