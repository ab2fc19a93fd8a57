import DataCheck.Identity.Service

/-!
# The state that registrations and logins share

The tables, and what was drawn so far.  Every transaction is atomic: it is serialized by the row that
it locks or by the constraint that it would violate.
-/

namespace DataCheck.Identity

open Lib

/-- The tables, the last reading of the clock, and the UUIDs, tokens (by their hashes) and password
hashes that were made. -/
structure IdentityWorld where
  db : IdentityDb
  clock : Time
  uuids : List Uuid
  tokens : List Digest
  hashes : List PyStr

/-- What the environment chooses when an effect is performed; `locked` are the sessions that other
transactions hold, and `time` is read by `self._clock()` or by the `_utc_now()` of a flush. -/
structure IdentityChoice (Salt : Type) where
  time : Time
  uuid : Uuid
  token : Token
  salt : Salt
  locked : List Uuid

variable {Profile Salt : Type}

/-- The answer to an effect, and the next world. -/
def IdentityWorld.perform (H : Hasher Profile Salt) (w : IdentityWorld) (c : IdentityChoice Salt) :
    (e : IdentityEff Profile) → Except IdentityExn e.Resp × IdentityWorld
  | .now => (.ok c.time, { w with clock := c.time })
  | .uuid4 => (.ok c.uuid, { w with uuids := c.uuid :: w.uuids })
  | .tokenBytes => (.ok c.token, { w with tokens := sha256 c.token.1 :: w.tokens })
  | .hash profile password =>
    (.ok (H.hash profile c.salt password), { w with hashes := H.hash profile c.salt password :: w.hashes })
  | .getCredentialsByEmail email_normalized => (.ok (w.db.getCredentialsByEmail email_normalized), w)
  | .addIdentity user row =>
    match w.db.addIdentity user row with
    | .ok db => (.ok (), { w with db })
    | .error x => (.error (.integrity x), w)
  | .addLogin snapshot replacement_hash row now =>
    match w.db.addLogin snapshot replacement_hash row now c.time with
    | .ok (user, db) => (.ok user, { w with db })
    | .error x => (.error x, w)
  | .cleanup now =>
    let session_ids := w.db.inactiveBatch c.locked now
    (.ok session_ids.length, { w with db := w.db.deleteSessions session_ids })

/-- The UUID or the token that is drawn is fresh. -/
def freshDraw (w : IdentityWorld) (c : IdentityChoice Salt) : IdentityEff Profile → Bool
  | .uuid4 => c.uuid ∉ w.uuids
  | .tokenBytes => sha256 c.token.1 ∉ w.tokens
  | _ => true

/-- The tables, in an environment that makes fair choices. -/
def identityMachine (H : Hasher Profile Salt)
    (fair : IdentityWorld → IdentityChoice Salt → IdentityEff Profile → Bool) :
    Machine (IdentityEff Profile) (fun e => Except IdentityExn e.Resp) (IdentityChoice Salt) IdentityWorld where
  exec _ e c w := if fair w c e then some (w.perform H c e) else none

/-- A call of a method. -/
inductive IdentityCall where
  | register (email password : PyStr)
  | login (email password : PyStr)

def IdentityCall.op (U : Unicode) (H : Hasher Profile Salt) (self : IdentityService Profile) :
    IdentityCall → Method Profile SessionIssuance
  | .register email password => Identity.register U self email password
  | .login email password => Identity.login U H self email password

abbrev IdentityOutcome := Except IdentityExn SessionIssuance × Unit

def IdentityCall.body (U : Unicode) (H : Hasher Profile Salt) (self : IdentityService Profile) (k : IdentityCall) :
    Prog (IdentityEff Profile) (fun e => Except IdentityExn e.Resp) IdentityOutcome := k.op U H self ()

/-! ### What the transactions do -/

namespace IdentityDb

variable {db : IdentityDb}

lemma getCredentialsByEmail_some {e : PyStr} {snapshot : UserCredentialSnapshot}
    (h : db.getCredentialsByEmail e = some snapshot) :
    ∃ u ∈ db.users, u.email_normalized = e ∧ snapshot = ⟨u.id, u.password_hash⟩ := by
  obtain ⟨u, hu, rfl⟩ := Option.map_eq_some_iff.mp h
  exact ⟨u, List.mem_of_find?_eq_some hu, by simpa using List.find?_some hu, rfl⟩

lemma getCredentialsByEmail_none {e : PyStr} (h : db.getCredentialsByEmail e = none) :
    ∀ u ∈ db.users, u.email_normalized ≠ e := fun u hu =>
  by simpa using List.find?_eq_none.mp (Option.map_eq_none_iff.mp h) u hu

lemma insertUser_new {u : User} (hc : u.checks = true) (hid : ∀ v ∈ db.users, v.id ≠ u.id)
    (hemail : ∀ v ∈ db.users, v.email_normalized ≠ u.email_normalized) :
    db.insertUser u = .ok { db with users := db.users.put u } := by
  have hfind : db.users.find? u.id = none := Table.find?_eq_none.mpr hid
  have hany : (db.users.rows.any fun v => v.email_normalized == u.email_normalized) = false :=
    List.any_eq_false.mpr fun v hv => by simpa using hemail v hv
  rw [insertUser, hc, hfind, hany]
  rfl

lemma insertUser_taken {u v : User} (hc : u.checks = true) (hid : ∀ v ∈ db.users, v.id ≠ u.id)
    (hv : v ∈ db.users) (hemail : v.email_normalized = u.email_normalized) :
    db.insertUser u = .error .uq_users_email_normalized := by
  have hfind : db.users.find? u.id = none := Table.find?_eq_none.mpr hid
  have hany : (db.users.rows.any fun v => v.email_normalized == u.email_normalized) = true :=
    List.any_eq_true.mpr ⟨v, hv, by simpa using hemail⟩
  rw [insertUser, hc, hfind, hany]
  rfl

lemma insertSession_new {s : UserSession} (hc : s.checks = true) (hid : ∀ r ∈ db.sessions, r.id ≠ s.id)
    (htoken : ∀ r ∈ db.sessions, r.token_hash ≠ s.token_hash) {u : User} (hu : u ∈ db.users)
    (huser : u.id = s.user_id) : db.insertSession s = .ok { db with sessions := db.sessions.put s } := by
  have hfind : db.sessions.find? s.id = none := Table.find?_eq_none.mpr hid
  have hany : (db.sessions.rows.any fun r => r.token_hash == s.token_hash) = false :=
    List.any_eq_false.mpr fun r hr => by simpa using fun he => htoken r hr (Subtype.ext he)
  have hfk : db.users.find? s.user_id = some u := Table.find?_eq_some.mpr ⟨hu, huser⟩
  rw [insertSession, hc, hfind, hany, hfk]
  rfl

/-- A user and its session, where the address is new. -/
lemma addIdentity_new {u : User} {s : UserSession} (hc : u.checks = true) (hid : ∀ v ∈ db.users, v.id ≠ u.id)
    (hemail : ∀ v ∈ db.users, v.email_normalized ≠ u.email_normalized) (hsc : s.checks = true)
    (hsid : ∀ r ∈ db.sessions, r.id ≠ s.id) (htoken : ∀ r ∈ db.sessions, r.token_hash ≠ s.token_hash)
    (huser : u.id = s.user_id) :
    db.addIdentity u s = .ok ⟨db.users.put u, db.sessions.put s⟩ := by
  have hu : u ∈ db.users.put u := Table.mem_put.mpr (Or.inl rfl)
  rw [addIdentity, insertUser_new hc hid hemail]
  have hsession : (⟨db.users.put u, db.sessions⟩ : IdentityDb).insertSession s =
      .ok ⟨db.users.put u, db.sessions.put s⟩ := insertSession_new hsc hsid htoken hu huser
  exact hsession

/-- The row that a login writes is of the same user. -/
lemma rehashed_same (u : User) (replacement_hash : Option PyStr) (now utc_now : Time) :
    (rehashed u replacement_hash now utc_now).id = u.id ∧
      (rehashed u replacement_hash now utc_now).email_normalized = u.email_normalized ∧
        (rehashed u replacement_hash now utc_now).created_at = u.created_at := by
  cases replacement_hash <;> exact ⟨rfl, rfl, rfl⟩

/-- The constraints accept it, where no reading is before the creation of the user. -/
lemma checks_rehashed {u : User} (hu : u.checks = true) {now utc_now : Time} (hnow : u.created_at ≤ now)
    (hutc : u.created_at ≤ utc_now) (replacement_hash : Option PyStr) :
    (rehashed u replacement_hash now utc_now).checks = true := by
  cases replacement_hash with
  | none => exact hu
  | some password_hash =>
    refine User.checks_update hu password_hash ?_
    split
    · exact hutc
    · exact hnow

/-- A login whose credentials are still those of the user. -/
lemma addLogin_ok {u : User} {s : UserSession} {replacement_hash : Option PyStr} {now utc_now : Time}
    (hu : u ∈ db.users) (hc : (rehashed u replacement_hash now utc_now).checks = true) (hsc : s.checks = true)
    (hsid : ∀ r ∈ db.sessions, r.id ≠ s.id) (htoken : ∀ r ∈ db.sessions, r.token_hash ≠ s.token_hash)
    (huser : u.id = s.user_id) :
    db.addLogin ⟨u.id, u.password_hash⟩ replacement_hash s now utc_now =
      .ok ((rehashed u replacement_hash now utc_now).reference,
        ⟨db.users.put (rehashed u replacement_hash now utc_now), db.sessions.put s⟩) := by
  have hfind : db.users.find? u.id = some u := Table.find?_eq_some.mpr ⟨hu, rfl⟩
  have hmem : rehashed u replacement_hash now utc_now ∈ db.users.put (rehashed u replacement_hash now utc_now) :=
    Table.mem_put.mpr (Or.inl rfl)
  have hid : (rehashed u replacement_hash now utc_now).id = s.user_id := by
    rw [← huser]
    exact (rehashed_same u replacement_hash now utc_now).1
  have hupdate : db.updateUser (rehashed u replacement_hash now utc_now) =
      .ok { db with users := db.users.put (rehashed u replacement_hash now utc_now) } := by
    rw [updateUser, hc]
    rfl
  have hsession : (⟨db.users.put (rehashed u replacement_hash now utc_now), db.sessions⟩ : IdentityDb).insertSession s =
      .ok ⟨db.users.put (rehashed u replacement_hash now utc_now), db.sessions.put s⟩ :=
    insertSession_new hsc hsid htoken hmem hid
  simp only [addLogin, hfind, ne_eq, not_true_eq_false, if_false, hupdate, Except.mapError, bind, Except.bind, hsession]

/-- A login whose credentials are no longer those of the user. -/
lemma addLogin_stale {u : User} {s : UserSession} {password_hash : PyStr} {replacement_hash : Option PyStr}
    {now utc_now : Time} (hu : u ∈ db.users) (hne : u.password_hash ≠ password_hash) :
    db.addLogin ⟨u.id, password_hash⟩ replacement_hash s now utc_now = .error .invalidCredentials := by
  have hfind : db.users.find? u.id = some u := Table.find?_eq_some.mpr ⟨hu, rfl⟩
  simp only [addLogin, hfind, ne_eq, hne, not_false_eq_true, if_true]

lemma mem_cleanup {s : UserSession} {locked : List Uuid} {now : Time} (hs : s ∈ db.sessions)
    (ha : inactive now s = false) : s ∈ (db.deleteSessions (db.inactiveBatch locked now)).sessions := by
  refine Table.mem_foldl_erase.mpr ⟨hs, fun hm => ?_⟩
  obtain ⟨r, hr, hid⟩ := List.mem_map.mp hm
  obtain ⟨hr, hin⟩ := Table.mem_select.mp (mem_sortOn.mp (List.mem_of_mem_take hr))
  obtain rfl := Table.eq_of_key hr hs hid
  simp [ha] at hin

end IdentityDb

lemma SessionMaterial.active (material : SessionMaterial) (user_id : Uuid) (now : Time) :
    IdentityDb.inactive now (material.row user_id now) = false := by
  have habs : ¬ now + absoluteTimeout ≤ now := Int.not_le.mpr (Int.lt_add_of_pos_right now (by decide))
  have hidle : ¬ now ≤ now - idleTimeout := Int.not_le.mpr (Int.sub_lt_self now (by decide))
  simp [IdentityDb.inactive, row, UserSession.issue, habs, hidle]

/-! ### A call ends -/

section Within

variable {U : Unicode} {H : Hasher Profile Salt} {self : IdentityService Profile}

lemma within_hashPassword {password : PyStr} : Op.Within 1 (hashPassword U self password) :=
  Op.within_ofExcept.bind (k := 1) fun _ => Op.within_perform

lemma within_verifyDummy {password : PyStr} : Op.Within 0 (verifyDummy U H self password) :=
  Op.within_ofExcept.bind fun _ => Op.within_pure

lemma within_issueSession : Op.Within 3 (issueSession : Method Profile SessionMaterial) :=
  Op.within_perform.bind (k := 2) fun _ => Op.within_perform.bind (k := 1) fun _ =>
    Op.within_perform.bind fun _ => Op.within_pure

lemma within_cleanupAfterSuccess {now : Time} : Op.Within 1 (cleanupAfterSuccess now : Method Profile Unit) := by
  refine Op.Within.bind (n := 1) (Op.within_perform.catching (k := 0) fun x => ?_) fun _ => Op.within_pure
  split
  · exact Op.within_pure
  · exact Op.within_raise

lemma within_replacementHash {snapshot : UserCredentialSnapshot} {password : PyStr} :
    Op.Within 1 (replacementHash U H self snapshot password) := by
  refine Op.Within.bind (n := 0) (k := 1) ?_ fun needs => ?_
  · unfold checkNeedsRehash
    split
    · exact Op.within_pure
    · exact Op.within_raise
  · split
    · exact within_hashPassword.bind fun _ => Op.within_pure
    · exact Op.within_pure.mono (by omega)

lemma within_issueLogin {snapshot : UserCredentialSnapshot} {password : PyStr} :
    Op.Within 7 (issueLogin U H self snapshot password) :=
  within_replacementHash.bind (k := 6) fun _ => Op.within_perform.bind (k := 5) fun _ =>
    within_issueSession.bind (k := 2) fun _ => Op.within_perform.bind (k := 1) fun _ =>
      within_cleanupAfterSuccess.bind fun _ => Op.within_pure

lemma within_register {email password : PyStr} : Op.Within 8 (register U self email password) := by
  refine Op.Within.bind (n := 0) (k := 8) Op.within_ofExcept fun canonical_email => ?_
  refine Op.Within.bind (n := 0) (k := 8) Op.within_ofExcept fun normalized => ?_
  refine within_hashPassword.bind (k := 7) fun _ => Op.within_perform.bind (k := 6) fun _ =>
    Op.within_perform.bind (k := 5) fun _ => within_issueSession.bind (k := 2) fun _ => ?_
  refine Op.Within.bind (n := 1) (k := 1) (Op.within_perform.catching (k := 0) fun x => ?_) fun _ =>
    within_cleanupAfterSuccess.bind fun _ => Op.within_pure
  split <;> exact Op.within_raise

lemma within_login {email password : PyStr} : Op.Within 8 (login U H self email password) := by
  refine Op.Within.bind (n := 0) (k := 8) Op.within_ofExcept fun normalized => ?_
  have hdummy : Op.Within 7 (do verifyDummy U H self normalized; Method.raise .invalidCredentials :
      Method Profile SessionIssuance) :=
    (within_verifyDummy.bind fun _ => Op.within_raise).mono (by omega)
  cases canonicalizeEmail email with
  | error x => exact hdummy.mono (by omega)
  | ok canonical_email =>
    refine Op.within_perform.bind (k := 7) fun snapshot => ?_
    cases snapshot with
    | none => exact hdummy
    | some snapshot =>
      refine Op.Within.bind (n := 0) (k := 7) Op.within_ofExcept fun verification => ?_
      cases verification with
      | isMatch => exact within_issueLogin
      | mismatch => exact Op.within_raise.mono (by omega)
      | malformed => exact hdummy

/-- **A call performs at most eight effects.** -/
theorem within_op (k : IdentityCall) : Op.Within 8 (k.op U H self) := by
  cases k with
  | register => exact within_register
  | login => exact within_login

end Within

end DataCheck.Identity
