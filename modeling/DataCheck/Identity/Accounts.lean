import DataCheck.Identity.World
import DataCheck.Lib.Refine

/-!
# The accounts

What registering and logging in is for: a map from an address to a password.  Calls that run one
after the other answer as the map does.
-/

namespace DataCheck.Identity

open Lib

/-- The password of each registered address, both normalized. -/
abbrev Accounts := PyStr → Option PyStr

/-- What the map answers to a call, and the map afterwards: an exception, or the account that a
session is issued for. -/
def Accounts.serve (U : Unicode) (m : Accounts) : IdentityCall → Except IdentityExn PyStr × Accounts
  | .register email password =>
    match canonicalizeEmail email with
    | .error x => (.error (.emailPolicy x), m)
    | .ok c =>
      match normalizeAndValidate U password with
      | .error x => (.error (.passwordPolicy x), m)
      | .ok normalized =>
        if m c.email_normalized = none then
          (.ok c.email_normalized, Function.update m c.email_normalized (some normalized))
        else (.error .duplicateIdentity, m)
  | .login email password =>
    match normalizeAndValidate U password with
    | .error x => (.error (.passwordPolicy x), m)
    | .ok normalized =>
      match canonicalizeEmail email with
      | .error _ => (.error .invalidCredentials, m)
      | .ok c =>
        if m c.email_normalized = some normalized then (.ok c.email_normalized, m)
        else (.error .invalidCredentials, m)

variable {Profile Salt : Type} {H : Hasher Profile Salt} {m : Accounts} {w w' : IdentityWorld}

/-- What the map answers, whatever the parameters of the service. -/
def Accounts.answer (U : Unicode) (m : Accounts) (i : IdentityService Profile × IdentityCall) :
    Except IdentityExn PyStr × Accounts := m.serve U i.2

/-- The tables hold these accounts. -/
structure Agrees (H : Hasher Profile Salt) (m : Accounts) (w : IdentityWorld) : Prop where
  user : ∀ u ∈ w.db.users, ∃ q, m u.email_normalized = some q ∧ Produced H u.password_hash q
  account : ∀ e q, m e = some q → ∃ u ∈ w.db.users, u.email_normalized = e
  unique : ∀ u ∈ w.db.users, ∀ v ∈ w.db.users, u.email_normalized = v.email_normalized → u = v
  checks : ∀ u ∈ w.db.users, u.checks = true
  created : ∀ u ∈ w.db.users, u.created_at ≤ w.clock
  user_drawn : ∀ u ∈ w.db.users, u.id ∈ w.uuids
  session_drawn : ∀ s ∈ w.db.sessions, s.id ∈ w.uuids
  token_drawn : ∀ s ∈ w.db.sessions, s.token_hash ∈ w.tokens

/-- The session of an issuance is there, for the account. -/
def IssuedFor (account : PyStr) (issuance : SessionIssuance) (w : IdentityWorld) : Prop :=
  ∃ u ∈ w.db.users, u.email_normalized = account ∧ issuance.user = u.reference ∧
    ∃ s ∈ w.db.sessions, s.user_id = u.id ∧ s.id = issuance.session_id ∧
      bearerHash (some issuance.bearer_token) = some s.token_hash ∧
      s.absolute_expires_at = issuance.absolute_expires_at

/-- A call ended as the map says. -/
def Shows : Except IdentityExn PyStr → Except IdentityExn SessionIssuance → IdentityWorld → Prop
  | .error x, out, _ => out = .error x
  | .ok account, out, w => ∃ issuance, out = .ok issuance ∧ IssuedFor account issuance w

/-- Draws are fresh, and no reading of the clock is before an earlier one. -/
def forward (w : IdentityWorld) (c : IdentityChoice Salt) (e : IdentityEff Profile) : Bool :=
  freshDraw w c e && match e with
    | .now | .addLogin .. => decide (w.clock ≤ c.time)
    | _ => true

/-! ### Draws -/

/-- Something was drawn, and the tables are as they were. -/
structure Drawn (w w' : IdentityWorld) : Prop where
  db : w'.db = w.db
  clock : w.clock ≤ w'.clock
  uuids : w.uuids ⊆ w'.uuids
  tokens : w.tokens ⊆ w'.tokens

/-- Draws do not end it. -/
def Persistent (A : IdentityWorld → Prop) : Prop := ∀ w w', A w → Drawn w w' → A w'

lemma Persistent.and {A B : IdentityWorld → Prop} (hA : Persistent A) (hB : Persistent B) :
    Persistent fun w => A w ∧ B w := fun w w' h hd => ⟨hA w w' h.1 hd, hB w w' h.2 hd⟩

lemma Persistent.const (φ : Prop) : Persistent fun _ => φ := fun _ _ h _ => h

lemma persistent_agrees : Persistent (Agrees H m) := by
  intro w w' h hd
  constructor
  · rw [hd.db]
    exact h.user
  · rw [hd.db]
    exact h.account
  · rw [hd.db]
    exact h.unique
  · rw [hd.db]
    exact h.checks
  · rw [hd.db]
    exact fun u hu => le_trans (h.created u hu) hd.clock
  · rw [hd.db]
    exact fun u hu => hd.uuids (h.user_drawn u hu)
  · rw [hd.db]
    exact fun s hs => hd.uuids (h.session_drawn s hs)
  · rw [hd.db]
    exact fun s hs => hd.tokens (h.token_drawn s hs)

/-- The UUID was drawn, and no row has it. -/
def FreshId (id : Uuid) (w : IdentityWorld) : Prop :=
  id ∈ w.uuids ∧ (∀ u ∈ w.db.users, u.id ≠ id) ∧ ∀ s ∈ w.db.sessions, s.id ≠ id

/-- The token was drawn, and no session has it. -/
def FreshToken (token : Token) (w : IdentityWorld) : Prop :=
  sha256 token.1 ∈ w.tokens ∧ ∀ s ∈ w.db.sessions, s.token_hash ≠ sha256 token.1

/-- The clock read this time, at or after the creation of every user. -/
def Reads (now : Time) (w : IdentityWorld) : Prop := now ≤ w.clock ∧ ∀ u ∈ w.db.users, u.created_at ≤ now

/-- A user with this address has these credentials, and this is its password. -/
def HasCredentials (H : Hasher Profile Salt) (m : Accounts) (e : PyStr) (snapshot : UserCredentialSnapshot)
    (w : IdentityWorld) : Prop :=
  ∃ u ∈ w.db.users, u.email_normalized = e ∧ snapshot = ⟨u.id, u.password_hash⟩ ∧
    ∃ q, m e = some q ∧ Produced H u.password_hash q

lemma persistent_freshId (id : Uuid) : Persistent (FreshId id) := fun w w' h hd =>
  ⟨hd.uuids h.1, by rw [hd.db]; exact h.2.1, by rw [hd.db]; exact h.2.2⟩

lemma persistent_freshToken (token : Token) : Persistent (FreshToken token) := fun w w' h hd =>
  ⟨hd.tokens h.1, by rw [hd.db]; exact h.2⟩

lemma persistent_reads (now : Time) : Persistent (Reads now) := fun w w' h hd =>
  ⟨le_trans h.1 hd.clock, by rw [hd.db]; exact h.2⟩

lemma persistent_hasCredentials (e : PyStr) (snapshot : UserCredentialSnapshot) :
    Persistent (HasCredentials H m e snapshot) := fun w w' h hd => by
  unfold HasCredentials
  rw [hd.db]
  exact h

section Rules

variable {p : Pid} {α β : Type} {A : IdentityWorld → Prop} {Z : IdentityExn → IdentityWorld → Prop}

/-- A method alone, with fresh draws and a clock that goes forward. -/
abbrev Serial (H : Hasher Profile Salt) (p : Pid) (A : IdentityWorld → Prop) (k : Method Profile α)
    (Q : α → IdentityWorld → Prop) (Z : IdentityExn → IdentityWorld → Prop) : Prop :=
  Op.Alone (identityMachine H forward) p (fun _ => A) k (fun a _ => Q a) fun x _ => Z x

lemma Serial.bind {k : Method Profile α} {f : α → Method Profile β} {B : α → IdentityWorld → Prop}
    {Q : β → IdentityWorld → Prop} (hk : Serial H p A k B Z) (hf : ∀ a, Serial H p (B a) (f a) Q Z) :
    Serial H p A (k >>= f) Q Z := Op.Alone.bind hk hf

theorem serial_perform {e : IdentityEff Profile} {Q : e.Resp → IdentityWorld → Prop}
    (h : ∀ w (c : IdentityChoice Salt), A w → forward w c e = true →
      (∀ a, (w.perform H c e).1 = .ok a → Q a (w.perform H c e).2) ∧
        ∀ x, (w.perform H c e).1 = .error x → Z x (w.perform H c e).2) :
    Serial H p A (Method.perform e) Q Z := by
  refine Op.Alone.perform fun _ w c r w' ha hx => ?_
  simp only [identityMachine] at hx
  split at hx
  · next hf =>
    obtain ⟨hr, hw⟩ := Prod.mk.inj (Option.some.inj hx)
    rw [← hr, ← hw]
    exact h w c ha hf
  · cases hx

theorem serial_now (hA : Persistent A) (hm : ∀ w, A w → Agrees H m w) :
    Serial H p A Method.now (fun now w => A w ∧ Reads now w) Z := by
  refine serial_perform fun w c ha hf => ⟨?_, fun x hx => nomatch hx⟩
  intro now hn
  cases hn
  have hle : w.clock ≤ c.time := by simpa [forward, freshDraw] using hf
  refine ⟨hA w _ ha ⟨rfl, hle, List.Subset.refl _, List.Subset.refl _⟩, le_rfl, fun u hu => ?_⟩
  exact le_trans ((hm w ha).created u hu) hle

theorem serial_uuid4 (hA : Persistent A) (hm : ∀ w, A w → Agrees H m w) :
    Serial H p A Method.uuid4 (fun id w => A w ∧ FreshId id w) Z := by
  refine serial_perform fun w c ha hf => ⟨?_, fun x hx => nomatch hx⟩
  intro id hid
  cases hid
  have hnew : c.uuid ∉ w.uuids := by simpa [forward, freshDraw] using hf
  refine ⟨hA w _ ha ⟨rfl, le_rfl, List.subset_cons_self _ _, List.Subset.refl _⟩, List.mem_cons_self,
    fun u hu he => ?_, fun s hs he => ?_⟩
  · exact hnew (he ▸ (hm w ha).user_drawn u hu)
  · exact hnew (he ▸ (hm w ha).session_drawn s hs)

theorem serial_tokenBytes (hA : Persistent A) (hm : ∀ w, A w → Agrees H m w) :
    Serial H p A Method.tokenBytes (fun token w => A w ∧ FreshToken token w) Z := by
  refine serial_perform fun w c ha hf => ⟨?_, fun x hx => nomatch hx⟩
  intro token ht
  cases ht
  have hnew : sha256 c.token.1 ∉ w.tokens := by simpa [forward, freshDraw] using hf
  refine ⟨hA w _ ha ⟨rfl, le_rfl, List.Subset.refl _, List.subset_cons_self _ _⟩, List.mem_cons_self,
    fun s hs he => ?_⟩
  exact hnew (he ▸ (hm w ha).token_drawn s hs)

theorem serial_issueSession (hA : Persistent A) (hm : ∀ w, A w → Agrees H m w) :
    Serial H p A issueSession
      (fun material w => A w ∧ FreshToken material.raw_bearer w ∧ FreshId material.id w) Z := by
  have hm' : ∀ raw_bearer w, A w ∧ FreshToken raw_bearer w → Agrees H m w := fun _ w h => hm w h.1
  refine Serial.bind (serial_tokenBytes hA hm) fun raw_bearer => ?_
  have hA' : Persistent fun w => A w ∧ FreshToken raw_bearer w := hA.and (persistent_freshToken raw_bearer)
  refine Serial.bind (serial_tokenBytes hA' (hm' raw_bearer)) fun raw_csrf => ?_
  refine Serial.bind (serial_uuid4 (hA'.and (persistent_freshToken raw_csrf)) fun w h => hm w h.1.1) fun id => ?_
  exact Op.Alone.pure fun _ w h => ⟨h.1.1.1, h.1.1.2, h.2⟩

variable {U : Unicode} {self : IdentityService Profile} {password normalized : PyStr}

theorem serial_hashPassword (hU : NfcIdempotent U) (hp : normalizeAndValidate U password = .ok normalized)
    (hA : Persistent A) :
    Serial H p A (hashPassword U self normalized) (fun h w => A w ∧ Produced H h normalized) Z := by
  refine Serial.bind (B := fun n w => A w ∧ n = normalized) ?_ fun n => ?_
  · unfold validPassword
    rw [normalizeAndValidate_again hU hp]
    exact Op.Alone.pure fun _ w ha => ⟨ha, rfl⟩
  · refine serial_perform fun w c ha _ => ⟨?_, fun x hx => nomatch hx⟩
    intro h hh
    cases hh
    obtain ⟨ha, rfl⟩ := ha
    exact ⟨hA w _ ha ⟨rfl, le_rfl, List.Subset.refl _, List.Subset.refl _⟩, self.profile, c.salt, rfl⟩

end Rules

/-! ### Transactions -/

/-- A user is written, new or in place of itself, with a session. -/
theorem Agrees.put (h : Agrees H m w) {u : User} {row : UserSession} {q : PyStr}
    (hp : Produced H u.password_hash q)
    (hemail : ∀ v ∈ w.db.users, v.id = u.id ↔ v.email_normalized = u.email_normalized)
    (hc : u.checks = true) (hcreated : u.created_at ≤ w.clock) (hid : u.id ∈ w.uuids) (hrow : row.id ∈ w.uuids)
    (htoken : row.token_hash ∈ w.tokens) :
    Agrees H (Function.update m u.email_normalized (some q))
      { w with db := ⟨w.db.users.put u, w.db.sessions.put row⟩ } := by
  have hput : ∀ v ∈ w.db.users.put u, v = u ∨ v ∈ w.db.users ∧ v.id ≠ u.id := fun v hv => Table.mem_put.mp hv
  have hsession : ∀ s ∈ w.db.sessions.put row, s = row ∨ s ∈ w.db.sessions := fun s hs =>
    (Table.mem_put.mp hs).imp_right And.left
  refine ⟨fun v hv => ?_, fun e q' he => ?_, fun v hv v' hv' he => ?_, fun v hv => ?_, fun v hv => ?_,
    fun v hv => ?_, fun s hs => ?_, fun s hs => ?_⟩
  · rcases hput v hv with rfl | ⟨hv, hne⟩
    · exact ⟨q, Function.update_self _ _ _, hp⟩
    · have hne' : v.email_normalized ≠ u.email_normalized := fun he => hne ((hemail v hv).mpr he)
      rw [Function.update_of_ne hne']
      exact h.user v hv
  · by_cases heq : e = u.email_normalized
    · exact ⟨u, Table.mem_put.mpr (Or.inl rfl), heq.symm⟩
    · rw [Function.update_of_ne heq] at he
      obtain ⟨v, hv, rfl⟩ := h.account e q' he
      exact ⟨v, Table.mem_put.mpr (Or.inr ⟨hv, fun hid => heq ((hemail v hv).mp hid)⟩), rfl⟩
  · rcases hput v hv with rfl | ⟨hmem, hne⟩ <;> rcases hput v' hv' with rfl | ⟨hmem', hne'⟩
    · rfl
    · exact absurd ((hemail v' hmem').mpr he.symm) hne'
    · exact absurd ((hemail v hmem).mpr he) hne
    · exact h.unique v hmem v' hmem' he
  · rcases hput v hv with rfl | ⟨hv, -⟩
    · exact hc
    · exact h.checks v hv
  · rcases hput v hv with rfl | ⟨hv, -⟩
    · exact hcreated
    · exact h.created v hv
  · rcases hput v hv with rfl | ⟨hv, -⟩
    · exact hid
    · exact h.user_drawn v hv
  · rcases hsession s hs with rfl | hs
    · exact hrow
    · exact h.session_drawn s hs
  · rcases hsession s hs with rfl | hs
    · exact htoken
    · exact h.token_drawn s hs

lemma Agrees.deleteSessions (h : Agrees H m w) (ids : List Uuid) :
    Agrees H m { w with db := w.db.deleteSessions ids } where
  user := h.user
  account := h.account
  unique := h.unique
  checks := h.checks
  created := h.created
  user_drawn := h.user_drawn
  session_drawn s hs := h.session_drawn s (Table.mem_foldl_erase.mp hs).1
  token_drawn s hs := h.token_drawn s (Table.mem_foldl_erase.mp hs).1

/-- The account has the user, and the user has the session. -/
def HasSession (account : PyStr) (user : UserReference) (row : UserSession) (w : IdentityWorld) : Prop :=
  row ∈ w.db.sessions ∧ ∃ u ∈ w.db.users, u.email_normalized = account ∧ user = u.reference ∧ row.user_id = u.id

lemma HasSession.issuedFor {account : PyStr} {user : UserReference} {material : SessionMaterial} {user_id : Uuid}
    {now : Time} (h : HasSession account user (material.row user_id now) w) :
    IssuedFor account (material.issuance user (material.row user_id now)) w := by
  obtain ⟨hrow, u, hu, he, hr, hid⟩ := h
  exact ⟨u, hu, he, hr, _, hrow, hid, rfl, bearerHash_encode material.raw_bearer, rfl⟩

section Transactions

variable {p : Pid} {Z : IdentityExn → IdentityWorld → Prop} {e q : PyStr} {now : Time} {material : SessionMaterial}

/-- The transaction of `register`. -/
theorem serial_addIdentity {c : CanonicalEmail} (hc : c.Canonical) {password_hash : PyStr} {id : Uuid} :
    Serial H p (fun w => Agrees H m w ∧ Produced H password_hash q ∧ Reads now w ∧ FreshId id w ∧
        FreshToken material.raw_bearer w ∧ FreshId material.id w)
      (Method.perform (.addIdentity (User.register id c password_hash now) (material.row id now)) : Method Profile Unit)
      (fun _ w => m c.email_normalized = none ∧
        Agrees H (Function.update m c.email_normalized (some q)) w ∧
        HasSession c.email_normalized (User.register id c password_hash now).reference (material.row id now) w)
      fun x w => x = .integrity .uq_users_email_normalized ∧ m c.email_normalized ≠ none ∧ Agrees H m w := by
  refine serial_perform fun w ch hw _ => ?_
  obtain ⟨hm, hp, hnow, hid, htoken, hsid⟩ := hw
  have hchecks := User.checks_register hc id password_hash now
  cases hme : m c.email_normalized with
  | none =>
    have hemail : ∀ v ∈ w.db.users, v.email_normalized ≠ c.email_normalized := fun v hv he => by
      obtain ⟨q', hq', -⟩ := hm.user v hv
      rw [he, hme] at hq'
      cases hq'
    have hadd : w.db.addIdentity (User.register id c password_hash now) (material.row id now) =
        .ok ⟨w.db.users.put _, w.db.sessions.put _⟩ :=
      IdentityDb.addIdentity_new hchecks hid.2.1 hemail (UserSession.checks_issue _ _ material.raw_csrf.2 _)
        hsid.2.2 htoken.2 rfl
    have hperform : w.perform H ch (.addIdentity (User.register id c password_hash now) (material.row id now)) =
        (.ok (), { w with db := ⟨w.db.users.put (User.register id c password_hash now),
          w.db.sessions.put (material.row id now)⟩ }) := by
      simp only [IdentityWorld.perform, hadd]
    rw [hperform]
    refine ⟨fun _ _ => ⟨rfl, hm.put hp (fun v hv => ?_) hchecks hnow.1 hid.1 hsid.1 htoken.1, ?_⟩, fun x hx => by cases hx⟩
    · exact iff_of_false (hid.2.1 v hv) (hemail v hv)
    · exact ⟨Table.mem_put.mpr (Or.inl rfl), _, Table.mem_put.mpr (Or.inl rfl), rfl, rfl, rfl⟩
  | some q' =>
    obtain ⟨v, hv, he⟩ := hm.account _ _ hme
    have hadd : w.db.addIdentity (User.register id c password_hash now) (material.row id now) =
        .error .uq_users_email_normalized := by
      rw [IdentityDb.addIdentity, IdentityDb.insertUser_taken hchecks hid.2.1 hv he]
      rfl
    have hperform : w.perform H ch (.addIdentity (User.register id c password_hash now) (material.row id now)) =
        (.error (.integrity .uq_users_email_normalized), w) := by
      simp only [IdentityWorld.perform, hadd]
    rw [hperform]
    refine ⟨fun _ hx => (by cases hx), fun x hx => ?_⟩
    cases hx
    exact ⟨rfl, Option.some_ne_none q', hm⟩

/-- The second transaction of `login`. -/
theorem serial_addLogin {snapshot : UserCredentialSnapshot} {replacement_hash : Option PyStr} :
    Serial H p (fun w => Agrees H m w ∧ m e = some q ∧ HasCredentials H m e snapshot w ∧
        (∀ h, replacement_hash = some h → Produced H h q) ∧ Reads now w ∧ FreshToken material.raw_bearer w ∧
        FreshId material.id w)
      (Method.perform (.addLogin snapshot replacement_hash (material.row snapshot.user_id now) now) :
        Method Profile UserReference)
      (fun user w => Agrees H m w ∧ HasSession e user (material.row snapshot.user_id now) w) Z := by
  refine serial_perform fun w ch ⟨hm, hme, hcred, hrep, hnow, htoken, hsid⟩ hf => ?_
  have hle : w.clock ≤ ch.time := by simpa [forward, freshDraw] using hf
  obtain ⟨u, hu, rfl, rfl, q', hq', hp⟩ := hcred
  obtain rfl : q' = q := Option.some.inj (hq'.symm.trans hme)
  -- the row that is written is of the same user, and of the same password
  obtain ⟨hid, hemail, hcreated⟩ := IdentityDb.rehashed_same u replacement_hash now ch.time
  have hchecks := IdentityDb.checks_rehashed (hm.checks u hu) (hnow.2 u hu) (le_trans (hm.created u hu) hle)
    replacement_hash
  have hproduced : Produced H (IdentityDb.rehashed u replacement_hash now ch.time).password_hash q' := by
    cases replacement_hash with
    | none => exact hp
    | some h => exact hrep h rfl
  have hadd := IdentityDb.addLogin_ok (s := material.row u.id now) hu hchecks
    (UserSession.checks_issue _ _ material.raw_csrf.2 _) hsid.2.2 htoken.2 rfl
  generalize IdentityDb.rehashed u replacement_hash now ch.time = u' at *
  have hperform : w.perform H ch (.addLogin ⟨u.id, u.password_hash⟩ replacement_hash (material.row u.id now) now) =
      (.ok u'.reference, { w with db := ⟨w.db.users.put u', w.db.sessions.put (material.row u.id now)⟩ }) := by
    simp only [IdentityWorld.perform, hadd]
  rw [hperform]
  refine ⟨fun user huser => ?_, fun x hx => nomatch hx⟩
  cases huser
  have hsame : ∀ v ∈ w.db.users, v.id = u'.id ↔ v.email_normalized = u'.email_normalized := fun v hv => by
    rw [hid, hemail]
    exact ⟨fun he => by rw [Table.eq_of_key hv hu he], fun he => by rw [hm.unique v hv u hu he]⟩
  have hput : Agrees H (Function.update m u'.email_normalized (some q'))
      { w with db := ⟨w.db.users.put u', w.db.sessions.put (material.row u.id now)⟩ } :=
    hm.put hproduced hsame hchecks (hcreated ▸ hm.created u hu) (hid ▸ hm.user_drawn u hu) hsid.1 htoken.1
  rw [hemail, ← hq', Function.update_eq_self] at hput
  exact ⟨hput, Table.mem_put.mpr (Or.inl rfl), u', Table.mem_put.mpr (Or.inl rfl), hemail, rfl, hid.symm⟩

/-- `_cleanup_after_success` keeps the session that was issued. -/
theorem serial_cleanupAfterSuccess {user : UserReference} {user_id : Uuid} :
    Serial H p (fun w => Agrees H m w ∧ HasSession e user (material.row user_id now) w)
      (cleanupAfterSuccess now : Method Profile Unit)
      (fun _ w => Agrees H m w ∧ HasSession e user (material.row user_id now) w) Z := by
  refine Serial.bind (B := fun _ w => Agrees H m w ∧ HasSession e user (material.row user_id now) w) ?_ fun _ =>
    Op.Alone.pure fun _ w h => h
  refine Op.Alone.catching (Y := fun _ _ _ => False) ?_ fun x s w cs out s' w' cs' h => h.elim
  refine serial_perform fun w ch ⟨hm, hrow, hu⟩ _ => ⟨fun n hn => ?_, fun x hx => nomatch hx⟩
  exact ⟨hm.deleteSessions _, IdentityDb.mem_cleanup hrow (material.active user_id now), hu⟩

end Transactions

/-! ### The methods -/

/-- A call ended as the map says, and the tables hold its accounts. -/
def Served (U : Unicode) (H : Hasher Profile Salt) (m : Accounts) (k : IdentityCall)
    (out : Except IdentityExn SessionIssuance) (w : IdentityWorld) : Prop :=
  Shows (m.serve U k).1 out w ∧ Agrees H (m.serve U k).2 w

section Methods

variable {U : Unicode} {self : IdentityService Profile} {p : Pid} {email password : PyStr}

variable {α β X : Type} {A : IdentityWorld → Prop} {Q : β → IdentityWorld → Prop}
  {Z : IdentityExn → IdentityWorld → Prop} {g : X → IdentityExn} {f : α → Method Profile β}

lemma serial_passes {a : α} (h : Serial H p A (f a) Q Z) :
    Serial H p A (Op.ofExcept (Except.mapError g (.ok a)) >>= f) Q Z := h

lemma serial_raises {x : X} (h : ∀ w, A w → Z (g x) w) :
    Serial H p A (Op.ofExcept (Except.mapError g (.error x)) >>= f) Q Z :=
  Serial.bind (B := fun _ _ => False) (Op.Alone.raise fun _ => h) fun _ _ _ _ _ _ _ _ h => h.elim

/-- A call that raises, and the accounts are as they were. -/
lemma Served.error {k : IdentityCall} {x : IdentityExn} (h : m.serve U k = (.error x, m)) (hm : Agrees H m w) :
    Served U H m k (.error x) w := by
  unfold Served
  rw [h]
  exact ⟨rfl, hm⟩

lemma Served.ok {k : IdentityCall} {m' : Accounts} {account : PyStr} {material : SessionMaterial} {user_id : Uuid}
    {now : Time} {user : UserReference} (h : m.serve U k = (.ok account, m')) (hm : Agrees H m' w)
    (hs : HasSession account user (material.row user_id now) w) :
    Served U H m k (.ok (material.issuance user (material.row user_id now))) w := by
  unfold Served
  rw [h]
  exact ⟨⟨_, rfl, hs.issuedFor⟩, hm⟩

/-- **`register` does what the map does.** -/
theorem serial_register (hU : NfcIdempotent U) :
    Serial H p (Agrees H m) (register U self email password)
      (fun issuance w => Served U H m (.register email password) (.ok issuance) w)
      fun x w => Served U H m (.register email password) (.error x) w := by
  unfold register validPassword
  cases hc : canonicalizeEmail email with
  | error x => exact serial_raises fun w => Served.error (by simp only [Accounts.serve, hc])
  | ok c =>
  refine serial_passes ?_
  cases hp : normalizeAndValidate U password with
  | error x => exact serial_raises fun w => Served.error (by simp only [Accounts.serve, hc, hp])
  | ok normalized =>
  refine serial_passes ?_
  refine Serial.bind (serial_hashPassword hU hp persistent_agrees) fun password_hash => ?_
  have hP := (persistent_agrees (H := H) (m := m)).and (.const (Produced H password_hash normalized))
  refine Serial.bind (serial_now hP fun w h => h.1) fun now => ?_
  have hR := hP.and (persistent_reads now)
  refine Serial.bind (serial_uuid4 hR fun w h => h.1.1) fun id => ?_
  refine Serial.bind (serial_issueSession (hR.and (persistent_freshId id)) fun w h => h.1.1.1) fun material => ?_
  refine Serial.bind (B := fun _ w => m c.email_normalized = none ∧
    Agrees H (Function.update m c.email_normalized (some normalized)) w ∧ HasSession c.email_normalized
      (User.register id c password_hash now).reference (material.row id now) w) ?_ fun _ => ?_
  · refine Op.Alone.catching (Y := fun x _ w => x = .integrity .uq_users_email_normalized ∧
      m c.email_normalized ≠ none ∧ Agrees H m w) ?_ fun x => ?_
    · refine (serial_addIdentity (canonicalizeEmail_ok hc)).pre fun _ w h => ?_
      exact ⟨h.1.1.1.1, h.1.1.1.2, h.1.1.2, h.1.2, h.2.1, h.2.2⟩
    · refine Op.Alone.assume (φ := x = .integrity .uq_users_email_normalized) (fun _ w h => h.1) fun hx => ?_
      subst hx
      exact Op.Alone.raise fun _ w h => Served.error (by simp only [Accounts.serve, hc, hp, if_neg h.2.1]) h.2.2
  · refine Op.Alone.assume (φ := m c.email_normalized = none) (fun _ w h => h.1) fun hnone => ?_
    refine Serial.bind (serial_cleanupAfterSuccess.pre fun _ w h => h.2) fun _ => ?_
    exact Op.Alone.pure fun _ w h => Served.ok (by simp only [Accounts.serve, hc, hp, if_pos hnone]) h.1 h.2

/-- Credentials that are refused after the dummy hash was verified. -/
lemma serial_verifyDummy (hU : NfcIdempotent U) {normalized : PyStr}
    (hp : normalizeAndValidate U password = .ok normalized) (h : ∀ w, A w → Z .invalidCredentials w) :
    Serial H p A (do verifyDummy U H self normalized; Method.raise .invalidCredentials) Q Z := by
  obtain ⟨verification, hv, -⟩ := verifyPassword_of_ok (H := H) hU hp self.profile self.dummy_password_hash
  refine Serial.bind (B := fun _ => A) ?_ fun _ => Op.Alone.raise fun _ => h
  unfold verifyDummy verify
  rw [hv]
  exact serial_passes (Op.Alone.pure fun _ _ ha => ha)

/-- The first transaction of `login`. -/
lemma serial_getCredentialsByEmail {e : PyStr} :
    Serial H p (Agrees H m) (Method.perform (.getCredentialsByEmail e) : Method Profile (Option UserCredentialSnapshot))
      (fun snapshot w => Agrees H m w ∧ match snapshot with
        | none => m e = none
        | some snapshot => HasCredentials H m e snapshot w) Z := by
  refine serial_perform fun w ch hm _ => ⟨fun snapshot hs => ?_, fun x hx => nomatch hx⟩
  obtain rfl : w.db.getCredentialsByEmail e = snapshot := Except.ok.inj hs
  refine ⟨hm, ?_⟩
  split
  · next hnone =>
    cases hme : m e with
    | none => rfl
    | some q =>
      obtain ⟨u, hu, he⟩ := hm.account _ _ hme
      exact absurd he (IdentityDb.getCredentialsByEmail_none hnone u hu)
  · next snapshot hsome =>
    obtain ⟨u, hu, he, rfl⟩ := IdentityDb.getCredentialsByEmail_some hsome
    exact ⟨u, hu, he, rfl, he ▸ hm.user u hu⟩

section Match

variable {normalized e : PyStr} {snapshot : UserCredentialSnapshot}

lemma serial_replacementHash (hU : NfcIdempotent U) (hH : H.Ideal)
    (hp : normalizeAndValidate U password = .ok normalized) (hprod : Produced H snapshot.password_hash normalized)
    (hA : Persistent A) :
    Serial H p A (replacementHash U H self snapshot normalized)
      (fun replacement_hash w => A w ∧ ∀ h, replacement_hash = some h → Produced H h normalized) Z := by
  obtain ⟨needs, hneeds⟩ := hH.readable hprod self.profile
  unfold replacementHash checkNeedsRehash
  rw [hneeds]
  refine Serial.bind (B := fun _ => A) (Op.Alone.pure fun _ _ ha => ha) fun needs => ?_
  split
  · refine Serial.bind (serial_hashPassword hU hp hA) fun h => Op.Alone.pure fun _ w hh => ⟨hh.1, ?_⟩
    rintro h' ⟨⟩
    exact hh.2
  · exact Op.Alone.pure fun _ w ha => ⟨ha, fun h' he => nomatch he⟩

/-- The rest of `login`, where the password is that of the account. -/
lemma serial_issueLogin (hU : NfcIdempotent U) (hH : H.Ideal)
    (hp : normalizeAndValidate U password = .ok normalized) (hprod : Produced H snapshot.password_hash normalized)
    (hme : m e = some normalized) {k : IdentityCall} (hserve : m.serve U k = (.ok e, m)) :
    Serial H p (fun w => Agrees H m w ∧ HasCredentials H m e snapshot w)
      (issueLogin U H self snapshot normalized) (fun issuance w => Served U H m k (.ok issuance) w) Z := by
  have hP := (persistent_agrees (H := H) (m := m)).and (persistent_hasCredentials (H := H) (m := m) e snapshot)
  refine Serial.bind (serial_replacementHash hU hH hp hprod hP) fun replacement_hash => ?_
  have hR := hP.and (.const (∀ h, replacement_hash = some h → Produced H h normalized))
  refine Serial.bind (serial_now hR fun w h => h.1.1) fun now => ?_
  refine Serial.bind (serial_issueSession (hR.and (persistent_reads now)) fun w h => h.1.1.1) fun material => ?_
  refine Serial.bind ((serial_addLogin (q := normalized)).pre fun _ w h =>
    ⟨h.1.1.1.1, hme, h.1.1.1.2, h.1.1.2, h.1.2, h.2.1, h.2.2⟩) fun user => ?_
  refine Serial.bind serial_cleanupAfterSuccess fun _ => ?_
  exact Op.Alone.pure fun _ w h => Served.ok hserve h.1 h.2

end Match

/-- **`login` does what the map does.** -/
theorem serial_login (hU : NfcIdempotent U) (hH : H.Ideal) :
    Serial H p (Agrees H m) (login U H self email password)
      (fun issuance w => Served U H m (.login email password) (.ok issuance) w)
      fun x w => Served U H m (.login email password) (.error x) w := by
  unfold login validPassword
  cases hp : normalizeAndValidate U password with
  | error x => exact serial_raises fun w => Served.error (by simp only [Accounts.serve, hp])
  | ok normalized =>
  refine serial_passes ?_
  cases hc : canonicalizeEmail email with
  | error x => exact serial_verifyDummy hU hp fun w => Served.error (by simp only [Accounts.serve, hp, hc])
  | ok c =>
  have hserve : m.serve U (.login email password) = if m c.email_normalized = some normalized then
      (.ok c.email_normalized, m) else (.error .invalidCredentials, m) := by
    simp only [Accounts.serve, hp, hc]
  refine Serial.bind serial_getCredentialsByEmail fun snapshot => ?_
  cases snapshot with
  | none =>
    refine serial_verifyDummy hU hp fun w h => Served.error ?_ h.1
    rw [hserve, if_neg (by rw [h.2]; exact fun hx => nomatch hx)]
  | some snapshot =>
  -- the password that was hashed
  refine Op.Alone.assume (φ := ∃ q, m c.email_normalized = some q ∧ Produced H snapshot.password_hash q) ?_ ?_
  · rintro _ w ⟨-, u, hu, he, rfl, q, hq, hprod⟩
    exact ⟨q, hq, hprod⟩
  rintro ⟨q, hq, hprod⟩
  obtain ⟨verification, hv, hmatch⟩ :=
    verifyPassword_of_ok (H := H) hU hp self.profile snapshot.password_hash
  rw [hH.verify_iff hprod] at hmatch
  have hrefused : normalized ≠ q → m.serve U (.login email password) = (.error .invalidCredentials, m) := by
    intro hne
    rw [hserve, if_neg (by rw [hq]; exact fun hx => hne (Option.some.inj hx).symm)]
  unfold verify
  dsimp only
  rw [hv]
  refine serial_passes ?_
  cases verification with
  | mismatch =>
    refine Op.Alone.raise fun _ w h => Served.error (hrefused fun he => ?_) h.1
    exact absurd (hmatch.mpr he) (by simp)
  | malformed =>
    refine serial_verifyDummy hU hp fun w h => Served.error (hrefused fun he => ?_) h.1
    exact absurd (hmatch.mpr he) (by simp)
  | isMatch =>
    obtain rfl := hmatch.mp rfl
    exact serial_issueLogin hU hH hp hprod hq (by rw [hserve, if_pos hq])

end Methods

/-! ### The guarantee -/

/-- A call that runs from beginning to end. -/
def ServesCall (U : Unicode) (H : Hasher Profile Salt) (w : IdentityWorld) (i : IdentityService Profile × IdentityCall)
    (out : Except IdentityExn SessionIssuance) (w' : IdentityWorld) : Prop :=
  ∃ p cs cs', (i.2.body U H i.1).solo (identityMachine H forward) p cs w = some ((out, ()), w', cs')

/-- Every choice is possible, one after the other. -/
def Acceptable : IdentityWorld → List (IdentityChoice Salt) → Prop
  | _, [] => True
  | w, c :: cs => w.clock ≤ c.time ∧ c.uuid ∉ w.uuids ∧ sha256 c.token.1 ∉ w.tokens ∧
      Acceptable { w with clock := c.time, uuids := c.uuid :: w.uuids, tokens := sha256 c.token.1 :: w.tokens } cs

lemma Acceptable.mono {cs : List (IdentityChoice Salt)} : ∀ {w w' : IdentityWorld}, Acceptable w cs →
    w'.clock ≤ w.clock → w'.uuids ⊆ w.uuids → w'.tokens ⊆ w.tokens → Acceptable w' cs := by
  induction cs with
  | nil => exact fun _ _ _ _ => trivial
  | cons c cs ih =>
    rintro w w' ⟨hclock, huuid, htoken, hcs⟩ hc hu ht
    refine ⟨le_trans hc hclock, fun hm => huuid (hu hm), fun hm => htoken (ht hm), ih hcs le_rfl ?_ ?_⟩
    · exact List.cons_subset_cons _ hu
    · exact List.cons_subset_cons _ ht

/-- What is acceptable is performed, and the rest stays acceptable. -/
lemma Acceptable.exec {c : IdentityChoice Salt} {cs : List (IdentityChoice Salt)} (h : Acceptable w (c :: cs))
    (p : Pid) (e : IdentityEff Profile) :
    ∃ r w', (identityMachine H forward).exec p e c w = some (r, w') ∧ Acceptable w' cs := by
  obtain ⟨hclock, huuid, htoken, hcs⟩ := h
  have hfair : forward w c e = true := by
    cases e <;> simp [forward, freshDraw, hclock, huuid, htoken]
  refine ⟨_, _, if_pos hfair, ?_⟩
  have hu := List.subset_cons_self c.uuid w.uuids
  have ht := List.subset_cons_self (sha256 c.token.1) w.tokens
  have hkeep : ∀ db hashes, Acceptable { w with db, hashes } cs := fun db hashes => hcs.mono hclock hu ht
  cases e with
  | now => exact hcs.mono le_rfl hu ht
  | uuid4 => exact hcs.mono hclock (List.Subset.refl _) ht
  | tokenBytes => exact hcs.mono hclock hu (List.Subset.refl _)
  | hash profile password => exact hkeep _ _
  | getCredentialsByEmail e => exact hkeep _ _
  | cleanup now => exact hkeep _ _
  | addIdentity user row =>
    dsimp only
    split <;> exact hkeep _ _
  | addLogin snapshot replacement_hash row now =>
    dsimp only
    split <;> exact hkeep _ _

/-- **Registering and logging in refine the map of accounts**: calls that run one after the other, each
with hashing parameters of its own, answer as the map does, and the tables hold its accounts.  A call
always ends, whatever the environment draws. -/
theorem identity_refines_accounts {U : Unicode} (hU : NfcIdempotent U) (hH : H.Ideal) (hm : Agrees H m w) :
    (∀ calls outs w', Serves (ServesCall U H) w calls outs w' →
      List.Forall₂ (fun verdict out => Shows verdict out.1 out.2)
        (answers (Accounts.answer U) m calls).1 outs ∧
      Agrees H (answers (Accounts.answer U) m calls).2 w') ∧
    ∀ w' p (self : IdentityService Profile) (k : IdentityCall) cs, Acceptable w' cs → 8 ≤ cs.length →
      ∃ out, (k.body U H self).solo (identityMachine H forward) p cs w' = some out := by
  have hstep : Refines (ServesCall U H) (Accounts.answer U) (Agrees H) Shows := by
    rintro m w ⟨self, k⟩ out w' hm ⟨p, cs, cs', hrun⟩
    have hserved : ∀ out, (k.body U H self).solo (identityMachine H forward) p cs w = some ((out, ()), w', cs') →
        Served U H m k out w' := by
      intro out hrun
      cases k with
      | register email password =>
        obtain ⟨hok, herror⟩ := serial_register hU _ _ _ _ _ _ _ hm hrun
        cases out with
        | ok issuance => exact hok _ rfl
        | error x => exact herror _ rfl
      | login email password =>
        obtain ⟨hok, herror⟩ := serial_login hU hH _ _ _ _ _ _ _ hm hrun
        cases out with
        | ok issuance => exact hok _ rfl
        | error x => exact herror _ rfl
    exact hserved out hrun
  refine ⟨fun calls outs w' hr => hstep.run hr hm, fun w' p self k cs hcs hlen => ?_⟩
  exact (within_op k ()).exists_solo (fun w c cs e h => h.exec p e) hcs hlen

namespace Sample

/-- A hash that shows the parameters, the salt and the password. -/
def hasher : Hasher PyChar PyChar where
  hash profile salt password := profile :: salt :: password
  verify _ encoded_hash password := if encoded_hash.drop 2 = password then .ok () else .error .verifyMismatch
  checkNeedsRehash profile encoded_hash := encoded_hash.head?.map fun c => c ≠ profile

lemma ideal_hasher : hasher.Ideal where
  verify_iff := by
    rintro _ password ⟨profile, salt, rfl⟩ profile' candidate
    simp only [hasher, List.drop_succ_cons, List.drop_zero]
    split
    · next he => exact iff_of_true rfl he.symm
    · next he => exact iff_of_false (by simp) fun hc => he hc.symm
  readable := by
    rintro _ password ⟨profile, salt, rfl⟩ profile'
    exact ⟨_, rfl⟩

def unicode : Unicode := ⟨fun _ => false, id, id, id⟩

/-- No rows, and nothing drawn. -/
def nothing : IdentityWorld := ⟨⟨.empty, .empty⟩, 0, [], [], []⟩

lemma agrees_nothing : Agrees hasher (fun _ => none) nothing where
  user _ h := (Table.not_mem_empty _ h).elim
  account _ _ h := nomatch h
  unique _ h := (Table.not_mem_empty _ h).elim
  checks _ h := (Table.not_mem_empty _ h).elim
  created _ h := (Table.not_mem_empty _ h).elim
  user_drawn _ h := (Table.not_mem_empty _ h).elim
  session_drawn _ h := (Table.not_mem_empty _ h).elim
  token_drawn _ h := (Table.not_mem_empty _ h).elim

def service (profile : PyChar) : IdentityService PyChar := ⟨profile, []⟩

/-- The choices from the `n`-th on. -/
def choicesFrom (n : ℕ) : List (IdentityChoice PyChar) :=
  (List.range' n 8).map fun (i : ℕ) => ⟨Int.ofNat i, i, Token.replicate (UInt8.ofNat i), 7, []⟩

/-- Calls one after the other, each with the choices that are its own. -/
def serveAll (U : Unicode) : ℕ → List (IdentityService PyChar × IdentityCall) → IdentityWorld →
    Option (List (Except IdentityExn SessionIssuance × IdentityWorld) × IdentityWorld)
  | _, [], w => some ([], w)
  | n, i :: calls, w =>
    match (i.2.body U hasher i.1).solo (identityMachine hasher forward) 0 (choicesFrom n) w with
    | some ((out, ()), w', _) => (serveAll U (n + 8) calls w').map fun r => ((out, w') :: r.1, r.2)
    | none => none

lemma serves_serveAll {U : Unicode} : ∀ {n : ℕ} {calls : List (IdentityService PyChar × IdentityCall)}
    {w w' : IdentityWorld} {outs : List (Except IdentityExn SessionIssuance × IdentityWorld)},
    serveAll U n calls w = some (outs, w') → Serves (ServesCall U hasher) w calls outs w'
  | _, [], w, w', outs, h => by
    cases h
    exact .nil
  | n, i :: calls, w, w', outs, h => by
    rw [serveAll] at h
    split at h
    · next out w₁ cs' hrun =>
      obtain ⟨⟨outs', w''⟩, hrest, he⟩ := Option.map_eq_some_iff.mp h
      cases he
      exact .cons ⟨0, _, cs', hrun⟩ (serves_serveAll hrest)
    · cases h

/-- An account is registered, refused a second time and with another password, and logged in under new
parameters and then again. -/
def calls : List (IdentityService PyChar × IdentityCall) :=
  [(service 1, .register (py " Ana@Example.org") (py "correct horse battery")),
    (service 1, .register (py "ana@example.ORG") (py "another long password")),
    (service 1, .login (py "ana@example.org") (py "another long password")),
    (service 2, .login (py "ANA@example.org") (py "correct horse battery")),
    (service 2, .login (py "ana@example.org") (py "correct horse battery"))]

/-- What is left of a reply: the exception, if there is one. -/
def raised (out : Except IdentityExn SessionIssuance × IdentityWorld) : Option IdentityExn :=
  match out.1 with
  | .ok _ => none
  | .error x => some x

end Sample

/-- One account, through a change of the hashing parameters. -/
theorem identity_refines_accounts_sample : ∃ outs w',
    Serves (ServesCall Sample.unicode Sample.hasher) Sample.nothing Sample.calls outs w' ∧
    outs.map Sample.raised = [none, some .duplicateIdentity, some .invalidCredentials, none, none] ∧
    List.Forall₂ (fun verdict out => Shows verdict out.1 out.2)
      (answers (Accounts.answer Sample.unicode) (fun _ => none) Sample.calls).1 outs := by
  have hrun : ((Sample.serveAll Sample.unicode 0 Sample.calls Sample.nothing).map fun r =>
      r.1.map Sample.raised) = some [none, some .duplicateIdentity, some .invalidCredentials, none, none] := by
    decide +kernel
  obtain ⟨⟨outs, w'⟩, hserve, houts⟩ := Option.map_eq_some_iff.mp hrun
  have hserves := Sample.serves_serveAll hserve
  exact ⟨outs, w', hserves, houts, ((identity_refines_accounts (fun _ => rfl) Sample.ideal_hasher
    Sample.agrees_nothing).1 _ _ _ hserves).1⟩

end DataCheck.Identity
