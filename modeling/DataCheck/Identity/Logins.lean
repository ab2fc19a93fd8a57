import DataCheck.Identity.Accounts
import DataCheck.Lib.Log

/-!
# Concurrent logins

Any number of logins to one account at once, each with its password.  A login reads the stored hash in
one transaction and compares it in another, and a login that rehashes replaces it in between.
-/

namespace DataCheck.Identity

open Lib

variable {Profile Salt : Type}

/-- An effect of a login that was performed. -/
abbrev LoginEvent (Profile Salt : Type) : Type :=
  Lib.Event (IdentityEff Profile) (fun e => Except IdentityExn e.Resp) (IdentityChoice Salt) IdentityWorld

/-- A world with the log of the effects that led to it. -/
abbrev LoginWorld (Profile Salt : Type) : Type :=
  Logged (IdentityEff Profile) (fun e => Except IdentityExn e.Resp) (IdentityChoice Salt) IdentityWorld

/-- Draws are fresh, also those of salts, and no reading of the clock is before `created_at`. -/
def fairLogin (H : Hasher Profile Salt) (created_at : Time) (w : IdentityWorld) (c : IdentityChoice Salt)
    (e : IdentityEff Profile) : Bool :=
  freshDraw w c e && match e with
    | .now | .addLogin .. => decide (created_at ≤ c.time)
    | .hash profile password => decide (H.hash profile c.salt password ∉ w.hashes)
    | _ => true

/-- The hash that is stored for an address. -/
def storedHash (email : PyStr) (w : IdentityWorld) : Option PyStr :=
  (w.db.getCredentialsByEmail email).map UserCredentialSnapshot.password_hash

/-- The event is the second transaction of a login, and it replaced the stored hash. -/
def Replaces (email : PyStr) (ev : LoginEvent Profile Salt) : Prop :=
  (∃ snapshot h row now, ev.eff = .addLogin snapshot (some h) row now) ∧
    storedHash email ev.before ≠ storedHash email ev.after

/-- A login of the thread `p` ended so: it read the credentials, and later it compared them.  It
returned when nobody had replaced the stored hash in the meantime, and when another login had it
raised `InvalidCredentials`. -/
def Decided (email : PyStr) (p : Pid) (out : Except IdentityExn SessionIssuance)
    (log : List (LoginEvent Profile Salt)) : Prop :=
  ∃ later compared between read earlier, log = later ++ compared :: (between ++ read :: earlier) ∧
    read.pid = p ∧ read.eff = .getCredentialsByEmail email ∧
    compared.pid = p ∧ (∃ snapshot h row now, compared.eff = .addLogin snapshot h row now) ∧
    ((∃ issuance, out = .ok issuance) ∧ (∀ ev ∈ between, ¬ Replaces email ev) ∨
      out = .error .invalidCredentials ∧ ∃ ev ∈ between, ev.pid ≠ p ∧ Replaces email ev)

/-- Logins at once to one account: the hasher, the logins, the account, and the world before them. -/
structure LoginSetting (Profile Salt : Type) where
  H : Hasher Profile Salt
  calls : IdentityService Profile × IdentityCall → Prop
  email : PyStr
  password : PyStr
  id : Uuid
  created_at : Time
  start : IdentityWorld

/-- A login with the address and the password of the account. -/
def LoginSetting.IsCorrect (L : LoginSetting Profile Salt) (U : Unicode)
    (i : IdentityService Profile × IdentityCall) : Prop :=
  ∃ given c candidate, i.2 = .login given candidate ∧ canonicalizeEmail given = .ok c ∧
    c.email_normalized = L.email ∧ normalizeAndValidate U candidate = .ok L.password

/-- One user has the address, and its hash was made from the password. -/
def LoginSetting.Account (L : LoginSetting Profile Salt) (db : IdentityDb) : Prop :=
  (∃ u ∈ db.users, u.id = L.id ∧ u.email_normalized = L.email ∧ u.created_at = L.created_at ∧
    u.checks = true ∧ Produced L.H u.password_hash L.password) ∧
  ∀ v ∈ db.users, v.email_normalized = L.email → v.id = L.id

/-- The service of some login finds that the hash stored at the start needs rehashing. -/
def LoginSetting.NeedsRehash (L : LoginSetting Profile Salt) : Prop :=
  ∃ i h, L.calls i ∧ storedHash L.email L.start = some h ∧ L.H.checkNeedsRehash i.1.profile h = some true

/-! ### Who drew what -/

inductive Item where
  | uuid (u : Uuid)
  | token (token_hash : Digest)
  | hash (password_hash : PyStr)

def drawnItem (H : Hasher Profile Salt) (ev : LoginEvent Profile Salt) : Option Item :=
  match ev.eff with
  | .uuid4 => some (.uuid ev.choice.uuid)
  | .tokenBytes => some (.token (sha256 ev.choice.token.1))
  | .hash profile password => some (.hash (H.hash profile ev.choice.salt password))
  | _ => none

def Item.Known (w : IdentityWorld) : Item → Prop
  | .uuid u => u ∈ w.uuids
  | .token token_hash => token_hash ∈ w.tokens
  | .hash password_hash => password_hash ∈ w.hashes

/-- No session has it, and it was never the stored hash. -/
def Item.Unused (email : PyStr) (s : LoginWorld Profile Salt) : Item → Prop
  | .uuid u => ∀ r ∈ s.state.db.sessions, r.id ≠ u
  | .token token_hash => ∀ r ∈ s.state.db.sessions, r.token_hash ≠ token_hash
  | .hash password_hash => storedHash email s.state ≠ some password_hash ∧
      ∀ ev ∈ s.log, storedHash email ev.before ≠ some password_hash

def DrewItem (H : Hasher Profile Salt) (p : Pid) (item : Item) (log : List (LoginEvent Profile Salt)) : Prop :=
  ∃ ev ∈ log, ev.pid = p ∧ drawnItem H ev = some item

/-! ### The contract -/

/-- The hash stored at the start is still there, and always was. -/
structure Unreplaced (L : LoginSetting Profile Salt) (s : LoginWorld Profile Salt) : Prop where
  now : storedHash L.email s.state = storedHash L.email L.start
  before : ∀ ev ∈ s.log, storedHash L.email ev.before = storedHash L.email L.start ∧ ¬ Replaces L.email ev

structure LoginInv (L : LoginSetting Profile Salt) (s : LoginWorld Profile Salt) : Prop where
  account : L.Account s.state.db
  used : ∀ item, Item.Unused L.email s item ∨ Item.Known s.state item
  known : ∀ p item, DrewItem L.H p item s.log → Item.Known s.state item
  once : ∀ p q item, DrewItem L.H p item s.log → DrewItem L.H q item s.log → p = q
  rehashed : L.NeedsRehash ∨ Unreplaced L s

/-- What a step of the thread `p` may do. -/
structure LoginGuar (L : LoginSetting Profile Salt) (p : Pid) (s s' : LoginWorld Profile Salt) : Prop where
  logs : ∃ ev, s'.log = ev :: s.log ∧ ev.pid = p ∧ ev.before = s.state ∧ ev.after = s'.state ∧
    (storedHash L.email s'.state = storedHash L.email s.state ∨ Replaces L.email ev)
  /-- It uses only what it drew. -/
  uses : ∀ item, Item.Unused L.email s item → Item.Unused L.email s' item ∨ DrewItem L.H p item s.log
  /-- A new stored hash was never stored before. -/
  stored : storedHash L.email s'.state = storedHash L.email s.state ∨
    ∃ h, storedHash L.email s'.state = some h ∧ Item.Unused L.email s (.hash h)

def logins (L : LoginSetting Profile Salt) :
    Contract (IdentityService Profile × IdentityCall) (IdentityEff Profile) (LoginWorld Profile Salt) where
  Inv h := LoginInv L h.now
  Guar p _ h s := LoginGuar L p h.now s
  At _ _ _ := True

variable {L : LoginSetting Profile Salt} {p q : Pid} {s s' : LoginWorld Profile Salt}

/-- The user of the account, and the hash that is stored for it. -/
lemma LoginSetting.Account.user {w : IdentityWorld} (h : L.Account w.db) : ∃ u ∈ w.db.users,
    storedHash L.email w = some u.password_hash ∧ u.id = L.id ∧ u.email_normalized = L.email ∧
      u.created_at = L.created_at ∧ u.checks = true ∧ Produced L.H u.password_hash L.password := by
  obtain ⟨⟨u, hu, hid, hemail, hrest⟩, hunique⟩ := h
  refine ⟨u, hu, ?_, hid, hemail, hrest⟩
  unfold storedHash
  cases hc : w.db.getCredentialsByEmail L.email with
  | none => exact absurd hemail (IdentityDb.getCredentialsByEmail_none hc u hu)
  | some snapshot =>
    obtain ⟨v, hv, he, rfl⟩ := IdentityDb.getCredentialsByEmail_some hc
    obtain rfl : v = u := Table.eq_of_key hv hu ((hunique v hv he).trans hid.symm)
    rfl

lemma LoginSetting.Account.credentials {w : IdentityWorld} (h : L.Account w.db) :
    ∃ h₀, w.db.getCredentialsByEmail L.email = some ⟨L.id, h₀⟩ ∧ storedHash L.email w = some h₀ ∧
      Produced L.H h₀ L.password := by
  obtain ⟨u, hu, hstored, -, -, -, -, hp⟩ := h.user
  obtain ⟨snapshot, hs, he⟩ := Option.map_eq_some_iff.mp hstored
  obtain ⟨v, hv, hve, rfl⟩ := IdentityDb.getCredentialsByEmail_some hs
  refine ⟨u.password_hash, ?_, hstored, hp⟩
  rw [hs, ← he, ← h.2 v hv hve]

/-- The user of the account is written again, with another hash of the password. -/
lemma LoginSetting.Account.put {w : IdentityWorld} (h : L.Account w.db) {u : User}
    (hid : u.id = L.id) (hemail : u.email_normalized = L.email) (hcreated : u.created_at = L.created_at)
    (hc : u.checks = true) (hp : Produced L.H u.password_hash L.password)
    (sessions : Table Uuid UserSession UserSession.id) :
    L.Account ⟨w.db.users.put u, sessions⟩ := by
  refine ⟨⟨u, Table.mem_put.mpr (Or.inl rfl), hid, hemail, hcreated, hc, hp⟩, fun v hv he => ?_⟩
  rcases Table.mem_put.mp hv with rfl | ⟨hv, -⟩
  · exact hid
  · exact h.2 v hv he

theorem LoginInv.step (hi : LoginInv L s) {e : IdentityEff Profile} {c : IdentityChoice Salt}
    {r : Except IdentityExn e.Resp} {w : IdentityWorld} (haccount : L.Account w.db)
    (hknown : ∀ item, Item.Known s.state item → Item.Known w item)
    (hdrawn : ∀ item, drawnItem L.H ⟨p, e, c, r, s.state, w⟩ = some item →
      Item.Known w item ∧ ¬ Item.Known s.state item)
    (hrehash : Replaces L.email (⟨p, e, c, r, s.state, w⟩ : LoginEvent Profile Salt) → L.NeedsRehash)
    (hg : LoginGuar L p s (s.next p e c r w)) : LoginInv L (s.next p e c r w) := by
  have hdrew : ∀ q item, DrewItem L.H q item (s.next p e c r w).log →
      DrewItem L.H q item s.log ∨ q = p ∧ drawnItem L.H ⟨p, e, c, r, s.state, w⟩ = some item := by
    rintro q item ⟨ev, hev, hq, hd⟩
    rcases List.mem_cons.mp hev with rfl | hev
    · exact Or.inr ⟨hq.symm, hd⟩
    · exact Or.inl ⟨ev, hev, hq, hd⟩
  refine ⟨haccount, fun item => ?_, fun q item hq => ?_, fun q q' item hq hq' => ?_, ?_⟩
  · rcases hi.used item with hu | hk
    · exact (hg.uses item hu).imp_right fun hd => hknown item (hi.known p item hd)
    · exact Or.inr (hknown item hk)
  · rcases hdrew q item hq with hd | ⟨-, hd⟩
    · exact hknown item (hi.known q item hd)
    · exact (hdrawn item hd).1
  · rcases hdrew q item hq with hd | ⟨rfl, hd⟩ <;> rcases hdrew q' item hq' with hd' | ⟨rfl, hd'⟩
    · exact hi.once q q' item hd hd'
    · exact absurd (hi.known q item hd) (hdrawn item hd').2
    · exact absurd (hi.known q' item hd') (hdrawn item hd).2
    · rfl
  · rcases hi.rehashed with hn | hu
    · exact Or.inl hn
    · by_cases hr : Replaces L.email (⟨p, e, c, r, s.state, w⟩ : LoginEvent Profile Salt)
      · exact Or.inl (hrehash hr)
      · obtain ⟨ev, hlog, -, -, -, hstored⟩ := hg.logs
        obtain rfl : _ = ev := (List.cons.inj hlog).1
        refine Or.inr ⟨(hstored.resolve_right hr).trans hu.now, fun ev hev => ?_⟩
        rcases List.mem_cons.mp hev with rfl | hev
        · exact ⟨hu.now, hr⟩
        · exact hu.before ev hev

/-! ### Assertions -/

/-- One more event of the thread `p`, and the tables are as they were. -/
structure Quiet (p : Pid) (s s' : LoginWorld Profile Salt) : Prop where
  logs : ∃ ev, s'.log = ev :: s.log ∧ ev.pid = p ∧ ev.before = s.state ∧ ev.after = s'.state
  db : s'.state.db = s.state.db

lemma Quiet.stored {email : PyStr} (hs : Quiet p s s') : storedHash email s'.state = storedHash email s.state := by
  rw [storedHash, hs.db]
  rfl

lemma Quiet.unused {email : PyStr} (hs : Quiet p s s') {item : Item} (hu : Item.Unused email s item) :
    Item.Unused email s' item := by
  obtain ⟨ev, hlog, -, hbefore, -⟩ := hs.logs
  cases item with
  | uuid u =>
    rw [Item.Unused, hs.db]
    exact hu
  | token d =>
    rw [Item.Unused, hs.db]
    exact hu
  | hash h =>
    rw [Item.Unused, hs.stored, hlog]
    exact ⟨hu.1, List.forall_mem_cons.mpr ⟨hbefore ▸ hu.1, hu.2⟩⟩

lemma Quiet.guar (hs : Quiet p s s') : LoginGuar L p s s' where
  logs := by
    obtain ⟨ev, hlog, hp, hbefore, hafter⟩ := hs.logs
    exact ⟨ev, hlog, hp, hbefore, hafter, Or.inl hs.stored⟩
  uses item hu := Or.inl (hs.unused hu)
  stored := Or.inl hs.stored

/-- Neither other logins nor quiet steps of its own end it. -/
structure Holds (L : LoginSetting Profile Salt) (p : Pid) (A : LoginWorld Profile Salt → Prop) : Prop where
  others : ∀ q s s', q ≠ p → LoginInv L s → A s → LoginGuar L q s s' → A s'
  quiet : ∀ s s', A s → Quiet p s s' → A s'

lemma Holds.stable {A : LoginWorld Profile Salt → Prop} (hA : Holds L p A) :
    Stable (logins L) p fun h => A h.now :=
  fun q _ h w hq hi ha hg _ => hA.others q h.now w hq hi ha hg

lemma Holds.const (φ : Prop) : Holds L p fun _ => φ := ⟨fun _ _ _ _ _ h _ => h, fun _ _ h _ => h⟩

lemma Holds.and {A B : LoginWorld Profile Salt → Prop} (hA : Holds L p A) (hB : Holds L p B) :
    Holds L p fun s => A s ∧ B s :=
  ⟨fun q s s' hq hi h hg => ⟨hA.others q s s' hq hi h.1 hg, hB.others q s s' hq hi h.2 hg⟩,
    fun s s' h hs => ⟨hA.quiet s s' h.1 hs, hB.quiet s s' h.2 hs⟩⟩

/-- The thread drew it and has not used it. -/
def Mine (L : LoginSetting Profile Salt) (p : Pid) (item : Item) (s : LoginWorld Profile Salt) : Prop :=
  DrewItem L.H p item s.log ∧ Item.Unused L.email s item

lemma holds_mine (item : Item) : Holds L p (Mine L p item) where
  others q s s' hq hi h hg := by
    obtain ⟨ev, hlog, -⟩ := hg.logs
    obtain ⟨mine, hmem, hrest⟩ := h.1
    refine ⟨⟨mine, hlog ▸ List.mem_cons_of_mem _ hmem, hrest⟩, (hg.uses item h.2).resolve_right fun hd => ?_⟩
    exact hq (hi.once q p item hd h.1)
  quiet s s' h hs := by
    obtain ⟨ev, hlog, -⟩ := hs.logs
    obtain ⟨mine, hmem, hrest⟩ := h.1
    exact ⟨⟨mine, hlog ▸ List.mem_cons_of_mem _ hmem, hrest⟩, hs.unused h.2⟩

/-- The thread has read the credentials with the hash `h₀`.  It is still there, or another login has
replaced it. -/
def HasRead (L : LoginSetting Profile Salt) (p : Pid) (h₀ : PyStr) (s : LoginWorld Profile Salt) : Prop :=
  ∃ later read earlier, s.log = later ++ read :: earlier ∧ read.pid = p ∧
    read.eff = .getCredentialsByEmail L.email ∧ storedHash L.email read.before = some h₀ ∧
    (storedHash L.email s.state = some h₀ ∧ (∀ ev ∈ later, ¬ Replaces L.email ev) ∨
      storedHash L.email s.state ≠ some h₀ ∧ ∃ ev ∈ later, ev.pid ≠ p ∧ Replaces L.email ev)

/-- A step keeps it, when the thread itself leaves the stored hash alone. -/
lemma HasRead.next {h₀ : PyStr} (h : HasRead L p h₀ s) (hg : LoginGuar L q s s')
    (hq : q = p → storedHash L.email s'.state = storedHash L.email s.state) : HasRead L p h₀ s' := by
  obtain ⟨later, read, earlier, hlog, hp, heff, hbefore, hcase⟩ := h
  obtain ⟨ev, hlog', hevp, hevb, heva, hev⟩ := hg.logs
  refine ⟨ev :: later, read, earlier, by rw [hlog', hlog]; rfl, hp, heff, hbefore, ?_⟩
  rcases hcase with ⟨hstored, hnone⟩ | ⟨hne, r, hr, hrest⟩
  · by_cases hsame : storedHash L.email s'.state = storedHash L.email s.state
    · refine Or.inl ⟨hsame.trans hstored, List.forall_mem_cons.mpr ⟨fun hrep => hrep.2 ?_, hnone⟩⟩
      rw [hevb, heva, hsame]
    · refine Or.inr ⟨fun he => hsame (he.trans hstored.symm), ev, List.mem_cons_self, fun hep => ?_,
        hev.resolve_left hsame⟩
      exact hsame (hq (hevp.symm.trans hep))
  · -- a hash that was replaced does not come back
    refine Or.inr ⟨fun he => ?_, r, List.mem_cons_of_mem _ hr, hrest⟩
    rcases hg.stored with hsame | ⟨h, hs, hunused⟩
    · exact hne (hsame.symm.trans he)
    · obtain rfl : h = h₀ := Option.some.inj (hs.symm.trans he)
      exact hunused.2 read (by rw [hlog]; simp) hbefore

lemma holds_hasRead (h₀ : PyStr) : Holds L p (HasRead L p h₀) where
  others _ _ _ hq _ h hg := h.next hg fun he => absurd he hq
  quiet _ _ h hs := h.next hs.guar fun _ => hs.stored

/-- What the first transaction of a login leaves. -/
def ReadBy (L : LoginSetting Profile Salt) (p : Pid) (snapshot : Option UserCredentialSnapshot)
    (s : LoginWorld Profile Salt) : Prop :=
  ∃ h₀, snapshot = some ⟨L.id, h₀⟩ ∧ Produced L.H h₀ L.password ∧ HasRead L p h₀ s

lemma holds_readBy (snapshot : Option UserCredentialSnapshot) : Holds L p (ReadBy L p snapshot) where
  others q s s' hq hi h hg := by
    obtain ⟨h₀, hs, hp, hr⟩ := h
    exact ⟨h₀, hs, hp, (holds_hasRead h₀).others q s s' hq hi hr hg⟩
  quiet s s' h hquiet := by
    obtain ⟨h₀, hs, hp, hr⟩ := h
    exact ⟨h₀, hs, hp, (holds_hasRead h₀).quiet s s' hr hquiet⟩

/-- A login that needs to rehash the hash that it read. -/
lemma HasRead.needsRehash {h₀ : PyStr} (h : HasRead L p h₀ s) (hi : LoginInv L s)
    {i : IdentityService Profile × IdentityCall} (hc : L.calls i)
    (hn : L.H.checkNeedsRehash i.1.profile h₀ = some true) : L.NeedsRehash := by
  obtain ⟨later, read, earlier, hlog, -, -, hbefore, -⟩ := h
  refine hi.rehashed.elim id fun hu => ⟨i, h₀, hc, ?_, hn⟩
  rw [← (hu.before read (by rw [hlog]; simp)).1, hbefore]

lemma Decided.cons {email : PyStr} {out : Except IdentityExn SessionIssuance} {log : List (LoginEvent Profile Salt)}
    (h : Decided email p out log) (ev : LoginEvent Profile Salt) : Decided email p out (ev :: log) := by
  obtain ⟨later, compared, between, read, earlier, rfl, hrest⟩ := h
  exact ⟨ev :: later, compared, between, read, earlier, rfl, hrest⟩

lemma holds_decided (out : Except IdentityExn SessionIssuance) :
    Holds L p fun s => Decided L.email p out s.log where
  others _ _ _ _ _ h hg := by
    obtain ⟨ev, hlog, -⟩ := hg.logs
    rw [hlog]
    exact h.cons ev
  quiet _ _ h hs := by
    obtain ⟨ev, hlog, -⟩ := hs.logs
    rw [hlog]
    exact h.cons ev

/-- The login returns, whatever it issues. -/
def Returns (L : LoginSetting Profile Salt) (p : Pid) (s : LoginWorld Profile Salt) : Prop :=
  ∀ issuance, Decided L.email p (.ok issuance) s.log

lemma holds_returns : Holds L p (Returns L p) where
  others q s s' hq hi h hg issuance := (holds_decided (.ok issuance)).others q s s' hq hi (h issuance) hg
  quiet s s' h hs issuance := (holds_decided (.ok issuance)).quiet s s' (h issuance) hs

/-! ### The steps of a login -/

section Rules

variable {U : Unicode} {α β : Type} {t : Caller (IdentityService Profile × IdentityCall) (LoginWorld Profile Salt)}
  {A : LoginWorld Profile Salt → Prop}

lemma exec_fair {H : Hasher Profile Salt} {fair : IdentityWorld → IdentityChoice Salt → IdentityEff Profile → Bool}
    {e : IdentityEff Profile} {c : IdentityChoice Salt} {w w' : IdentityWorld} {r : Except IdentityExn e.Resp}
    (hx : (identityMachine H fair).exec p e c w = some (r, w')) :
    fair w c e = true ∧ (r, w') = w.perform H c e := by
  simp only [identityMachine] at hx
  split at hx
  · next hf => exact ⟨hf, (Option.some.inj hx).symm⟩
  · cases hx

/-- What tables and draws are after an effect that is no write. -/
lemma exec_quiet {e : IdentityEff Profile} (he : ∀ user row, e ≠ .addIdentity user row)
    (he' : ∀ snapshot h row now, e ≠ .addLogin snapshot h row now) (he'' : ∀ now, e ≠ .cleanup now)
    {c : IdentityChoice Salt} {w w' : IdentityWorld} {r : Except IdentityExn e.Resp}
    (hx : (identityMachine L.H (fairLogin L.H L.created_at)).exec p e c w = some (r, w')) :
    w'.db = w.db ∧ (∀ item, Item.Known w item → Item.Known w' item) ∧
      ∀ item, drawnItem L.H ⟨p, e, c, r, w, w'⟩ = some item → Item.Known w' item ∧ ¬ Item.Known w item := by
  obtain ⟨hf, hw⟩ := exec_fair hx
  obtain ⟨rfl, rfl⟩ := Prod.mk.inj hw
  simp only [fairLogin, Bool.and_eq_true] at hf
  cases e with
  | addIdentity user row => exact absurd rfl (he user row)
  | addLogin snapshot h row now => exact absurd rfl (he' snapshot h row now)
  | cleanup now => exact absurd rfl (he'' now)
  | now => exact ⟨rfl, fun item h => by cases item <;> exact h, fun item h => nomatch h⟩
  | getCredentialsByEmail email => exact ⟨rfl, fun item h => by cases item <;> exact h, fun item h => nomatch h⟩
  | uuid4 =>
    have hnew : c.uuid ∉ w.uuids := by simpa [freshDraw] using hf.1
    refine ⟨rfl, fun item h => ?_, fun item h => ?_⟩
    · cases item with
      | uuid u => exact List.mem_cons_of_mem _ h
      | _ => exact h
    · cases h
      exact ⟨List.mem_cons_self, hnew⟩
  | tokenBytes =>
    have hnew : sha256 c.token.1 ∉ w.tokens := by simpa [freshDraw] using hf.1
    refine ⟨rfl, fun item h => ?_, fun item h => ?_⟩
    · cases item with
      | token d => exact List.mem_cons_of_mem _ h
      | _ => exact h
    · cases h
      exact ⟨List.mem_cons_self, hnew⟩
  | hash profile password =>
    have hnew : L.H.hash profile c.salt password ∉ w.hashes := by simpa using hf.2
    refine ⟨rfl, fun item h => ?_, fun item h => ?_⟩
    · cases item with
      | hash h' => exact List.mem_cons_of_mem _ h
      | _ => exact h
    · cases h
      exact ⟨List.mem_cons_self, hnew⟩

/-- A body keeps the contract, and when it raises, the login was decided so. -/
abbrev Logs (t : Caller (IdentityService Profile × IdentityCall) (LoginWorld Profile Salt))
    (L : LoginSetting Profile Salt) (A : LoginWorld Profile Salt → Prop) (m : Method Profile α)
    (Q : α → LoginWorld Profile Salt → Prop) : Prop :=
  Triple ((identityMachine L.H (fairLogin L.H L.created_at)).only fun _ _ => True) (logins L) t
    (fun _ h => A h.now) m (fun a _ h => Q a h.now) fun x _ h => Decided L.email t.pid (.error x) h.now.log

lemma Logs.bind {m : Method Profile α} {f : α → Method Profile β} {B : α → LoginWorld Profile Salt → Prop}
    {Q : β → LoginWorld Profile Salt → Prop} (hm : Logs t L A m B) (hf : ∀ a, Logs t L (B a) (f a) Q) :
    Logs t L A (m >>= f) Q := Triple.bind hm hf

lemma Logs.pure {a : α} {Q : α → LoginWorld Profile Salt → Prop} (hQ : ∀ s, LoginInv L s → A s → Q a s) :
    Logs t L A (Op.pure a) Q := Triple.pure fun _ h hi ha => hQ h.now hi ha

lemma Logs.pre {m : Method Profile α} {A' : LoginWorld Profile Salt → Prop} {Q : α → LoginWorld Profile Salt → Prop}
    (hm : Logs t L A' m Q) (hA : ∀ s, A s → A' s) : Logs t L A m Q := Triple.pre hm fun _ h _ => hA h.now

/-- A fact that the precondition contains may be used in the proof of the body. -/
lemma Logs.assume {φ : Prop} {m : Method Profile α} {Q : α → LoginWorld Profile Salt → Prop}
    (hm : φ → Logs t L A m Q) : Logs t L (fun s => φ ∧ A s) m Q :=
  Triple.assume (fun _ _ _ h => h.1) fun hφ => Triple.pre (hm hφ) fun _ _ _ h => h.2

lemma Logs.exists_read {m : Method Profile α} {Q : α → LoginWorld Profile Salt → Prop}
    {snapshot : Option UserCredentialSnapshot} (hm : ∀ h₀, snapshot = some ⟨L.id, h₀⟩ →
      Produced L.H h₀ L.password → Logs t L (HasRead L t.pid h₀) m Q) :
    Logs t L (fun s => True ∧ ReadBy L t.pid snapshot s) m Q := by
  have hex : Logs t L (fun s => ∃ h₀, (snapshot = some ⟨L.id, h₀⟩ ∧ Produced L.H h₀ L.password) ∧
      HasRead L t.pid h₀ s) m Q := Triple.exists_pre fun h₀ => Logs.assume fun h => hm h₀ h.1 h.2
  exact hex.pre fun _ ⟨_, h₀, hs, hp, hr⟩ => ⟨h₀, ⟨hs, hp⟩, hr⟩

theorem logs_perform {e : IdentityEff Profile} {Q : e.Resp → LoginWorld Profile Salt → Prop}
    (hQ : ∀ a, Holds L t.pid (Q a)) (h : ∀ s c r w, LoginInv L s → A s →
      (identityMachine L.H (fairLogin L.H L.created_at)).exec t.pid e c s.state = some (r, w) →
        LoginGuar L t.pid s (s.next t.pid e c r w) ∧ LoginInv L (s.next t.pid e c r w) ∧
          (∀ a, r = .ok a → Q a (s.next t.pid e c r w)) ∧
            ∀ x, r = .error x → Decided L.email t.pid (.error x) (s.next t.pid e c r w).log) :
    Logs t L A (Method.perform e) Q := by
  refine Triple.perform (fun _ _ _ _ => trivial) (fun a _ => (hQ a).stable)
    (fun x _ => (holds_decided (.error x)).stable) fun _ hist c r s' hi ha hx => ?_
  obtain ⟨w, hw, rfl, -⟩ := Machine.only_exec.mp hx
  exact h hist.now c r w hi ha hw

theorem logs_quiet {e : IdentityEff Profile} (he : ∀ user row, e ≠ .addIdentity user row)
    (he' : ∀ snapshot h row now, e ≠ .addLogin snapshot h row now) (he'' : ∀ now, e ≠ .cleanup now)
    (hA : Holds L t.pid A) {Q : e.Resp → LoginWorld Profile Salt → Prop} (hQ : ∀ a, Holds L t.pid (Q a))
    (h : ∀ s c r w, LoginInv L s → A s →
      (identityMachine L.H (fairLogin L.H L.created_at)).exec t.pid e c s.state = some (r, w) →
        ∃ a, r = .ok a ∧ (Quiet t.pid s (s.next t.pid e c r w) → Q a (s.next t.pid e c r w))) :
    Logs t L A (Method.perform e) fun a s => A s ∧ Q a s := by
  refine logs_perform (fun a => hA.and (hQ a)) fun s c r w hi ha hx => ?_
  obtain ⟨hdb, hknown, hdrawn⟩ := exec_quiet he he' he'' hx
  have hquiet : Quiet t.pid s (s.next t.pid e c r w) := ⟨⟨_, rfl, rfl, rfl, rfl⟩, hdb⟩
  obtain ⟨a, rfl, hq⟩ := h s c r w hi ha hx
  refine ⟨hquiet.guar, hi.step (hdb ▸ hi.account) hknown hdrawn (fun hr => absurd hquiet.stored.symm hr.2)
    hquiet.guar, fun a' he => ?_, fun x he => nomatch he⟩
  cases he
  exact ⟨hA.quiet s _ ha hquiet, hq hquiet⟩

theorem logs_now (hA : Holds L t.pid A) :
    Logs t L A Method.now fun now s => A s ∧ L.created_at ≤ now := by
  refine logs_quiet (by simp) (by simp) (by simp) hA (fun now => .const (L.created_at ≤ now)) fun s c r w hi ha hx => ?_
  obtain ⟨hf, he⟩ := exec_fair hx
  obtain ⟨rfl, rfl⟩ := Prod.mk.inj he
  exact ⟨c.time, rfl, fun _ => by simpa [fairLogin, freshDraw] using hf⟩

lemma mine_of_drawn (hi : LoginInv L s) {e : IdentityEff Profile} {c : IdentityChoice Salt}
    {r : Except IdentityExn e.Resp} {w : IdentityWorld} (hs : Quiet p s (s.next p e c r w)) {item : Item}
    (hd : drawnItem L.H ⟨p, e, c, r, s.state, w⟩ = some item) (hnew : ¬ Item.Known s.state item) :
    Mine L p item (s.next p e c r w) :=
  ⟨⟨_, List.mem_cons_self, rfl, hd⟩, hs.unused ((hi.used item).resolve_right hnew)⟩

theorem logs_uuid4 (hA : Holds L t.pid A) :
    Logs t L A Method.uuid4 fun id s => A s ∧ Mine L t.pid (.uuid id) s := by
  refine logs_quiet (by simp) (by simp) (by simp) hA (fun id => holds_mine (.uuid id)) fun s c r w hi ha hx => ?_
  have hnew := (exec_quiet (by simp) (by simp) (by simp) hx).2.2 _ rfl
  obtain ⟨-, he⟩ := exec_fair hx
  obtain ⟨rfl, rfl⟩ := Prod.mk.inj he
  exact ⟨c.uuid, rfl, fun hs => mine_of_drawn hi hs rfl hnew.2⟩

theorem logs_tokenBytes (hA : Holds L t.pid A) :
    Logs t L A Method.tokenBytes fun token s => A s ∧ Mine L t.pid (.token (sha256 token.1)) s := by
  refine logs_quiet (by simp) (by simp) (by simp) hA (fun token : Token => holds_mine (.token (sha256 token.1)))
    fun s c r w hi ha hx => ?_
  have hnew := (exec_quiet (by simp) (by simp) (by simp) hx).2.2 _ rfl
  obtain ⟨-, he⟩ := exec_fair hx
  obtain ⟨rfl, rfl⟩ := Prod.mk.inj he
  exact ⟨c.token, rfl, fun hs => mine_of_drawn hi hs rfl hnew.2⟩

theorem logs_issueSession (hA : Holds L t.pid A) :
    Logs t L A issueSession fun material s =>
      A s ∧ Mine L t.pid (.token (sha256 material.raw_bearer.1)) s ∧ Mine L t.pid (.uuid material.id) s := by
  refine Logs.bind (logs_tokenBytes hA) fun raw_bearer => ?_
  have hbearer := hA.and (holds_mine (.token (sha256 raw_bearer.1)))
  refine Logs.bind (logs_tokenBytes hbearer) fun raw_csrf => ?_
  refine Logs.bind (logs_uuid4 (hbearer.and (holds_mine (.token (sha256 raw_csrf.1))))) fun id => ?_
  exact Logs.pure fun s _ h => ⟨h.1.1.1, h.1.1.2, h.2⟩

variable {self : IdentityService Profile}

lemma validPassword_of_ok {password normalized : PyStr} (hp : normalizeAndValidate U password = .ok normalized) :
    (validPassword U password : Method Profile PyStr) = Op.pure normalized := by
  rw [validPassword, hp]
  rfl

theorem logs_hashPassword (hp : normalizeAndValidate U L.password = .ok L.password) (hA : Holds L t.pid A) :
    Logs t L A (hashPassword U self L.password) fun h s =>
      A s ∧ Produced L.H h L.password ∧ Mine L t.pid (.hash h) s := by
  rw [hashPassword, validPassword_of_ok hp]
  refine Logs.bind (B := fun n s => n = L.password ∧ A s) (Logs.pure fun _ _ ha => ⟨rfl, ha⟩) fun n => ?_
  refine Logs.assume fun hn => ?_
  subst hn
  refine logs_quiet (by simp) (by simp) (by simp) hA
    (fun h : PyStr => (Holds.const (Produced L.H h L.password)).and (holds_mine (.hash h))) fun s c r w hi ha hx => ?_
  have hnew := (exec_quiet (by simp) (by simp) (by simp) hx).2.2 _ rfl
  obtain ⟨-, he⟩ := exec_fair hx
  obtain ⟨rfl, rfl⟩ := Prod.mk.inj he
  exact ⟨_, rfl, fun hs => ⟨⟨_, _, rfl⟩, mine_of_drawn hi hs rfl hnew.2⟩⟩

theorem logs_getCredentialsByEmail {email : PyStr} (he : email = L.email) :
    Logs t L (fun _ => True) (Method.perform (.getCredentialsByEmail email))
      fun (snapshot : Option UserCredentialSnapshot) s => True ∧ ReadBy L t.pid snapshot s := by
  subst he
  refine logs_quiet (by simp) (by simp) (by simp) (Holds.const True) holds_readBy fun s c r w hi _ hx => ?_
  obtain ⟨-, he⟩ := exec_fair hx
  obtain ⟨rfl, rfl⟩ := Prod.mk.inj he
  obtain ⟨h₀, hc, hstored, hp⟩ := hi.account.credentials
  refine ⟨_, rfl, fun _ => ⟨h₀, hc, hp, [], _, s.log, rfl, rfl, rfl, hstored, Or.inl ⟨hstored, ?_⟩⟩⟩
  exact fun ev hev => absurd hev List.not_mem_nil

/-! ### The second transaction -/

/-- The new hash, if there is one, is of the password, and belongs to the thread. -/
def Replacement (L : LoginSetting Profile Salt) (p : Pid) (replacement_hash : Option PyStr)
    (s : LoginWorld Profile Salt) : Prop :=
  ∀ h, replacement_hash = some h → L.NeedsRehash ∧ Produced L.H h L.password ∧ Mine L p (.hash h) s

lemma holds_replacement (replacement_hash : Option PyStr) : Holds L p (Replacement L p replacement_hash) where
  others q s s' hq hi h hg h' he := by
    obtain ⟨hn, hp, hm⟩ := h h' he
    exact ⟨hn, hp, (holds_mine (.hash h')).others q s s' hq hi hm hg⟩
  quiet s s' h hs h' he := by
    obtain ⟨hn, hp, hm⟩ := h h' he
    exact ⟨hn, hp, (holds_mine (.hash h')).quiet s s' hm hs⟩

/-- What a login has before its second transaction. -/
structure Ready (L : LoginSetting Profile Salt) (p : Pid) (h₀ : PyStr) (replacement_hash : Option PyStr) (now : Time)
    (material : SessionMaterial) (s : LoginWorld Profile Salt) : Prop where
  read : HasRead L p h₀ s
  replacement : Replacement L p replacement_hash s
  now : L.created_at ≤ now
  token : Mine L p (.token (sha256 material.raw_bearer.1)) s
  id : Mine L p (.uuid material.id) s

variable {h₀ : PyStr} {replacement_hash : Option PyStr} {now utc_now : Time} {material : SessionMaterial}

lemma Ready.written (h : Ready L p h₀ replacement_hash now material s) {u : User} (hu : u ∈ s.state.db.users)
    (hid : u.id = L.id) (hcreated : u.created_at = L.created_at) (hc : u.checks = true) (hh : u.password_hash = h₀)
    (hutc : L.created_at ≤ utc_now) :
    s.state.db.addLogin ⟨L.id, h₀⟩ replacement_hash (material.row L.id now) now utc_now =
      .ok ((IdentityDb.rehashed u replacement_hash now utc_now).reference,
        ⟨s.state.db.users.put (IdentityDb.rehashed u replacement_hash now utc_now),
          s.state.db.sessions.put (material.row L.id now)⟩) := by
  have hchecks := IdentityDb.checks_rehashed hc (hcreated.trans_le h.now) (hcreated.trans_le hutc) replacement_hash
  rw [← hid, ← hh]
  exact IdentityDb.addLogin_ok hu hchecks (UserSession.checks_issue _ _ material.raw_csrf.2 _) h.id.2 h.token.2 rfl

lemma Ready.account (h : Ready L p h₀ replacement_hash now material s) (ha : L.Account s.state.db) {u : User}
    (hid : u.id = L.id) (hemail : u.email_normalized = L.email) (hcreated : u.created_at = L.created_at)
    (hc : u.checks = true) (hp : Produced L.H u.password_hash L.password)
    (hutc : L.created_at ≤ utc_now) (sessions : Table Uuid UserSession UserSession.id) :
    L.Account ⟨s.state.db.users.put (IdentityDb.rehashed u replacement_hash now utc_now), sessions⟩ := by
  obtain ⟨hid', hemail', hcreated'⟩ := IdentityDb.rehashed_same u replacement_hash now utc_now
  refine ha.put (hid'.trans hid) (hemail'.trans hemail) (hcreated'.trans hcreated)
    (IdentityDb.checks_rehashed hc (hcreated.trans_le h.now) (hcreated.trans_le hutc) replacement_hash) ?_ sessions
  cases hr : replacement_hash with
  | none => exact hp
  | some password_hash => exact (h.replacement password_hash hr).2.1

/-- The user of the account has the hash that is stored. -/
lemma LoginSetting.Account.storedHash_eq {w : IdentityWorld} (h : L.Account w.db) {u : User} (hu : u ∈ w.db.users)
    (hid : u.id = L.id) : storedHash L.email w = some u.password_hash := by
  obtain ⟨v, hv, hstored, hvid, -⟩ := h.user
  rw [hstored, Table.eq_of_key hv hu (hvid.trans hid.symm)]

theorem Ready.guar (h : Ready L p h₀ replacement_hash now material s) {u : User} {w : IdentityWorld}
    (hold : storedHash L.email s.state = some u.password_hash)
    (hnew : storedHash L.email w = some (IdentityDb.rehashed u replacement_hash now utc_now).password_hash)
    (hsessions : w.db.sessions = s.state.db.sessions.put (material.row L.id now)) {snapshot : UserCredentialSnapshot}
    {row : UserSession} {c : IdentityChoice Salt} {r : Except IdentityExn UserReference} :
    LoginGuar L p s (s.next p (.addLogin snapshot replacement_hash row now) c r w) := by
  have hcases : storedHash L.email w = storedHash L.email s.state ∨
      ∃ h', replacement_hash = some h' ∧ storedHash L.email w = some h' := by
    cases replacement_hash with
    | none => exact Or.inl (hnew.trans hold.symm)
    | some h' => exact Or.inr ⟨h', rfl, hnew⟩
  refine ⟨⟨_, rfl, rfl, rfl, rfl, ?_⟩, fun item hu => ?_, ?_⟩
  · by_cases hsame : storedHash L.email w = storedHash L.email s.state
    · exact Or.inl hsame
    · obtain ⟨h', rfl, -⟩ := hcases.resolve_left hsame
      exact Or.inr ⟨⟨snapshot, h', row, now, rfl⟩, fun he => hsame he.symm⟩
  · cases item with
    | uuid id =>
      by_cases hid : id = material.id
      · subst hid
        exact Or.inr h.id.1
      · refine Or.inl fun r' hr' => ?_
        rcases Table.mem_put.mp (hsessions ▸ hr') with rfl | ⟨hr', -⟩
        · exact fun he => hid he.symm
        · exact hu r' hr'
    | token d =>
      by_cases hd : d = sha256 material.raw_bearer.1
      · subst hd
        exact Or.inr h.token.1
      · refine Or.inl fun r' hr' => ?_
        rcases Table.mem_put.mp (hsessions ▸ hr') with rfl | ⟨hr', -⟩
        · exact fun he => hd he.symm
        · exact hu r' hr'
    | hash h' =>
      have hbefore : ∀ ev ∈ (s.next p (.addLogin snapshot replacement_hash row now) c r w).log,
          storedHash L.email ev.before ≠ some h' := List.forall_mem_cons.mpr hu
      rcases hcases with hsame | ⟨h'', hr, hstored⟩
      · exact Or.inl ⟨fun he => hu.1 (hsame.symm.trans he), hbefore⟩
      · by_cases heq : h' = h''
        · subst heq
          exact Or.inr (h.replacement h' hr).2.2.1
        · exact Or.inl ⟨fun he => heq (Option.some.inj (he.symm.trans hstored)), hbefore⟩
  · rcases hcases with hsame | ⟨h', hr, hstored⟩
    · exact Or.inl hsame
    · exact Or.inr ⟨h', hstored, (h.replacement h' hr).2.2.2⟩

/-- What comes of a login is decided by what it read. -/
lemma HasRead.decided (h : HasRead L p h₀ s) {ev : LoginEvent Profile Salt} (hp : ev.pid = p)
    (he : ∃ snapshot r row now, ev.eff = .addLogin snapshot r row now) :
    (storedHash L.email s.state = some h₀ → ∀ issuance, Decided L.email p (.ok issuance) (ev :: s.log)) ∧
      (storedHash L.email s.state ≠ some h₀ → Decided L.email p (.error .invalidCredentials) (ev :: s.log)) := by
  obtain ⟨later, read, earlier, hlog, hread, heff, -, hcase⟩ := h
  have hsplit : ev :: s.log = [] ++ ev :: (later ++ read :: earlier) := by rw [hlog]; rfl
  rcases hcase with ⟨hstored, hnone⟩ | ⟨hne, hsome⟩
  · refine ⟨fun _ issuance => ?_, fun hne => absurd hstored hne⟩
    exact ⟨[], ev, later, read, earlier, hsplit, hread, heff, hp, he, Or.inl ⟨⟨issuance, rfl⟩, hnone⟩⟩
  · refine ⟨fun hstored => absurd hstored hne, fun _ => ?_⟩
    exact ⟨[], ev, later, read, earlier, hsplit, hread, heff, hp, he, Or.inr ⟨rfl, hsome⟩⟩

/-- **The second transaction of a login returns, or raises `InvalidCredentials` when another login has replaced
the hash that it read.** -/
theorem logs_addLogin :
    Logs t L (Ready L t.pid h₀ replacement_hash now material)
      (Method.perform (.addLogin ⟨L.id, h₀⟩ replacement_hash (material.row L.id now) now))
      fun (_ : UserReference) s => Returns L t.pid s := by
  refine logs_perform (fun _ => holds_returns) fun s c r w hi h hx => ?_
  obtain ⟨hf, he⟩ := exec_fair hx
  have hutc : L.created_at ≤ c.time := by simpa [fairLogin, freshDraw] using hf
  obtain ⟨u, hu, hstored, hid, hemail, hcreated, hc, hp⟩ := hi.account.user
  by_cases hh : u.password_hash = h₀
  · simp only [IdentityWorld.perform, h.written hu hid hcreated hc hh hutc, Prod.mk.injEq] at he
    obtain ⟨rfl, hw⟩ := he
    have haccount : L.Account w.db := by
      rw [hw]
      exact h.account hi.account hid hemail hcreated hc hp hutc _
    have hrid := (IdentityDb.rehashed_same u replacement_hash now c.time).1.trans hid
    have hnew := haccount.storedHash_eq (by rw [hw]; exact Table.mem_put.mpr (Or.inl rfl)) hrid
    have hguar : LoginGuar L t.pid s (s.next t.pid
        (.addLogin ⟨L.id, h₀⟩ replacement_hash (material.row L.id now) now) c
        (.ok (IdentityDb.rehashed u replacement_hash now c.time).reference) w) := h.guar hstored hnew (by rw [hw])
    have hknown : ∀ item, Item.Known s.state item → Item.Known w item := by
      rw [hw]
      exact fun item hk => by cases item <;> exact hk
    refine ⟨hguar, hi.step haccount hknown (fun item hd => by cases hd) ?_ hguar, fun _ _ issuance => ?_,
      fun x hx => by cases hx⟩
    · rintro ⟨⟨_, h', _, _, heff⟩, -⟩
      cases heff
      exact (h.replacement h' rfl).1
    · exact (h.read.decided rfl ⟨_, _, _, _, rfl⟩).1 (hh ▸ hstored) issuance
  · have hstale : s.state.db.addLogin ⟨L.id, h₀⟩ replacement_hash (material.row L.id now) now c.time =
        .error .invalidCredentials := hid ▸ IdentityDb.addLogin_stale hu hh
    simp only [IdentityWorld.perform, hstale, Prod.mk.injEq] at he
    obtain ⟨rfl, rfl⟩ := he
    have hquiet : Quiet t.pid s (s.next t.pid (.addLogin ⟨L.id, h₀⟩ replacement_hash (material.row L.id now) now) c
        (.error .invalidCredentials) s.state) := ⟨⟨_, rfl, rfl, rfl, rfl⟩, rfl⟩
    refine ⟨hquiet.guar, hi.step hi.account (fun _ hk => hk) (fun item hd => by cases hd)
      (fun hr => absurd hquiet.stored.symm hr.2) hquiet.guar, fun _ ha => (by cases ha), fun x hx => ?_⟩
    cases hx
    refine (h.read.decided rfl ⟨_, _, _, _, rfl⟩).2 ?_
    rw [hstored]
    exact fun heq => hh (Option.some.inj heq)

lemma exec_cleanup (hi : LoginInv L s) {c : IdentityChoice Salt} {r : Except IdentityExn ℕ} {w : IdentityWorld}
    (hx : (identityMachine L.H (fairLogin L.H L.created_at)).exec p (.cleanup now) c s.state = some (r, w)) :
    LoginGuar L p s (s.next p (.cleanup now) c r w) ∧ LoginInv L (s.next p (.cleanup now) c r w) ∧ ∃ n, r = .ok n := by
  obtain ⟨-, he⟩ := exec_fair hx
  obtain ⟨hr, rfl⟩ := Prod.mk.inj he
  have hsub : ∀ row ∈ (s.state.db.deleteSessions (s.state.db.inactiveBatch c.locked now)).sessions,
      row ∈ s.state.db.sessions := fun row hrow => (Table.mem_foldl_erase.mp hrow).1
  have hguar : LoginGuar L p s (s.next p (.cleanup now) c r (s.state.perform L.H c (.cleanup now : IdentityEff Profile)).2) := by
    refine ⟨⟨_, rfl, rfl, rfl, rfl, Or.inl rfl⟩, fun item hu => Or.inl ?_, Or.inl rfl⟩
    cases item with
    | uuid id => exact fun row hrow => hu row (hsub row hrow)
    | token d => exact fun row hrow => hu row (hsub row hrow)
    | hash h => exact ⟨hu.1, List.forall_mem_cons.mpr hu⟩
  refine ⟨hguar, hi.step hi.account (fun item hk => ?_) (fun item hd => nomatch hd) (fun hr => absurd rfl hr.2) hguar,
    _, hr⟩
  cases item <;> exact hk

theorem logs_cleanupAfterSuccess :
    Logs t L (Returns L t.pid) (cleanupAfterSuccess now) fun _ s => Returns L t.pid s := by
  refine Triple.bind (B := fun _ _ h => Returns L t.pid h.now) ?_ fun _ => Triple.pure fun _ _ _ hd => hd
  refine Triple.catching (Y := fun _ _ _ => False) ?_ fun x v => Safe.absurd fun _ _ hf => hf
  refine Triple.perform (fun _ _ _ _ => trivial) (fun _ _ => holds_returns.stable) (fun _ _ => .const False)
    fun _ hist c r s' hi hd hx => ?_
  obtain ⟨w, hw, rfl, -⟩ := Machine.only_exec.mp hx
  obtain ⟨hguar, hinv, n, rfl⟩ := exec_cleanup (L := L) hi hw
  exact ⟨hguar, hinv, fun _ _ issuance => (hd issuance).cons _, fun x he => nomatch he⟩

/-! ### A login -/

variable {i : IdentityService Profile × IdentityCall} {self : IdentityService Profile}

/-- The new hash, where the service finds that one is needed. -/
theorem logs_replacementHash (hH : L.H.Ideal) (hv : normalizeAndValidate U L.password = .ok L.password)
    (hcall : L.calls i) (hp : Produced L.H h₀ L.password) :
    Logs t L (HasRead L t.pid h₀) (replacementHash U L.H i.1 ⟨L.id, h₀⟩ L.password) fun r s =>
      HasRead L t.pid h₀ s ∧ Replacement L t.pid r s := by
  obtain ⟨needs, hneeds⟩ := hH.readable hp i.1.profile
  have hcheck : (checkNeedsRehash L.H i.1 h₀ : Method Profile Bool) = Op.pure needs := by
    rw [checkNeedsRehash, hneeds]
  rw [replacementHash, hcheck]
  refine Logs.bind (B := fun b s => (b = true → L.NeedsRehash) ∧ HasRead L t.pid h₀ s)
    (Logs.pure fun s hi hr => ⟨fun hb => hr.needsRehash hi hcall (hb ▸ hneeds), hr⟩) fun b => ?_
  refine Logs.assume fun hb => ?_
  cases b with
  | true =>
    have hsome : Logs t L (HasRead L t.pid h₀) (do
        let password_hash : PyStr ← hashPassword U i.1 L.password
        pure (some password_hash)) fun r s => HasRead L t.pid h₀ s ∧ Replacement L t.pid r s := by
      refine Logs.bind (logs_hashPassword hv (holds_hasRead h₀)) fun h' => ?_
      refine Logs.pure fun s _ h => ⟨h.1, fun h'' he => ?_⟩
      cases he
      exact ⟨hb rfl, h.2⟩
    exact hsome
  | false =>
    have hnone : Logs t L (HasRead L t.pid h₀) (Op.pure none) fun r s =>
        HasRead L t.pid h₀ s ∧ Replacement L t.pid r s :=
      Logs.pure fun s _ hr => ⟨hr, fun h' he => nomatch he⟩
    exact hnone

/-- A login that has read the credentials and verified the password. -/
theorem logs_issueLogin (hH : L.H.Ideal) (hv : normalizeAndValidate U L.password = .ok L.password)
    (hcall : L.calls i) (hp : Produced L.H h₀ L.password) :
    Logs t L (HasRead L t.pid h₀) (issueLogin U L.H i.1 ⟨L.id, h₀⟩ L.password) fun issuance s =>
      Decided L.email t.pid (.ok issuance) s.log := by
  refine Logs.bind (logs_replacementHash hH hv hcall hp) fun r => ?_
  have hread := (holds_hasRead (L := L) (p := t.pid) h₀).and (holds_replacement r)
  refine Logs.bind (logs_now hread) fun now => ?_
  refine Logs.bind (logs_issueSession (hread.and (.const (L.created_at ≤ now)))) fun material => ?_
  refine Logs.bind (B := fun _ s => Returns L t.pid s) ?_ fun user_reference => ?_
  · exact logs_addLogin.pre fun _ ⟨⟨⟨hr, hrep⟩, hnow⟩, htoken, hid⟩ => ⟨hr, hrep, hnow, htoken, hid⟩
  · exact Logs.bind logs_cleanupAfterSuccess fun _ => Logs.pure fun _ _ hd => hd _

/-- **What a login that presents the password ends with is decided.** -/
theorem logs_login (hU : NfcIdempotent U) (hH : L.H.Ideal) (hcall : L.calls i) (hc : L.IsCorrect U i) :
    Logs t L (fun _ => True) (i.2.op U L.H i.1) fun issuance s => Decided L.email t.pid (.ok issuance) s.log := by
  obtain ⟨given, c, candidate, hi, hemail, hnormal, hvalid⟩ := hc
  have hv : normalizeAndValidate U L.password = .ok L.password := normalizeAndValidate_again hU hvalid
  rw [hi]
  simp only [IdentityCall.op, login]
  rw [validPassword_of_ok hvalid]
  refine Logs.bind (B := fun n _ => n = L.password ∧ True) (Logs.pure fun _ _ _ => ⟨rfl, trivial⟩) fun n => ?_
  refine Logs.assume fun hn => ?_
  subst hn
  simp only [hemail]
  refine Logs.bind (logs_getCredentialsByEmail hnormal) fun snapshot => ?_
  refine Logs.exists_read fun h₀ hs hp => ?_
  subst hs
  have hverify : (verify U L.H i.1 h₀ L.password : Method Profile PasswordVerification) = Op.pure .isMatch := by
    obtain ⟨verification, hok, hmatch⟩ := verifyPassword_of_ok (H := L.H) hU hv i.1.profile h₀
    rw [verify, hok, hmatch.mpr ((hH.verify_iff hp i.1.profile L.password).mpr rfl)]
    rfl
  dsimp only
  rw [hverify]
  refine Logs.bind (B := fun v s => v = .isMatch ∧ HasRead L t.pid h₀ s) (Logs.pure fun _ _ hr => ⟨rfl, hr⟩) fun v => ?_
  refine Logs.assume fun hmatch => ?_
  subst hmatch
  exact logs_issueLogin hH hv hcall hp

end Rules

/-! ### The guarantee -/

/-- What the world before the logins holds: the account, and draws that none will repeat. -/
structure LoginSetting.Starts (L : LoginSetting Profile Salt) : Prop where
  account : L.Account L.start.db
  sessions : ∀ s ∈ L.start.db.sessions, s.id ∈ L.start.uuids ∧ s.token_hash ∈ L.start.tokens
  hash : ∀ h, storedHash L.email L.start = some h → h ∈ L.start.hashes

open Classical in
lemma LoginSetting.Starts.inv (h : L.Starts) : LoginInv L ⟨L.start, []⟩ where
  account := h.account
  used item := by
    refine or_iff_not_imp_right.mpr fun hk => ?_
    cases item with
    | uuid id => exact fun r hr he => hk (he ▸ (h.sessions r hr).1)
    | token d => exact fun r hr he => hk (he ▸ (h.sessions r hr).2)
    | hash h' => exact ⟨fun he => hk (h.hash h' he), fun ev hev => absurd hev List.not_mem_nil⟩
  known p item hd := by
    obtain ⟨ev, hev, -⟩ := hd
    exact absurd hev List.not_mem_nil
  once p q item hd := by
    obtain ⟨ev, hev, -⟩ := hd
    exact absurd hev List.not_mem_nil
  rehashed := Or.inr ⟨rfl, fun ev hev => absurd hev List.not_mem_nil⟩

/-- The configurations of any number of logins at once. -/
abbrev LoginConfig (Profile Salt : Type) : Type :=
  Config (IdentityService Profile × IdentityCall) (IdentityEff Profile) (fun e => Except IdentityExn e.Resp)
    (LoginWorld Profile Salt) IdentityOutcome

/-- Such logins reach this configuration. -/
abbrev LoginSetting.Reaches (L : LoginSetting Profile Salt) (U : Unicode) (cfg : LoginConfig Profile Salt) : Prop :=
  Config.Reachable (identityMachine L.H (fairLogin L.H L.created_at)).logged (fun i => i.2.body U L.H i.1) L.calls
    ⟨L.start, []⟩ cfg

lemma safe_login {U : Unicode} (hU : NfcIdempotent U) (hH : L.H.Ideal) (hcalls : ∀ i, L.calls i → L.IsCorrect U i)
    (t : Caller (IdentityService Profile × IdentityCall) (LoginWorld Profile Salt)) (hcall : L.calls t.call) :
    Safe ((identityMachine L.H (fairLogin L.H L.created_at)).only fun _ _ => True) (logins L) t
      (t.call.2.body U L.H t.call.1) (fun _ => True) fun out h => Decided L.email t.pid out.1 h.now.log := by
  have hlogin : Logs t L (fun _ => True) (t.call.2.op U L.H t.call.1) _ := logs_login hU hH hcall (hcalls _ hcall)
  refine (hlogin ()).post fun out h _ hd => ?_
  obtain ⟨out, u⟩ := out
  cases out <;> exact hd

/-- **Any number of logins at once, all with the password of the account**: each performs at most eight effects,
and returns, unless another login replaced the stored hash between its reading it and its comparing it; then it
raises `InvalidCredentials`.  When no service needs to rehash, all return. -/
theorem logins_decided {U : Unicode} (hU : NfcIdempotent U) (hH : L.H.Ideal)
    (hcalls : ∀ i, L.calls i → L.IsCorrect U i) (hstart : L.Starts) {cfg : LoginConfig Profile Salt}
    (hr : L.Reaches U cfg) {p : Pid} {t : Thread _ _ _ _ _} (hp : cfg.threads p = some t) :
    (∃ m, t.prog.Within m ∧ m + (cfg.hist.now.log.countP fun ev => ev.pid = p) = 8) ∧
      ∀ out, t.prog = .ret (out, ()) → Decided L.email p out cfg.hist.now.log ∧
        (¬ L.NeedsRehash → ∃ issuance, out = .ok issuance) := by
  obtain ⟨hi, hthreads⟩ := reachable_safe_only (S := logins L) hstart.inv (fun _ _ => ⟨.const True, trivial⟩)
    (safe_login hU hH hcalls) hr always_true
  obtain ⟨-, -, P, -, hP, hsafe⟩ := hthreads p t hp
  refine ⟨reachable_within (fun i _ => within_op i.2 ()) hr p t hp, fun out hout => ?_⟩
  rw [hout] at hsafe
  have hdecided : Decided L.email p out cfg.hist.now.log := hsafe cfg.hist hi hP
  refine ⟨hdecided, fun hn => ?_⟩
  obtain ⟨later, compared, between, read, earlier, hlog, -, -, -, -, hcase⟩ := hdecided
  rcases hcase with ⟨hok, -⟩ | ⟨-, ev, hev, -, hreplaces⟩
  · exact hok
  · have hmem : ev ∈ cfg.hist.now.log := by
      rw [hlog]
      simp [hev]
    exact absurd hreplaces ((hi.rehashed.resolve_left hn).before ev hmem).2

namespace Sample

/-- A hash under old parameters. -/
def oldHash : PyStr := hasher.hash 1 7 (py "correct horse battery")

/-- One user, whose hash has old parameters. -/
def before : IdentityWorld :=
  ⟨⟨Table.empty.put (User.register 0 ⟨py "ana@example.org", py "ana@example.org"⟩ oldHash 0), .empty⟩, 0, [0], [],
    [oldHash]⟩

/-- A login with the password, under new parameters. -/
def freshLogin : IdentityService PyChar × IdentityCall :=
  (service 2, .login (py "ana@example.org") (py "correct horse battery"))

def atOnce : LoginSetting PyChar PyChar where
  H := hasher
  calls i := i = freshLogin
  email := py "ana@example.org"
  password := py "correct horse battery"
  id := 0
  created_at := 0
  start := before

lemma atOnce_correct : ∀ i, atOnce.calls i → atOnce.IsCorrect unicode i := by
  rintro i rfl
  exact ⟨_, ⟨py "ana@example.org", py "ana@example.org"⟩, _, rfl, by decide +kernel, rfl, by decide +kernel⟩

lemma atOnce_starts : atOnce.Starts where
  account := by
    refine ⟨⟨_, Table.mem_put.mpr (Or.inl rfl), rfl, rfl, rfl, by decide +kernel, 1, 7, rfl⟩, fun v hv _ => ?_⟩
    rcases Table.mem_put.mp hv with rfl | ⟨hv, -⟩
    · rfl
    · exact absurd hv (Table.not_mem_empty v)
  sessions s hs := absurd hs (Table.not_mem_empty s)
  hash h he := by
    cases he
    exact List.mem_cons_self

/-- The `n`-th to the `m`-th effect of the thread `p`. -/
def loginSteps (p : Pid) (n m : ℕ) : List (Label (IdentityService PyChar × IdentityCall) (IdentityChoice PyChar)) :=
  (List.range' (10 * p + n) (m - n)).map fun (i : ℕ) =>
    .run p ⟨Int.ofNat i, i + 1, Token.replicate (UInt8.ofNat i), Fin.ofNat _ i, []⟩

/-- Two logins read the credentials, the first rehashes, and the second comes too late. -/
def atOnceRun : LoginConfig PyChar PyChar :=
  Config.follow (identityMachine hasher (fairLogin hasher 0)).logged (fun i => i.2.body unicode hasher i.1)
    (.spawn 0 freshLogin :: .spawn 1 freshLogin :: loginSteps 0 0 6 ++ loginSteps 1 0 6 ++ loginSteps 0 6 8 ++
      loginSteps 1 6 7) (.init ⟨before, []⟩)

lemma atOnceRun_reached : atOnce.Reaches unicode atOnceRun := by
  refine Config.Reachable.follow .init fun p k hm => ?_
  have hspawn : ∀ q n m, Label.spawn p k ∉ loginSteps q n m := fun q n m hm => by simp [loginSteps] at hm
  have hk : p = 0 ∧ k = freshLogin ∨ p = 1 ∧ k = freshLogin := by simpa [hspawn] using hm
  exact hk.elim And.right And.right

def endedWith (cfg : LoginConfig PyChar PyChar) (p : Pid) : Option (Option IdentityExn) :=
  (cfg.threads p).bind fun t => match t.prog with
    | .ret (.ok _, _) => some none
    | .ret (.error x, _) => some (some x)
    | .vis _ _ => none

lemma endedWith_eq {cfg : LoginConfig PyChar PyChar} {p : Pid} {x : IdentityExn} (h : endedWith cfg p = some (some x)) :
    ∃ t, cfg.threads p = some t ∧ t.prog = .ret (.error x, ()) := by
  obtain ⟨t, ht, hout⟩ := Option.bind_eq_some_iff.mp h
  refine ⟨t, ht, ?_⟩
  cases hprog : t.prog with
  | vis e f => simp [hprog] at hout
  | ret out =>
    obtain ⟨out, u⟩ := out
    cases out with
    | ok issuance => simp [hprog] at hout
    | error y =>
      simp only [hprog, Option.some.injEq] at hout
      rw [hout]

/-- The second login of the run raises. -/
lemma second_too_late : endedWith atOnceRun 1 = some (some .invalidCredentials) := by decide +kernel

end Sample

/-- Two logins: the first rehashes between the read and the write of the second. -/
theorem logins_decided_sample :
    Decided Sample.atOnce.email 1 (.error .invalidCredentials) Sample.atOnceRun.hist.now.log ∧
      Sample.endedWith Sample.atOnceRun 0 = some none := by
  obtain ⟨t, ht, hout⟩ := Sample.endedWith_eq Sample.second_too_late
  refine ⟨?_, by decide +kernel⟩
  exact ((logins_decided (fun _ => rfl) Sample.ideal_hasher Sample.atOnce_correct Sample.atOnce_starts
    Sample.atOnceRun_reached ht).2 _ hout).1

/-- A login with the password of the account that raises `InvalidCredentials`. -/
theorem not_logins_all_return : ¬ ∀ (U : Unicode) (L : LoginSetting PyChar PyChar) (cfg : LoginConfig PyChar PyChar),
    NfcIdempotent U → L.H.Ideal → (∀ i, L.calls i → L.IsCorrect U i) → L.Starts → L.Reaches U cfg →
      ∀ p t out, cfg.threads p = some t → t.prog = .ret (out, ()) → ∃ issuance, out = .ok issuance := by
  intro h
  obtain ⟨t, ht, hout⟩ := Sample.endedWith_eq Sample.second_too_late
  obtain ⟨issuance, hok⟩ := h Sample.unicode Sample.atOnce Sample.atOnceRun (fun _ => rfl) Sample.ideal_hasher
    Sample.atOnce_correct Sample.atOnce_starts Sample.atOnceRun_reached 1 t _ ht hout
  cases hok

end DataCheck.Identity
