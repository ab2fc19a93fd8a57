import DataCheck.Analysis.History
import DataCheck.Lib.Typestate
import DataCheck.Shared.Steps

/-!
# How the methods use transactions

A transaction locks one dataset at most, and gives the lock back however it ends; and a method has at most
one transaction with changes, and changes nothing after it.  Each of the two is an automaton over effects,
and the methods follow their product.
-/

namespace DataCheck.Shared

open Lib Datasets Analyses

/-! ### The automata -/

def Eff.isLock : Eff → Bool
  | .getForOwnerForUpdate .. => true
  | _ => false

/-- The effect ends a transaction or a session. -/
def Eff.ends : Eff → Bool
  | .commit _ | .rollback | .close => true
  | _ => false

/-- The lock that a thread holds after an effect. -/
def Eff.holds : (e : Eff) → Except Exn e.Resp → Option Uuid → Option Uuid
  | .getForOwnerForUpdate dataset_id _, .ok (some _), _ => some dataset_id
  | .commit _, _, _ | .rollback, _, _ | .close, _, _ => none
  | _, _, held => held

lemma exec_locks {F : Faults} {p : Pid} {e : Eff} (he : (e.isLock || e.ends) = false) {c : Choice}
    {r : Except Exn e.Resp} {w w' : World} (hx : (machine F).exec p e c w = some (r, w')) : w'.locks = w.locks := by
  simp only [machine] at hx
  split at hx
  · cases e with
    | getForOwnerForUpdate | commit | rollback | close => cases he
    | _ =>
      simp only [World.perform] at hx
      repeat' split at hx
      all_goals cases hx <;> rfl
  · split at hx <;> cases hx
    cases e <;> first | rfl | cases he
  · split at hx
    · cases he
    · cases hx

/-- A thread that holds a lock asks for no other. -/
def lockProtocol : Typestate Eff (fun e => Except Exn e.Resp) (Option Uuid) where
  may held e := e.isLock = true → held = none
  next held e r := e.holds r held

def Eff.changes : Eff → Bool
  | .commit (_ :: _) => true
  | _ => false

/-- An effect that is not a commit with changes leaves the database alone. -/
lemma exec_db {e : Eff} {c : Choice} {x : Except Exn e.Resp} {w w' : World} (hch : e.changes = false)
    (he : (machine F).exec p e c w = some (x, w')) : w'.db = w.db := by
  by_cases hc : ∃ ws, e = .commit ws
  · obtain ⟨ws, rfl⟩ := hc
    cases ws with
    | nil =>
      rcases exec_commit_cases he with ⟨-, rfl⟩ | ⟨rfl, -⟩
      · rfl
      · rfl
    | cons => cases hch
  · have hne : ∀ ws, e ≠ .commit ws := fun ws he => hc ⟨ws, he⟩
    rcases exec_cases hne he with ⟨-, -, rfl⟩ | he'
    · exact (locksOnly_failed _ _ _).db
    · exact perform_db hne he'

/-- How far a call is with its changes: once they are committed and their session is closed, they are made. -/
inductive Progress where
  | untried | made | over
  deriving DecidableEq

/-- How far it is after an effect. -/
def Progress.next (s : Progress) : (e : Eff) → Except Exn e.Resp → Progress
  | .commit (_ :: _), .ok _ => .made
  | .commit (_ :: _), .error _ => .over
  | .close, .error _ => if s = .made then .over else s
  | _, _ => s

lemma commit_of_changes {e : Eff} (he : e.changes = true) : ∃ w ws, e = .commit (w :: ws) := by
  unfold Eff.changes at he
  split at he
  · exact ⟨_, _, rfl⟩
  · cases he

lemma Progress.next_spent {s : Progress} {e : Eff} {r : Except Exn e.Resp} (hs : s ≠ .untried) :
    s.next e r ≠ .untried := by
  unfold Progress.next
  repeat' split
  all_goals first | exact hs | simp

lemma Progress.next_changes {s : Progress} {e : Eff} {r : Except Exn e.Resp} (he : e.changes = true) :
    s.next e r ≠ .untried := by
  obtain ⟨w, ws, rfl⟩ := commit_of_changes he
  cases r <;> simp [Progress.next]

lemma Progress.next_made {e : Eff} {r : Except Exn e.Resp} (he : e.changes = false) (hr : e = .close → ∃ a, r = .ok a) :
    Progress.made.next e r = .made := by
  unfold Progress.next
  split
  · rfl
  · cases he
  · obtain ⟨a, ha⟩ := hr rfl
    cases ha
  · rfl

/-- A call changes the database at most once. -/
def changeOnce : Typestate Eff (fun e => Except Exn e.Resp) Progress where
  may s e := e.changes = true → s = .untried
  next s e r := s.next e r

abbrev discipline : Typestate Eff (fun e => Except Exn e.Resp) (Option Uuid × Progress) := lockProtocol.prod changeOnce

/-- No lock is held, and nothing was changed. -/
def Between (s : Option Uuid × Progress) : Prop := s.1 = none ∧ s.2 = .untried

def Inside (s : Option Uuid × Progress) : Prop := s.2 = .untried

def Over (s : Option Uuid × Progress) : Prop := s.1 = none

variable {U : Unicode} {P : Polars} {F : Faults} {σ α β : Type}

/-- From `I` the body follows both automata, and ends, however it ends, with `J`. -/
def Orderly (I : Option Uuid × Progress → Prop) (m : Body σ α) (J : Option Uuid × Progress → Prop) : Prop :=
  Op.Follows discipline I m (fun _ => J) fun _ => J

/-- The body of a transaction changes nothing and leaves nothing to commit. -/
abbrev Reading (I : Option Uuid × Progress → Prop) (m : Body σ (α × List Write)) : Prop :=
  Op.Follows discipline I m (fun out s => out.2 = [] ∧ Inside s) fun _ => Inside

/-- Its changes are not made. -/
def Unmade (s : Option Uuid × Progress) : Prop := s.2 ≠ .made

/-- From `I` the body raises only where its changes are not made. -/
abbrev Honest (I : Option Uuid × Progress → Prop) (m : Body σ α) : Prop :=
  Op.Follows discipline I m (fun _ _ => True) fun _ => Unmade

/-- The same, but for the exception `y`. -/
abbrev HonestBut (y : Exn) (I : Option Uuid × Progress → Prop) (m : Body σ α) : Prop :=
  Op.Follows discipline I m (fun _ _ => True) fun x s => Unmade s ∨ x = y

/-! ### Rules -/

section Rules

variable {I J K : Option Uuid × Progress → Prop} {m : Body σ α}

lemma Orderly.bind {f : α → Body σ β} (hm : Orderly I m J) (hf : ∀ a, Orderly J (f a) K) (hJ : ∀ s, J s → K s) :
    Orderly I (m >>= f) K :=
  Op.Follows.bind (Op.Follows.post hm (fun _ _ h => h) fun _ => hJ) hf

lemma Orderly.seq {f : α → Body σ β} (hm : Orderly I m I) (hf : ∀ a, Orderly I (f a) I) : Orderly I (m >>= f) I :=
  hm.bind hf fun _ h => h

lemma Orderly.before {f : α → Body σ β} (hm : Orderly Between m Between) (hf : ∀ a, Orderly Between (f a) Over) :
    Orderly Between (m >>= f) Over := hm.bind hf fun _ h => h.1

lemma Orderly.over (hm : Orderly I m Between) : Orderly I m Over :=
  Op.Follows.post hm (fun _ _ h => h.1) fun _ _ h => h.1

lemma Orderly.catching {g : Exn → Body σ α} (hm : Orderly I m J) (hg : ∀ x, Orderly J (g x) J) :
    Orderly I (Op.catching m g) J := Op.Follows.catching hm hg

lemma Orderly.withLocals {τ : Type} {init : τ} {m : Body τ α} (hm : Orderly I m J) :
    Orderly I (Op.withLocals init m : Body σ _) J :=
  Op.Follows.withLocals (Op.Follows.post hm (fun _ _ h _ => h) fun _ _ h _ => h)

lemma orderly_pure {a : α} : Orderly I (pure a : Body σ α) I := Op.follows_pure fun _ h => h

lemma orderly_raise {x : Exn} : Orderly I (Body.raise x : Body σ α) I := Op.follows_raise fun _ h => h

lemma orderly_ofExcept {r : Except Exn α} : Orderly I (Op.ofExcept r : Body σ α) I :=
  Op.follows_ofExcept (fun _ _ h => h) fun _ _ h => h

lemma orderly_assign {f : σ → σ} : Orderly I (Op.assign f : Body σ Unit) I := Op.follows_assign

lemma Orderly.returns {f : α → β} (hm : Orderly I m J) : Orderly I (do return f (← m) : Body σ β) J :=
  hm.bind (fun _ => orderly_pure) fun _ h => h

lemma holds_stay {e : Eff} (he : (e.isLock || e.ends) = false) (r : Except Exn e.Resp) (held : Option Uuid) :
    e.holds r held = held := by
  cases e <;> first | rfl | cases he

lemma changes_nothing {e : Eff} (he : (e.isLock || e.ends) = false) : e.changes = false := by
  cases e <;> first | rfl | cases he

lemma progress_stays {e : Eff} (he : (e.isLock || e.ends) = false) (r : Except Exn e.Resp) (s : Progress) :
    s.next e r = s := by
  cases e <;> first | rfl | cases he

/-- Any other effect changes neither automaton. -/
lemma orderly_perform {e : Eff} (he : (e.isLock || e.ends) = false) : Orderly I (Body.perform e : Body σ e.Resp) I := by
  have hlock : e.isLock = false := (Bool.or_eq_false_iff.mp he).1
  have hchanges := changes_nothing he
  have hstay : ∀ s (r : Except Exn e.Resp), discipline.next s e r = s := by
    rintro ⟨held, progress⟩ r
    have hheld : e.holds r held = held := holds_stay he r held
    exact Prod.ext hheld (progress_stays he r progress)
  have hmay : ∀ s, discipline.may s e := fun s =>
    ⟨fun hl => (nomatch hlock.symm.trans hl), fun hc => (nomatch hchanges.symm.trans hc)⟩
  exact Op.follows_perform (fun s _ => hmay s) (fun a s h => (hstay s (.ok a)).symm ▸ h)
    fun x s h => (hstay s (.error x)).symm ▸ h

lemma orderly_onupdate {stored assigned : Time} : Orderly I (Body.onupdate stored assigned : Body σ Time) I := by
  unfold Body.onupdate
  split
  · exact orderly_perform (e := .utcNow) rfl
  · exact orderly_pure

lemma orderly_lock {dataset_id owner_id : Uuid} :
    Orderly Between (getForOwnerForUpdate dataset_id owner_id : Body σ _) Inside :=
  Op.follows_perform (fun _ h => ⟨fun _ => h.1, fun hch => nomatch hch⟩) (fun _ _ h => h.2) fun _ _ h => h.2

lemma orderly_unlock {e : Eff} (he : e = .rollback ∨ e = .close)
    (hJ : ∀ s x, I s → (s.2 = .untried → x = .untried) → J (none, x)) :
    Orderly I (Body.perform e : Body σ e.Resp) J := by
  have hnext : ∀ s (r : Except Exn e.Resp), discipline.next s e r = (none, s.2.next e r) := by
    rintro ⟨held, progress⟩ r
    rcases he with rfl | rfl <;> rfl
  have huntried : ∀ r, Progress.untried.next e r = .untried := fun r => by
    rcases he with rfl | rfl <;> cases r <;> rfl
  have hends : ∀ s r, I s → J (discipline.next s e r) := fun s r h => by
    rw [hnext]
    exact hJ s _ h fun hs => by rw [hs, huntried]
  refine Op.follows_perform (fun s _ => ?_) (fun a s => hends s (.ok a)) fun x s => hends s (.error x)
  rcases he with rfl | rfl <;> exact ⟨fun hl => (nomatch hl), fun hch => (nomatch hch)⟩

lemma orderly_session (hm : Orderly I m J) (hJ : ∀ s x, J s → (s.2 = .untried → x = .untried) → K (none, x)) :
    Orderly I (Body.session m) K := by
  have hclose : Orderly J (Body.perform .close : Body σ Unit) K := orderly_unlock (Or.inr rfl) hJ
  refine Op.Follows.bind (Q := fun _ => J) (Op.Follows.catching hm fun x => ?_) fun a => ?_
  · exact Op.Follows.bind hclose fun _ => Op.follows_raise fun _ h => h
  · exact Op.Follows.bind hclose fun _ => orderly_pure

lemma orderly_reading {m : Body σ (α × List Write)} (hm : Reading I m) : Orderly I (Body.transaction m) Between := by
  refine orderly_session (J := Between) ?_ fun _ _ h hx => ⟨rfl, hx h.2⟩
  refine Op.Follows.bind (Q := fun out s => out.2 = [] ∧ Inside s) (Op.Follows.catching hm fun x => ?_) fun out => ?_
  · exact Op.Follows.bind (orderly_unlock (Or.inl rfl) fun _ _ h hx => ⟨rfl, hx h⟩) fun _ => Op.follows_raise fun _ h => h
  · obtain ⟨a, ws⟩ := out
    refine Op.Follows.bind (Q := fun _ => Between) (Op.follows_perform ?_ ?_ ?_) fun _ => orderly_pure
    · rintro s ⟨rfl, -⟩
      exact ⟨fun hl => (nomatch hl), fun hch => (nomatch hch)⟩
    · rintro _ s ⟨rfl, h⟩
      exact ⟨rfl, h⟩
    · rintro _ s ⟨rfl, h⟩
      exact ⟨rfl, h⟩

lemma orderly_begin {m : Body σ (α × List Write)} (hm : Orderly I m Inside) : Orderly I (Body.begin m) Over := by
  have hcommit : ∀ ws, Orderly Inside (Body.perform (.commit ws) : Body σ Unit) Over := fun ws =>
    Op.follows_perform (fun _ h => ⟨fun hl => (nomatch hl), fun _ => h⟩) (fun _ _ _ => rfl) fun _ _ _ => rfl
  refine Op.Follows.bind (Q := fun _ => Inside) (Op.Follows.catching hm fun x => ?_) fun out => ?_
  · exact Op.Follows.bind (orderly_unlock (Or.inl rfl) fun _ _ _ _ => rfl) fun _ => Op.follows_raise fun _ h => h
  · exact Op.Follows.bind (hcommit out.2) fun _ => orderly_pure

/-- **A transaction gives its lock back**, however it ends. -/
lemma orderly_transaction {m : Body σ (α × List Write)} (hm : Orderly I m Inside) : Orderly I (Body.transaction m) Over :=
  orderly_session (orderly_begin hm) fun _ _ _ _ => rfl

lemma orderly_writing {m : Body σ (α × List Write)} (hm : Orderly Inside m Inside) :
    Orderly Between (Body.transaction m) Over := orderly_transaction (Op.Follows.pre hm fun _ h => h.2)

lemma reading_pure {a : α} : Reading Inside (pure (a, []) : Body σ (α × List Write)) :=
  Op.follows_pure fun _ h => ⟨rfl, h⟩

lemma reading_raise {x : Exn} : Reading Inside (Body.raise x : Body σ (α × List Write)) := Op.follows_raise fun _ h => h

/-- A query, and a body that leaves nothing to commit. -/
lemma orderly_lookup {q : Query} {f : q.Rows → Body σ (α × List Write)} (hf : ∀ a, Reading Inside (f a)) :
    Orderly Between (Body.transaction (Body.perform (.query q) >>= f)) Between :=
  orderly_reading (Op.Follows.pre (Op.Follows.bind (orderly_perform rfl) hf) fun _ h => h.2)

/-! ### A transaction that raises -/

lemma unmade_inside {s : Option Uuid × Progress} (h : Inside s) : Unmade s := fun hm => (nomatch h.symm.trans hm)

lemma honest_begin {m : Body σ (α × List Write)} (hm : Orderly I m Inside) : Honest I (Body.begin m) := by
  have hrollback : Orderly Inside (Body.perform .rollback : Body σ Unit) Inside :=
    orderly_unlock (Or.inl rfl) fun _ _ h hx => hx h
  refine Op.Follows.bind (Q := fun _ => Inside) (Op.Follows.catching hm fun x => ?_) fun out => ?_
  · exact Op.Follows.bind (Op.Follows.post hrollback (fun _ _ h => h) fun _ _ => unmade_inside) fun _ =>
      Op.follows_raise fun _ => unmade_inside
  · obtain ⟨a, ws⟩ := out
    refine Op.Follows.bind (Q := fun _ _ => True) (Op.follows_perform ?_ (fun _ _ _ => trivial) ?_) fun _ =>
      Op.follows_pure fun _ _ => trivial
    · exact fun _ h => ⟨fun hl => (nomatch hl), fun _ => h⟩
    · -- a commit that raises is not acknowledged
      rintro x ⟨held, progress⟩ h
      obtain rfl : progress = .untried := h
      cases ws <;> simp [Unmade, Typestate.prod, changeOnce, Progress.next]

lemma honest_session (hm : Honest I m) : Honest I (Body.session m) := by
  have hmay : ∀ s, discipline.may s .close := fun _ => ⟨fun hl => (nomatch hl), fun hch => (nomatch hch)⟩
  have hfails : ∀ (x : Exn) s, Unmade (discipline.next s .close (.error x)) := by
    rintro x ⟨held, progress⟩
    cases progress <;> simp [Unmade, Typestate.prod, changeOnce, Progress.next]
  refine Op.Follows.bind (Q := fun _ _ => True) (Op.Follows.catching hm fun x => ?_) fun a => ?_
  · exact Op.Follows.bind (Op.follows_perform (fun s _ => hmay s) (fun _ _ h => h) fun x s _ => hfails x s) fun _ =>
      Op.follows_raise fun _ h => h
  · exact Op.Follows.bind (Q := fun _ _ => True)
      (Op.follows_perform (fun s _ => hmay s) (fun _ _ _ => trivial) fun x s _ => hfails x s)
      fun _ => Op.follows_pure fun _ _ => trivial

/-- **A transaction whose changes are made does not raise.** -/
lemma honest_transaction {m : Body σ (α × List Write)} (hm : Orderly I m Inside) : Honest I (Body.transaction m) :=
  honest_session (honest_begin hm)

lemma honest_raise {x y : Exn} : HonestBut y Between (Body.raise x : Body σ α) :=
  Op.follows_raise fun _ h => Or.inl (unmade_inside h.2)

/-- A statement before the transaction with changes. -/
lemma Orderly.honest {y : Exn} {f : α → Body σ β} (hm : Orderly Between m Between) (hf : ∀ a, HonestBut y Between (f a)) :
    HonestBut y Between (m >>= f) :=
  Op.Follows.bind (Op.Follows.post hm (fun _ _ h => h) fun _ _ h => Or.inl (unmade_inside h.2)) hf

end Rules

/-! ### The methods -/

section Methods

variable {I : Option Uuid × Progress → Prop} {owner_id dataset_id : Uuid}

lemma orderly_createDataset {name : PyStr} : Orderly Between (createDataset U owner_id name : Body σ _) Over := by
  refine orderly_ofExcept.before fun _ => (orderly_perform (e := .now) rfl).before fun _ =>
    (orderly_perform (e := .uuid4) rfl).before fun _ => ?_
  refine (orderly_writing ?_).bind (fun _ => orderly_pure) fun _ h => h
  exact (orderly_perform (e := .flush _) rfl).seq fun _ => orderly_pure

lemma orderly_listDatasets {limit offset : ℕ} : Orderly Between (listDatasets owner_id limit offset : Body σ _) Between :=
  orderly_lookup fun _ => reading_pure

lemma orderly_getDataset : Orderly Between (getDataset owner_id dataset_id : Body σ _) Between := by
  refine orderly_lookup fun found => ?_
  cases found with
  | none => exact reading_raise
  | some d => exact reading_pure

lemma orderly_copyChunks {candidate : Uuid} (source : Source) : ∀ written : Bytes,
    Orderly I (copyChunks candidate source written : Body σ _) I := by
  induction source with
  | nil => exact fun _ => orderly_pure
  | cons chunk source ih =>
    intro written
    rcases chunk with _ | _ | ⟨byte, chunk⟩
    · exact orderly_raise
    · exact orderly_pure
    · rw [copyChunks]
      split
      · exact orderly_raise
      · exact (orderly_perform (e := .write _ _) rfl).seq fun _ => ih _

lemma orderly_writeCandidate {source : Source} : Orderly I (writeCandidate source : Body σ _) I := by
  refine (orderly_perform (e := .uuid4) rfl).seq fun u => (orderly_perform (e := .create u) rfl).seq fun _ => ?_
  refine ((orderly_copyChunks source []).catching fun x => ?_).seq fun _ => orderly_pure
  exact (orderly_perform (e := .unlink _) rfl).seq fun _ => orderly_raise

lemma orderly_removeQuietly {key : StorageKey} : Orderly I (removeQuietly key : Body σ Unit) I := by
  refine Orderly.catching (orderly_perform (e := .unlink _) rfl) fun x => ?_
  split
  · exact orderly_pure
  · exact orderly_raise

lemma orderly_replaceUpload {safe_filename : PyStr} {candidate : CandidateFile} {structure_ : CsvStructure}
    {now : Time} {new_key : StorageKey} :
    Orderly Between (replaceUpload owner_id dataset_id safe_filename candidate structure_ now new_key) Inside := by
  refine orderly_lock.bind (fun found => ?_) fun _ h => h
  cases found with
  | none => exact orderly_raise
  | some d =>
    refine (orderly_perform (e := .query _) rfl).seq fun columns => ?_
    split
    · exact orderly_raise
    · refine orderly_assign.seq fun _ => Orderly.seq ?_ fun _ => orderly_onupdate.seq fun _ =>
        (orderly_perform (e := .flush _) rfl).seq fun _ => orderly_pure
      exact (orderly_perform (e := .replace _ _) rfl).seq fun _ => orderly_perform (e := .chmod _) rfl

lemma orderly_installUpload {safe_filename : PyStr} {candidate : CandidateFile} :
    Orderly Between (installUpload owner_id dataset_id safe_filename candidate) Over := by
  refine Orderly.before ((orderly_perform (e := .readCandidate _) rfl).seq fun _ => orderly_ofExcept) fun _ => ?_
  refine (orderly_perform (e := .now) rfl).before fun _ => ?_
  refine Orderly.before ((orderly_perform (e := .uuid4) rfl).seq fun _ => orderly_pure) fun _ => ?_
  refine (orderly_session (J := Over) ?_ fun _ _ _ _ => rfl).bind (fun _ => orderly_pure) fun _ h => h
  exact (orderly_begin orderly_replaceUpload).bind (fun _ => orderly_assign.seq fun _ => orderly_pure) fun _ h => h

lemma orderly_uploadCsv {filename : Option PyStr} {source : Source} :
    Orderly Between (uploadCsv U owner_id dataset_id filename source : Body σ _) Over := by
  refine orderly_ofExcept.before fun _ => Orderly.before (orderly_lookup fun found => ?_) fun _ => ?_
  · cases found with
    | none => exact reading_raise
    | some d => exact reading_pure
  refine orderly_writeCandidate.before fun candidate => orderly_installUpload.withLocals.bind (fun out => ?_) fun _ h => h
  obtain ⟨outcome, v⟩ := out
  cases outcome with
  | error x =>
    refine (orderly_perform (e := .unlink _) rfl).seq fun _ => Orderly.seq ?_ fun _ => orderly_raise
    unfold removeInstalled
    repeat' split
    all_goals first | exact orderly_pure | exact orderly_removeQuietly
  | ok result =>
    refine Orderly.seq ?_ fun _ => orderly_pure
    unfold removeSuperseded
    repeat' split
    all_goals first | exact orderly_pure | exact orderly_removeQuietly

lemma orderly_createRule {rule_type target_column : PyStr} {configuration : Dict} :
    Orderly Between (createRule U owner_id dataset_id rule_type target_column configuration : Body σ _) Over := by
  refine orderly_ofExcept.before fun _ => (orderly_perform (e := .now) rfl).before fun _ =>
    (orderly_perform (e := .uuid4) rfl).before fun _ => ?_
  refine (Orderly.catching (orderly_transaction ?_) fun x => ?_).bind (fun _ => orderly_pure) fun _ h => h
  · refine orderly_lock.bind (fun found => ?_) fun _ h => h
    cases found with
    | none => exact orderly_raise
    | some d =>
      cases hu : d.upload with
      | none => simpa only [hu] using orderly_raise
      | some upload =>
        simp only [hu]
        split
        · exact orderly_raise
        · exact (orderly_perform (e := .flush _) rfl).seq fun _ => orderly_pure
  · split <;> exact orderly_raise

lemma orderly_listRules {limit offset : ℕ} :
    Orderly Between (listRules owner_id dataset_id limit offset : Body σ _) Between := by
  refine orderly_lookup fun found => ?_
  cases found with
  | none => exact reading_raise
  | some d => exact Op.Follows.bind (orderly_perform (e := .query _) rfl) fun _ => reading_pure

lemma orderly_deleteRule {rule_id : Uuid} : Orderly Between (deleteRule owner_id dataset_id rule_id : Body σ _) Over := by
  refine orderly_writing ?_
  refine (orderly_perform (e := .query _) rfl).seq fun found => ?_
  cases found with
  | none => exact orderly_raise
  | some d =>
    refine (orderly_perform (e := .query _) rfl).seq fun found => ?_
    cases found with
    | none => exact orderly_raise
    | some rule => exact orderly_pure

lemma orderly_readChunks : ∀ (chunks : List Bytes) (content : Bytes), Orderly I (readChunks chunks content : Body σ _) I
  | [], _ => orderly_pure
  | chunk :: chunks, content => by
    refine ((orderly_perform (e := .read) rfl).catching fun _ => orderly_raise).seq fun _ => ?_
    split
    · exact orderly_raise
    · exact orderly_readChunks chunks _

lemma orderly_captureSnapshot : Orderly Between (captureSnapshot owner_id dataset_id : Body σ _) Between := by
  refine orderly_reading (Op.Follows.bind orderly_lock fun found => ?_)
  cases found with
  | none => exact reading_raise
  | some d =>
    cases hu : d.upload with
    | none => simpa only [hu] using reading_raise
    | some upload =>
      simp only [hu]
      refine Op.Follows.bind (orderly_perform (e := .query _) rfl) fun rows => ?_
      split
      · exact reading_raise
      · refine Op.Follows.bind (Q := fun _ => Inside) ?_ fun _ => reading_pure
        refine Orderly.seq ((orderly_perform (e := .openBinary _) rfl).catching fun _ => orderly_raise) fun file => ?_
        refine (orderly_readChunks _ _).seq fun content => ?_
        split
        · exact orderly_raise
        · split
          · exact orderly_raise
          · exact orderly_pure

lemma orderly_historyWrites {analysis : Analysis} {results : List ValidationResult} :
    Orderly Inside (do
      Body.flush (historyWrites analysis results)
      pure ((), historyWrites analysis results) : Body σ _) Inside :=
  (orderly_perform (e := .flush _) rfl).seq fun _ => orderly_pure

lemma orderly_createAnalysis : Orderly Between (createAnalysis U P owner_id dataset_id : Body σ _) Over := by
  refine orderly_captureSnapshot.before fun snapshot => (orderly_perform (e := .captured _ _ _) rfl).before fun _ => ?_
  refine orderly_ofExcept.before fun _ => orderly_ofExcept.before fun _ => orderly_ofExcept.before fun engine_result => ?_
  unfold persistAnalysis
  split
  · exact orderly_raise.over
  · split
    · exact orderly_raise.over
    · refine (orderly_perform (e := .uuid4) rfl).before fun _ => (orderly_perform (e := .now) rfl).before fun _ => ?_
      split
      · exact orderly_raise.over
      · exact orderly_ofExcept.before fun _ =>
          (orderly_writing orderly_historyWrites).bind (fun _ => orderly_ofExcept) fun _ h => h

lemma orderly_listAnalyses {limit offset : ℕ} :
    Orderly Between (listAnalyses owner_id dataset_id limit offset : Body σ _) Between := by
  refine orderly_lookup fun found => ?_
  cases found with
  | none => exact reading_raise
  | some d => exact Op.Follows.bind (orderly_perform (e := .query _) rfl) fun _ => reading_pure

lemma orderly_getAnalysis {analysis_id : Uuid} :
    Orderly Between (getAnalysis owner_id dataset_id analysis_id : Body σ _) Between := by
  refine orderly_lookup fun found => ?_
  cases found with
  | none => exact reading_raise
  | some a => exact Op.Follows.bind (orderly_perform (e := .query _) rfl) fun _ =>
      Op.Follows.bind orderly_ofExcept fun _ => reading_pure

/-- **Every call follows both automata**, and ends without a lock. -/
theorem orderly_op (k : Call) : Orderly Between (k.op U P) Over := by
  cases k with
  | createDataset => exact orderly_createDataset.returns
  | listDatasets => exact orderly_listDatasets.over.returns
  | getDataset => exact orderly_getDataset.over.returns
  | uploadCsv => exact orderly_uploadCsv.returns
  | createRule => exact orderly_createRule.returns
  | listRules => exact orderly_listRules.over.returns
  | deleteRule => exact orderly_deleteRule.bind (fun _ => orderly_pure) fun _ h => h
  | createAnalysis => exact orderly_createAnalysis.returns
  | listAnalyses => exact orderly_listAnalyses.over.returns
  | getAnalysis => exact orderly_getAnalysis.over.returns

/-- A call gives every lock back. -/
lemma locking_body (k : Call) : (k.body U P).Follows lockProtocol (fun _ held => held = none) none :=
  (orderly_op k () (none, .untried) ⟨rfl, rfl⟩).fst fun out s h => by
    obtain ⟨r, v⟩ := out
    cases r <;> exact h

/-- **Once its analysis is stored, `create_analysis` raises for a sample only.** -/
lemma honest_createAnalysis :
    HonestBut (.integrityFault .sampleInvalid) Between (createAnalysis U P owner_id dataset_id : Body σ _) := by
  refine orderly_captureSnapshot.honest fun snapshot => (orderly_perform (e := .captured _ _ _) rfl).honest fun _ => ?_
  refine orderly_ofExcept.honest fun _ => orderly_ofExcept.honest fun _ => orderly_ofExcept.honest fun engine_result => ?_
  unfold persistAnalysis
  split
  · exact honest_raise
  · split
    · exact honest_raise
    · refine (orderly_perform (e := .uuid4) rfl).honest fun _ => (orderly_perform (e := .now) rfl).honest fun _ => ?_
      split
      · exact honest_raise
      · refine orderly_ofExcept.honest fun rows => Op.Follows.bind (Op.Follows.post (honest_transaction
          (Op.Follows.pre orderly_historyWrites fun _ h => h.2)) (fun _ _ h => h) fun _ _ => Or.inl) fun _ => ?_
        cases hd : detailReference _ rows with
        | ok d => exact Op.follows_pure fun _ _ => trivial
        | error f => exact Op.follows_raise fun _ _ => Or.inr (congrArg Exn.integrityFault (detailReference_error hd))

/-- What a call knows of its changes when it ends. -/
def Call.Knows : Call → Outcome → Progress → Prop
  | .createAnalysis .., (.error x, _), s => s = .made → x = .integrityFault .sampleInvalid
  | _, _, _ => True

/-- A call changes the database at most once. -/
lemma changing_body (k : Call) : (k.body U P).Follows changeOnce k.Knows .untried := by
  cases k with
  | createAnalysis owner_id dataset_id =>
    have hfollows : HonestBut (.integrityFault .sampleInvalid) Between ((Call.createAnalysis owner_id dataset_id).op U P) :=
      Op.Follows.bind honest_createAnalysis fun _ => Op.follows_pure fun _ h => h
    refine (hfollows () (none, .untried) ⟨rfl, rfl⟩).snd fun out s h => ?_
    obtain ⟨r, v⟩ := out
    cases r with
    | ok => exact trivial
    | error x => exact fun hs => h.resolve_left fun hun => hun hs
  | _ => exact (orderly_op _ () (none, .untried) ⟨rfl, rfl⟩).snd fun _ _ _ => trivial

end Methods

end DataCheck.Shared
