import DataCheck.Lib.Confined
import DataCheck.Shared.Calls
import DataCheck.Datasets.Guarantees

/-!
# Columns that can carry a rule

The header of an upload and the target column of a rule are checked by two functions.  What each refuses, and
what that means for every dataset with an upload.
-/

namespace DataCheck.Datasets

open Lib Shared Analyses

variable {U : Unicode} {P : Polars} {F : Faults} {σ α : Type} {header columns : List PyStr} {name : PyStr}

/-! ### The two checks -/

/-- **A column name of an accepted header is refused as a target only for its characters.** -/
theorem validateTargetColumn_iff (h : validateHeader header = .ok columns) (hname : name ∈ columns) :
    validateTargetColumn U name = .ok name ↔ containsControl U name = false := by
  obtain ⟨rfl, -, -, hgood, -⟩ := validateHeader_ok h
  have hbad := hgood name hname
  simp only [badColumn, Bool.or_eq_false_iff, beq_eq_false_iff_ne, bne_eq_false_iff_eq, decide_eq_false_iff_not,
    Nat.not_lt] at hbad
  obtain ⟨⟨⟨hne, hstrip⟩, hlen⟩, -⟩ := hbad
  have hpos : 1 ≤ name.length := List.length_pos_of_ne_nil hne
  unfold validateTargetColumn
  by_cases hc : containsControl U name = true
  · simp [hc]
  · have hok : ¬ (name ≠ name.strip ∨ ¬ (1 ≤ name.length ∧ name.length ≤ maxColumnNameLength) ∨
        containsControl U name = true) := by
      rintro (h | h | h)
      · exact h hstrip
      · exact h ⟨hpos, hlen⟩
      · exact hc h
    rw [if_neg hok]
    simpa using hc

lemma validateTargetColumn_error (h : validateTargetColumn U name ≠ .ok name) :
    validateTargetColumn U name = .error .invalid_target_column := by
  unfold validateTargetColumn at h ⊢
  split
  · rfl
  · next hv =>
    rw [if_neg hv] at h
    exact absurd rfl h

/-! ### What the calls may do -/

/-- An exception of the environment. -/
def IsFault (x : Exn) : Prop := x = .clock ∨ x = .os ∨ ∃ y, x = .database y

/-- What an effect can be answered. -/
def Answers (e : Eff) (r : Except Exn e.Resp) : Prop := ∀ x, r = .error x → IsFault x

/-- The columns of an upload are an accepted header. -/
def Headed (u : UploadColumns) : Prop := validateHeader u.column_names = .ok u.column_names

/-- A change writes no other columns than those of an accepted header. -/
def WritesHeaded : Write → Prop
  | .insertDataset d => ∀ u, d.upload = some u → Headed u
  | .updateUpload _ u _ => Headed u
  | _ => True

/-- The effect commits no other columns. -/
def CommitsHeaded : Eff → Prop
  | .commit ws => ∀ w ∈ ws, WritesHeaded w
  | _ => True

/-- The columns of every upload are an accepted header. -/
def AllHeaded (w : World) : Prop := ∀ d ∈ w.db.datasets, ∀ u, d.upload = some u → Headed u

lemma AllHeaded.apply {w : World} (h : AllHeaded w) {ws : List Write} (hws : ∀ x ∈ ws, WritesHeaded x) :
    AllHeaded (w.apply ws) := by
  have hone : ∀ {db : Db} {x : Write}, (∀ d ∈ db.datasets, ∀ u, d.upload = some u → Headed u) → WritesHeaded x →
      ∀ d ∈ (db.apply x).datasets, ∀ u, d.upload = some u → Headed u := by
    intro db x hdb hx d hd u hu
    cases x with
    | insertDataset d' =>
      rcases Table.mem_put.mp hd with rfl | ⟨hd, -⟩
      · exact hx u hu
      · exact hdb d hd u hu
    | updateUpload dataset_id upload updated_at =>
      simp only [Db.apply] at hd
      split at hd
      · rcases Table.mem_put.mp hd with rfl | ⟨hd, -⟩
        · cases hu
          exact hx
        · exact hdb d hd u hu
      · exact hdb d hd u hu
    | insertRule r => exact hdb d hd u hu
    | deleteRule rule_id => exact hdb d hd u hu
    | insertAnalysis a => exact hdb d hd u hu
    | insertResult r => exact hdb d hd u hu
  have hall : ∀ (ws : List Write) {db : Db}, (∀ d ∈ db.datasets, ∀ u, d.upload = some u → Headed u) →
      (∀ x ∈ ws, WritesHeaded x) → ∀ d ∈ (db.applyAll ws).datasets, ∀ u, d.upload = some u → Headed u := by
    intro ws
    induction ws with
    | nil => exact fun hdb _ => hdb
    | cons x ws ih =>
      intro db hdb hws
      exact ih (hone hdb (hws x List.mem_cons_self)) fun y hy => hws y (List.mem_cons_of_mem _ hy)
  exact hall ws h hws

/-- **A step answers with a value or an exception of the environment**, and writes accepted headers only. -/
lemma exec_headed {p : Pid} {e : Eff} {c : Choice} {r : Except Exn e.Resp} {w w' : World} (he : CommitsHeaded e)
    (hw : AllHeaded w) (hx : (machine F).exec p e c w = some (r, w')) : Answers e r ∧ AllHeaded w' := by
  have hfault : ∀ {x : DbError}, IsFault (.database x) := fun {x} => Or.inr (Or.inr ⟨x, rfl⟩)
  simp only [machine] at hx
  split at hx
  · cases e with
    | now | utcNow | query q | rollback | close | write u chunk | unlink name | read | captured =>
      cases hx
      exact ⟨fun x hx => (by cases hx), hw⟩
    | uuid4 =>
      simp only [World.perform] at hx
      split at hx
      · cases hx
      · cases hx
        exact ⟨fun x hx => (by cases hx), hw⟩
    | getForOwnerForUpdate d o =>
      simp only [World.perform] at hx
      split at hx
      · cases hx
        exact ⟨fun x hx => (by cases hx), hw⟩
      · split at hx
        · cases hx
          exact ⟨fun x hx => (by cases hx), hw⟩
        · cases hx
    | flush ws =>
      simp only [World.perform] at hx
      split at hx
      · cases hx
        exact ⟨fun x hx => by cases hx; exact hfault, hw⟩
      · cases hx
        exact ⟨fun x hx => (by cases hx), hw⟩
    | commit ws =>
      cases hx
      exact ⟨fun x hx => (by cases hx), hw.apply he⟩
    | create u | readCandidate u | replace u key | openBinary key =>
      simp only [World.perform] at hx
      split at hx
      all_goals
        cases hx
        exact ⟨fun x hx => by cases hx <;> exact Or.inr (Or.inl rfl), hw⟩
    | chmod key =>
      simp only [World.perform] at hx
      split at hx
      all_goals
        cases hx
        exact ⟨fun x hx => by cases hx <;> exact Or.inr (Or.inl rfl), hw⟩
  · split at hx
    · cases hx
      refine ⟨fun x hx => ?_, ?_⟩
      · cases hx
        cases e <;> first | exact Or.inl rfl | exact hfault | exact Or.inr (Or.inl rfl)
      · cases e <;> exact hw
    · cases hx
  · split at hx
    · split at hx
      · cases hx
        exact ⟨fun x hx => by cases hx; exact hfault, hw.apply he⟩
      · cases hx
    · cases hx

/-! ### The methods -/

/-- Whatever happens around it, the body commits accepted headers only, returns only with `Q` and raises only
with `Z`. -/
abbrev Heads (m : Body σ α) (Q : α → Prop) (Z : Exn → Prop) : Prop := Op.Confined Answers CommitsHeaded m Q Z

section Methods

variable {m : Body σ α} {Q : α → Prop} {Z : Exn → Prop}

/-- The exceptions of the environment are among those of `Z`. -/
abbrev Tolerates (Z : Exn → Prop) : Prop := ∀ x, IsFault x → Z x

lemma heads_perform {e : Eff} (hZ : Tolerates Z) (he : CommitsHeaded e) :
    Heads (Body.perform e : Body σ e.Resp) (fun _ => True) Z :=
  Op.confined_perform he (fun _ _ => trivial) fun x hx => hZ x (hx x rfl)

lemma heads_session (hZ : Tolerates Z) (hm : Heads m Q Z) : Heads (Body.session m) Q Z := by
  refine (hm.catching fun x hx => ?_).bind fun a ha => ?_
  · exact (heads_perform (e := .close) hZ trivial).bind fun _ _ => Op.confined_raise hx
  · exact (heads_perform (e := .close) hZ trivial).bind fun _ _ => Op.confined_pure ha

lemma heads_begin {m : Body σ (α × List Write)} (hZ : Tolerates Z)
    (hm : Heads m (fun out => Q out.1 ∧ ∀ w ∈ out.2, WritesHeaded w) Z) : Heads (Body.begin m) Q Z := by
  refine (hm.catching fun x hx => ?_).bind fun out hout => ?_
  · exact (heads_perform (e := .rollback) hZ trivial).bind fun _ _ => Op.confined_raise hx
  · exact (heads_perform (e := .commit out.2) hZ hout.2).bind fun _ _ => Op.confined_pure hout.1

lemma heads_transaction {m : Body σ (α × List Write)} (hZ : Tolerates Z)
    (hm : Heads m (fun out => Q out.1 ∧ ∀ w ∈ out.2, WritesHeaded w) Z) : Heads (Body.transaction m) Q Z :=
  heads_session hZ (heads_begin hZ hm)

abbrev anyExn : Exn → Prop := fun _ => True

abbrev anyResult {β : Type} : β → Prop := fun _ => True

lemma tolerates_any : Tolerates anyExn := fun _ _ => trivial

lemma heads_ofExcept {r : Except Exn α} : Heads (Op.ofExcept r : Body σ α) anyResult anyExn :=
  Op.confined_ofExcept (fun _ _ => trivial) fun _ _ => trivial

lemma heads_raise {x : Exn} : Heads (Body.raise x : Body σ α) Q anyExn := Op.confined_raise trivial

lemma heads_reads {β : Type} {a : β} {Q : β → Prop} (ha : Q a) :
    Heads (pure (a, []) : Body σ (β × List Write)) (fun out => Q out.1 ∧ ∀ w ∈ out.2, WritesHeaded w) Z :=
  Op.confined_pure ⟨ha, fun _ h => (List.not_mem_nil h).elim⟩

lemma heads_any {e : Eff} (he : CommitsHeaded e) :
    Heads (Body.perform e : Body σ e.Resp) anyResult anyExn := heads_perform tolerates_any he

variable (U P)

lemma heads_createDataset {owner_id : Uuid} {n : PyStr} :
    Heads (createDataset U owner_id n : Body σ _) anyResult anyExn := by
  refine heads_ofExcept.bind fun normalized _ => (heads_any (e := .now) trivial).bind fun now _ =>
    (heads_any (e := .uuid4) trivial).bind fun id _ => ?_
  refine (heads_transaction (Q := anyResult) tolerates_any ?_).bind fun _ _ => Op.confined_pure trivial
  refine (heads_any (e := .flush _) trivial).bind fun _ _ => Op.confined_pure ⟨trivial, fun w hw => ?_⟩
  obtain rfl := List.mem_singleton.mp hw
  exact fun u hu => nomatch hu

lemma heads_copyChunks {u : Uuid} : ∀ {source : Source} {written : Bytes},
    Heads (copyChunks u source written : Body σ Bytes) anyResult anyExn
  | [], _ => Op.confined_pure trivial
  | none :: _, _ => heads_raise
  | some [] :: _, _ => Op.confined_pure trivial
  | some (byte :: chunk) :: source, written => by
    rw [copyChunks]
    split
    · exact heads_raise
    · exact (heads_any (e := .write u _) trivial).bind fun _ _ => heads_copyChunks

lemma heads_writeCandidate {source : Source} : Heads (writeCandidate source : Body σ _) anyResult anyExn := by
  refine (heads_any (e := .uuid4) trivial).bind fun u _ => (heads_any (e := .create u) trivial).bind fun _ _ => ?_
  refine (heads_copyChunks.catching fun x _ => ?_).bind fun _ _ => Op.confined_pure trivial
  exact (heads_any (e := .unlink _) trivial).bind fun _ _ => heads_raise

lemma heads_scanCandidate {candidate : CandidateFile} : Heads (scanCandidate candidate : Body σ CsvStructure)
    (fun s => validateHeader s.column_names = .ok s.column_names) anyExn := by
  refine (heads_any (e := .readCandidate _) trivial).bind fun content _ => ?_
  refine Op.confined_ofExcept (fun s hs => ?_) fun _ _ => trivial
  cases hc : scanCsv content with
  | error x =>
    rw [hc] at hs
    cases hs
  | ok s' =>
    rw [hc] at hs
    cases hs
    obtain ⟨-, _, -, hv, -⟩ := scanRows_ok hc
    exact hv

lemma heads_removeQuietly {key : StorageKey} : Heads (removeQuietly key : Body σ Unit) anyResult anyExn := by
  refine (heads_any (e := .unlink _) trivial).catching fun x _ => ?_
  split
  · exact Op.confined_pure trivial
  · exact heads_raise

lemma heads_onupdate {stored assigned : Time} :
    Heads (Body.onupdate stored assigned : Body σ Time) anyResult anyExn := by
  unfold Body.onupdate
  split
  · exact heads_any (e := .utcNow) trivial
  · exact Op.confined_pure trivial

lemma heads_replaceUpload {owner_id dataset_id : Uuid} {filename : PyStr} {candidate : CandidateFile}
    {structure_ : CsvStructure} {now : Time} {key : StorageKey}
    (hs : validateHeader structure_.column_names = .ok structure_.column_names) :
    Heads (replaceUpload owner_id dataset_id filename candidate structure_ now key)
      (fun out => anyResult out.1 ∧ ∀ w ∈ out.2, WritesHeaded w) anyExn := by
  refine (heads_any (e := .getForOwnerForUpdate _ _) trivial).bind fun found _ => ?_
  cases found with
  | none => exact heads_raise
  | some dataset =>
    refine (heads_any (e := .query _) trivial).bind fun targets _ => ?_
    split
    · exact heads_raise
    · refine Op.confined_assign.bind fun _ _ => ?_
      have hinstall : Heads (install candidate key : Body UploadLocals Unit) anyResult anyExn :=
        (heads_any (e := .replace _ _) trivial).bind fun _ _ => heads_any (e := .chmod _) trivial
      refine hinstall.bind fun _ _ => heads_onupdate.bind fun _ _ => ?_
      refine (heads_any (e := .flush _) trivial).bind fun _ _ => ?_
      refine Op.confined_pure ⟨trivial, fun w hw => ?_⟩
      obtain rfl := List.mem_singleton.mp hw
      exact hs

lemma heads_findDataset {owner_id dataset_id : Uuid} :
    Heads (Body.transaction do
      match ← getForOwner dataset_id owner_id with
      | none => Body.raise .datasetNotFound
      | some _ => pure ((), []) : Body σ Unit) anyResult anyExn := by
  refine heads_transaction tolerates_any ((heads_any (e := .query _) trivial).bind fun found _ => ?_)
  cases found with
  | none => exact heads_raise
  | some d => exact heads_reads trivial

lemma heads_uploadCsv {owner_id dataset_id : Uuid} {filename : Option PyStr} {source : Source} :
    Heads (uploadCsv U owner_id dataset_id filename source : Body σ _) anyResult anyExn := by
  have hinstall : ∀ {filename : PyStr} {candidate : CandidateFile},
      Heads (installUpload owner_id dataset_id filename candidate) anyResult anyExn := by
    intro filename candidate
    refine heads_scanCandidate.bind fun structure_ hs => (heads_any (e := .now) trivial).bind fun now _ => ?_
    refine Op.Confined.bind (Q := anyResult)
      ((heads_any (e := .uuid4) trivial).bind fun u _ => Op.confined_pure trivial) fun key _ => ?_
    refine Op.Confined.bind (Q := anyResult) (heads_session tolerates_any ?_) fun _ _ => Op.confined_pure trivial
    exact (heads_begin tolerates_any (heads_replaceUpload hs)).bind fun _ _ =>
      Op.confined_assign.bind fun _ _ => Op.confined_pure trivial
  refine heads_ofExcept.bind fun filename _ => heads_findDataset.bind fun _ _ => heads_writeCandidate.bind fun candidate _ => ?_
  refine hinstall.withLocals.bind fun out _ => ?_
  obtain ⟨outcome, v⟩ := out
  cases outcome with
  | error x =>
    refine (heads_any (e := .unlink _) trivial).bind fun _ _ => Op.Confined.bind (Q := anyResult) ?_ fun _ _ => heads_raise
    unfold removeInstalled
    split
    · split
      · exact Op.confined_pure trivial
      · exact heads_removeQuietly
    · exact Op.confined_pure trivial
  | ok result =>
    obtain ⟨result, old_key, new_key⟩ := result
    refine Op.Confined.bind (Q := anyResult) ?_ fun _ _ => Op.confined_pure trivial
    unfold removeSuperseded
    split
    · split
      · exact heads_removeQuietly
      · exact Op.confined_pure trivial
    · exact Op.confined_pure trivial

/-- A rule with an accepted column is not refused for its column. -/
lemma heads_createRule {owner_id dataset_id : Uuid} {rule_type column : PyStr} {configuration : Dict}
    (hcolumn : validateTargetColumn U column = .ok column) :
    Heads (createRule U owner_id dataset_id rule_type column configuration : Body σ _) anyResult
      (fun x => x ≠ .datasetPolicy .invalid_target_column) := by
  have hZ : Tolerates fun x => x ≠ .datasetPolicy .invalid_target_column := by
    rintro x (rfl | rfl | ⟨y, rfl⟩) <;> simp
  have hperform : ∀ {e : Eff}, CommitsHeaded e → Heads (Body.perform e : Body σ e.Resp) anyResult
      (fun x => x ≠ .datasetPolicy .invalid_target_column) := fun he => heads_perform hZ he
  have hpolicy : Heads (Body.policy (validateTargetColumn U column) : Body σ PyStr) anyResult
      (fun x => x ≠ .datasetPolicy .invalid_target_column) := by
    rw [hcolumn]
    exact Op.confined_pure trivial
  refine hpolicy.bind fun safe_column _ => (hperform (e := .now) trivial).bind fun now _ =>
    (hperform (e := .uuid4) trivial).bind fun id _ => Op.Confined.bind (Q := anyResult) ?_ fun _ _ => Op.confined_pure trivial
  refine Op.Confined.catching (Y := fun x => x ≠ .datasetPolicy .invalid_target_column) ?_ fun x hx => ?_
  · refine heads_transaction hZ ((hperform (e := .getForOwnerForUpdate _ _) trivial).bind fun found _ => ?_)
    cases found with
    | none => exact Op.confined_raise (by simp)
    | some dataset =>
      obtain ⟨_, _, _, upload, _, _⟩ := dataset
      cases upload with
      | none => exact Op.confined_raise (by simp)
      | some upload =>
        simp only
        split
        · exact Op.confined_raise (by simp)
        · refine (hperform (e := .flush _) trivial).bind fun _ _ => Op.confined_pure ⟨trivial, fun w hw => ?_⟩
          obtain rfl := List.mem_singleton.mp hw
          trivial
  · split
    · exact Op.confined_raise (by simp)
    · exact Op.confined_raise hx

lemma heads_createRule_refused {owner_id dataset_id : Uuid} {rule_type column : PyStr} {configuration : Dict}
    (hcolumn : validateTargetColumn U column ≠ .ok column) :
    Heads (createRule U owner_id dataset_id rule_type column configuration : Body σ _) (fun _ => False)
      (fun x => x = .datasetPolicy .invalid_target_column) := by
  have hpolicy : Heads (Body.policy (validateTargetColumn U column) : Body σ PyStr) (fun _ => False)
      (fun x => x = .datasetPolicy .invalid_target_column) := by
    rw [validateTargetColumn_error hcolumn]
    exact Op.confined_raise rfl
  exact hpolicy.bind fun _ h => h.elim

/-- A transaction that looks for an object, and then only reads. -/
lemma heads_lookup {β : Type} {e : Eff} {f : e.Resp → Body σ (β × List Write)} (he : CommitsHeaded e)
    (hf : ∀ a, Heads (f a) (fun out => anyResult out.1 ∧ ∀ w ∈ out.2, WritesHeaded w) anyExn) :
    Heads (Body.transaction (Body.perform e >>= f)) anyResult anyExn :=
  heads_transaction tolerates_any ((heads_any he).bind fun a _ => hf a)

lemma heads_readChunks : ∀ {reads : List Bytes} {content : Bytes},
    Heads (readChunks reads content : Body σ Bytes) anyResult anyExn
  | [], _ => Op.confined_pure trivial
  | chunk :: reads, content => by
    refine Op.Confined.bind (Q := anyResult) ((heads_any (e := .read) trivial).catching fun _ _ => heads_raise)
      fun _ _ => ?_
    split
    · exact heads_raise
    · exact heads_readChunks

lemma heads_captureSnapshot {owner_id dataset_id : Uuid} :
    Heads (captureSnapshot owner_id dataset_id : Body σ _) anyResult anyExn := by
  refine heads_lookup (e := .getForOwnerForUpdate _ _) trivial fun found => ?_
  cases found with
  | none => exact heads_raise
  | some dataset =>
    obtain ⟨_, _, _, upload, _, _⟩ := dataset
    cases upload with
    | none => exact heads_raise
    | some upload =>
      refine (heads_any (e := .query _) trivial).bind fun rows _ => ?_
      split
      · exact heads_raise
      · refine Op.Confined.bind (Q := anyResult) ?_ fun content _ => heads_reads trivial
        refine Op.Confined.bind (Q := anyResult) ((heads_any (e := .openBinary _) trivial).catching fun _ _ => heads_raise)
          fun file _ => heads_readChunks.bind fun content _ => ?_
        split
        · exact heads_raise
        · split
          · exact heads_raise
          · exact Op.confined_pure trivial

lemma heads_createAnalysis {owner_id dataset_id : Uuid} :
    Heads (createAnalysis U P owner_id dataset_id : Body σ _) anyResult anyExn := by
  refine heads_captureSnapshot.bind fun captured _ => ?_
  refine (heads_any (e := .captured _ _ _) trivial).bind fun _ _ => heads_ofExcept.bind fun frame _ =>
    heads_ofExcept.bind fun adapted _ => heads_ofExcept.bind fun engine _ => ?_
  unfold persistAnalysis
  split
  · exact heads_raise
  split
  · exact heads_raise
  refine (heads_any (e := .uuid4) trivial).bind fun id _ => (heads_any (e := .now) trivial).bind fun now _ => ?_
  split
  · exact heads_raise
  · refine heads_ofExcept.bind fun results _ => Op.Confined.bind (Q := anyResult) ?_ fun _ _ => heads_ofExcept
    refine heads_transaction tolerates_any ((heads_any (e := .flush _) trivial).bind fun _ _ => ?_)
    refine Op.confined_pure ⟨trivial, fun w hw => ?_⟩
    rcases List.mem_cons.mp hw with rfl | hw
    · trivial
    · obtain ⟨r, -, rfl⟩ := List.mem_map.mp hw
      trivial

/-- **Every call commits accepted headers only.** -/
theorem heads_op (k : Call) : Heads (k.op U P) anyResult anyExn := by
  have hreply : ∀ {β : Type} {m : Body Unit β} {f : β → Reply}, Heads m anyResult anyExn →
      Heads (do return f (← m) : Body Unit Reply) anyResult anyExn := fun hm => hm.bind fun _ _ => Op.confined_pure trivial
  cases k with
  | createDataset o n => exact hreply (heads_createDataset U)
  | listDatasets o limit offset => exact hreply (heads_lookup (e := .query _) trivial fun _ => heads_reads trivial)
  | getDataset o d =>
    refine hreply (heads_lookup (e := .query _) trivial fun found => ?_)
    cases found with
    | none => exact heads_raise
    | some d => exact heads_reads trivial
  | uploadCsv o d filename source => exact hreply (heads_uploadCsv U)
  | createRule o d rule_type column configuration =>
    by_cases hcolumn : validateTargetColumn U column = .ok column
    · exact hreply ((heads_createRule U hcolumn).post (fun _ _ => trivial) fun _ _ => trivial)
    · exact hreply ((heads_createRule_refused U hcolumn).post (fun _ _ => trivial) fun _ _ => trivial)
  | listRules o d limit offset =>
    refine hreply (heads_lookup (e := .query _) trivial fun found => ?_)
    cases found with
    | none => exact heads_raise
    | some d => exact (heads_any (e := .query _) trivial).bind fun _ _ => heads_reads trivial
  | deleteRule o d r =>
    refine Op.Confined.bind (Q := anyResult) (heads_lookup (e := .query _) trivial fun found => ?_) fun _ _ =>
      Op.confined_pure trivial
    cases found with
    | none => exact heads_raise
    | some d =>
      refine (heads_any (e := .query _) trivial).bind fun rule _ => ?_
      cases rule with
      | none => exact heads_raise
      | some rule =>
        refine Op.confined_pure ⟨trivial, fun w hw => ?_⟩
        obtain rfl := List.mem_singleton.mp hw
        trivial
  | createAnalysis o d => exact hreply (heads_createAnalysis U P)
  | listAnalyses o d limit offset =>
    refine hreply (heads_lookup (e := .query _) trivial fun found => ?_)
    cases found with
    | none => exact heads_raise
    | some d => exact (heads_any (e := .query _) trivial).bind fun _ _ => heads_reads trivial
  | getAnalysis o d a =>
    refine hreply (heads_lookup (e := .query _) trivial fun found => ?_)
    cases found with
    | none => exact heads_raise
    | some a =>
      exact (heads_any (e := .query _) trivial).bind fun _ _ => heads_ofExcept.bind fun _ _ => heads_reads trivial

end Methods

/-! ### Runs -/

/-- What a call that creates a rule ends with. -/
def RuleEnds (U : Unicode) (k : Call) (out : Outcome) : Prop :=
  match k with
  | .createRule _ _ _ column _ =>
    out.1 = .error (.datasetPolicy .invalid_target_column) ↔ validateTargetColumn U column ≠ .ok column
  | _ => True

lemma confined_body (k : Call) : (k.body U P).Confined Answers CommitsHeaded (RuleEnds U k) := by
  have hany : (k.body U P).Confined Answers CommitsHeaded fun _ => True := ((heads_op U P k) ()).mono fun _ _ => trivial
  cases k with
  | createRule o d rule_type column configuration =>
    by_cases hcolumn : validateTargetColumn U column = .ok column
    · have hop : Heads (Call.op U P (.createRule o d rule_type column configuration)) anyResult
          (fun x => x ≠ .datasetPolicy .invalid_target_column) :=
        (heads_createRule U hcolumn).bind fun _ _ => Op.confined_pure trivial
      refine (hop ()).mono fun out h => ?_
      obtain ⟨r, _⟩ := out
      cases r with
      | ok r => exact iff_of_false (fun h' => nomatch h') (not_not.mpr hcolumn)
      | error x => exact iff_of_false (fun h' => h (Except.error.inj h')) (not_not.mpr hcolumn)
    · have hop : Heads (Call.op U P (.createRule o d rule_type column configuration)) (fun _ => False)
          (fun x => x = .datasetPolicy .invalid_target_column) :=
        (heads_createRule_refused U hcolumn).bind fun _ h => h.elim
      refine (hop ()).mono fun out h => ?_
      obtain ⟨r, _⟩ := out
      cases r with
      | ok r => exact h.elim
      | error x => exact iff_of_true (congrArg Except.error h) hcolumn
  | _ => exact hany

/-- **A column can carry a rule exactly if no character of its name is a control.**  The target check accepts
a name of an accepted header exactly if no character of it has a Unicode category of controls; and in every
run, whatever fails, a rule for a column of an upload is refused for its column exactly if one has. -/
theorem columns_carry_rules_iff (U : Unicode) (P : Polars) (F : Faults) (calls : Call → Prop) :
    (∀ header columns name, validateHeader header = .ok columns → name ∈ columns →
      (validateTargetColumn U name = .ok name ↔ containsControl U name = false)) ∧
    ∀ cfg, Reach U P F calls cfg → ∀ d ∈ cfg.hist.now.db.datasets, ∀ u, d.upload = some u →
      ∀ column ∈ u.column_names, ∀ p owner_id rule_type configuration h₀ out,
        cfg.threads p = some ⟨.createRule owner_id d.id rule_type column configuration, h₀, .ret (out, ())⟩ →
        (out = .error (.datasetPolicy .invalid_target_column) ↔ containsControl U column = true) := by
  refine ⟨fun header columns name => validateTargetColumn_iff, ?_⟩
  intro cfg hr d hd u hu column hcolumn p owner_id rule_type configuration h₀ out hp
  have hempty : AllHeaded World.empty := fun d hd => (Table.not_mem_empty _ hd).elim
  have hstep : ∀ p e c w r w', CommitsHeaded e → AllHeaded w → (machine F).exec p e c w = some (r, w') →
      Answers e r ∧ AllHeaded w' := fun _ _ _ _ _ _ he hw hx => exec_headed he hw hx
  have hbody : ∀ k, calls k → (Call.body U P k).Confined Answers CommitsHeaded (RuleEnds U k) :=
    fun k _ => confined_body k
  obtain ⟨hheaded, hthreads⟩ := reachable_confined hempty hstep hbody hr
  have hend : out = .error (.datasetPolicy .invalid_target_column) ↔ validateTargetColumn U column ≠ .ok column :=
    hthreads p _ hp
  rw [hend, Ne, validateTargetColumn_iff (hheaded d hd u hu) hcolumn, Bool.not_eq_false]

namespace Sample

/-- The categories of some blocks: the controls, and the format characters of Latin-1 and General
Punctuation. -/
def categories : Unicode :=
  { unicode with isControl := fun c => c.val < 32 || (127 ≤ c.val && c.val < 160) || c.val == 0xAD ||
      (0x200B ≤ c.val && c.val ≤ 0x200F) || (0x202A ≤ c.val && c.val ≤ 0x202E) ||
      (0x2060 ≤ c.val && c.val ≤ 0x206F) }

/-- The letter a and a zero width space. -/
def zeroWidth : PyStr := [97, 0x200B]

/-- A column of that name is uploaded, and a rule is created for it. -/
def ruled : SysConfig :=
  (Config.init World.empty).follow (machine noFaults) (Call.body categories polars)
    (.spawn 0 (.createDataset 7 (py "d")) :: effects 0 5 100 ++
      .spawn 1 (.uploadCsv 7 101 (some (py "f.csv")) [some [97, 0xE2, 0x80, 0x8B, 10]]) :: effects 1 17 200 ++
      [.spawn 2 (.createRule 7 101 (py "required") zeroWidth [])])

/-- The thread 2 has ended with that rule. -/
def hasRuled (cfg : SysConfig) : Bool :=
  match cfg.threads 2 with
  | some ⟨.createRule owner_id dataset_id rule_type column [], _, .ret _⟩ =>
    owner_id == 7 && dataset_id == 101 && rule_type == py "required" && column == zeroWidth
  | _ => false

lemma threads_ruled {cfg : SysConfig} (h : hasRuled cfg = true) : ∃ h₀ out,
    cfg.threads 2 = some ⟨.createRule 7 101 (py "required") zeroWidth [], h₀, .ret (out, ())⟩ := by
  unfold hasRuled at h
  split at h
  · next owner_id dataset_id rule_type column h₀ out hp =>
    simp only [Bool.and_eq_true, beq_iff_eq] at h
    obtain ⟨⟨⟨rfl, rfl⟩, rfl⟩, rfl⟩ := h
    exact ⟨h₀, out.1, hp⟩
  · cases h

end Sample

/-- A name without a control, and the rule for a column with one. -/
theorem columns_carry_rules_iff_sample : validateTargetColumn Sample.categories (py "a") = .ok (py "a") ∧
    ∃ h₀, Sample.ruled.threads 2 = some ⟨.createRule 7 101 (py "required") Sample.zeroWidth [], h₀,
      .ret (.error (.datasetPolicy .invalid_target_column), ())⟩ := by
  obtain ⟨hname, hrun⟩ := columns_carry_rules_iff Sample.categories Sample.polars Sample.noFaults anyCall
  refine ⟨(hname [py "a"] [py "a"] (py "a") (by decide) List.mem_cons_self).mpr (by decide), ?_⟩
  have hr : Reach Sample.categories Sample.polars Sample.noFaults anyCall Sample.ruled :=
    Config.Reachable.init.follow fun _ _ _ => trivial
  have hd : ∃ d ∈ Sample.ruled.hist.now.db.datasets.rows, d.id = 101 ∧
      d.upload.map UploadColumns.column_names = some [Sample.zeroWidth] := by decide +kernel
  obtain ⟨d, hd, hid, hu⟩ := hd
  obtain ⟨u, hu, hcolumns⟩ := Option.map_eq_some_iff.mp hu
  obtain ⟨h₀, out, hp⟩ := Sample.threads_ruled (show Sample.hasRuled Sample.ruled = true by decide +kernel)
  have hout := (hrun _ hr d hd u hu Sample.zeroWidth (hcolumns ▸ List.mem_cons_self) 2 7 (py "required") [] h₀ out
    (by rw [hid, hp])).mpr (by decide)
  exact ⟨h₀, by rw [hp, hout]⟩

/-- A header with a zero width space is accepted, but its column cannot carry a rule. -/
theorem not_columns_carry_rules : scanCsv [97, 0xE2, 0x80, 0x8B, 10] = .ok ⟨0, [Sample.zeroWidth]⟩ ∧
    validateHeader [Sample.zeroWidth] = .ok [Sample.zeroWidth] ∧
    validateTargetColumn Sample.categories Sample.zeroWidth = .error .invalid_target_column ∧
    ∀ owner_id dataset_id, (Call.createRule owner_id dataset_id (py "required") Sample.zeroWidth []).body
      Sample.categories Sample.polars = .ret (.error (.datasetPolicy .invalid_target_column), ()) :=
  ⟨by decide +kernel, by decide, by decide, fun _ _ => rfl⟩

end DataCheck.Datasets
