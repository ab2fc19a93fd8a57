import DataCheck.Analysis.History
import DataCheck.Shared.Separation

/-!
# Owner isolation

Every method stays with the data of the owner it is called for.  So the calls of an owner do the
same whatever other owners have stored, and change nothing of theirs; and what belongs to another
owner is, to a call, as if it did not exist.
-/

namespace DataCheck.Shared

open Lib Datasets Analyses Validation

variable {F : Faults} {p : Pid} {o A : Uuid} {old : Uuid → Prop} {w w' v : World} {σ α : Type}

/-! ### The methods of the dataset service -/

/-- The body serves the owner, whatever has happened. -/
abbrev ServesAny (F : Faults) (p : Pid) (o : Uuid) (old : Uuid → Prop) (m : Body σ α) : Prop :=
  Serves F p o old (fun _ _ => True) m (fun _ _ _ => True) fun _ _ => True

section Datasets

variable (U : Unicode)

theorem serves_createDataset {name : PyStr} :
    ServesAny F p o old (createDataset U o name : Body σ DatasetReference) := by
  unfold createDataset Body.policy
  refine (Op.Keeps.ofExcept (Q := fun _ _ _ => True) (fun _ _ _ _ _ => trivial) fun _ _ _ _ _ => trivial).bind
    fun normalized => ?_
  refine (serves_now (fun _ => .const _) fun _ _ _ => trivial).bind fun now => ?_
  refine (serves_uuid4 (fun _ => .const _) fun _ _ _ => trivial).bind fun id => ?_
  refine Op.Keeps.bind (B := fun _ _ _ => True) ?_ fun _ => Op.Keeps.pure fun _ _ _ => trivial
  refine serves_transaction (Op.Keeps.bind (serves_flush (fun _ => (Inert.const _).and (.new id)) ?_
    fun _ _ _ => trivial) fun _ => Op.Keeps.pure fun _ _ h => h.1)
  exact fun _ _ _ h => ⟨⟨rfl, h.2, rfl⟩, trivial⟩

theorem serves_listDatasets {limit offset : ℕ} :
    ServesAny F p o old (listDatasets o limit offset : Body σ (List DatasetReference)) := by
  refine serves_reading ?_ fun _ _ => .const _
  exact Op.Keeps.bind (serves_query (Q := fun _ _ _ => True) (fun _ _ h => h) (fun _ => .const _)
    (fun _ _ _ _ => rfl) (fun _ _ _ => trivial) fun _ _ _ => trivial) fun _ =>
    Op.Keeps.pure fun _ _ _ => ⟨rfl, trivial⟩

theorem serves_getDataset {dataset_id : Uuid} :
    ServesAny F p o old (getDataset o dataset_id : Body σ DatasetReference) := by
  refine serves_reading ?_ fun _ _ => .const _
  refine (serves_getForOwner (Q := fun _ _ _ => True) (fun _ => .const _) (fun _ _ _ => trivial)
    (fun _ _ _ _ _ => trivial) fun _ _ _ => trivial).bind fun d => ?_
  cases d with
  | none => exact Op.Keeps.raise fun _ _ _ => trivial
  | some d => exact Op.Keeps.pure fun _ _ _ => ⟨rfl, trivial⟩

/-! ### Uploads -/

section Upload

variable {candidate : CandidateFile} {key : StorageKey} {P : σ → World → Prop}

lemma serves_candidate {u : Uuid} {e : Eff} (hne : ∀ ws, e ≠ .commit ws) (hsame : ∀ r r', e.Same r r' → r = r')
    (hmay : ∀ w, w.New old u → MayDo o old w e) (hP : ∀ s, Inert (P s)) (hu : ∀ s w, P s w → w.New old u) :
    Serves F p o old P (Body.perform e) (fun _ => P) P :=
  serves_skip hne hsame hP (fun s w _ hp => hmay w (hu s w hp)) fun _ _ hp => hp

theorem serves_copyChunks {u : Uuid} : ∀ {source : Source} {written : Bytes},
    Serves F p o old (fun (_ : σ) w => w.New old u) (copyChunks u source written) (fun _ _ w => w.New old u)
      fun _ w => w.New old u := by
  intro source
  induction source with
  | nil => exact fun {written} => Op.Keeps.pure fun _ _ h => h
  | cons chunk source ih =>
    intro written
    cases chunk with
    | none => exact Op.Keeps.raise fun _ _ h => h
    | some chunk =>
      cases chunk with
      | nil => exact Op.Keeps.pure fun _ _ h => h
      | cons byte chunk =>
        unfold copyChunks
        split
        · exact Op.Keeps.raise fun _ _ h => h
        · exact Op.Keeps.bind (serves_candidate (fun _ h => by cases h) (fun _ _ h => h) (fun _ h => h)
            (fun _ => .new u) fun _ _ h => h) fun _ => ih

theorem serves_writeCandidate {source : Source} : Serves F p o old (fun (_ : σ) _ => True)
    (writeCandidate source) (fun c _ w => w.New old c.uuid) fun _ _ => True := by
  unfold writeCandidate
  refine Op.Keeps.bind (serves_uuid4 (fun _ => .const _) fun _ _ _ => trivial) fun u => ?_
  have hnew : ∀ s : σ, Inert fun w => True ∧ w.New old u := fun _ => (Inert.const _).and (.new u)
  refine Op.Keeps.bind (B := fun _ _ w => w.New old u) ?_ fun _ => ?_
  · exact serves_perform (fun _ h => by cases h) (fun _ _ h => h) hnew (fun _ _ _ h => h.2)
      (fun _ _ _ _ _ _ _ _ h => h.2) fun _ _ _ => trivial
  · refine Op.Keeps.bind (B := fun _ _ w => w.New old u) ?_ fun written => Op.Keeps.pure fun _ _ h => h
    refine Op.Keeps.catching serves_copyChunks fun x => ?_
    refine Op.Keeps.bind (B := fun _ _ _ => True) ?_ fun _ => Op.Keeps.raise fun _ _ _ => trivial
    exact serves_perform (fun _ h => by cases h) (fun _ _ h => h) (fun _ => .new u) (fun _ _ _ h => h)
      (fun _ _ _ _ _ _ _ _ _ => trivial) fun _ _ _ => trivial

/-- No other owner's dataset names the file. -/
def Loose (o : Uuid) (key : StorageKey) (w : World) : Prop := ∀ A, A ≠ o → ¬ (w.db.ownRows A).Names key

/-- The removal of a file that no other owner's dataset names. -/
theorem serves_removeQuietly (hP : ∀ s, Inert (P s)) (hmay : ∀ s w, Private o old w → P s w → Loose o key w) :
    Serves F p o old P (removeQuietly key) (fun _ _ _ => True) fun _ _ => True := by
  refine Op.Keeps.catching (Y := fun _ _ _ => True) ?_ fun x => ?_
  · exact serves_perform (fun _ h => by cases h) (fun _ _ h => h) hP hmay (fun _ _ _ _ _ _ _ _ _ => trivial)
      fun _ _ _ => trivial
  · split
    · exact Op.Keeps.pure fun _ _ _ => trivial
    · exact Op.Keeps.raise fun _ _ _ => trivial

/-- What the handler of `upload_csv` relies on: the candidate, and the file that was installed, have
new names. -/
def OwnFiles (old : Uuid → Prop) (candidate : CandidateFile) (v : UploadLocals) (w : World) : Prop :=
  w.New old candidate.uuid ∧ ∀ key, v.installed_key = some key → w.New old key.uuid

lemma inert_ownFiles (v : UploadLocals) : Inert (OwnFiles old candidate v) :=
  (Inert.new _).and (.forall fun _ => .forall fun _ => .new _)

/-- The dataset is stored and belongs to the owner. -/
def HasRow (o : Uuid) (d : Dataset) (w : World) : Prop := d ∈ w.db.datasets ∧ d.owner_id = o

lemma inert_hasRow (d : Dataset) : Inert (HasRow o d) := .rows fun db => d ∈ db.datasets ∧ d.owner_id = o

lemma HasRow.owns {d : Dataset} (h : HasRow o d w) : w.db.Owns o d.id := ⟨d, h.1, rfl, h.2⟩

/-- No two datasets name one file. -/
lemma HasRow.loose {d : Dataset} (h : HasRow o d w) (hw : Private o old w) {u : UploadColumns}
    (hu : d.upload = some u) : Loose o u.storage_key w := by
  rintro A hA ⟨b, ⟨hb, hbA⟩, v, hv, hk⟩
  rw [hw.wellFormed.db.key_once b hb d h.1 v u hv hu hk] at hbA
  exact hA (hbA.symm.trans h.2)

end Upload

lemma SameColumns.ite_subset {l l' columns : List PyStr} (h : SameColumns l l') (a b : α) :
    (if ¬ l ⊆ columns then a else b) = if ¬ l' ⊆ columns then a else b :=
  if_congr (not_congr (forall_congr' fun c => imp_congr_left (h c))) rfl rfl

/-- The transaction of `upload_csv`. -/
theorem serves_replaceUpload {dataset_id : Uuid} {safe_filename : PyStr} {candidate : CandidateFile}
    {structure_ : CsvStructure} {now : Time} {new_key : StorageKey} :
    Serves F p o old (fun v w => OwnFiles old candidate v w ∧ w.New old new_key.uuid)
      (replaceUpload o dataset_id safe_filename candidate structure_ now new_key)
      (fun out v w => MayDo o old w (.commit out.2) ∧ OwnFiles old candidate v w ∧
        ∀ key, out.1.2 = some key → Loose o key w) (OwnFiles old candidate) := by
  have hP : ∀ v : UploadLocals, Inert fun w => OwnFiles old candidate v w ∧ w.New old new_key.uuid := fun v =>
    (inert_ownFiles v).and (.new _)
  unfold replaceUpload
  refine Op.Keeps.bind (B := fun found v w => (OwnFiles old candidate v w ∧ w.New old new_key.uuid) ∧
    ∀ d, found = some d → HasRow o d w) ?_ fun found => ?_
  · refine serves_getForUpdate hP (fun v w h => ⟨h, fun d hd => (nomatch hd)⟩) (fun d v w h hd _ ho => ⟨h, ?_⟩)
      fun _ _ h => h.1
    rintro _ ⟨⟩
    exact ⟨hd, ho⟩
  cases found with
  | none => exact Op.Keeps.raise fun _ _ h => h.1.1
  | some d =>
    have hrow : ∀ v : UploadLocals, Inert fun w => (OwnFiles old candidate v w ∧ w.New old new_key.uuid) ∧
        HasRow o d w := fun v => (hP v).and (inert_hasRow d)
    refine Op.Keeps.pre (H := fun v w => (OwnFiles old candidate v w ∧ w.New old new_key.uuid) ∧ HasRow o d w) ?_
      fun _ _ _ h => ⟨h.1, h.2 d rfl⟩
    -- the columns come in any order, and are only looked for in the new ones
    refine Op.Keeps.perform_bind (B := fun _ v w => (OwnFiles old candidate v w ∧ w.New old new_key.uuid) ∧
      HasRow o d w) ?_ ?_ ?_ fun columns => ?_
    · exact fun v w _ h => Db.owns_ownRows.mpr h.2.owns
    · intro r r' hr
      cases r with
      | error x => exact Or.inl hr
      | ok l =>
        cases r' with
        | error x => exact Or.inl hr
        | ok l' =>
          exact Or.inr ⟨l, l', rfl, rfl, SameColumns.ite_subset hr _ _⟩
    · intro v w c r w' _ _ h hx
      obtain ⟨hok, herr⟩ := exec_inert (P := fun v w => (OwnFiles old candidate v w ∧ w.New old new_key.uuid) ∧
        HasRow o d w) (Z := OwnFiles old candidate) (fun _ h => by cases h) (hrow v) h (fun _ h => h.1.1) hx
      exact ⟨fun a ha => (hok a ha).2.2, herr⟩
    split
    · exact Op.Keeps.raise fun _ _ h => h.1.1
    refine Op.Keeps.bind (B := fun _ v w => (OwnFiles old candidate v w ∧ w.New old new_key.uuid) ∧ HasRow o d w)
      ?_ fun _ => ?_
    · refine Op.Keeps.assign fun v w h => ⟨⟨⟨h.1.1.1, ?_⟩, h.1.2⟩, h.2⟩
      rintro _ ⟨⟩
      exact h.1.2
    refine Op.Keeps.bind (B := fun _ v w => (OwnFiles old candidate v w ∧ w.New old new_key.uuid) ∧ HasRow o d w)
      ?_ fun _ => ?_
    · refine Op.Keeps.bind (serves_skip (fun _ h => by cases h) (fun _ _ h => h) hrow ?_ fun _ _ h => h.1.1)
        fun _ => serves_skip (fun _ h => by cases h) (fun _ _ h => h) hrow ?_ fun _ _ h => h.1.1
      · exact fun _ _ _ h => ⟨h.1.1.1, h.1.2⟩
      · exact fun _ _ _ h => h.1.2
    refine Op.Keeps.bind (serves_onupdate hrow fun _ _ h => h.1.1) fun updated_at => ?_
    refine Op.Keeps.bind (serves_flush hrow ?_ fun _ _ h => h.1.1) fun _ => ?_
    · exact fun _ _ _ h => ⟨⟨Db.owns_ownRows.mpr h.2.owns, h.1.2⟩, trivial⟩
    · refine Op.Keeps.pre (Op.Keeps.pure fun _ _ h => h) fun v w hw h => ⟨h.1, h.2.1.1, fun key hk => ?_⟩
      obtain ⟨u, hu, rfl⟩ := Option.map_eq_some_iff.mp hk
      exact h.2.2.loose hw hu

/-- The body of the `try` of `upload_csv`. -/
theorem serves_installUpload {dataset_id : Uuid} {safe_filename : PyStr} {candidate : CandidateFile} :
    Serves F p o old (OwnFiles old candidate) (installUpload o dataset_id safe_filename candidate)
      (fun out v w => OwnFiles old candidate v w ∧ ∀ key, out.2.1 = some key → Loose o key w)
      (OwnFiles old candidate) := by
  have hP : ∀ v : UploadLocals, Inert (OwnFiles old candidate v) := inert_ownFiles
  have hloose : ∀ (k : Option StorageKey) (v : UploadLocals), Inert fun w => OwnFiles old candidate v w ∧
      ∀ key, k = some key → Loose o key w := fun k v =>
    (hP v).and (.forall fun key => .rows fun db => k = some key → ∀ A, A ≠ o → ¬ (db.ownRows A).Names key)
  unfold installUpload scanCandidate newStorageKey
  refine Op.Keeps.bind (B := fun _ => OwnFiles old candidate) ?_ fun structure_ => ?_
  · refine Op.Keeps.bind (serves_candidate (fun _ h => by cases h) (fun _ _ h => h) (fun _ h => h) hP
      fun _ _ h => h.1) fun content => ?_
    exact Op.Keeps.ofExcept (fun _ _ _ _ h => h) fun _ _ _ _ h => h
  refine Op.Keeps.bind (serves_now hP fun _ _ h => h) fun now => ?_
  refine Op.Keeps.bind (B := fun key v w => OwnFiles old candidate v w ∧ w.New old key.uuid) ?_ fun new_key => ?_
  · exact Op.Keeps.bind (serves_uuid4 hP fun _ _ h => h) fun u => Op.Keeps.pure fun _ _ h => h
  refine Op.Keeps.bind (B := fun r v w => OwnFiles old candidate v w ∧ ∀ key, r.2 = some key → Loose o key w)
    ?_ fun r => Op.Keeps.pure fun _ _ h => h
  refine serves_session (Op.Keeps.bind (serves_begin (B := fun out v w => OwnFiles old candidate v w ∧
    ∀ key, out.1.2 = some key → Loose o key w) serves_replaceUpload (fun out => hloose out.1.2)
    (fun r => hloose r.2) hP ?_ (fun _ _ _ h => h.1) fun _ _ _ h => h.1) fun r => ?_) (fun r => hloose r.2) hP
    fun _ _ _ h => h.1
  · rintro a ws v w hw hmay ⟨hown, hl⟩
    refine ⟨hown, fun key hk A hA => ?_⟩
    have hrows := (Db.ownRows_applyAll hw.wellFormed.db hw.new hmay.1 hmay.2).2.2.2 A hA
    exact fun hn => hl key hk A hA (hrows ▸ hn)
  · exact Op.Keeps.bind (Op.Keeps.assign fun _ _ h => h) fun _ => Op.Keeps.pure fun _ _ h => h

lemma serves_removeInstalled {candidate : CandidateFile} {v : UploadLocals} :
    Serves F p o old (fun (_ : σ) w => OwnFiles old candidate v w) (removeInstalled v) (fun _ _ _ => True)
      fun _ _ => True := by
  unfold removeInstalled
  split
  · next key hk =>
    split
    · exact Op.Keeps.pure fun _ _ _ => trivial
    · exact serves_removeQuietly (fun _ => inert_ownFiles v) fun _ w hw h A hA => hw.not_names hA (h.2 key hk).2
  · exact Op.Keeps.pure fun _ _ _ => trivial

lemma serves_removeSuperseded {old_key : Option StorageKey} {new_key : StorageKey} :
    Serves F p o old (fun (_ : σ) w => ∀ key, old_key = some key → Loose o key w)
      (removeSuperseded old_key new_key) (fun _ _ _ => True) fun _ _ => True := by
  unfold removeSuperseded
  split
  · split
    · refine serves_removeQuietly (fun _ => ?_) fun _ _ _ h => h _ rfl
      exact .rows fun db => ∀ key, some _ = some key → ∀ A, A ≠ o → ¬ (db.ownRows A).Names key
    · exact Op.Keeps.pure fun _ _ _ => trivial
  · exact Op.Keeps.pure fun _ _ _ => trivial

theorem serves_uploadCsv {dataset_id : Uuid} {filename : Option PyStr} {source : Source} :
    ServesAny F p o old (uploadCsv U o dataset_id filename source : Body σ DatasetReference) := by
  unfold uploadCsv Body.policy
  refine (Op.Keeps.ofExcept (Q := fun _ _ _ => True) (fun _ _ _ _ _ => trivial) fun _ _ _ _ _ => trivial).bind
    fun safe_filename => ?_
  refine Op.Keeps.bind (B := fun _ _ _ => True) ?_ fun _ => ?_
  · refine serves_reading ?_ fun _ _ => .const _
    refine Op.Keeps.bind (serves_getForOwner (Q := fun _ _ _ => True) (fun _ => .const _) (fun _ _ _ => trivial)
      (fun _ _ _ _ _ => trivial) fun _ _ _ => trivial) fun found => ?_
    cases found with
    | none => exact Op.Keeps.raise fun _ _ _ => trivial
    | some d => exact Op.Keeps.pure fun _ _ _ => ⟨rfl, trivial⟩
  refine Op.Keeps.bind serves_writeCandidate fun candidate => ?_
  refine Op.Keeps.bind (B := fun out _ w => OwnFiles old candidate out.2 w ∧
    ∀ r, out.1 = .ok r → ∀ key, r.2.1 = some key → Loose o key w) ?_ fun out => ?_
  · refine Op.Keeps.withLocals fun s => Op.Keeps.post (Op.Keeps.pre serves_installUpload ?_) ?_ ?_
    · rintro v w - ⟨rfl, h⟩
      exact ⟨h, fun key hk => by cases hk⟩
    · rintro r v w ⟨hown, hl⟩
      refine ⟨hown, ?_⟩
      rintro _ ⟨⟩
      exact hl
    · exact fun x v w h => ⟨h, fun r hr => by cases hr⟩
  obtain ⟨outcome, v⟩ := out
  cases outcome with
  | error x =>
    refine Op.Keeps.bind (B := fun _ _ w => OwnFiles old candidate v w) ?_ fun _ => ?_
    · exact Op.Keeps.pre (serves_skip (fun _ h => by cases h) (fun _ _ h => h) (fun _ => inert_ownFiles v)
        (fun _ _ _ h => h.1) fun _ _ _ => trivial) fun _ _ _ h => h.1
    · refine Op.Keeps.bind (B := fun _ _ _ => True) ?_ fun _ => Op.Keeps.raise fun _ _ _ => trivial
      exact serves_removeInstalled
  | ok r =>
    refine Op.Keeps.bind (B := fun _ _ _ => True) ?_ fun _ => Op.Keeps.pure fun _ _ _ => trivial
    refine Op.Keeps.pre serves_removeSuperseded fun _ w _ h => h.2 r rfl

/-! ### Rules -/

section Rules

variable {dataset_id : Uuid}

/-- A read of the dataset, and what follows when the owner has it. -/
lemma serves_owned {f : Option Dataset → Body σ α} {Q : α → σ → World → Prop}
    (hnone : f none = Body.raise .datasetNotFound)
    (hsome : ∀ d, Serves F p o old (fun _ w => w.db.Owns o dataset_id) (f (some d)) Q fun _ _ => True) :
    Serves F p o old (fun _ _ => True) (getForOwner dataset_id o >>= f) Q fun _ _ => True := by
  refine Op.Keeps.bind (B := fun found _ w => found ≠ none → w.db.Owns o dataset_id) ?_ fun found => ?_
  · exact serves_getForOwner (fun _ => .const _) (fun _ _ _ h => absurd rfl h) (fun _ _ _ _ h _ => h)
      fun _ _ _ => trivial
  · cases found with
    | none =>
      rw [hnone]
      exact Op.Keeps.raise fun _ _ _ => trivial
    | some d => exact Op.Keeps.pre (hsome d) fun _ _ _ h => h nofun

/-- A locking read of the dataset, and what follows when the owner has it. -/
lemma serves_locked {P : World → Prop} (hP : Inert P) {f : Option Dataset → Body σ α} {Q : α → σ → World → Prop}
    (hnone : f none = Body.raise .datasetNotFound)
    (hsome : ∀ d, d.id = dataset_id →
      Serves F p o old (fun _ w => HasRow o d w ∧ P w) (f (some d)) Q fun _ _ => True) :
    Serves F p o old (fun _ => P) (getForOwnerForUpdate dataset_id o >>= f) Q fun _ _ => True := by
  refine Op.Keeps.bind (B := fun found _ w => ∀ d, found = some d → d.id = dataset_id ∧ HasRow o d w ∧ P w) ?_
    fun found => ?_
  · refine serves_getForUpdate (fun _ => hP) (fun _ _ _ d hd => nomatch hd) ?_ fun _ _ _ => trivial
    rintro d _ w hp hd hid ho _ ⟨⟩
    exact ⟨hid, ⟨hd, ho⟩, hp⟩
  · cases found with
    | none =>
      rw [hnone]
      exact Op.Keeps.raise fun _ _ _ => trivial
    | some d =>
      refine Op.Keeps.assume (φ := d.id = dataset_id) (fun _ _ _ h => (h d rfl).1) fun hid => ?_
      exact Op.Keeps.pre (hsome d hid) fun _ _ _ h => (h d rfl).2

theorem serves_createRule {rule_type target_column : PyStr} {configuration : Dict} :
    ServesAny F p o old
      (createRule U o dataset_id rule_type target_column configuration : Body σ ValidationRuleReference) := by
  unfold createRule Body.policy
  refine (Op.Keeps.ofExcept (Q := fun _ _ _ => True) (fun _ _ _ _ _ => trivial) fun _ _ _ _ _ => trivial).bind
    fun safe_column => ?_
  refine (serves_now (fun _ => .const _) fun _ _ _ => trivial).bind fun now => ?_
  refine (serves_uuid4 (fun _ => .const _) fun _ _ _ => trivial).bind fun id => ?_
  refine Op.Keeps.bind (B := fun _ _ _ => True) ?_ fun _ => Op.Keeps.pure fun _ _ _ => trivial
  refine Op.Keeps.catching (Y := fun _ _ _ => True) ?_ fun x => ?_
  · refine serves_transaction (serves_locked ((Inert.const _).and (.new id)) rfl fun d hid => ?_)
    dsimp only
    split
    · exact Op.Keeps.raise fun _ _ _ => trivial
    · split
      · exact Op.Keeps.raise fun _ _ _ => trivial
      · refine Op.Keeps.bind (serves_flush (fun _ => (inert_hasRow d).and ((Inert.const _).and (.new id))) ?_
          fun _ _ _ => trivial) fun _ => Op.Keeps.pure fun _ _ h => h.1
        rintro _ w - ⟨hrow, -, hnew⟩
        exact ⟨⟨Db.owns_ownRows.mpr (hid ▸ hrow.owns), hnew⟩, trivial⟩
  · split
    · exact Op.Keeps.raise fun _ _ _ => trivial
    · exact Op.Keeps.raise fun _ _ _ => trivial

theorem serves_listRules {limit offset : ℕ} :
    ServesAny F p o old (listRules o dataset_id limit offset : Body σ (List ValidationRuleReference)) := by
  refine serves_reading (serves_owned rfl fun d => ?_) fun _ _ => .const _
  refine Op.Keeps.bind (serves_query (Q := fun _ _ _ => True) (fun _ _ h => h) (fun _ => .owns dataset_id) ?_
    (fun _ _ _ => trivial) fun _ _ _ => trivial) fun _ => Op.Keeps.pure fun _ _ _ => ⟨rfl, trivial⟩
  exact fun _ _ _ h => Db.owns_ownRows.mpr h

theorem serves_deleteRule {rule_id : Uuid} :
    ServesAny F p o old (deleteRule o dataset_id rule_id : Body σ Unit) := by
  refine serves_transaction (serves_owned rfl fun d => ?_)
  refine Op.Keeps.bind (B := fun found _ w => ∀ r, found = some r → r ∈ (w.db.ownRows o).validation_rules) ?_
    fun found => ?_
  · refine serves_query (fun _ _ h => h) (fun _ => .owns dataset_id)
      (fun _ _ _ h => Db.owns_ownRows.mpr h) (fun _ w h r hr => ?_) fun _ _ _ => trivial
    simp only [Db.eval, Option.filter_eq_some_iff, Table.find?_eq_some, decide_eq_true_eq] at hr
    exact ⟨hr.1.1, hr.2 ▸ h⟩
  · cases found with
    | none => exact Op.Keeps.raise fun _ _ _ => trivial
    | some r => exact Op.Keeps.pure fun _ _ h => ⟨⟨⟨r, h r rfl, rfl⟩, trivial⟩, rfl⟩

end Rules

end Datasets

/-! ### The methods of the analysis service -/

section Analyses

variable {dataset_id : Uuid}

theorem serves_readChunks {P : σ → World → Prop} (hP : ∀ s, Inert (P s)) :
    ∀ {chunks : List Bytes} {content : Bytes}, Serves F p o old P (readChunks chunks content) (fun _ => P)
      fun _ _ => True := by
  intro chunks
  induction chunks with
  | nil => exact fun {content} => Op.Keeps.pure fun _ _ h => h
  | cons chunk chunks ih =>
    intro content
    unfold readChunks
    refine Op.Keeps.bind (B := fun _ => P) ?_ fun _ => ?_
    · exact Op.Keeps.catching (serves_skip (Z := fun _ _ => True) (fun _ h => by cases h) (fun _ _ h => h) hP
        (fun _ _ _ _ => trivial) fun _ _ _ => trivial) fun _ => Op.Keeps.raise fun _ _ _ => trivial
    · split
      · exact Op.Keeps.raise fun _ _ _ => trivial
      · exact ih

theorem serves_captureSnapshot : Serves F p o old (fun (_ : σ) _ => True) (captureSnapshot o dataset_id)
    (fun _ _ w => w.db.Owns o dataset_id) fun _ _ => True := by
  refine serves_reading (serves_locked (.const True) rfl fun d hid => ?_) fun _ _ => .owns dataset_id
  subst hid
  dsimp only
  split
  · exact Op.Keeps.raise fun _ _ _ => trivial
  · next u hu =>
    have hP : ∀ _ : σ, Inert fun w => HasRow o d w ∧ True := fun _ => (inert_hasRow d).and (.const _)
    refine Op.Keeps.bind (B := fun _ _ w => HasRow o d w ∧ True) ?_ fun rows => ?_
    · exact serves_query (fun _ _ h => h) hP (fun _ _ _ h => Db.owns_ownRows.mpr h.1.owns) (fun _ _ h => h)
        fun _ _ _ => trivial
    split
    · exact Op.Keeps.raise fun _ _ _ => trivial
    · refine Op.Keeps.bind (B := fun _ _ w => HasRow o d w ∧ True) ?_ fun content =>
        Op.Keeps.pure fun _ _ h => ⟨rfl, h.1.owns⟩
      unfold readVerifiedContent
      refine Op.Keeps.bind (B := fun _ _ w => HasRow o d w ∧ True) ?_ fun file => ?_
      · refine Op.Keeps.catching (serves_skip (Z := fun _ _ => True) (fun _ h => by cases h) (fun _ _ h => h) hP ?_
          fun _ _ _ => trivial) fun _ => Op.Keeps.raise fun _ _ _ => trivial
        exact fun _ w _ h => ⟨d, h.1, u, hu, rfl⟩
      refine Op.Keeps.bind (serves_readChunks hP) fun content => ?_
      split
      · exact Op.Keeps.raise fun _ _ _ => trivial
      · split
        · exact Op.Keeps.raise fun _ _ _ => trivial
        · exact Op.Keeps.pure fun _ _ h => h

/-- A new analysis of a dataset of the owner, with its results. -/
lemma mayWrites_history {new : Uuid → Prop} {R : OwnerRows} {analysis : Analysis} {results : List ValidationResult}
    (ho : R.Owns analysis.dataset_id) (hid : new analysis.id) (hr : ∀ r ∈ results, r.analysis_id = analysis.id) :
    Db.MayWrites new o R (historyWrites analysis results) := by
  refine ⟨⟨ho, hid⟩, ?_⟩
  generalize R.apply (.insertAnalysis analysis) = R'
  induction results generalizing R' with
  | nil => exact trivial
  | cons r results ih =>
    rw [List.forall_mem_cons] at hr
    have hnew : new r.analysis_id := hr.1.symm ▸ hid
    exact ⟨hnew, ih hr.2 _⟩

theorem serves_persistAnalysis {source : SourceSnapshot} {adapted_rules : List AdaptedRule}
    {engine_result : ValidationEngineResult} :
    Serves F p o old (fun (_ : σ) w => w.db.Owns o dataset_id)
      (persistAnalysis dataset_id source adapted_rules engine_result) (fun _ _ _ => True) fun _ _ => True := by
  unfold persistAnalysis
  split
  · exact Op.Keeps.raise fun _ _ _ => trivial
  split
  · exact Op.Keeps.raise fun _ _ _ => trivial
  refine Op.Keeps.bind (serves_uuid4 (fun _ => .owns dataset_id) fun _ _ _ => trivial) fun analysis_id => ?_
  have hP : ∀ _ : σ, Inert fun w => w.db.Owns o dataset_id ∧ w.New old analysis_id := fun _ =>
    (Inert.owns dataset_id).and (.new _)
  refine Op.Keeps.bind (serves_now hP fun _ _ _ => trivial) fun created_at => ?_
  split
  · exact Op.Keeps.raise fun _ _ _ => trivial
  · refine Op.Keeps.bind (B := fun results _ w => (∀ r ∈ results, r.analysis_id = analysis_id) ∧
      w.db.Owns o dataset_id ∧ w.New old analysis_id) ?_ fun results => ?_
    · exact Op.Keeps.ofExcept (fun results _ _ hr h => ⟨(resultModels_ok hr).2.2.2, h⟩) fun _ _ _ _ _ => trivial
    refine Op.Keeps.bind (B := fun _ _ _ => True) ?_ fun _ =>
      Op.Keeps.ofExcept (fun _ _ _ _ _ => trivial) fun _ _ _ _ _ => trivial
    refine serves_transaction (Op.Keeps.bind (serves_flush (fun s => (Inert.const _).and (hP s)) ?_
      fun _ _ _ => trivial) fun _ => Op.Keeps.pure fun _ _ h => h.1)
    exact fun _ w _ h => mayWrites_history (Db.owns_ownRows.mpr h.2.1) h.2.2 h.1

variable (U : Unicode) (P : Polars)

theorem serves_createAnalysis :
    ServesAny F p o old (createAnalysis U P o dataset_id : Body σ AnalysisDetailReference) := by
  unfold createAnalysis
  have hP : ∀ _ : σ, Inert fun w => w.db.Owns o dataset_id := fun _ => .owns dataset_id
  have hof : ∀ {β : Type} {r : Except Exn β}, Serves F p o old (fun (_ : σ) w => w.db.Owns o dataset_id)
      (Op.ofExcept r) (fun _ _ w => w.db.Owns o dataset_id) fun _ _ => True := fun {_ _} =>
    Op.Keeps.ofExcept (fun _ _ _ _ h => h) fun _ _ _ _ _ => trivial
  refine Op.Keeps.bind serves_captureSnapshot fun snapshot => ?_
  refine Op.Keeps.bind (serves_skip (fun _ h => by cases h) (fun _ _ h => h) hP (fun _ _ _ _ => trivial)
    fun _ _ _ => trivial) fun _ => ?_
  refine Op.Keeps.bind hof fun frame => Op.Keeps.bind hof fun adapted => Op.Keeps.bind hof fun engine => ?_
  exact serves_persistAnalysis

theorem serves_listAnalyses {limit offset : ℕ} :
    ServesAny F p o old (listAnalyses o dataset_id limit offset : Body σ (List AnalysisSummaryReference)) := by
  refine serves_reading (serves_owned rfl fun d => ?_) fun _ _ => .const _
  exact Op.Keeps.bind (serves_query (Q := fun _ _ _ => True) (fun _ _ h => h) (fun _ => .owns dataset_id)
    (fun _ _ _ _ => rfl) (fun _ _ _ => trivial) fun _ _ _ => trivial) fun _ =>
    Op.Keeps.pure fun _ _ _ => ⟨rfl, trivial⟩

theorem serves_getAnalysis {analysis_id : Uuid} :
    ServesAny F p o old (getAnalysis o dataset_id analysis_id : Body σ AnalysisDetailReference) := by
  refine serves_reading ?_ fun _ _ => .const _
  refine Op.Keeps.bind (B := fun found _ w => ∀ a, found = some a → w.db.OwnsAnalysis o a.id) ?_ fun found => ?_
  · refine serves_query (fun _ _ h => h) (fun _ => .const _) (fun _ _ _ _ => rfl) (fun _ w _ a ha => ?_)
      fun _ _ _ => trivial
    simp only [Db.eval, Option.filter_eq_some_iff, Table.find?_eq_some, decide_eq_true_eq] at ha
    exact ⟨a, ha.1.1, rfl, Db.ownedDataset_isSome.mp ha.2.2⟩
  · cases found with
    | none => exact Op.Keeps.raise fun _ _ _ => trivial
    | some a =>
      refine Op.Keeps.bind (serves_query (Q := fun _ _ _ => True) (fun _ _ h => h)
        (fun _ => .rows fun db => ∀ b, some a = some b → db.OwnsAnalysis o b.id)
        (fun _ _ _ h => Db.ownsAnalysis_ownRows.mpr (h a rfl)) (fun _ _ _ => trivial) fun _ _ _ => trivial) fun _ => ?_
      exact Op.Keeps.bind (Op.Keeps.ofExcept (Q := fun _ _ _ => True) (fun _ _ _ _ _ => trivial)
        fun _ _ _ _ _ => trivial) fun _ => Op.Keeps.pure fun _ _ _ => ⟨rfl, trivial⟩

end Analyses

/-! ### Calls of an owner -/

section Calls

variable {U : Unicode} {P : Polars}

lemma serves_reply {m : Body Unit α} {f : α → Reply} (hm : ServesAny F p o old m) :
    ServesAny F p o old (do return f (← m) : Body Unit Reply) :=
  Op.Keeps.bind hm fun _ => Op.Keeps.pure fun _ _ _ => trivial

/-- **Every call stays with the data of its owner.** -/
theorem serves_call (k : Call) : ServesAny F p k.owner old (k.op U P) := by
  cases k with
  | createDataset o name => exact serves_reply (serves_createDataset U)
  | listDatasets o limit offset => exact serves_reply serves_listDatasets
  | getDataset o d => exact serves_reply serves_getDataset
  | uploadCsv o d filename source => exact serves_reply (serves_uploadCsv U)
  | createRule o d rule_type target_column configuration => exact serves_reply (serves_createRule U)
  | listRules o d limit offset => exact serves_reply serves_listRules
  | deleteRule o d r => exact serves_reply (f := fun _ => .unit) serves_deleteRule
  | createAnalysis o d => exact serves_reply (serves_createAnalysis U P)
  | listAnalyses o d limit offset => exact serves_reply serves_listAnalyses
  | getAnalysis o d a => exact serves_reply serves_getAnalysis

variable (U P)

/-- Calls that run one after the other, each as a thread of its own: what they end with, the world
then, and the choices of the environment that are left. -/
def serve (F : Faults) : List (Pid × Call) → List Choice → World → Option (List Outcome × World × List Choice)
  | [], cs, w => some ([], w, cs)
  | (p, k) :: calls, cs, w =>
    match (k.body U P).solo (machine F) p cs w with
    | some (out, w', cs') => (serve F calls cs' w').map fun r => (out :: r.1, r.2)
    | none => none

variable {U P}

/-- Between two calls nothing is private. -/
lemma private_of_wellFormed (h : w.WellFormed) : Private o w.Issued w where
  wellFormed := h
  new :=
    { dataset := fun d hd hn => absurd (h.db.dataset_issued d hd) hn
      key := fun d hd u hu hn => absurd (h.db.key_issued d hd u hu) hn
      rule := fun r hr hn => absurd (h.db.rule_issued r hr) hn
      analysis := fun a ha hn => absurd (h.db.analysis_issued a ha) hn }
  issued _ hu := hu

lemma alike_of_agree (hw : w.WellFormed) (hv : v.WellFormed) (hissued : w.issued = v.issued)
    (hlocks : w.locks = v.locks) (h : Agree o w v) : Alike o w.Issued w v where
  agree := h
  files name hn := by
    have hnone : ∀ {w' : World}, w'.WellFormed → w'.issued = w.issued → w'.files name = none := fun {w'} hw' hi =>
      Option.eq_none_iff_forall_not_mem.mpr fun content hc => hn (by
        have := hw'.files name content hc
        rwa [World.Issued, hi] at this)
    rw [hnone hw rfl, hnone hv hissued.symm]
  issued := hissued
  locks := hlocks
  left := private_of_wellFormed hw
  right := by
    have := private_of_wellFormed (o := o) hv
    rwa [show v.Issued = w.Issued from congrArg (fun l u => u ∈ List.map Prod.snd l) hissued.symm] at this

/-- Calls of one owner do the same in two worlds that are alike. -/
theorem serve_alike : ∀ {calls : List (Pid × Call)} {cs : List Choice} {w v : World},
    (∀ k ∈ calls, k.2.owner = o) → Alike o old w v →
      Option.Rel (fun x y => x.1 = y.1 ∧ Alike o old x.2.1 y.2.1 ∧ x.2.2 = y.2.2) (serve U P F calls cs w)
        (serve U P F calls cs v) := by
  intro calls
  induction calls with
  | nil => exact fun _ h => .some ⟨rfl, h, rfl⟩
  | cons call calls ih =>
    obtain ⟨p, k⟩ := call
    intro cs w v ho h
    rw [List.forall_mem_cons] at ho
    obtain ⟨rfl, ho⟩ := ho
    have hrun : Option.Rel _ ((k.body U P).solo (machine F) p cs w) ((k.body U P).solo (machine F) p cs v) :=
      Prog.Keeps.lockstep lockstep_ownData (fun w v (h : Alike k.owner old w v) => h.left) h
        (serves_call k () w h.left trivial)
    simp only [serve]
    generalize (k.body U P).solo (machine F) p cs w = x at hrun ⊢
    generalize (k.body U P).solo (machine F) p cs v = y at hrun ⊢
    cases hrun with
    | none => exact .none
    | some hxy =>
      rename_i x y
      obtain ⟨out, w', cs'⟩ := x
      obtain ⟨out', v', cs''⟩ := y
      obtain ⟨rfl, h', rfl⟩ := hxy
      have hrest : Option.Rel _ (serve U P F calls cs' w') (serve U P F calls cs' v') := ih ho h'
      dsimp only
      generalize serve U P F calls cs' w' = x at hrest ⊢
      generalize serve U P F calls cs' v' = y at hrest ⊢
      cases hrest with
      | none => exact .none
      | some hxy => exact .some ⟨congrArg (out :: ·) hxy.1, hxy.2⟩

/-- A call keeps the world well-formed, and leaves the data of every other owner alone. -/
theorem call_frame {k : Call} {cs cs' : List Choice} {out : Outcome} (hw : w.WellFormed)
    (hrun : (k.body U P).solo (machine F) p cs w = some (out, w', cs')) :
    w'.WellFormed ∧ ∀ A, A ≠ k.owner → Agree A w w' := by
  obtain ⟨hp, hagree, -⟩ := Prog.Keeps.solo (I := fun w' => ∀ A, A ≠ k.owner → Agree A w w') invariant_ownData
    (fun e c v r v' hv hi hm hx A hA => (hi A hA).trans (agree_exec hv hA hm hx)) (private_of_wellFormed hw)
    (fun A _ => .refl w) (serves_call k () w (private_of_wellFormed hw) trivial) hrun
  exact ⟨hp.wellFormed, hagree⟩

end Calls

end DataCheck.Shared
