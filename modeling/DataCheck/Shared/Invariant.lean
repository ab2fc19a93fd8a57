import DataCheck.Lib.Rely
import DataCheck.Shared.Calls

/-!
# What always holds of the shared state

The invariant of the database and the storage directory, and what a step of a call may do to them.
Both speak of the history: a storage key that was ever published in a committed row is never
published again, and an analysis remembers the moment its snapshot was taken.
-/

namespace DataCheck.Shared

open Lib Datasets Analyses Validation

/-! ### Files and rows -/

/-- A committed dataset row names the file. -/
def Db.Names (db : Db) (key : StorageKey) : Prop :=
  ∃ d ∈ db.datasets, ∃ u, d.upload = some u ∧ u.storage_key = key

/-- A committed dataset row named the file at some moment. -/
def Published (h : Hist World) (key : StorageKey) : Prop := h.Ever fun w => w.db.Names key

/-- The file that the upload columns name exists, and is what they say it is. -/
def Backed (w : World) (u : UploadColumns) : Prop :=
  ∃ content, w.files (.stored u.storage_key) = some content ∧ content.length = u.size_bytes ∧
    u.size_bytes ≤ maxCsvBytes ∧ sha256 content = u.content_sha256 ∧
    scanCsv content = .ok ⟨u.row_count, u.column_names⟩

/-- The file that the upload columns name is what they say, or it was removed after a commit that
raised all the same. -/
def Kept (F : Faults) (w : World) (u : UploadColumns) : Prop :=
  Backed w u ∨ F.lostAcknowledgement = true ∧ w.files (.stored u.storage_key) = none

/-- The rule targets a column of its dataset's active upload. -/
def Targets (db : Db) (r : ValidationRule) : Prop :=
  ∃ d ∈ db.datasets, d.id = r.dataset_id ∧ ∃ u, d.upload = some u ∧ r.target_column ∈ u.column_names

/-! ### Snapshots and analyses -/

/-- At this moment the dataset has exactly this upload, these rules in `(created_at, id)` order,
and an active file with these bytes. -/
def SnapshotAt (w : World) (owner_id dataset_id : Uuid) (source : SourceSnapshot)
    (rules : List PersistedRuleSnapshot) (content : Bytes) : Prop :=
  ∃ d u, w.db.ownedDataset dataset_id owner_id = some d ∧ d.upload = some u ∧
    source = sourceSnapshot u ∧ rules = (w.db.rulesOf dataset_id).map ruleSnapshot ∧
    w.files (.stored u.storage_key) = some content

/-- The upload that an analysis was made of. -/
def sourceOf (a : Analysis) : SourceSnapshot :=
  ⟨a.source_original_filename, a.source_content_sha256, a.source_size_bytes, a.source_row_count,
    a.source_column_names, a.source_uploaded_at⟩

/-- The rule that a result is for. -/
def ResultFor (r : ValidationResult) (rule : PersistedRuleSnapshot) : Prop :=
  r.source_rule_id = rule.rule_id ∧ r.rule_type = rule.rule_type ∧
    r.target_column = rule.target_column

/-- The counts of a result for `n` rows fit together. -/
structure CountsFit (r : ValidationResult) (n : ℕ) : Prop where
  rows : r.evaluated_count + r.skipped_count = n
  balance : r.evaluated_count = r.passed_count + r.violation_count
  samples : (r.violation_samples.length : ℤ) = min (violationSampleLimit : ℤ) r.violation_count

/-- The results of an analysis are complete, and the analysis sums them up. -/
structure Complete (a : Analysis) (results : List ValidationResult) : Prop where
  nonempty : results ≠ []
  positions : results.map ValidationResult.rule_position = List.range results.length
  distinct : (results.map ValidationResult.source_rule_id).Nodup
  counts : ∀ r ∈ results, CountsFit r a.source_row_count
  total : a.total_violation_count = (results.map ValidationResult.violation_count).sum
  score : qualityScore (results.map ValidationResult.passed_count).sum
    (results.map ValidationResult.evaluated_count).sum = some a.quality_score

/-- The results are, in order, for the rules of a snapshot that was taken of the dataset. -/
def FromSnapshot (h : Hist World) (a : Analysis) (results : List ValidationResult) : Prop :=
  ∃ h₁ ≤ h, ∃ owner_id rules content,
    SnapshotAt h₁.now owner_id a.dataset_id (sourceOf a) rules content ∧
    List.Forall₂ ResultFor results rules

/-! ### The invariant -/

/-- What holds of every history, where the faults `F` can occur.  `ok` is what is known of the rules
that were ever created. -/
structure SysInv (ok : ValidationRule → Prop) (F : Faults) (h : Hist World) : Prop where
  issued_once : ∀ p q u, (p, u) ∈ h.now.issued → (q, u) ∈ h.now.issued → p = q
  dataset_issued : ∀ d ∈ h.now.db.datasets, ∃ p, (p, d.id) ∈ h.now.issued
  key_issued : ∀ key, Published h key → ∃ p, (p, key.uuid) ∈ h.now.issued
  kept : ∀ d ∈ h.now.db.datasets, ∀ u, d.upload = some u → Kept F h.now u
  key_once : ∀ d ∈ h.now.db.datasets, ∀ d' ∈ h.now.db.datasets, ∀ u u', d.upload = some u →
    d'.upload = some u' → u.storage_key = u'.storage_key → d = d'
  targets : ∀ r ∈ h.now.db.validation_rules, Targets h.now.db r
  rule_ok : ∀ r ∈ h.now.db.validation_rules, ok r
  analysis_issued : ∀ a ∈ h.now.db.analyses, ∃ p, (p, a.id) ∈ h.now.issued
  complete : ∀ a ∈ h.now.db.analyses, Complete a (h.now.db.resultsOf a.id) ∧
    FromSnapshot h a (h.now.db.resultsOf a.id)
  result_analysis : ∀ r ∈ h.now.db.validation_results, ∃ a ∈ h.now.db.analyses, a.id = r.analysis_id

/-! ### The guarantee -/

/-- What a step of the thread `p` may do to the history. -/
structure SysGuar (F : Faults) (p : Pid) (h : Hist World) (w : World) : Prop where
  issued_mono : ∀ x ∈ h.now.issued, x ∈ w.issued
  issued_mine : ∀ x ∈ w.issued, x ∈ h.now.issued ∨ x.1 = p
  /-- Locks of other threads stay. -/
  locks : ∀ d q, q ≠ p → h.now.locks d = some q → w.locks d = some q
  /-- Datasets stay, and change only under their lock. -/
  datasets : ∀ d ∈ h.now.db.datasets, d ∈ w.db.datasets ∨ h.now.locks d.id = some p ∧
    ∃ d' ∈ w.db.datasets, d'.id = d.id ∧ d'.owner_id = d.owner_id
  new_datasets : ∀ d' ∈ w.db.datasets, (∃ d ∈ h.now.db.datasets, d.id = d'.id) ∨
    (p, d'.id) ∈ h.now.issued
  /-- A newly published key is one of its own that was never published before. -/
  names : ∀ key, w.db.Names key → h.now.db.Names key ∨
    (p, key.uuid) ∈ h.now.issued ∧ ¬ Published h key
  candidates : ∀ u, w.files (.candidate u) = h.now.files (.candidate u) ∨ (p, u) ∈ h.now.issued
  /-- A stored file changes only before it is published, or after it was superseded; a thread whose
  commit raised may remove its own. -/
  stored : ∀ key, w.files (.stored key) = h.now.files (.stored key) ∨
    (p, key.uuid) ∈ h.now.issued ∧ ¬ Published h key ∨ Published h key ∧ ¬ h.now.db.Names key ∨
    F.lostAcknowledgement = true ∧ (p, key.uuid) ∈ h.now.issued ∧ w.files (.stored key) = none
  rules : ∀ r ∈ w.db.validation_rules, r ∈ h.now.db.validation_rules ∨
    h.now.locks r.dataset_id = some p
  analyses : ∀ a ∈ h.now.db.analyses, a ∈ w.db.analyses
  new_analyses : ∀ a ∈ w.db.analyses, a ∈ h.now.db.analyses ∨ (p, a.id) ∈ h.now.issued
  results : ∀ r ∈ h.now.db.validation_results, r ∈ w.db.validation_results
  new_results : ∀ r ∈ w.db.validation_results, r ∈ h.now.db.validation_results ∨
    ∀ a ∈ h.now.db.analyses, a.id ≠ r.analysis_id

/-- The contract of the system: where a snapshot was captured, there was one moment, since the call
started, at which it was the state. -/
def contract (ok : ValidationRule → Prop) (F : Faults) : Contract Call Eff World where
  Inv := SysInv ok F
  Guar p _ h w := SysGuar F p h w
  At t e h :=
    match e with
    | .captured source rules content => ∃ owner_id dataset_id h₁,
        t.call = .createAnalysis owner_id dataset_id ∧ t.start ≤ h₁ ∧ h₁ ≤ h ∧
          SnapshotAt h₁.now owner_id dataset_id source rules content
    | _ => True

/-! ### Consequences of one step -/

section Step

variable {ok : ValidationRule → Prop} {F : Faults} {p : Pid} {h : Hist World} {w : World}

lemma published_push {key : StorageKey} :
    Published (h.push w) key ↔ w.db.Names key ∨ Published h key := Hist.ever_push

lemma published_of_names {key : StorageKey} (hn : h.now.db.Names key) : Published h key :=
  Hist.ever_now hn

lemma ownedDataset_eq_some {db : Db} {dataset_id owner_id : Uuid} {d : Dataset} :
    db.ownedDataset dataset_id owner_id = some d ↔
      d ∈ db.datasets ∧ d.id = dataset_id ∧ d.owner_id = owner_id := by
  simp only [Db.ownedDataset, Option.filter_eq_some_iff, Table.find?_eq_some, decide_eq_true_eq,
    and_assoc]

@[simp] lemma mem_rulesOf {db : Db} {dataset_id : Uuid} {r : ValidationRule} :
    r ∈ db.rulesOf dataset_id ↔ r ∈ db.validation_rules ∧ r.dataset_id = dataset_id := by
  simp [Db.rulesOf]

@[simp] lemma mem_resultsOf {db : Db} {analysis_id : Uuid} {r : ValidationResult} :
    r ∈ db.resultsOf analysis_id ↔ r ∈ db.validation_results ∧ r.analysis_id = analysis_id := by
  simp [Db.resultsOf]

/-- Results in the order of their positions, whatever the order of storage. -/
lemma resultsOf_congr {db db' : Db} {analysis_id : Uuid}
    (hm : ∀ r, r ∈ db.resultsOf analysis_id ↔ r ∈ db'.resultsOf analysis_id) :
    db.resultsOf analysis_id = db'.resultsOf analysis_id := by
  refine sortOn_congr (Table.select_nodup _ _) (Table.select_nodup _ _) (fun r => ?_) ?_
  · simpa [Db.resultsOf] using hm r
  · intro r hr s hs he
    simp only [Table.mem_select, decide_eq_true_eq] at hr hs
    exact Table.eq_of_key hr.1 hs.1 (Prod.ext (hr.2.trans hs.2.symm) he)

/-- **A stored analysis is frozen**: no step changes its results. -/
theorem SysGuar.resultsOf_eq (hg : SysGuar F p h w) {a : Analysis} (ha : a ∈ h.now.db.analyses) :
    w.db.resultsOf a.id = h.now.db.resultsOf a.id := by
  refine resultsOf_congr fun r => ?_
  simp only [mem_resultsOf]
  constructor
  · rintro ⟨hr, hid⟩
    rcases hg.new_results r hr with hold | hnew
    · exact ⟨hold, hid⟩
    · exact absurd hid.symm (hnew a ha)
  · rintro ⟨hr, hid⟩
    exact ⟨hg.results r hr, hid⟩

/-- The file of a committed row is untouched, or removed after a commit that raised. -/
lemma SysGuar.stored_of_names (hg : SysGuar F p h w) {key : StorageKey} (hn : h.now.db.Names key) :
    w.files (.stored key) = h.now.files (.stored key) ∨
      F.lostAcknowledgement = true ∧ w.files (.stored key) = none := by
  rcases hg.stored key with he | ⟨-, hp⟩ | ⟨-, hp⟩ | ⟨hF, -, he⟩
  · exact Or.inl he
  · exact absurd (published_of_names hn) hp
  · exact absurd hn hp
  · exact Or.inr ⟨hF, he⟩

lemma SysGuar.kept (hg : SysGuar F p h w) {d : Dataset} (hd : d ∈ h.now.db.datasets)
    {u : UploadColumns} (hu : d.upload = some u) (hk : Kept F h.now u) : Kept F w u := by
  rcases hg.stored_of_names ⟨d, hd, u, hu, rfl⟩ with he | he
  · rw [Kept, Backed, he]
    exact hk
  · exact Or.inr he

lemma SysGuar.key_issued (hg : SysGuar F p h w) (hi : SysInv ok F h) (key : StorageKey)
    (hp : Published (h.push w) key) : ∃ q, (q, key.uuid) ∈ w.issued := by
  have hold : Published h key → ∃ q, (q, key.uuid) ∈ w.issued := fun hp' =>
    (hi.key_issued key hp').imp fun q hq => hg.issued_mono _ hq
  rcases published_push.mp hp with hn | hp'
  · rcases hg.names key hn with hn' | ⟨hm, -⟩
    · exact hold (published_of_names hn')
    · exact ⟨p, hg.issued_mono _ hm⟩
  · exact hold hp'

lemma SysGuar.dataset_issued (hg : SysGuar F p h w) (hi : SysInv ok F h) (d : Dataset)
    (hd : d ∈ w.db.datasets) : ∃ q, (q, d.id) ∈ w.issued := by
  rcases hg.new_datasets d hd with ⟨d', hd', he⟩ | hm
  · obtain ⟨q, hq⟩ := hi.dataset_issued d' hd'
    exact ⟨q, hg.issued_mono _ (he ▸ hq)⟩
  · exact ⟨p, hg.issued_mono _ hm⟩

lemma SysGuar.analysis_issued (hg : SysGuar F p h w) (hi : SysInv ok F h) (a : Analysis)
    (ha : a ∈ w.db.analyses) : ∃ q, (q, a.id) ∈ w.issued := by
  rcases hg.new_analyses a ha with hold | hm
  · exact (hi.analysis_issued a hold).imp fun q hq => hg.issued_mono _ hq
  · exact ⟨p, hg.issued_mono _ hm⟩

lemma SysGuar.complete (hg : SysGuar F p h w) (hi : SysInv ok F h) {a : Analysis}
    (ha : a ∈ h.now.db.analyses) :
    Complete a (w.db.resultsOf a.id) ∧ FromSnapshot (h.push w) a (w.db.resultsOf a.id) := by
  rw [hg.resultsOf_eq ha]
  obtain ⟨hc, h₁, hle, hs⟩ := hi.complete a ha
  exact ⟨hc, h₁, Hist.le_push w hle, hs⟩

/-- A step that leaves the dataset rows alone keeps the invariant, when what it adds is sound. -/
theorem SysInv.push (hi : SysInv ok F h) (hg : SysGuar F p h w)
    (hone : ∀ p q u, (p, u) ∈ w.issued → (q, u) ∈ w.issued → p = q)
    (hds : w.db.datasets = h.now.db.datasets)
    (hrules : ∀ r ∈ w.db.validation_rules, r ∈ h.now.db.validation_rules ∨ Targets h.now.db r ∧ ok r)
    (hanalyses : ∀ a ∈ w.db.analyses, a ∈ h.now.db.analyses ∨
      Complete a (w.db.resultsOf a.id) ∧ FromSnapshot (h.push w) a (w.db.resultsOf a.id))
    (hresults : ∀ r ∈ w.db.validation_results, r ∈ h.now.db.validation_results ∨
      ∃ a ∈ w.db.analyses, a.id = r.analysis_id) :
    SysInv ok F (h.push w) where
  issued_once := hone
  dataset_issued := hg.dataset_issued hi
  key_issued := hg.key_issued hi
  kept d hd u hu := by
    rw [Hist.push_now, hds] at hd
    exact hg.kept hd hu (hi.kept d hd u hu)
  key_once := by
    rw [Hist.push_now, hds]
    exact hi.key_once
  targets r hr := by
    have ht : Targets h.now.db r := (hrules r hr).elim (hi.targets r) And.left
    rw [Targets, Hist.push_now, hds]
    exact ht
  rule_ok r hr := (hrules r hr).elim (hi.rule_ok r) And.right
  analysis_issued := hg.analysis_issued hi
  complete a ha := (hanalyses a ha).elim (hg.complete hi) id
  result_analysis r hr := by
    rcases hresults r hr with hold | hnew
    · obtain ⟨a, ha, he⟩ := hi.result_analysis r hold
      exact ⟨a, hg.analyses a ha, he⟩
    · exact hnew

/-- A step that changes one dataset row, or adds one, keeps the invariant when the row is sound. -/
theorem SysInv.push_dataset (hi : SysInv ok F h) (hg : SysGuar F p h w)
    (hone : ∀ p q u, (p, u) ∈ w.issued → (q, u) ∈ w.issued → p = q) (d : Dataset)
    (hds : w.db.datasets = h.now.db.datasets.put d)
    (hbacked : ∀ u, d.upload = some u → Backed w u ∧ ¬ h.now.db.Names u.storage_key)
    (hcolumns : ∀ r ∈ h.now.db.validation_rules, r.dataset_id = d.id →
      ∃ u, d.upload = some u ∧ r.target_column ∈ u.column_names)
    (hrules : w.db.validation_rules = h.now.db.validation_rules)
    (hanalyses : w.db.analyses = h.now.db.analyses)
    (hresults : w.db.validation_results = h.now.db.validation_results) :
    SysInv ok F (h.push w) where
  issued_once := hone
  dataset_issued := hg.dataset_issued hi
  key_issued := hg.key_issued hi
  kept d' hd' u hu := by
    rw [Hist.push_now, hds, Table.mem_put] at hd'
    rcases hd' with rfl | ⟨hd', -⟩
    · exact Or.inl (hbacked u hu).1
    · exact hg.kept hd' hu (hi.kept d' hd' u hu)
  key_once d₁ h₁ d₂ h₂ u₁ u₂ hu₁ hu₂ he := by
    rw [Hist.push_now, hds, Table.mem_put] at h₁ h₂
    rcases h₁ with rfl | ⟨h₁, -⟩ <;> rcases h₂ with rfl | ⟨h₂, -⟩
    · rfl
    · exact absurd ⟨d₂, h₂, u₂, hu₂, he.symm⟩ (hbacked u₁ hu₁).2
    · exact absurd ⟨d₁, h₁, u₁, hu₁, he⟩ (hbacked u₂ hu₂).2
    · exact hi.key_once d₁ h₁ d₂ h₂ u₁ u₂ hu₁ hu₂ he
  targets r hr := by
    rw [Hist.push_now, hrules] at hr
    rw [Targets, Hist.push_now, hds]
    by_cases hd : r.dataset_id = d.id
    · exact ⟨d, Table.mem_put.mpr (Or.inl rfl), hd.symm, hcolumns r hr hd⟩
    · obtain ⟨d', hd', he, hu⟩ := hi.targets r hr
      exact ⟨d', Table.mem_put.mpr (Or.inr ⟨hd', fun hk => hd (he ▸ hk)⟩), he, hu⟩
  rule_ok r hr := hi.rule_ok r (by rwa [Hist.push_now, hrules] at hr)
  analysis_issued := hg.analysis_issued hi
  complete a ha := hg.complete hi (by rwa [Hist.push_now, hanalyses] at ha)
  result_analysis := by
    rw [Hist.push_now, hresults, hanalyses]
    exact hi.result_analysis

end Step

theorem sysInv_empty (ok : ValidationRule → Prop) (F : Faults) : SysInv ok F ⟨World.empty, []⟩ where
  issued_once := fun _ _ _ h => absurd h List.not_mem_nil
  dataset_issued := fun _ h => absurd h List.not_mem_nil
  key_issued := by
    rintro key ⟨w, hw, d, hd, -⟩
    rw [List.mem_singleton.mp hw] at hd
    exact absurd hd List.not_mem_nil
  kept := fun _ h => absurd h List.not_mem_nil
  key_once := fun _ h => absurd h List.not_mem_nil
  targets := fun _ h => absurd h List.not_mem_nil
  rule_ok := fun _ h => absurd h List.not_mem_nil
  analysis_issued := fun _ h => absurd h List.not_mem_nil
  complete := fun _ h => absurd h List.not_mem_nil
  result_analysis := fun _ h => absurd h List.not_mem_nil

end DataCheck.Shared
