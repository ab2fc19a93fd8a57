import DataCheck.Lib.Extension
import DataCheck.Shared.Runs

/-!
# The services as atomic operations

What the calls do when each of them happens at one moment: how the database changes, what a reading
call sees, and why a call is refused.  This is the abstract service; its purpose is to say what a
client may rely on without knowing of sessions, locks and files.  The contract `atomically` asks
that the services are it: every change of the database is one of these operations.
-/

namespace DataCheck.Shared

open Lib Datasets Analyses

/-! ### Uploaded bytes -/

/-- The bytes that the successive reads of an upload give, or how reading them ends. -/
def contentOf : Source → (written : Bytes) → Except Exn Bytes
  | [], written => .ok written
  | none :: _, _ => .error .source
  | some [] :: _, written => .ok written
  | some (byte :: chunk) :: source, written =>
    if maxCsvBytes < written.length + (byte :: chunk).length then .error .fileTooLarge
    else contentOf source (written ++ byte :: chunk)

/-! ### Operations -/

/-- A rule with this identifier was there at some moment. -/
def HadRule (h : Hist World) (rule_id : Uuid) : Prop :=
  h.Ever fun w => ∃ r ∈ w.db.validation_rules, r.id = rule_id

/-- The upload columns describe these bytes. -/
structure Describes (u : UploadColumns) (content : Bytes) : Prop where
  size : u.size_bytes = content.length
  limit : content.length ≤ maxCsvBytes
  hash : u.content_sha256 = sha256 content
  scan : scanCsv content = .ok ⟨u.row_count, u.column_names⟩

/-- The call `k` of the thread `p`, made at the last moment of `h`, answers `r` and leaves this database.
An upload sets `updated_at` to its own time, unless that is the time which is stored: then to the time
of its flush. -/
inductive Changes (U : Unicode) (p : Pid) (h : Hist World) : (k : Call) → (r : Reply) → Db → Prop
  | createDataset {owner_id : Uuid} {name : PyStr} {d : Dataset}
      (hname : normalizeDatasetName U name = .ok d.name) (howner : d.owner_id = owner_id)
      (hupload : d.upload = none) (htime : d.updated_at = d.created_at)
      (hrow : d.storable = true ∧ d.checks = true) (hmine : (p, d.id) ∈ h.now.issued)
      (hnew : ∀ e ∈ h.now.db.datasets, e.id ≠ d.id) :
      Changes U p h (.createDataset owner_id name) (.dataset (datasetReference d))
        { h.now.db with datasets := h.now.db.datasets.put d }
  | uploadCsv {owner_id dataset_id : Uuid} {filename : Option PyStr} {source : Source} {d : Dataset}
      {u : UploadColumns} {updated_at : Time} {content : Bytes}
      (hd : h.now.db.ownedDataset dataset_id owner_id = some d)
      (hname : normalizeCsvFilename U filename = .ok u.original_filename)
      (hcontent : contentOf source [] = .ok content) (hdescribes : Describes u content)
      (hfile : h.now.files (.stored u.storage_key) = some content)
      (hmine : (p, u.storage_key.uuid) ∈ h.now.issued) (hnew : ¬ Published h u.storage_key)
      (hrules : ∀ r ∈ h.now.db.validation_rules, r.dataset_id = dataset_id →
        r.target_column ∈ u.column_names)
      (htime : d.updated_at ≠ u.uploaded_at → updated_at = u.uploaded_at)
      (hrow : (withUpload d u updated_at).storable = true ∧ (withUpload d u updated_at).checks = true) :
      Changes U p h (.uploadCsv owner_id dataset_id filename source)
        (.dataset (datasetReference (withUpload d u updated_at)))
        { h.now.db with datasets := h.now.db.datasets.put (withUpload d u updated_at) }
  | createRule {owner_id : Uuid} {d : Dataset} {u : UploadColumns} {r : ValidationRule}
      (hd : h.now.db.ownedDataset r.dataset_id owner_id = some d) (hu : d.upload = some u)
      (hcolumn : r.target_column ∈ u.column_names)
      (hvalid : validateTargetColumn U r.target_column = .ok r.target_column)
      (hrow : r.storable = true ∧ r.checks = true) (hmine : (p, r.id) ∈ h.now.issued) (hnew : ¬ HadRule h r.id)
      (hother : ∀ s ∈ h.now.db.validation_rules, r.sameDefinition s = false) :
      Changes U p h (.createRule owner_id r.dataset_id r.rule_type r.target_column r.configuration)
        (.rule (ruleReference r)) { h.now.db with validation_rules := h.now.db.validation_rules.put r }
  | deleteRule {owner_id : Uuid} {d : Dataset} {r : ValidationRule}
      (hd : h.now.db.ownedDataset r.dataset_id owner_id = some d)
      (hr : r ∈ h.now.db.validation_rules) :
      Changes U p h (.deleteRule owner_id r.dataset_id r.id) .unit
        { h.now.db with validation_rules := h.now.db.validation_rules.erase r.id }
  | createAnalysis {owner_id : Uuid} {d : Dataset} {a : Analysis} {results : List ValidationResult}
      {detail : AnalysisDetailReference}
      (hd : h.now.db.ownedDataset a.dataset_id owner_id = some d)
      (hmine : (p, a.id) ∈ h.now.issued) (hnew : ∀ b ∈ h.now.db.analyses, b.id ≠ a.id)
      (hrow : a.storable = true ∧ a.checks = true)
      (hrows : ∀ r ∈ results, r.storable = true ∧ r.checks = true) (hpositions : Positioned a.id results)
      (hcomplete : Complete a results) (hsnapshot : FromSnapshot h a results)
      (hdetail : detailReference a results = .ok detail) :
      Changes U p h (.createAnalysis owner_id a.dataset_id) (.analysis detail)
        { h.now.db with
          analyses := h.now.db.analyses.put a
          validation_results := results.foldl Table.put h.now.db.validation_results }

/-- The call `k` only reads, and this is what it reads. -/
def Sees (k : Call) (r : Reply) (db : Db) : Prop :=
  match k with
  | .listDatasets owner_id limit offset =>
    r = .datasets ((db.eval (.listForOwner owner_id limit offset)).map datasetReference)
  | .getDataset owner_id dataset_id => ∃ d, db.ownedDataset dataset_id owner_id = some d ∧
    r = .dataset (datasetReference d)
  | .listRules owner_id dataset_id limit offset => (db.ownedDataset dataset_id owner_id).isSome = true ∧
    r = .rules ((page limit offset (db.rulesOf dataset_id)).map ruleReference)
  | .listAnalyses owner_id dataset_id limit offset => (db.ownedDataset dataset_id owner_id).isSome = true ∧
    r = .analyses ((page limit offset (db.analysesOf dataset_id owner_id)).map summaryReference)
  | .getAnalysis owner_id dataset_id analysis_id => ∃ a detail,
    db.eval (.getForDatasetOwner analysis_id dataset_id owner_id) = some a ∧
      detailReference a (db.resultsOf analysis_id) = .ok detail ∧ r = .analysis detail
  | _ => False

/-- The dataset that a call is about. -/
def Call.dataset : Call → Option Uuid
  | .createDataset .. | .listDatasets .. => none
  | .getDataset _ d | .uploadCsv _ d _ _ | .createRule _ d _ _ _ | .listRules _ d _ _
  | .deleteRule _ d _ | .createAnalysis _ d | .listAnalyses _ d _ _ | .getAnalysis _ d _ => some d

/-- The call is about a dataset of its owner, and its row is `d`. -/
def Call.About (k : Call) (db : Db) (d : Dataset) : Prop :=
  ∃ dataset_id, k.dataset = some dataset_id ∧ db.ownedDataset dataset_id k.owner = some d

def Call.writes : Call → Bool
  | .createDataset .. | .uploadCsv .. | .createRule .. | .deleteRule .. | .createAnalysis .. => true
  | _ => false

lemma Changes.writes {U : Unicode} {p : Pid} {h : Hist World} {k : Call} {r : Reply} {db : Db}
    (hc : Changes U p h k r db) : k.writes = true := by cases hc <;> rfl

/-- The call `k` may raise `x` when this is the database. -/
def Refusal (U : Unicode) (k : Call) (x : Exn) (db : Db) : Prop :=
  match x with
  | .datasetPolicy code =>
    match k with
    | .createDataset _ name => normalizeDatasetName U name = .error code
    | .uploadCsv _ _ filename _ => normalizeCsvFilename U filename = .error code
    | .createRule _ _ _ target_column _ => validateTargetColumn U target_column = .error code
    | _ => False
  | .fileTooLarge | .source =>
    match k with
    | .uploadCsv _ _ _ source => contentOf source [] = .error x
    | _ => False
  | .csvStructure code =>
    match k with
    | .uploadCsv _ _ _ source => ∃ content, contentOf source [] = .ok content ∧ scanCsv content = .error code
    | _ => False
  | .datasetNotFound =>
    (∃ dataset_id, k.dataset = some dataset_id ∧ db.ownedDataset dataset_id k.owner = none) ∨
      match k with
      | .deleteRule _ dataset_id rule_id => db.eval (.getRule dataset_id rule_id) = none
      | .getAnalysis owner_id dataset_id analysis_id =>
        db.eval (.getForDatasetOwner analysis_id dataset_id owner_id) = none
      | _ => False
  | .datasetNotReady =>
    match k with
    | .createRule .. | .createAnalysis .. => ∃ d, k.About db d ∧ d.upload = none
    | _ => False
  | .unknownColumn =>
    match k with
    | .createRule _ _ _ target_column _ => ∃ d u, k.About db d ∧ d.upload = some u ∧
      target_column ∉ u.column_names
    | _ => False
  | .duplicateRule =>
    match k with
    | .createRule _ dataset_id rule_type target_column configuration => ∃ s ∈ db.validation_rules,
      s.dataset_id = dataset_id ∧ s.rule_type = rule_type ∧ s.target_column = target_column ∧
        s.configuration = configuration
    | _ => False
  | .incompatibleUpload =>
    match k with
    | .uploadCsv _ dataset_id _ source => ∃ content structure_, contentOf source [] = .ok content ∧
      scanCsv content = .ok structure_ ∧ ∃ r ∈ db.validation_rules, r.dataset_id = dataset_id ∧
        r.target_column ∉ structure_.column_names
    | _ => False
  | .analysisRequiresRules =>
    match k with
    | .createAnalysis _ dataset_id => ∃ d u, k.About db d ∧ d.upload = some u ∧ db.rulesOf dataset_id = []
    | _ => False
  | .integrityFault _ =>
    match k with
    | .createAnalysis .. | .getAnalysis .. => True
    | _ => False
  | .zipLength | .invalidOperation =>
    match k with
    | .createAnalysis .. => True
    | _ => False
  | .database (.integrity c) => c = .check ∧ k.writes = true
  | .database .data => k.writes = true
  | .database .operational | .os | .clock => True

/-! ### The contract -/

/-- Every change of the database is an operation of the call that makes it, and a rule is never
created again. -/
def atomically (U : Unicode) : Contract Call Eff World where
  Inv h := ∀ rule_id, HadRule h rule_id → ∃ p, (p, rule_id) ∈ h.now.issued
  Guar p k h w := (w.db = h.now.db ∨ ∃ r, Changes U p h k r w.db) ∧
    ∀ r ∈ w.db.validation_rules, r ∈ h.now.db.validation_rules ∨
      (p, r.id) ∈ h.now.issued ∧ ¬ HadRule h r.id
  At _ _ _ := True

/-- Both contracts of the services. -/
abbrev services (ok : ValidationRule → Prop) (F : Faults) (U : Unicode) : Contract Call Eff World :=
  (contract ok F).both (atomically U)

variable {ok : ValidationRule → Prop} {F : Faults} {U : Unicode} {p : Pid} {h : Hist World} {w : World}
  {k : Call}

lemma hadRule_push {rule_id : Uuid} : HadRule (h.push w) rule_id ↔
    (∃ r ∈ w.db.validation_rules, r.id = rule_id) ∨ HadRule h rule_id := Hist.ever_push

lemma hadRule_now {r : ValidationRule} (hr : r ∈ h.now.db.validation_rules) : HadRule h r.id :=
  Hist.ever_now ⟨r, hr, rfl⟩

lemma atomically_push (hi : (services ok F U).Inv h) (hg : SysGuar F p h w)
    (hg' : (atomically U).Guar p k h w) : (atomically U).Inv (h.push w) := by
  intro rule_id hhad
  have hold : HadRule h rule_id → ∃ q, (q, rule_id) ∈ w.issued := fun hr =>
    (hi.2 rule_id hr).imp fun q hq => hg.issued_mono _ hq
  rcases hadRule_push.mp hhad with ⟨r, hr, rfl⟩ | hr
  · rcases hg'.2 r hr with hr | ⟨hm, -⟩
    · exact hold (hadRule_now hr)
    · exact ⟨p, hg.issued_mono _ hm⟩
  · exact hold hr

lemma atomically_same (hdb : w.db = h.now.db) : (atomically U).Guar p k h w :=
  ⟨Or.inl hdb, fun _ hr => Or.inl (hdb ▸ hr)⟩

/-! ### Assertions -/

/-- Both contracts keep it stable, and it is silent about locks. -/
structure Persists (ok : ValidationRule → Prop) (F : Faults) (U : Unicode) (p : Pid) (P : Assert World) : Prop where
  stable : Stable (services ok F U) p P
  locks : ∀ h w, SysInv ok F h → P h → LocksOnly h.now w → P (h.push w)

lemma Steady.persists {P : Assert World} (hP : Steady ok F p P) : Persists ok F U p P := ⟨hP.stable.both _, hP.locks⟩

lemma Persists.and {P Q : Assert World} (hP : Persists ok F U p P) (hQ : Persists ok F U p Q) :
    Persists ok F U p fun h => P h ∧ Q h :=
  ⟨hP.stable.and hQ.stable, fun h w hi hpq hw => ⟨hP.locks h w hi hpq.1 hw, hQ.locks h w hi hpq.2 hw⟩⟩

/-- The thread drew the UUID, and no rule ever had it. -/
def FreshRule (p : Pid) (rule_id : Uuid) : Assert World := fun h =>
  (p, rule_id) ∈ h.now.issued ∧ ¬ HadRule h rule_id

/-- The rule was there at some moment, and no other rule has its identifier. -/
def Known (r : ValidationRule) : Assert World := fun h =>
  h.Ever (fun w => r ∈ w.db.validation_rules) ∧ ∀ s ∈ h.now.db.validation_rules, s.id = r.id → s = r

/-- A rule with this identifier was there, and none is any more. -/
def Deleted (rule_id : Uuid) : Assert World := fun h =>
  HadRule h rule_id ∧ ∀ s ∈ h.now.db.validation_rules, s.id ≠ rule_id

/-- The lock of the dataset is held, and none of its rules has this definition. -/
def HoldsNoTwin (p : Pid) (d : Dataset) (r : ValidationRule) : Assert World := fun h =>
  Holds p d h ∧ ∀ s ∈ h.now.db.validation_rules, r.sameDefinition s = false

lemma hadRule_locks {rule_id : Uuid} (hw : LocksOnly h.now w) : HadRule (h.push w) rule_id ↔ HadRule h rule_id := by
  rw [hadRule_push, hw.db]
  exact ⟨fun hx => hx.elim (fun ⟨r, hr, he⟩ => he ▸ hadRule_now hr) id, Or.inr⟩

lemma persists_freshRule (rule_id : Uuid) : Persists ok F U p (FreshRule p rule_id) where
  stable q k h w hqp hi hd hg _ := by
    refine ⟨hg.1.issued_mono _ hd.1, fun hhad => ?_⟩
    rcases hadRule_push.mp hhad with ⟨r, hr, rfl⟩ | hr
    · rcases hg.2.2 r hr with hold | ⟨hm, -⟩
      · exact hd.2 (hadRule_now hold)
      · exact hqp (hi.1.issued_once _ _ _ hm hd.1)
    · exact hd.2 hr
  locks h w _ hd hw := by
    refine ⟨?_, fun hr => hd.2 ((hadRule_locks hw).mp hr)⟩
    rw [Hist.push_now, hw.issued]
    exact hd.1

lemma persists_known (r : ValidationRule) : Persists ok F U p (Known r) where
  stable q k h w _ _ hd hg _ := by
    refine ⟨Hist.ever_push.mpr (Or.inr hd.1), fun s hs he => ?_⟩
    rcases hg.2.2 s hs with hold | ⟨-, hnew⟩
    · exact hd.2 s hold he
    · obtain ⟨w', hw', hr⟩ := hd.1
      exact absurd ⟨w', hw', r, hr, he.symm⟩ hnew
  locks h w _ hd hw := by
    refine ⟨Hist.ever_push.mpr (Or.inr hd.1), ?_⟩
    rw [Hist.push_now, hw.db]
    exact hd.2

lemma stable_holdsNoTwin {d : Dataset} {r : ValidationRule} (hr : r.dataset_id = d.id) :
    Stable (services ok F U) p (HoldsNoTwin p d r) := by
  rintro q k h w hqp hi ⟨hl, hno⟩ hg hi'
  refine ⟨stable_holds d q k h w hqp hi.1 hl hg.1 hi'.1, fun s hs => ?_⟩
  rcases hg.1.rules s hs with hold | hlock
  · exact hno s hold
  · -- a rule of another dataset
    have hne : r.dataset_id ≠ s.dataset_id := by
      intro he
      rw [← he, hr, hl.1] at hlock
      exact hqp (Option.some.inj hlock).symm
    simp [ValidationRule.sameDefinition, hne]

/-! ### What a call ends with -/

/-- What is known when a call has replied: it saw one moment, or it changed the database at one
moment; or another call deleted the rule first. -/
inductive Answered (U : Unicode) (t : Caller Call World) (h : Hist World) : Reply → Prop
  | saw {r : Reply} {h₁ : Hist World} (hle : t.start ≤ h₁) (hle' : h₁ ≤ h)
      (hr : Sees t.call r h₁.now.db) : Answered U t h r
  | changed {r : Reply} {h₁ : Hist World} {w : World} (hle : t.start ≤ h₁) (hle' : h₁.push w ≤ h)
      (hr : Changes U t.pid h₁ t.call r w.db) : Answered U t h r
  | overtaken {owner_id dataset_id : Uuid} {r : ValidationRule} {h₁ h₂ : Hist World}
      (hcall : t.call = .deleteRule owner_id dataset_id r.id) (hle : t.start ≤ h₁) (hle₁ : h₁ ≤ h₂)
      (hle₂ : h₂ ≤ h) (hr : r ∈ h₁.now.db.validation_rules ∧ r.dataset_id = dataset_id)
      (howner : (h₁.now.db.ownedDataset dataset_id owner_id).isSome = true)
      (hgone : ∀ s ∈ h₂.now.db.validation_rules, s.id ≠ r.id) : Answered U t h .unit

/-- What is known when a call has raised: at one moment there was a reason to. -/
def Refused (U : Unicode) (t : Caller Call World) (x : Exn) : Assert World :=
  Once t.start fun w => Refusal U t.call x w.db

variable {t : Caller Call World}

lemma answered_push {r : Reply} (ha : Answered U t h r) : Answered U t (h.push w) r := by
  cases ha with
  | saw hle hle' hr => exact .saw hle (Hist.le_push w hle') hr
  | changed hle hle' hr => exact .changed hle (Hist.le_push w hle') hr
  | overtaken hcall hle hle₁ hle₂ hr ho hg => exact .overtaken hcall hle hle₁ (Hist.le_push w hle₂) hr ho hg

lemma persists_answered (r : Reply) : Persists ok F U p fun h => Answered U t h r :=
  ⟨fun _ _ _ _ _ _ ha _ _ => answered_push ha, fun _ _ _ ha _ => answered_push ha⟩

lemma persists_refused (x : Exn) : Persists ok F U p (Refused U t x) := (steady_once _ _).persists

end DataCheck.Shared
