import DataCheck.Analysis.History
import DataCheck.Datasets.MethodContracts

/-!
# The analysis service keeps the contract

`create_analysis` captures a snapshot under the lock of the dataset: the moment of its second
statement is the moment of the snapshot, since the row cannot change until the lock is released,
and a file that a row names is never touched.
-/

namespace DataCheck.Analyses

open Lib Shared Datasets Validation

variable {ok : ValidationRule → Prop} {F : Faults} {p : Pid} {h : Hist World}

/-! ### Exceptions of an analysis -/

/-- The snapshot could not be read, because a disk read failed, or because its file was removed after
a commit that raised. -/
def ReadFault (F : Faults) (f : IntegrityFault) : Prop :=
  f = .csvUnavailable ∧ (F.fails .read = true ∨ (∃ key, F.fails (.openBinary key) = true) ∨
    F.lostAcknowledgement = true)

/-- Polars did not give back the table that was uploaded. -/
def LoadFault (f : IntegrityFault) : Prop :=
  f = .csvUnparsable ∨ f = .columnsMismatch ∨ f = .rowCountMismatch ∨ f = .notTextual

/-- A stored rule could not be run. -/
def RuleFault (f : IntegrityFault) : Prop :=
  f = .ruleInvalid ∨ f = .ruleTypeUnsupported ∨ f = .engineRejected

/-- The exceptions that `create_analysis` raises. -/
def RaiseOk (U : Unicode) (P : Polars) (F : Faults) (ok : ValidationRule → Prop) (x : Exn) : Prop :=
  ∀ f, x = .integrityFault f → ReadFault F f ∨ LoadFault f ∨ RuleFault f ∧ ¬ Runs U P ok

/-! ### The snapshot -/

/-- The lock of the dataset is held, and the file that its row names has these bytes, unless it is
gone. -/
def HoldsFile (F : Faults) (p : Pid) (d : Dataset) (u : UploadColumns) (content : Bytes) : Assert World := fun h =>
  Holds p d h ∧ (h.now.files (.stored u.storage_key) = some content ∨
    F.lostAcknowledgement = true ∧ h.now.files (.stored u.storage_key) = none)

lemma stable_holdsFile {d : Dataset} {u : UploadColumns} (hu : d.upload = some u) (content : Bytes) :
    Stable (contract ok F) p (HoldsFile F p d u content) := by
  rintro q k h w hqp hi ⟨hd, hf⟩ hg hi'
  refine ⟨stable_holds d q k h w hqp hi hd hg hi', ?_⟩
  rcases hg.stored_of_names ⟨d, hd.2, u, hu, rfl⟩ with he | he
  · rw [Hist.push_now, he]
    exact hf
  · exact Or.inr he

/-- The lock of the dataset is held, and the file that its row names is gone. -/
def HoldsNoFile (F : Faults) (p : Pid) (d : Dataset) (u : UploadColumns) : Assert World := fun h =>
  Holds p d h ∧ F.lostAcknowledgement = true ∧ h.now.files (.stored u.storage_key) = none

lemma stable_holdsNoFile {d : Dataset} {u : UploadColumns} (hu : d.upload = some u) :
    Stable (contract ok F) p (HoldsNoFile F p d u) := by
  rintro q k h w hqp hi ⟨hd, hF, hf⟩ hg hi'
  refine ⟨stable_holds d q k h w hqp hi hd hg hi', hF, ?_⟩
  rcases hg.stored_of_names ⟨d, hd.2, u, hu, rfl⟩ with he | he
  · exact he.trans hf
  · exact he.2

lemma nodup_rulesOf (db : Db) (dataset_id : Uuid) :
    ((db.rulesOf dataset_id).map ValidationRule.id).Nodup := by
  refine ((sortOn_perm _ _).map _).nodup_iff.mpr ?_
  exact (List.filter_sublist.map _).nodup db.validation_rules.nodup

/-- **What a row with its rules says of the file**, at any moment. -/
lemma soundSnapshot (hi : SysInv ok F h) {d : Dataset} (hd : d ∈ h.now.db.datasets) {u : UploadColumns}
    (hu : d.upload = some u) {rows : List ValidationRule} (hrows : rows = h.now.db.rulesOf d.id)
    (hne : rows ≠ []) {content : Bytes} (hf : h.now.files (.stored u.storage_key) = some content) :
    SoundSnapshot ok (sourceSnapshot u) (rows.map ruleSnapshot) content := by
  rcases hi.kept d hd u hu with ⟨content', hf', hsize, hlimit, hhash, hscan⟩ | ⟨-, hn⟩
  swap
  · rw [hn] at hf
    cases hf
  obtain rfl : content' = content := Option.some.inj (hf'.symm.trans hf)
  subst hrows
  refine ⟨by simpa using hne, ?_, ?_, ?_, hsize, hlimit, hhash, hscan⟩
  · rw [List.map_map]
    exact nodup_rulesOf _ _
  · intro r hr
    obtain ⟨v, hv, rfl⟩ := List.mem_map.mp hr
    obtain ⟨hv, hid⟩ := mem_rulesOf.mp hv
    obtain ⟨d', hd', hid', u', hu', hcol⟩ := hi.targets v hv
    obtain rfl : d' = d := Table.eq_of_key hd' hd (hid'.trans hid)
    obtain rfl : u' = u := Option.some.inj (hu'.symm.trans hu)
    exact hcol
  · intro r hr
    obtain ⟨v, hv, rfl⟩ := List.mem_map.mp hr
    exact ⟨v, hi.rule_ok v (mem_rulesOf.mp hv).1, rfl⟩

section Methods

variable {σ : Type} {t : Caller Call World}

def Started (t : Caller Call World) : Assert World := fun h => t.start ≤ h

lemma steady_started : Steady ok F t.pid (Started t) := Steady.since _

/-- How the capture of a snapshot raises. -/
def CaptureRaises (F : Faults) (x : Exn) : Prop := ∀ f, x = .integrityFault f → ReadFault F f

lemma captureRaises_of_ne {x : Exn} (hx : ∀ f, x ≠ .integrityFault f) : CaptureRaises F x :=
  fun f hf => absurd hf (hx f)

lemma does_readChunks {A : Assert World} (hA : Stable (contract ok F) t.pid A) (chunks : List Bytes) :
    ∀ content : Bytes, (content ++ chunks.flatten).length ≤ maxCsvBytes →
      Does ok F t (fun (_ : σ) => A) (readChunks chunks content)
        (fun out _ h => A h ∧ out = content ++ chunks.flatten) fun x _ _ => CaptureRaises F x := by
  induction chunks with
  | nil => exact fun content _ => Triple.pure fun _ _ _ hp => ⟨hp, by simp⟩
  | cons chunk chunks ih =>
    intro content hlen
    rw [List.flatten_cons, ← List.append_assoc] at hlen ⊢
    refine Triple.bind (B := fun _ _ => A) ?_ fun _ => ?_
    · refine Triple.catching (Y := fun _ _ _ => F.fails .read = true) ?_ fun x => ?_
      · refine does_quiet rfl (fun _ _ _ _ => trivial) (fun _ _ => hA) (fun _ _ => Stable.const _)
          (fun hf _ _ _ _ => hf) fun _ h c r hi hp hr => ?_
        cases hr
        exact ⟨fun _ _ => hp, fun x hx => (nomatch hx)⟩
      · exact Triple.raise fun _ _ _ hp f hf => by
          cases hf
          exact ⟨rfl, Or.inl hp⟩
    · have hle : (content ++ chunk).length ≤ maxCsvBytes := by
        rw [List.length_append] at hlen
        omega
      rw [if_neg (Nat.not_lt.mpr hle)]
      exact ih _ hlen

lemma does_readVerifiedContent {d : Dataset} {u : UploadColumns} {rules : List PersistedRuleSnapshot} {content : Bytes}
    (hs : SoundSnapshot ok (sourceSnapshot u) rules content) {A : Assert World}
    (hA : Steady ok F t.pid A) :
    Does ok F t (fun (_ : σ) h => A h ∧ HoldsFile F t.pid d u content h)
      (readVerifiedContent u.storage_key (sourceSnapshot u))
      (fun out _ h => A h ∧ out = content) fun x _ _ => CaptureRaises F x := by
  refine Triple.bind (B := fun file _ h => A h ∧ file = content) ?_ fun file => ?_
  · refine Triple.catching
      (Y := fun _ _ _ => (∃ key, F.fails (.openBinary key) = true) ∨ F.lostAcknowledgement = true) ?_ fun x => ?_
    · refine does_quiet rfl (fun _ _ _ _ => trivial) (fun _ _ => hA.stable.and (Stable.const _))
        (fun _ _ => Stable.const _) (fun hf _ _ _ _ => Or.inl ⟨_, hf⟩) fun _ h c r hi hp hr => ?_
      obtain ⟨hp, -, hf | ⟨hF, hf⟩⟩ := hp
      · simp only [World.perform, hf] at hr
        cases hr
        exact ⟨fun a ha => by cases ha; exact ⟨hp, rfl⟩, fun x hx => by cases hx⟩
      · simp only [World.perform, hf] at hr
        cases hr
        exact ⟨fun a ha => (by cases ha), fun x _ => Or.inr hF⟩
    · exact Triple.raise fun _ _ _ hp f hf => by
        cases hf
        exact ⟨rfl, Or.inr hp⟩
  refine Triple.assume (φ := file = content) (fun _ _ _ hp => hp.2) fun hfile => ?_
  subst hfile
  have hflat : (chunks readChunkBytes file).flatten = file := chunks_flatten (by decide) file
  have hlen : ([] ++ (chunks readChunkBytes file).flatten).length ≤ maxCsvBytes := by
    rw [List.nil_append, hflat, hs.size]
    exact hs.limit
  refine Triple.bind ((does_readChunks hA.stable _ [] hlen).pre
    fun _ _ _ hp => hp.1) fun out => ?_
  refine Triple.assume (φ := out = file) (fun _ _ _ hp => by rw [hp.2, List.nil_append, hflat])
    fun hout => ?_
  subst hout
  rw [if_neg (not_not.mpr hs.size), if_neg (not_not.mpr hs.hash)]
  exact Triple.pure fun _ _ _ hp => ⟨hp.1, rfl⟩

lemma does_readGone {d : Dataset} {u : UploadColumns} {source : SourceSnapshot}
    {Q : Bytes → σ → Assert World} :
    Does ok F t (fun (_ : σ) => HoldsNoFile F t.pid d u)
      (readVerifiedContent u.storage_key source) Q fun x _ _ => CaptureRaises F x := by
  refine Triple.bind (B := fun _ _ _ => False) ?_ fun file s => ?_
  · refine Triple.catching
      (Y := fun _ _ _ => (∃ key, F.fails (.openBinary key) = true) ∨ F.lostAcknowledgement = true) ?_ fun x => ?_
    · refine does_quiet rfl (fun _ _ _ _ => trivial) (fun _ _ => Stable.const _)
        (fun _ _ => Stable.const _) (fun hf _ _ _ _ => Or.inl ⟨_, hf⟩) fun _ h c r hi hp hr => ?_
      simp only [World.perform, hp.2.2] at hr
      cases hr
      exact ⟨fun a ha => (by cases ha), fun x _ => Or.inr hp.2.1⟩
    · exact Triple.raise fun _ _ _ hp f hf => by
        cases hf
        exact ⟨rfl, Or.inr hp⟩
  · exact Safe.absurd fun _ _ hp => hp

def Captured (ok : ValidationRule → Prop) (t : Caller Call World) (owner_id dataset_id : Uuid)
    (source : SourceSnapshot) (rules : List PersistedRuleSnapshot) (content : Bytes) :
    Assert World := fun h =>
  Started t h ∧ OwnedBy dataset_id owner_id h ∧ SoundSnapshot ok source rules content ∧
    Once t.start (fun w => SnapshotAt w owner_id dataset_id source rules content) h

lemma steady_captured (owner_id dataset_id : Uuid) (source : SourceSnapshot)
    (rules : List PersistedRuleSnapshot) (content : Bytes) :
    Steady ok F t.pid (Captured ok t owner_id dataset_id source rules content) :=
  steady_started.and ((steady_ownedBy _ _).and ((Steady.const _).and (steady_once _ _)))

/-- **A capture sees one moment.** -/
theorem does_captureSnapshot {owner_id dataset_id : Uuid} :
    Does ok F t (fun (_ : σ) => Started t) (captureSnapshot owner_id dataset_id)
      (fun out _ => Captured ok t owner_id dataset_id out.1 out.2.1 out.2.2)
      fun x _ _ => CaptureRaises F x := by
  have hzs : ∀ (x : Exn) (_ : σ), Stable (contract ok F) t.pid fun _ => CaptureRaises F x := fun x _ => Stable.const _
  have hop : CaptureRaises F (.database .operational) := captureRaises_of_ne fun f hf => (nomatch hf)
  refine does_transaction (C := fun out _ h => out.2 = [] ∧
      Captured ok t owner_id dataset_id out.1.1 out.1.2.1 out.1.2.2 h)
    (fun _ _ => steady_captured _ _ _ _ _) (fun _ _ => Steady.const _) ?_
    (fun _ ws _ h hi hc => ?_) (fun _ _ _ _ _ _ => hop) (fun _ _ _ _ _ _ => hop) fun _ _ _ _ _ => hop
  swap
  · obtain ⟨rfl, hc⟩ := hc
    exact commit_nil (steady_captured _ _ _ _ _) hi hc
  refine Triple.bind (B := fun d _ h => Started t h ∧ ∀ d', d = some d' → Holds t.pid d' h ∧
    d'.id = dataset_id ∧ d'.owner_id = owner_id) ?_ fun d => ?_
  · refine does_getForOwnerForUpdate (fun d _ => ?_) hzs (fun _ _ _ hp _ => ⟨hp, fun d' hd => (nomatch hd)⟩)
      (fun d _ h w hi hp hd hw hh => ⟨steady_started.locks h w hi hp hw, fun d' hd' => ?_⟩)
      fun _ _ _ _ => hop
    · exact steady_started.stable.and
        (Stable.forall fun d' => Stable.imp _ ((stable_holds d').and (Stable.const _)))
    · cases hd'
      exact ⟨hh, (ownedDataset_eq_some.mp hd).2⟩
  cases d with
  | none => exact Triple.raise fun _ _ _ _ => captureRaises_of_ne fun f hf => (nomatch hf)
  | some d =>
    simp only
    cases hu : d.upload with
    | none => exact Triple.raise fun _ _ _ _ => captureRaises_of_ne fun f hf => (nomatch hf)
    | some u =>
      simp only
      -- the moment of the snapshot is the moment of this query
      refine Triple.bind (B := fun rows _ h => (∃ content,
        (Started t h ∧ HoldsFile F t.pid d u content h) ∧
          (rows ≠ [] → SoundSnapshot ok (sourceSnapshot u) (rows.map ruleSnapshot) content) ∧
          OwnedBy dataset_id owner_id h ∧ Once t.start (fun w => SnapshotAt w owner_id dataset_id
            (sourceSnapshot u) (rows.map ruleSnapshot) content) h) ∨
        HoldsNoFile F t.pid d u h) ?_ fun rows => ?_
      · refine does_query (fun rows _ => ?_) hzs (fun _ h hi hp => ?_) fun _ _ _ _ => hop
        · refine Stable.or (Stable.exists fun content => Stable.and ?_ (Stable.and (Stable.const _)
            (Stable.and (steady_ownedBy _ _).stable (steady_once _ _).stable)))
            (stable_holdsNoFile hu)
          exact steady_started.stable.and (stable_holdsFile hu content)
        · obtain ⟨hb, hd⟩ := hp
          obtain ⟨hd', rfl, rfl⟩ := hd d rfl
          rcases hi.kept d hd'.2 u hu with ⟨content, hf, -⟩ | hgone
          · refine Or.inl ⟨content, ⟨hb, hd', Or.inl hf⟩, fun hne => soundSnapshot hi hd'.2 hu rfl hne hf,
              ⟨d, hd'.2, rfl, rfl⟩, h, hb, Hist.le_rfl, d, u, ?_, hu, rfl, rfl, hf⟩
            exact ownedDataset_eq_some.mpr ⟨hd'.2, rfl, rfl⟩
          · exact Or.inr ⟨hd', hgone⟩
      split
      · exact Triple.raise fun _ _ _ _ => captureRaises_of_ne fun f hf => (nomatch hf)
      · next hne =>
        refine Triple.or_pre (Triple.exists_pre fun content => ?_)
          ((does_readGone (Q := fun _ _ _ => False)).bind fun _ _ => Safe.absurd fun _ _ hp => hp)
        refine Triple.assume (φ := SoundSnapshot ok (sourceSnapshot u) (rows.map ruleSnapshot) content)
          (fun _ _ _ hp => hp.2.1 hne) fun hs => ?_
        have hA : Steady ok F t.pid (Captured ok t owner_id dataset_id (sourceSnapshot u)
            (rows.map ruleSnapshot) content) := steady_captured _ _ _ _ _
        refine Triple.bind ((does_readVerifiedContent hs hA).pre
          fun _ _ _ hp => ⟨⟨hp.1.1, hp.2.2.1, hs, hp.2.2.2⟩, hp.1.2⟩) fun out => ?_
        refine Triple.pure fun _ _ _ hp => ⟨rfl, ?_⟩
        obtain ⟨hp, rfl⟩ := hp
        exact hp

/-! ### Storing the results -/

/-- **The commit of an analysis**: complete rows under a fresh identifier. -/
theorem allowed_commitHistory (hi : SysInv ok F h) {a : Analysis} {rows : List ValidationResult}
    (ha : FreshAnalysis p a.id h) (hpos : Positioned a.id rows) (hc : Complete a.stored rows)
    (hs : FromSnapshot h a.stored rows) :
    Allowed ok F p h ((h.now.apply (historyWrites a rows)).unlock p) := by
  have hnew : ∀ r ∈ h.now.db.validation_results, r.analysis_id ≠ a.id := by
    intro r hr he
    obtain ⟨a', ha', hid⟩ := hi.result_analysis r hr
    exact ha.2 a' ha' (hid.trans he)
  have hdb : ((h.now.apply (historyWrites a rows)).unlock p).db = { h.now.db with
      analyses := h.now.db.analyses.put a.stored
      validation_results := rows.foldl Table.put h.now.db.validation_results } :=
    applyAll_historyWrites _ _ _
  have hres : ((h.now.apply (historyWrites a rows)).unlock p).db.resultsOf a.id = rows :=
    resultsOf_commit hpos hnew
  have hmem : ∀ r, r ∈ ((h.now.apply (historyWrites a rows)).unlock p).db.validation_results ↔
      r ∈ rows ∨ r ∈ h.now.db.validation_results := fun r => mem_results_commit hpos hnew
  have hg : SysGuar F p h ((h.now.apply (historyWrites a rows)).unlock p) :=
    { issued_mono := fun x hx => hx
      issued_mine := fun x hx => Or.inl hx
      locks := fun d' q hqp hq => by simp [World.unlock, World.apply, hq, hqp]
      datasets := fun d hd => Or.inl (by rw [hdb]; exact hd)
      new_datasets := fun d hd => Or.inl ⟨d, by rw [hdb] at hd; exact hd, rfl⟩
      names := fun key hn => Or.inl (by rw [hdb] at hn; exact hn)
      candidates := fun u => Or.inl rfl
      stored := fun key => Or.inl rfl
      rules := fun r hr => Or.inl (by rw [hdb] at hr; exact hr)
      analyses := fun a' ha' => by
        rw [hdb]
        exact Table.mem_put.mpr (Or.inr ⟨ha', ha.2 a' ha'⟩)
      new_analyses := fun a' ha' => by
        rw [hdb] at ha'
        rcases Table.mem_put.mp ha' with rfl | ⟨ha', -⟩
        · exact Or.inr ha.1
        · exact Or.inl ha'
      results := fun r hr => (hmem r).mpr (Or.inr hr)
      new_results := fun r hr => by
        rcases (hmem r).mp hr with hr | hr
        · exact Or.inr fun a' ha' he => ha.2 a' ha' (he.trans (hpos.analysis_id r hr))
        · exact Or.inl hr }
  refine ⟨hg, hi.push hg hi.issued_once (by rw [hdb]) (fun r hr => ?_) (fun a' ha' => ?_) fun r hr => ?_⟩
  · exact Or.inl (by rw [hdb] at hr; exact hr)
  · rw [hdb] at ha'
    rcases Table.mem_put.mp ha' with rfl | ⟨ha', -⟩
    · obtain ⟨h₁, hle, hs⟩ := hs
      exact Or.inr ⟨by rw [show a.stored.id = a.id from rfl, hres]; exact hc,
        h₁, Hist.le_push _ hle, by rw [show a.stored.id = a.id from rfl, hres]; exact hs⟩
    · exact Or.inl ha'
  · rcases (hmem r).mp hr with hr | hr
    · refine Or.inr ⟨a.stored, ?_, (hpos.analysis_id r hr).symm⟩
      rw [hdb]
      exact Table.mem_put.mpr (Or.inl rfl)
    · exact Or.inl hr

lemma resultModels_isOk (analysis_id : Uuid) {source : SourceSnapshot} {as : List AdaptedRule}
    {rs : List RuleValidationResult} (h : List.Forall₂ (fun a r => r.rule = a.spec ∧
      r.Balanced source.row_count) as rs) :
    ∀ position, ∃ rows, resultModels analysis_id source position as rs = .ok rows := by
  induction h with
  | nil => exact fun _ => ⟨[], rfl⟩
  | cons hr _ ih =>
    intro position
    obtain ⟨rows, hrows⟩ := ih (position + 1)
    rw [resultModels, resultModel, if_neg (not_not.mpr hr.1), if_neg (not_not.mpr hr.2.rows)]
    simp only [hrows]
    exact ⟨_, rfl⟩

lemma fits_of_forall₂ {n : ℕ} {as : List AdaptedRule} {rs : List RuleValidationResult}
    (h : List.Forall₂ (fun a r => r.rule = a.spec ∧ r.Balanced n) as rs) : Fits n rs := by
  induction h with
  | nil => exact fun _ h => absurd h List.not_mem_nil
  | cons hr _ ih =>
    intro r hr'
    rcases List.mem_cons.mp hr' with rfl | hr'
    · exact hr.2
    · exact ih r hr'

lemma runEngine_ok {U : Unicode} {P : Polars} {frame : DataFrame} {specs : List RuleSpec}
    {e : ValidationEngineResult} (h : runEngine U P frame specs = .ok e) :
    validate U P frame specs = .ok e := by
  unfold runEngine at h
  split at h
  · next he =>
    cases h
    exact he
  · cases h
  · cases h

lemma runEngine_error {U : Unicode} {P : Polars} {frame : DataFrame} {specs : List RuleSpec} {x : Exn}
    (h : runEngine U P frame specs = .error x) :
    (∃ f, validate U P frame specs = .error f ∧ x = .integrityFault .engineRejected) ∨
      x = .zipLength := by
  unfold runEngine at h
  split at h
  · cases h
  · next f hf =>
    cases h
    exact Or.inl ⟨_, hf, rfl⟩
  · cases h
    exact Or.inr rfl

/-- What `create_analysis` returns is stored. -/
def Returned (owner_id dataset_id : Uuid) (d : AnalysisDetailReference) : Assert World := fun h =>
  OwnedBy dataset_id owner_id h ∧ ∃ a rows, Stored a rows h ∧ detailReference a rows = .ok d ∧
    a.id = d.analysis_id ∧ a.dataset_id = dataset_id ∧
    d.toAnalysisSummaryReference = summaryReference a

lemma raiseOk_of_ne {U : Unicode} {P : Polars} {x : Exn} (hx : ∀ f, x ≠ .integrityFault f) : RaiseOk U P F ok x :=
  fun f hf => absurd hf (hx f)

/-- **The results are stored together, or not at all.** -/
theorem does_persistAnalysis {U : Unicode} {P : Polars} {owner_id dataset_id : Uuid}
    {source : SourceSnapshot} {rules : List PersistedRuleSnapshot} {content : Bytes}
    {as : List AdaptedRule} {e : ValidationEngineResult}
    (hs : SoundSnapshot ok source rules content) (has : List.Forall₂ (Adapts U P) rules as)
    (htotal : e.total_rows = source.row_count)
    (hrs : List.Forall₂ (fun a r => r.rule = a.spec ∧ r.Balanced source.row_count) as e.rule_results) :
    Does ok F t (fun (_ : σ) => Captured ok t owner_id dataset_id source rules content)
      (persistAnalysis dataset_id source as e)
      (fun d _ => Returned owner_id dataset_id d) fun x _ _ => RaiseOk U P F ok x := by
  have hzs : ∀ (x : Exn) (_ : σ), Steady ok F t.pid fun _ => RaiseOk U P F ok x := fun x _ => Steady.const _
  have hop : RaiseOk U P F ok (.database .operational) := raiseOk_of_ne fun f hf => (nomatch hf)
  have hfits : Fits source.row_count e.rule_results := fits_of_forall₂ hrs
  unfold persistAnalysis
  rw [if_neg (not_not.mpr hrs.length_eq), if_neg (not_not.mpr htotal)]
  refine Triple.bind (B := fun u _ h => Captured ok t owner_id dataset_id source rules content h ∧
    FreshAnalysis t.pid u h) ?_ fun analysis_id => ?_
  · refine does_uuid4 (fun u _ => ((steady_captured _ _ _ _ _).and (steady_freshAnalysis u)).stable)
      (fun x s => (hzs x s).stable) (fun u _ h hi hp hu => ?_) fun _ _ _ _ => raiseOk_of_ne fun f hf => (nomatch hf)
    have hfresh : ∀ a ∈ h.now.db.analyses, a.id ≠ u := by
      rintro a ha rfl
      obtain ⟨q, hq⟩ := hi.analysis_issued a ha
      exact hu q hq
    obtain ⟨hle, hown, hsound, h₁, hle₁, hle₂, hsnap⟩ := hp
    exact ⟨⟨Hist.le_push _ hle, hown, hsound, h₁, hle₁, Hist.le_push _ hle₂, hsnap⟩, List.mem_cons_self, hfresh⟩
  refine Triple.bind (B := fun _ _ h => Captured ok t owner_id dataset_id source rules content h ∧
    FreshAnalysis t.pid analysis_id h) ?_ fun created_at => ?_
  · exact does_now
      (fun _ _ => ((steady_captured _ _ _ _ _).and (steady_freshAnalysis analysis_id)).stable)
      (fun x s => (hzs x s).stable) (fun _ _ _ _ hp => hp)
      fun _ _ _ _ => raiseOk_of_ne fun f hf => (nomatch hf)
  cases hscore : calculateQualityScore e.rule_results with
  | none => exact Triple.raise fun _ _ _ _ => raiseOk_of_ne fun f hf => (nomatch hf)
  | some score =>
    simp only
    obtain ⟨rows, hrows⟩ := resultModels_isOk analysis_id hrs 0
    rw [hrows]
    refine Triple.bind (B := fun out _ h => (Captured ok t owner_id dataset_id source rules content h ∧
      FreshAnalysis t.pid analysis_id h) ∧ out = rows) (Triple.pure fun _ _ _ hp => ⟨hp, rfl⟩)
      fun out => ?_
    refine Triple.assume (φ := out = rows) (fun _ _ _ hp => hp.2) fun hout => ?_
    subst hout
    set a := analysisModel analysis_id dataset_id source e.rule_results score created_at with ha
    -- the score has two decimals already, so the row is stored as it is
    have hstored : a.stored = a := by
      simp only [Analysis.stored, ha, analysisModel, qualityScore_stored hscore]
    have hcomplete : Complete a out := complete_of_resultModels hs has hfits hscore hrows
    obtain ⟨hfor, hof, hposn, hids⟩ := resultModels_ok hrows
    have hpos : Positioned a.id out := ⟨hids, hposn⟩
    obtain ⟨d, hd, hdid, hdds, hdsum⟩ := detailReference_isOk hof hfits a
    refine Triple.bind (B := fun _ _ h => OwnedBy dataset_id owner_id h ∧ Stored a out h) ?_ fun _ => ?_
    · refine does_transaction (C := fun w _ h => w.2 = historyWrites a out ∧
          Captured ok t owner_id dataset_id source rules content h ∧ FreshAnalysis t.pid analysis_id h)
        (fun _ _ => (steady_ownedBy _ _).and (steady_stored a out)) hzs ?_ (fun _ ws _ h hi hc => ?_)
        (fun _ _ _ _ _ _ => hop) (fun _ _ _ _ _ _ => hop) fun _ _ _ _ _ => hop
      · refine Triple.bind (B := fun _ _ h => Captured ok t owner_id dataset_id source rules content h ∧
          FreshAnalysis t.pid analysis_id h) ?_ fun _ => Triple.pure fun _ _ _ hp => ⟨rfl, hp⟩
        exact does_flush
          (fun _ _ => ((steady_captured _ _ _ _ _).and (steady_freshAnalysis analysis_id)).stable)
          (fun x s => (hzs x s).stable) (fun _ _ _ hp => hp.1)
          fun _ _ _ _ _ => raiseOk_of_ne fun f hf => (nomatch hf)
      · obtain ⟨rfl, ⟨-, hown, -, h₁, -, hle, hsnap⟩, hfresh⟩ := hc
        have hsnapshot : FromSnapshot h a out :=
          ⟨h₁, hle, owner_id, rules, content, hsnap, resultFor_of_adapts has hfor⟩
        have hall := allowed_commitHistory hi (a := a) hfresh hpos (by rw [hstored]; exact hcomplete)
          (by rw [hstored]; exact hsnapshot)
        refine ⟨hall, ?_, ?_, ?_⟩
        · obtain ⟨d', hd', hid, ho⟩ := hown
          refine ⟨d', ?_, hid, ho⟩
          rcases hall.1.datasets d' hd' with hd'' | ⟨-, hx⟩
          · exact hd''
          · simpa [World.unlock, World.apply, applyAll_historyWrites] using hd'
        · simp [World.unlock, World.apply, applyAll_historyWrites, hstored]
        · exact resultsOf_commit hpos fun r hr he => by
            obtain ⟨a', ha', hid⟩ := hi.result_analysis r hr
            exact hfresh.2 a' ha' (hid.trans he)
    · rw [hd]
      exact Triple.pure fun _ h _ hp => ⟨hp.1, a, out, hp.2, hd, hdid.symm, rfl, hdsum⟩

lemma does_integrity {α : Type} {P : σ → Assert World} {Q : α → σ → Assert World}
    {Z : Exn → σ → Assert World} {r : Except IntegrityFault α}
    (hQ : ∀ a s h, r = .ok a → P s h → Q a s h)
    (hZ : ∀ f s h, r = .error f → P s h → Z (.integrityFault f) s h) :
    Does ok F t P (Op.ofExcept (r.mapError .integrityFault)) Q Z := by
  cases r with
  | ok a => exact Triple.pure fun s h _ hp => hQ a s h rfl hp
  | error f => exact Triple.raise fun s h _ hp => hZ f s h rfl hp

/-- **The contract of `create_analysis`.** -/
theorem does_createAnalysis (U : Unicode) (P : Polars) {owner_id dataset_id : Uuid}
    (hcall : t.call = .createAnalysis owner_id dataset_id) :
    Does ok F t (fun (_ : σ) => Started t) (createAnalysis U P owner_id dataset_id)
      (fun d _ => Returned owner_id dataset_id d) fun x _ _ => RaiseOk U P F ok x := by
  refine Triple.bind (does_captureSnapshot.post (fun _ _ _ _ hq => hq) fun x _ _ _ hz f hf => Or.inl (hz f hf))
    fun out => ?_
  obtain ⟨source, rules, content⟩ := out
  have hC : Stable (contract ok F) t.pid (Captured ok t owner_id dataset_id source rules content) :=
    (steady_captured _ _ _ _ _).stable
  refine Triple.assume (φ := SoundSnapshot ok source rules content) (fun _ _ _ hp => hp.2.2.1)
    fun hs => ?_
  refine Triple.bind (B := fun _ _ => Captured ok t owner_id dataset_id source rules content) ?_
    fun _ => ?_
  · refine does_quiet rfl (fun _ h _ hp => ?_) (fun _ _ => hC)
      (fun _ _ => Stable.const _) (fun _ _ _ _ _ => raiseOk_of_ne fun f hf => (nomatch hf))
      fun _ h c r _ hp hr => ?_
    · obtain ⟨-, -, -, h₁, hle, hle', hsnap⟩ := hp
      exact ⟨owner_id, dataset_id, h₁, hcall, hle, hle', hsnap⟩
    · cases hr
      exact ⟨fun _ _ => hp, fun x hx => (nomatch hx)⟩
  have hzs : ∀ {f : IntegrityFault}, LoadFault f ∨ RuleFault f ∧ ¬ Runs U P ok → RaiseOk U P F ok (.integrityFault f) :=
    fun hf f' hf' => by
      cases hf'
      exact Or.inr hf
  -- the file is loaded
  refine Triple.bind (does_integrity (Q := fun frame _ h =>
    loadTextualCsv P content source.column_names source.row_count = .ok frame ∧
      Captured ok t owner_id dataset_id source rules content h)
    (fun frame _ h hr hp => ⟨hr, hp⟩)
    fun f _ h hr hp => hzs (Or.inl (loadTextualCsv_error hr))) fun frame => ?_
  refine Triple.assume (fun _ _ _ hp => hp.1) fun hload => ?_
  -- the rules are adapted
  refine Triple.bind (does_integrity (Q := fun as _ h => adaptRules U P rules = .ok as ∧
      Captured ok t owner_id dataset_id source rules content h)
    (fun as _ h hr hp => ⟨hr, hp.2⟩) fun f _ h hr hp => hzs (Or.inr ⟨?_, fun hR => ?_⟩)) fun as => ?_
  · exact (adaptRules_error hr).imp_right Or.inl
  · obtain ⟨as, has⟩ := adaptRules_runs hs hR
    rw [has] at hr
    cases hr
  refine Triple.assume (fun _ _ _ hp => hp.1) fun hadapt => ?_
  have has := adaptRules_ok hadapt
  -- the engine runs
  refine Triple.bind (B := fun e _ h => validate U P frame (as.map AdaptedRule.spec) = .ok e ∧
      Captured ok t owner_id dataset_id source rules content h)
    (Triple.ofExcept (fun e _ h hr _ hp => ⟨runEngine_ok hr, hp.2⟩) fun x _ h hr _ hp => ?_) fun e => ?_
  · rcases runEngine_error hr with ⟨f, hf, rfl⟩ | rfl
    · refine hzs (Or.inr ⟨Or.inr (Or.inr rfl), fun hR => ?_⟩)
      obtain ⟨e, he⟩ := validate_runs (U := U) hs hR.by_pattern hload has
      rw [he] at hf
      cases hf
    · exact raiseOk_of_ne fun f hf => (nomatch hf)
  refine Triple.assume (fun _ _ _ hp => hp.1) fun hval => ?_
  obtain ⟨htotal, hresults⟩ := validate_ok hval
  obtain ⟨-, hheight, -⟩ := loadTextualCsv_ok hload
  rw [hheight] at htotal hresults
  exact (does_persistAnalysis hs has htotal (List.forall₂_map_left_iff.mp hresults)).pre
    fun _ _ _ hp => hp.2

theorem does_listAnalyses {owner_id dataset_id : Uuid} {limit offset : ℕ} :
    Does ok F t (fun (_ : σ) _ => True) (listAnalyses owner_id dataset_id limit offset)
      anything anything := by
  refine does_reading ((does_anyQuery _).bind fun d => ?_)
  cases d with
  | none => exact Triple.raise fun _ _ _ _ => trivial
  | some d => exact (does_anyQuery _).bind fun _ => Triple.pure fun _ _ _ _ => rfl

/-- What was there when the call started is still there. -/
def Since (t : Caller Call World) : Assert World := fun h => Started t h ∧
  (∀ a rows, Stored a rows t.start → Stored a rows h) ∧
    ∀ dataset_id owner_id, OwnedBy dataset_id owner_id t.start → OwnedBy dataset_id owner_id h

lemma stable_since : Stable (contract ok F) t.pid (Since t) :=
  steady_started.stable.and ((Stable.forall fun a => Stable.forall fun rows => Stable.imp _
    (steady_stored a rows).stable).and (Stable.forall fun _ => Stable.forall fun _ => Stable.imp _
      (steady_ownedBy _ _).stable))

/-- The detail was returned for this analysis before the call started. -/
def Earlier (t : Caller Call World) (owner_id dataset_id analysis_id : Uuid)
    (d : AnalysisDetailReference) : Prop :=
  Returned owner_id dataset_id d t.start ∧ d.analysis_id = analysis_id

/-- **What was returned is returned again.** -/
theorem does_getAnalysis {owner_id dataset_id analysis_id : Uuid} :
    Does ok F t (fun (_ : σ) => Since t) (getAnalysis owner_id dataset_id analysis_id)
      (fun d _ _ => ∀ d', Earlier t owner_id dataset_id analysis_id d' → d = d')
      fun x _ _ => ∀ d', Earlier t owner_id dataset_id analysis_id d' → x = .database .operational := by
  have hzs : ∀ (x : Exn) (_ : σ), Steady ok F t.pid fun _ =>
      ∀ d', Earlier t owner_id dataset_id analysis_id d' → x = .database .operational :=
    fun x _ => Steady.const _
  refine does_transaction (C := fun out _ _ => out.2 = [] ∧
      ∀ d', Earlier t owner_id dataset_id analysis_id d' → out.1 = d')
    (fun _ _ => Steady.const _) hzs ?_ (fun _ ws _ h hi hc => ?_) (fun _ _ _ _ _ _ _ _ => rfl)
    (fun _ _ _ _ _ _ _ _ => rfl) fun _ _ _ _ _ _ _ => rfl
  swap
  · obtain ⟨rfl, hc⟩ := hc
    exact commit_nil (Steady.const _) hi hc
  refine Triple.bind (B := fun row _ h => ∀ d', Earlier t owner_id dataset_id analysis_id d' →
    ∃ a rows, (row = some a ∧ detailReference a rows = .ok d') ∧ Stored a rows h) ?_ fun row => ?_
  · refine does_query (fun row _ => ?_) (fun x s => (hzs x s).stable) (fun _ h hi hp d' hd' => ?_)
      fun _ _ _ _ _ _ => rfl
    · exact Stable.forall fun d' => Stable.imp _ (Stable.exists fun a => Stable.exists fun rows =>
        (Stable.const _).and (steady_stored a rows).stable)
    · obtain ⟨⟨hown, a, rows, hst, hdet, hid, hds, -⟩, rfl⟩ := hd'
      obtain ⟨ha, hrows⟩ := hp.2.1 a rows hst
      obtain ⟨e, he, heid, heo⟩ := hp.2.2 _ _ hown
      refine ⟨a, rows, ⟨?_, hdet⟩, ha, hrows⟩
      refine Option.filter_eq_some_iff.mpr ⟨Table.find?_eq_some.mpr ⟨ha, hid⟩, ?_⟩
      rw [decide_eq_true_eq, hds]
      exact ⟨rfl, Option.isSome_iff_exists.mpr ⟨e, ownedDataset_eq_some.mpr ⟨he, heid, heo⟩⟩⟩
  cases row with
  | none =>
    refine Triple.raise fun _ h _ hp d' hd' => ?_
    obtain ⟨a, rows, ⟨hn, -⟩, -⟩ := hp d' hd'
    cases hn
  | some a =>
    refine Triple.bind (B := fun results _ _ => ∀ d', Earlier t owner_id dataset_id analysis_id d' →
      detailReference a results = .ok d') ?_ fun results => ?_
    · refine does_query (fun _ _ => Stable.const _) (fun x s => (hzs x s).stable)
        (fun _ h _ hp d' hd' => ?_) fun _ _ _ _ _ _ => rfl
      obtain ⟨a', rows, ⟨he, hdet⟩, hst⟩ := hp d' hd'
      cases he
      rw [← hdet, ← hst.2]
      rfl
    refine Triple.bind (B := fun detail _ _ => ∀ d', Earlier t owner_id dataset_id analysis_id d' →
      detail = d') ?_ fun detail => Triple.pure fun _ _ _ hp => ⟨rfl, hp⟩
    refine does_integrity (fun detail _ h hr hp d' hd' => ?_) fun f _ h hr hp d' hd' => ?_
    · exact Except.ok.inj (hr.symm.trans (hp d' hd'))
    · rw [hp d' hd'] at hr
      cases hr

end Methods

end DataCheck.Analyses
