import DataCheck.Datasets.UploadOperation

/-!
# The analysis service performs atomic operations

The reading methods see one moment, since a stored analysis is frozen.  `create_analysis` takes long,
but changes the database only at its last commit: at that moment its results are complete, and there
was an earlier moment whose upload and rules they are about.
-/

namespace DataCheck.Analyses

open Lib Shared Datasets Validation

variable {ok : ValidationRule → Prop} {F : Faults} {U : Unicode} {P : Polars} {h : Hist World} {w w' : World}
  {σ : Type} {t : Caller Call World} {owner_id dataset_id : Uuid}

/-! ### Reading -/

theorem shows_listAnalyses {limit offset : ℕ} (hcall : t.call = .listAnalyses owner_id dataset_id limit offset) :
    Shows ok F U t (sinceStart t) (listAnalyses owner_id dataset_id limit offset : Body σ _)
      (fun as _ h => Answered U t h (.analyses as)) fun x _ => Refused U t x := by
  refine shows_reading tolerant_refused (fun _ _ => persists_answered _) (fun _ _ _ => answered_since) ?_
  refine shows_findDataset (by rw [hcall]; rfl) (by rw [hcall]; rfl) fun d => ?_
  refine AlsoTriple.bind (B := fun rows _ h => Answered U t h (.analyses (rows.map summaryReference))) ?_
    fun rows => AlsoTriple.pure fun _ _ _ hp => ⟨rfl, hp⟩
  refine shows_query tolerant_refused (fun _ _ hp => ?_) (fun _ _ => (persists_answered _).stable) fun _ h _ hp => ?_
  · obtain ⟨-, h₁, hle, hle', -⟩ := hp
    exact Hist.le_trans hle hle'
  · obtain ⟨hown, h₁, hle, hle', -⟩ := hp
    refine .saw (Hist.le_trans hle hle') Hist.le_rfl ?_
    rw [hcall]
    exact ⟨Option.isSome_iff_exists.mpr (isSome_of_ownedBy hown), rfl⟩

lemma refused_integrity (hcall : t.call = .createAnalysis owner_id dataset_id ∨
      ∃ analysis_id, t.call = .getAnalysis owner_id dataset_id analysis_id) (f : IntegrityFault)
    (hle : t.start ≤ h) : Refused U t (.integrityFault f) h := by
  refine ⟨h, hle, Hist.le_rfl, ?_⟩
  rcases hcall with hcall | ⟨analysis_id, hcall⟩ <;> rw [hcall] <;> trivial

theorem shows_getAnalysis {analysis_id : Uuid} (hcall : t.call = .getAnalysis owner_id dataset_id analysis_id) :
    Shows ok F U t (sinceStart t) (getAnalysis owner_id dataset_id analysis_id : Body σ _)
      (fun d _ h => Answered U t h (.analysis d)) fun x _ => Refused U t x := by
  refine shows_reading tolerant_refused (fun _ _ => persists_answered _) (fun _ _ _ => answered_since) ?_
  refine AlsoTriple.bind (B := fun found _ h => (found = none → Refused U t .datasetNotFound h) ∧
    ∀ a, found = some a → (t.start ≤ h ∧ OwnedBy dataset_id owner_id h ∧ ∃ rows, Stored a rows h) ∧
      a.id = analysis_id ∧ a.dataset_id = dataset_id) ?_ fun found => ?_
  · refine shows_query tolerant_refused (fun _ _ hp => hp) (fun found _ => ?_)
      fun _ h _ hp => ⟨fun hnone => ⟨h, hp, Hist.le_rfl, Or.inr ?_⟩, fun a ha => ?_⟩
    · refine (Stable.imp _ (persists_refused _).stable).and (Stable.forall fun a => Stable.imp _ (Stable.and ?_ (.const _)))
      exact ((Steady.since _).and ((steady_ownedBy _ _).and
        (Steady.exists fun rows => steady_stored a rows))).persists.stable
    · rw [hcall]
      exact hnone
    · obtain ⟨hfind, hds⟩ := Option.filter_eq_some_iff.mp ha
      obtain ⟨hmem, hid⟩ := Table.find?_eq_some.mp hfind
      obtain ⟨hds, how⟩ := of_decide_eq_true hds
      obtain ⟨d, hd⟩ := Option.isSome_iff_exists.mp how
      obtain ⟨hd, hdid, hdo⟩ := ownedDataset_eq_some.mp hd
      exact ⟨⟨hp, ⟨d, hd, hdid.trans hds, hdo⟩, _, hmem, rfl⟩, hid, hds⟩
  cases found with
  | none => exact AlsoTriple.raise fun _ _ _ hp => hp.1 rfl
  | some a =>
    refine AlsoTriple.assume (φ := a.id = analysis_id ∧ a.dataset_id = dataset_id) (fun _ _ _ hp => (hp.2 a rfl).2)
      fun ha => ?_
    obtain ⟨rfl, hds⟩ := ha
    -- the analysis is still there, with the results that it had
    refine AlsoTriple.bind (B := fun results _ h => t.start ≤ h ∧ ∀ detail, detailReference a results = .ok detail →
      Answered U t h (.analysis detail)) ?_ fun results => ?_
    · refine shows_query tolerant_refused (fun _ _ hp => (hp.2 a rfl).1.1) (fun results _ => ?_) fun _ h _ hp => ?_
      · exact persists_since.stable.and (Stable.forall fun detail => Stable.imp _ (persists_answered _).stable)
      · obtain ⟨⟨hle, hown, rows, hmem, -⟩, -⟩ := hp.2 a rfl
        refine ⟨hle, fun detail hdetail => .saw hle Hist.le_rfl ?_⟩
        rw [hcall]
        obtain ⟨d, hd⟩ := isSome_of_ownedBy hown
        refine ⟨a, detail, Option.filter_eq_some_iff.mpr ⟨Table.find?_eq_some.mpr ⟨hmem, rfl⟩, ?_⟩, hdetail, rfl⟩
        rw [decide_eq_true_eq, hds, hd]
        exact ⟨rfl, rfl⟩
    cases detailReference a results with
    | ok detail =>
      refine AlsoTriple.bind (B := fun out _ h => Answered U t h (.analysis out)) ?_
        fun out => AlsoTriple.pure fun _ _ _ hp => ⟨rfl, hp⟩
      exact AlsoTriple.pure fun _ _ _ hp => hp.2 detail rfl
    | error f =>
      refine AlsoTriple.bind (B := fun _ _ _ => False) ?_ fun out => AlsoTriple.pure fun _ _ _ hp => hp.elim
      exact AlsoTriple.raise fun _ _ _ hp => refused_integrity (Or.inr ⟨a.id, hcall⟩) f hp.1

/-! ### The snapshot -/

section Create

variable (hcall : t.call = .createAnalysis owner_id dataset_id)
include hcall

lemma shows_readChunks {A : Assert World} (hA : Stable (services ok F U) t.pid A) (hle : ∀ h, A h → t.start ≤ h) :
    ∀ (chunks : List Bytes) (content : Bytes), Shows ok F U t (fun (_ : σ) => A) (readChunks chunks content)
      (fun _ _ => A) fun x _ => Refused U t x
  | [], _ => AlsoTriple.pure fun _ _ _ hp => hp
  | chunk :: chunks, content => by
    refine AlsoTriple.bind (B := fun _ _ => A) ?_ fun _ => ?_
    · refine AlsoTriple.catching (Y := fun _ _ h => t.start ≤ h) ?_ fun x =>
        AlsoTriple.raise fun _ _ _ hp => refused_integrity (Or.inl hcall) _ hp
      exact shows_quiet rfl tolerant_since (fun _ => hle) (fun _ _ => hA) fun _ h c r _ hp hr => by
        cases hr
        exact ⟨fun _ _ => hp, fun x hx => by cases hx⟩
    · split
      · exact AlsoTriple.raise fun _ h _ hp => refused_integrity (Or.inl hcall) _ (hle h hp)
      · exact shows_readChunks hA hle chunks _

lemma shows_readVerifiedContent {A : Assert World} (hA : Stable (services ok F U) t.pid A)
    (hle : ∀ h, A h → t.start ≤ h) {key : StorageKey} {source : SourceSnapshot} :
    Shows ok F U t (fun (_ : σ) => A) (readVerifiedContent key source) (fun _ _ => A) fun x _ => Refused U t x := by
  refine AlsoTriple.bind (B := fun _ _ => A) ?_ fun file => ?_
  · refine AlsoTriple.catching (Y := fun _ _ h => t.start ≤ h) ?_ fun x =>
      AlsoTriple.raise fun _ _ _ hp => refused_integrity (Or.inl hcall) _ hp
    refine shows_quiet rfl tolerant_since (fun _ => hle) (fun _ _ => hA) fun _ h c r _ hp hr => ?_
    exact ⟨fun _ _ => hp, fun _ _ => hle h hp⟩
  · refine AlsoTriple.bind (B := fun _ _ => A) (shows_readChunks hcall hA hle _ _) fun content => ?_
    split
    · exact AlsoTriple.raise fun _ h _ hp => refused_integrity (Or.inl hcall) _ (hle h hp)
    · split
      · exact AlsoTriple.raise fun _ h _ hp => refused_integrity (Or.inl hcall) _ (hle h hp)
      · exact AlsoTriple.pure fun _ _ _ hp => hp

/-- The dataset of the analysis is there. -/
def AnalysisBegun (t : Caller Call World) (owner_id dataset_id : Uuid) : Assert World := fun h =>
  t.start ≤ h ∧ OwnedBy dataset_id owner_id h

omit hcall in
lemma persists_begun : Persists ok F U t.pid (AnalysisBegun t owner_id dataset_id) :=
  ((Steady.since _).and (steady_ownedBy _ _)).persists

lemma shows_captureSnapshot :
    Shows ok F U t (fun (_ : σ) => sinceStart t ()) (captureSnapshot owner_id dataset_id)
      (fun out _ h => AnalysisBegun t owner_id dataset_id h ∧ (out.2.1.map PersistedRuleSnapshot.rule_id).Nodup)
      fun x _ => Refused U t x := by
  refine shows_reading tolerant_refused (fun _ _ => persists_begun.and (Steady.const _).persists)
    (fun _ _ _ hq => hq.1.1) ?_
  refine shows_lockDataset tolerant_refused (fun _ => persists_since) (fun _ _ hp => hp) (by rw [hcall]; rfl)
    (by rw [hcall]; rfl) (fun _ _ _ hr => hr) fun d hid ho => ?_
  have habout : ∀ {h : Hist World}, Holds t.pid d h → (Call.createAnalysis owner_id dataset_id).About h.now.db d :=
    fun hd => ⟨dataset_id, rfl, ownedDataset_eq_some.mpr ⟨hd.2, hid, ho⟩⟩
  cases hu : d.upload with
  | none =>
    refine AlsoTriple.raise fun _ h _ hp => ⟨h, hp.1, Hist.le_rfl, ?_⟩
    rw [hcall]
    exact ⟨d, habout hp.2, hu⟩
  | some u =>
    simp only
    refine AlsoTriple.bind (B := fun rows _ h => AnalysisBegun t owner_id dataset_id h ∧
      (rows = [] → Refused U t .analysisRequiresRules h) ∧ (rows.map ValidationRule.id).Nodup) ?_ fun rows => ?_
    · refine shows_query tolerant_refused (fun _ _ hp => hp.1) (fun rows _ => ?_)
        fun _ h _ hp => ⟨⟨hp.1, d, hp.2.2, hid, ho⟩, fun hnil => ⟨h, hp.1, Hist.le_rfl, ?_⟩, nodup_rulesOf _ _⟩
      · exact persists_begun.stable.and ((Stable.imp _ (persists_refused _).stable).and (Stable.const _))
      · rw [hcall]
        exact ⟨d, u, habout hp.2, hu, by rw [← hid]; exact hnil⟩
    split
    · next hnil => exact AlsoTriple.raise fun _ _ _ hp => hp.2.1 hnil
    · refine AlsoTriple.assume (fun _ _ _ hp => hp.2.2) fun hids => ?_
      refine AlsoTriple.bind (B := fun _ _ => AnalysisBegun t owner_id dataset_id) ?_ fun content => ?_
      · exact (shows_readVerifiedContent hcall persists_begun.stable fun _ hp => hp.1).pre fun _ _ _ hp => hp.1
      · refine AlsoTriple.pure fun _ _ _ hp => ⟨rfl, hp, ?_⟩
        rw [List.map_map]
        exact hids

/-! ### The commit -/

omit hcall in
/-- A row of results that fits in is refused only for what it is. -/
lemma insertResult_cases {db : Db} {r : ValidationResult}
    (hnew : ∀ s ∈ db.validation_results, s.analysis_id = r.analysis_id →
      s.rule_position ≠ r.rule_position ∧ s.source_rule_id ≠ r.source_rule_id)
    (ha : ∃ a ∈ db.analyses, a.id = r.analysis_id) :
    (db.writeError (.insertResult r) = none → r.storable = true ∧ r.checks = true) ∧
      ∀ x, db.writeError (.insertResult r) = some x → x = .data ∨ x = .integrity .check := by
  have hfind : db.validation_results.find? (r.analysis_id, r.rule_position) = none :=
    Table.find?_eq_none.mpr fun s hs he => (hnew s hs (congrArg Prod.fst he)).1 (congrArg Prod.snd he)
  have hrule : (db.validation_results.rows.any fun s =>
      s.analysis_id == r.analysis_id && s.source_rule_id == r.source_rule_id) = false := by
    refine List.any_eq_false.mpr fun s hs => ?_
    rw [Bool.and_eq_true, beq_iff_eq, beq_iff_eq]
    exact fun he => (hnew s hs he.1).2 he.2
  have hanalysis : (db.analyses.find? r.analysis_id).isNone = false := by
    rw [Option.isNone_eq_false_iff]
    exact Table.isSome_find?.mpr ha
  simp only [Db.writeError, hfind, hrule, hanalysis]
  cases r.storable <;> cases r.checks <;> simp

omit hcall in
lemma insertResults_cases {analysis_id : Uuid} : ∀ {rows : List ValidationResult} {db : Db},
    (∀ r ∈ rows, r.analysis_id = analysis_id) → (rows.map ValidationResult.rule_position).Nodup →
    (rows.map ValidationResult.source_rule_id).Nodup → (∃ a ∈ db.analyses, a.id = analysis_id) →
    (∀ s ∈ db.validation_results, s.analysis_id = analysis_id → ∀ r ∈ rows,
      s.rule_position ≠ r.rule_position ∧ s.source_rule_id ≠ r.source_rule_id) →
    (db.firstError (rows.map .insertResult) = none → ∀ r ∈ rows, r.storable = true ∧ r.checks = true) ∧
      ∀ x, db.firstError (rows.map .insertResult) = some x → x = .data ∨ x = .integrity .check
  | [], db, _, _, _, _, _ => ⟨fun _ _ h => absurd h List.not_mem_nil, fun x hx => by cases hx⟩
  | r :: rows, db, hid, hpos, hrule, ha, hnew => by
    rw [List.map_cons, List.nodup_cons] at hpos hrule
    have hr := hid r List.mem_cons_self
    have hone := insertResult_cases (r := r)
      (fun s hs he => hnew s hs (he.trans hr) r List.mem_cons_self) (ha.imp fun a ha => ⟨ha.1, ha.2.trans hr.symm⟩)
    have hrest := @insertResults_cases analysis_id rows (db.apply (.insertResult r))
      (fun s hs => hid s (List.mem_cons_of_mem _ hs)) hpos.2 hrule.2 ha fun s hs he r' hr' => by
        rcases Table.mem_put.mp hs with rfl | ⟨hs, -⟩
        · exact ⟨fun h => hpos.1 (h ▸ List.mem_map_of_mem hr'), fun h => hrule.1 (h ▸ List.mem_map_of_mem hr')⟩
        · exact hnew s hs he r' (List.mem_cons_of_mem _ hr')
    rw [List.map_cons, Db.firstError]
    cases hw : db.writeError (.insertResult r) with
    | some x =>
      refine ⟨fun h => (by cases h), fun y hy => ?_⟩
      cases hy
      exact hone.2 x hw
    | none =>
      refine ⟨fun h s hs => ?_, hrest.2⟩
      rcases List.mem_cons.mp hs with rfl | hs
      · exact hone.1 hw
      · exact hrest.1 h s hs

omit hcall in
/-- **What the flush of an analysis can find**: the rows are as they should be, or one of them is refused
for what it is. -/
lemma historyWrites_cases {db : Db} {a : Analysis} {rows : List ValidationResult}
    (hnew : ∀ b ∈ db.analyses, b.id ≠ a.id) (hd : ∃ d ∈ db.datasets, d.id = a.dataset_id)
    (hpos : Positioned a.id rows) (hrules : (rows.map ValidationResult.source_rule_id).Nodup)
    (hres : ∀ r ∈ db.validation_results, r.analysis_id ≠ a.id) :
    (db.firstError (historyWrites a rows) = none → (a.storable = true ∧ a.checks = true) ∧
      ∀ r ∈ rows, r.storable = true ∧ r.checks = true) ∧
    ∀ x, db.firstError (historyWrites a rows) = some x → x = .data ∨ x = .integrity .check := by
  have hfind : db.analyses.find? a.id = none := Table.find?_eq_none.mpr hnew
  have hdataset : (db.datasets.find? a.dataset_id).isNone = false := by
    rw [Option.isNone_eq_false_iff]
    exact Table.isSome_find?.mpr hd
  have hone : (db.writeError (.insertAnalysis a) = none → a.storable = true ∧ a.checks = true) ∧
      ∀ x, db.writeError (.insertAnalysis a) = some x → x = .data ∨ x = .integrity .check := by
    simp only [Db.writeError, hfind, hdataset]
    cases a.storable <;> cases a.checks <;> simp
  have hrest := @insertResults_cases a.id rows (db.apply (.insertAnalysis a)) hpos.analysis_id
    (hpos.positions ▸ List.nodup_range') hrules ⟨a.stored, Table.mem_put.mpr (Or.inl rfl), rfl⟩
    fun s hs he => absurd he (hres s hs)
  rw [historyWrites, Db.firstError]
  cases hw : db.writeError (.insertAnalysis a) with
  | some x =>
    refine ⟨fun h => (by cases h), fun y hy => ?_⟩
    cases hy
    exact hone.2 x hw
  | none => exact ⟨fun h => ⟨hone.1 hw, hrest.1 h⟩, hrest.2⟩

omit hcall in
/-- A snapshot is of the datasets, the rules and the files. -/
lemma snapshotAt_same (hd : w.db.datasets = w'.db.datasets) (hr : w.db.validation_rules = w'.db.validation_rules)
    (hf : w.files = w'.files) {source : SourceSnapshot} {rules : List PersistedRuleSnapshot} {content : Bytes}
    (hs : SnapshotAt w owner_id dataset_id source rules content) :
    SnapshotAt w' owner_id dataset_id source rules content := by
  obtain ⟨d, u, how, hu, hsource, hrules, hfile⟩ := hs
  refine ⟨d, u, ?_, hu, hsource, ?_, hf ▸ hfile⟩
  · rw [Db.ownedDataset, ← hd]
    exact how
  · rw [Db.rulesOf, ← hr]
    exact hrules

omit hcall in
/-- A step that writes analyses only is not the moment of a snapshot. -/
lemma fromSnapshot_before (hd : w.db.datasets = h.now.db.datasets)
    (hr : w.db.validation_rules = h.now.db.validation_rules) (hf : w.files = h.now.files) {a : Analysis}
    {results : List ValidationResult} (hs : FromSnapshot (h.push w) a results) : FromSnapshot h a results := by
  obtain ⟨h₁, hle, o, rules, content, hsnap, hfor⟩ := hs
  rcases Hist.le_push_iff.mp hle with rfl | hle
  · exact ⟨h, Hist.le_rfl, o, rules, content, snapshotAt_same hd hr hf hsnap, hfor⟩
  · exact ⟨h₁, hle, o, rules, content, hsnap, hfor⟩

lemma shows_persistAnalysis {source : SourceSnapshot} {as : List AdaptedRule} {e : ValidationEngineResult}
    (hids : (as.map AdaptedRule.rule_id).Nodup) (htotal : e.total_rows = source.row_count)
    (hrs : List.Forall₂ (fun a r => r.rule = a.spec ∧ r.Balanced source.row_count) as e.rule_results) :
    Shows ok F U t (fun (_ : σ) => AnalysisBegun t owner_id dataset_id) (persistAnalysis dataset_id source as e)
      (fun d _ h => Answered U t h (.analysis d)) fun x _ => Refused U t x := by
  unfold persistAnalysis
  rw [if_neg (not_not.mpr hrs.length_eq), if_neg (not_not.mpr htotal)]
  have hfresh : ∀ u, Persists ok F U t.pid fun h => AnalysisBegun t owner_id dataset_id h ∧ FreshAnalysis t.pid u h :=
    fun u => persists_begun.and (steady_freshAnalysis u).persists
  refine AlsoTriple.bind (B := fun u _ h => AnalysisBegun t owner_id dataset_id h ∧ FreshAnalysis t.pid u h) ?_
    fun analysis_id => ?_
  · refine shows_uuid4 tolerant_refused (fun _ _ hp => hp.1) (fun u _ => (hfresh u).stable)
      fun u _ h hi hp hu => ⟨⟨Hist.le_push _ hp.1, hp.2⟩, List.mem_cons_self, fun a ha he => ?_⟩
    obtain ⟨q, hq⟩ := hi.1.analysis_issued a ha
    exact hu q (he ▸ hq)
  refine AlsoTriple.bind (B := fun _ _ h => AnalysisBegun t owner_id dataset_id h ∧
    FreshAnalysis t.pid analysis_id h) ?_ fun created_at => ?_
  · exact shows_now tolerant_refused (fun _ _ hp => hp.1.1) fun _ => (hfresh _).stable
  cases hscore : calculateQualityScore e.rule_results with
  | none =>
    refine AlsoTriple.raise fun _ h _ hp => ⟨h, hp.1.1, Hist.le_rfl, ?_⟩
    rw [hcall]
    trivial
  | some score =>
    simp only
    obtain ⟨rows, hrows⟩ := resultModels_isOk analysis_id hrs 0
    rw [hrows]
    refine AlsoTriple.bind (B := fun out _ h => (AnalysisBegun t owner_id dataset_id h ∧
      FreshAnalysis t.pid analysis_id h) ∧ out = rows) (AlsoTriple.pure fun _ _ _ hp => ⟨hp, rfl⟩) fun out => ?_
    refine AlsoTriple.assume (φ := out = rows) (fun _ _ _ hp => hp.2) fun hout => ?_
    subst hout
    set a := analysisModel analysis_id dataset_id source e.rule_results score created_at with ha
    have hstored : a.stored = a := by
      simp only [Analysis.stored, ha, analysisModel, qualityScore_stored hscore]
    obtain ⟨hfor, hof, hposn, hid⟩ := resultModels_ok hrows
    have hpos : Positioned a.id out := ⟨hid, hposn⟩
    obtain ⟨d, hd, -, -, -⟩ := detailReference_isOk hof (fits_of_forall₂ hrs) a
    have hrules : (out.map ValidationResult.source_rule_id).Nodup := by
      rw [rowFor_rule_ids hfor]
      exact hids
    have hres : ∀ {h : Hist World}, SysInv ok F h → FreshAnalysis t.pid analysis_id h →
        ∀ r ∈ h.now.db.validation_results, r.analysis_id ≠ a.id := by
      intro h hi hf r hr he
      obtain ⟨a', ha', hid'⟩ := hi.result_analysis r hr
      exact hf.2 a' ha' (hid'.trans he)
    refine AlsoTriple.bind (B := fun _ _ h => Answered U t h (.analysis d)) ?_ fun _ => ?_
    · refine shows_transaction (B := fun w _ h => w.2 = historyWrites a out ∧ (AnalysisBegun t owner_id dataset_id h ∧
          FreshAnalysis t.pid analysis_id h) ∧ (a.storable = true ∧ a.checks = true) ∧
            ∀ r ∈ out, r.storable = true ∧ r.checks = true) tolerant_refused (fun _ _ => persists_answered _)
        (fun _ _ _ => answered_since) (fun _ _ _ hb => hb.2.1.1.1) ?_ fun _ ws _ h hi hb hi' => ?_
      · refine AlsoTriple.bind (B := fun _ _ h => (AnalysisBegun t owner_id dataset_id h ∧
          FreshAnalysis t.pid analysis_id h) ∧ (a.storable = true ∧ a.checks = true) ∧
            ∀ r ∈ out, r.storable = true ∧ r.checks = true) ?_ fun _ => AlsoTriple.pure fun _ _ _ hp => ⟨rfl, hp⟩
        refine shows_flush tolerant_refused (fun _ _ hp => hp.1.1.1)
          (fun _ _ => (hfresh _).stable.and (Stable.const _)) (fun _ h hi hp he => ⟨hp.1, ?_⟩)
          fun x _ h hi hp he => ?_
        · obtain ⟨e', he', hide, -⟩ := hp.1.1.2
          exact (historyWrites_cases hp.1.2.2 ⟨e', he', hide⟩ hpos hrules (hres hi.1 hp.1.2)).1 he
        · obtain ⟨e', he', hide, -⟩ := hp.1.1.2
          exact refused_row ((historyWrites_cases hp.1.2.2 ⟨e', he', hide⟩ hpos hrules (hres hi.1 hp.1.2)).2 x he)
            (by rw [hcall]; rfl) hp.1.1.1
      · obtain ⟨rfl, ⟨⟨hle, hown⟩, hf⟩, hrow, hrowsok⟩ := hb
        have hdb : ((h.now.apply (historyWrites a out)).unlock t.pid).db = { h.now.db with
            analyses := h.now.db.analyses.put a
            validation_results := out.foldl Table.put h.now.db.validation_results } := by
          have := applyAll_historyWrites h.now.db a out
          rw [hstored] at this
          exact this
        have hmem : a ∈ ((h.now.apply (historyWrites a out)).unlock t.pid).db.analyses := by
          rw [hdb]
          exact Table.mem_put.mpr (Or.inl rfl)
        -- the contract of the system says that the new analysis is complete
        have hresults : ((h.now.apply (historyWrites a out)).unlock t.pid).db.resultsOf a.id = out :=
          resultsOf_commit hpos (hres hi.1 hf)
        obtain ⟨hcomplete, hsnapshot⟩ := hi'.complete a hmem
        rw [Hist.push_now, hresults] at hcomplete hsnapshot
        have hbefore : FromSnapshot h a out := by
          refine fromSnapshot_before ?_ ?_ ?_ hsnapshot
          · rw [hdb]
          · rw [hdb]
          · rfl
        obtain ⟨e', he'⟩ := isSome_of_ownedBy hown
        have hchange : Changes U t.pid h t.call (.analysis d) ((h.now.apply (historyWrites a out)).unlock t.pid).db := by
          rw [hcall, hdb]
          exact .createAnalysis he' hf.1 hf.2 hrow hrowsok hpos hcomplete hbefore hd
        refine ⟨⟨Or.inr ⟨_, hchange⟩, fun r hr => Or.inl ?_⟩, .changed hle Hist.le_rfl hchange⟩
        rw [hdb] at hr
        exact hr
    · rw [hd]
      exact AlsoTriple.pure fun _ _ _ hp => hp

theorem shows_createAnalysis (P : Polars) :
    Shows ok F U t (sinceStart t) (createAnalysis U P owner_id dataset_id : Body σ _)
      (fun d _ h => Answered U t h (.analysis d)) fun x _ => Refused U t x := by
  refine AlsoTriple.bind (shows_captureSnapshot hcall) fun out => ?_
  obtain ⟨source, rules, content⟩ := out
  refine AlsoTriple.assume (fun _ _ _ hp => hp.2) fun hids => ?_
  have hfault : ∀ {α : Type} {r : Except IntegrityFault α}, Shows ok F U t
      (fun (_ : σ) => AnalysisBegun t owner_id dataset_id) (Op.ofExcept (r.mapError .integrityFault))
        (fun a _ h => AnalysisBegun t owner_id dataset_id h ∧ r = .ok a) fun x _ => Refused U t x := by
    intro α r
    cases r with
    | ok a => exact AlsoTriple.pure fun _ _ _ hp => ⟨hp, rfl⟩
    | error f => exact AlsoTriple.raise fun _ _ _ hp => refused_integrity (Or.inl hcall) f hp.1
  refine AlsoTriple.bind (B := fun _ _ => AnalysisBegun t owner_id dataset_id) ?_ fun _ => ?_
  · refine (shows_quiet rfl tolerant_refused (fun _ _ hp => hp.1) (fun _ _ => persists_begun.stable)
      fun _ h c r _ hp hr => ?_).pre fun _ _ _ hp => hp.1
    cases hr
    exact ⟨fun _ _ => hp, fun x hx => by cases hx⟩
  refine AlsoTriple.bind hfault fun frame => AlsoTriple.assume (fun _ _ _ hp => hp.2) fun hload => ?_
  refine AlsoTriple.bind (hfault.pre fun _ _ _ hp => hp.1) fun as =>
    AlsoTriple.assume (fun _ _ _ hp => hp.2) fun hadapt => ?_
  refine AlsoTriple.bind (B := fun e _ h => AnalysisBegun t owner_id dataset_id h ∧
    validate U P frame (as.map AdaptedRule.spec) = .ok e) ?_ fun e =>
      AlsoTriple.assume (fun _ _ _ hp => hp.2) fun hval => ?_
  · refine AlsoTriple.ofExcept (fun e _ h hr _ hp => ⟨hp.1, runEngine_ok hr⟩) fun x _ h hr _ hp => ?_
    rcases runEngine_error hr with ⟨f, -, rfl⟩ | rfl
    · exact refused_integrity (Or.inl hcall) _ hp.1.1
    · refine ⟨h, hp.1.1, Hist.le_rfl, ?_⟩
      rw [hcall]
      trivial
  obtain ⟨htotal, hresults⟩ := validate_ok hval
  obtain ⟨-, hheight, -⟩ := loadTextualCsv_ok hload
  rw [hheight] at htotal hresults
  refine (shows_persistAnalysis hcall ?_ htotal (List.forall₂_map_left_iff.mp hresults)).pre fun _ _ _ hp => hp.1
  rw [adapts_rule_ids (adaptRules_ok hadapt)]
  exact hids

end Create

end DataCheck.Analyses
