import DataCheck.Shared.Invariant

/-!
# What an analysis stores

The rows that `_persist_analysis` writes are complete, `_detail_reference` reads them back, and
after their commit the tables hold exactly them.
-/

namespace DataCheck.Analyses

open Lib Shared Datasets Validation

/-! ### Reading a result back -/

/-- **A stored sample is read back as it was.** -/
theorem sampleReference_sampleJson {s : ViolationSample} (h : 1 ≤ s.row_number) :
    sampleReference (sampleJson s) = .ok ⟨s.row_number, s.value_preview, s.truncated⟩ := by
  obtain ⟨n, v, b⟩ := s
  have hrow : (sampleJson ⟨n, v, b⟩).get? (py "row_number") = some (.num n) := rfl
  have htrunc : (sampleJson ⟨n, v, b⟩).get? (py "truncated") = some (.bool b) := rfl
  have hval : (sampleJson ⟨n, v, b⟩).get? (py "value_preview") =
      some (previewJson v) := rfl
  have hn : ¬ (((n : ℚ).den ≠ 1) ∨ (n : ℚ).num < 1) := by
    have hn : 1 ≤ n := h
    simp only [Rat.den_natCast, Rat.num_natCast, ne_eq, not_true_eq_false, false_or]
    omega
  rw [sampleReference, hrow, htrunc]
  simp only
  rw [if_neg hn, hval]
  cases v <;> simp [previewJson]

lemma mapM_isOk {ε α β : Type} {f : α → Except ε β} :
    ∀ {l : List α}, (∀ a ∈ l, ∃ b, f a = .ok b) → ∃ bs, l.mapM f = .ok bs := by
  intro l
  induction l with
  | nil => exact fun _ => ⟨[], rfl⟩
  | cons a l ih =>
    intro h
    obtain ⟨b, hb⟩ := h a List.mem_cons_self
    obtain ⟨bs, hbs⟩ := ih fun c hc => h c (List.mem_cons_of_mem _ hc)
    refine ⟨b :: bs, ?_⟩
    rw [List.mapM_cons, hb, hbs]
    rfl

/-- A list of computations that fails has one that fails. -/
lemma mapM_error {ε α β : Type} {f : α → Except ε β} {x : ε} :
    ∀ {l : List α}, l.mapM f = .error x → ∃ a ∈ l, f a = .error x := by
  intro l
  induction l with
  | nil => exact fun h => (nomatch h)
  | cons a l ih =>
    intro h
    rw [List.mapM_cons] at h
    cases ha : f a with
    | error y =>
      rw [ha] at h
      cases h
      exact ⟨a, List.mem_cons_self, ha⟩
    | ok b =>
      cases hl : l.mapM f with
      | error y =>
        rw [ha, hl] at h
        cases h
        obtain ⟨c, hc, hcx⟩ := ih hl
        exact ⟨c, List.mem_cons_of_mem _ hc, hcx⟩
      | ok bs =>
        rw [ha, hl] at h
        cases h

lemma sampleReference_error {sample : Dict} {f : IntegrityFault} (h : sampleReference sample = .error f) :
    f = .sampleInvalid := by
  unfold sampleReference at h
  repeat' split at h
  all_goals cases h <;> rfl

lemma detailReference_error {a : Analysis} {results : List ValidationResult} {f : IntegrityFault}
    (h : detailReference a results = .error f) : f = .sampleInvalid := by
  unfold detailReference at h
  split at h
  · next x hx =>
    cases h
    obtain ⟨r, -, hr⟩ := mapM_error hx
    unfold resultReference at hr
    split at hr
    · next y hy =>
      cases hr
      obtain ⟨s, -, hs⟩ := mapM_error hy
      exact sampleReference_error hs
    · cases hr
  · cases h

/-- The row is for the adapted rule. -/
def RowFor (a : AdaptedRule) (row : ValidationResult) : Prop :=
  row.source_rule_id = a.rule_id ∧ row.rule_type = a.rule_type ∧ row.target_column = a.target_column

/-- The row holds the result, which covers `n` rows. -/
structure RowOf (n : ℕ) (r : RuleValidationResult) (row : ValidationResult) : Prop where
  rows : r.evaluated_count + r.skipped_count = n
  evaluated_count : row.evaluated_count = r.evaluated_count
  passed_count : row.passed_count = r.passed_count
  violation_count : row.violation_count = r.violation_count
  skipped_count : row.skipped_count = r.skipped_count
  violation_samples : row.violation_samples = r.violation_samples.map sampleJson

/-- **The rows of `_result_models`**: one for each rule and its result, in order. -/
theorem resultModels_ok {analysis_id : Uuid} {source : SourceSnapshot} :
    ∀ {as : List AdaptedRule} {rs : List RuleValidationResult} {position : ℕ}
      {rows : List ValidationResult}, resultModels analysis_id source position as rs = .ok rows →
      List.Forall₂ RowFor as rows ∧ List.Forall₂ (RowOf source.row_count) rs rows ∧
        rows.map ValidationResult.rule_position = List.range' position rows.length ∧
        ∀ row ∈ rows, row.analysis_id = analysis_id := by
  intro as
  induction as with
  | nil =>
    intro rs position rows h
    cases rs with
    | nil => cases h; exact ⟨.nil, .nil, rfl, fun _ h => absurd h List.not_mem_nil⟩
    | cons r rs => cases h
  | cons a as ih =>
    intro rs position rows h
    cases rs with
    | nil => cases h
    | cons r rs =>
      rw [resultModels] at h
      split at h
      · cases h
      · next row hrow =>
        split at h
        · cases h
        · next rest hrest =>
          cases h
          obtain ⟨hfor, hof, hpos, hid⟩ := ih hrest
          unfold resultModel at hrow
          split_ifs at hrow with hrule hcount
          cases hrow
          refine ⟨.cons ⟨rfl, rfl, rfl⟩ hfor,
            .cons ⟨not_not.mp hcount, rfl, rfl, rfl, rfl, rfl⟩ hof, ?_, ?_⟩
          · rw [List.map_cons, hpos, List.length_cons, List.range'_succ]
          · intro row hr
            rcases List.mem_cons.mp hr with rfl | hr
            · rfl
            · exact hid row hr

lemma rows_map_eq {n : ℕ} {rs : List RuleValidationResult} {rows : List ValidationResult}
    (h : List.Forall₂ (RowOf n) rs rows) :
    rows.map ValidationResult.evaluated_count = rs.map RuleValidationResult.evaluated_count ∧
      rows.map ValidationResult.passed_count = rs.map RuleValidationResult.passed_count ∧
      rows.map ValidationResult.violation_count = rs.map RuleValidationResult.violation_count := by
  induction h with
  | nil => exact ⟨rfl, rfl, rfl⟩
  | cons hr _ ih =>
    obtain ⟨he, hp, hv⟩ := ih
    simp only [List.map_cons, hr.evaluated_count, hr.passed_count, hr.violation_count, he, hp, hv,
      and_self]

/-- What is known of the engine's results for a table of `n` rows. -/
def Fits (n : ℕ) (rs : List RuleValidationResult) : Prop := ∀ r ∈ rs, r.Balanced n

lemma countsFit_of_rowOf {n : ℕ} {rs : List RuleValidationResult} {rows : List ValidationResult}
    (h : List.Forall₂ (RowOf n) rs rows) (hb : Fits n rs) : ∀ row ∈ rows, CountsFit row n := by
  induction h with
  | nil => exact fun _ h => absurd h List.not_mem_nil
  | @cons r row rs rows hr _ ih =>
    intro row' hrow'
    rcases List.mem_cons.mp hrow' with rfl | hrow'
    · have hbal := hb r List.mem_cons_self
      exact ⟨by rw [hr.evaluated_count, hr.skipped_count]; exact hr.rows,
        by rw [hr.evaluated_count, hr.passed_count, hr.violation_count]; exact hbal.balance,
        by rw [hr.violation_samples, List.length_map, hr.violation_count]; exact hbal.samples⟩
    · exact ih (fun r' hr' => hb r' (List.mem_cons_of_mem _ hr')) row' hrow'

/-- **`_detail_reference` accepts what was stored.** -/
theorem detailReference_isOk {n : ℕ} {rs : List RuleValidationResult} {rows : List ValidationResult}
    (h : List.Forall₂ (RowOf n) rs rows) (hb : Fits n rs) (a : Analysis) :
    ∃ d, detailReference a rows = .ok d ∧ d.analysis_id = a.id ∧ d.dataset_id = a.dataset_id ∧
      d.toAnalysisSummaryReference = summaryReference a := by
  have hrows : ∀ row ∈ rows, ∃ r, resultReference row = .ok r := by
    induction h with
    | nil => exact fun _ h => absurd h List.not_mem_nil
    | @cons r row rs rows hr _ ih =>
      intro row' hrow'
      rcases List.mem_cons.mp hrow' with rfl | hrow'
      · have hsamples : ∀ sample ∈ row'.violation_samples, ∃ s, sampleReference sample = .ok s := by
          intro sample hsample
          rw [hr.violation_samples] at hsample
          obtain ⟨s, hs, rfl⟩ := List.mem_map.mp hsample
          exact ⟨_, sampleReference_sampleJson ((hb r List.mem_cons_self).row_numbers s hs)⟩
        obtain ⟨ss, hss⟩ := mapM_isOk hsamples
        rw [resultReference, hss]
        exact ⟨_, rfl⟩
      · exact ih (fun r' hr' => hb r' (List.mem_cons_of_mem _ hr')) row' hrow'
  obtain ⟨refs, hrefs⟩ := mapM_isOk hrows
  exact ⟨⟨summaryReference a, sourceOf a, refs⟩, by rw [detailReference, hrefs]; rfl, rfl, rfl, rfl⟩

/-! ### The score -/

lemma qualityScore_stored {passed evaluated : ℤ} {score : Option ℚ}
    (h : qualityScore passed evaluated = some score) : score.map Decimal.twoDecimals = score := by
  unfold qualityScore at h
  split at h
  · cases h; rfl
  · obtain ⟨s, hs, rfl⟩ := Option.map_eq_some_iff.mp h
    exact congrArg some (Decimal.twoDecimals_quantize hs)

/-! ### Completeness -/

/-- A snapshot, as far as it does not depend on the moment. -/
structure SoundSnapshot (ok : ValidationRule → Prop) (source : SourceSnapshot)
    (rules : List PersistedRuleSnapshot) (content : Bytes) : Prop where
  nonempty : rules ≠ []
  distinct : (rules.map PersistedRuleSnapshot.rule_id).Nodup
  targets : ∀ r ∈ rules, r.target_column ∈ source.column_names
  rules_ok : ∀ r ∈ rules, ∃ v, ok v ∧ r = ruleSnapshot v
  size : content.length = source.size_bytes
  limit : source.size_bytes ≤ maxCsvBytes
  hash : sha256 content = source.content_sha256
  scan : scanCsv content = .ok ⟨source.row_count, source.column_names⟩

lemma adapts_rule_ids {U : Unicode} {P : Polars} {rules : List PersistedRuleSnapshot}
    {as : List AdaptedRule} (h : List.Forall₂ (Adapts U P) rules as) :
    as.map AdaptedRule.rule_id = rules.map PersistedRuleSnapshot.rule_id := by
  induction h with
  | nil => rfl
  | cons ha _ ih => simp only [List.map_cons, ha.rule_id, ih]

lemma adapts_spec_ids {U : Unicode} {P : Polars} {rules : List PersistedRuleSnapshot}
    {as : List AdaptedRule} (h : List.Forall₂ (Adapts U P) rules as) :
    as.map (RuleSpec.rule_id ∘ AdaptedRule.spec) = rules.map PersistedRuleSnapshot.rule_id := by
  induction h with
  | nil => rfl
  | cons ha _ ih =>
    obtain ⟨c, -, -, hspec⟩ := ha.spec
    simp only [List.map_cons, Function.comp_apply, hspec, ih]

lemma exists_adapts {U : Unicode} {P : Polars} {rules : List PersistedRuleSnapshot}
    {as : List AdaptedRule} (h : List.Forall₂ (Adapts U P) rules as) {a : AdaptedRule} (ha : a ∈ as) :
    ∃ r ∈ rules, Adapts U P r a := by
  induction h with
  | nil => cases ha
  | cons hra _ ih =>
    rcases List.mem_cons.mp ha with rfl | ha
    · exact ⟨_, List.mem_cons_self, hra⟩
    · obtain ⟨r, hr, hadapt⟩ := ih ha
      exact ⟨r, List.mem_cons_of_mem _ hr, hadapt⟩

lemma rowFor_rule_ids {as : List AdaptedRule} {rows : List ValidationResult}
    (h : List.Forall₂ RowFor as rows) :
    rows.map ValidationResult.source_rule_id = as.map AdaptedRule.rule_id := by
  induction h with
  | nil => rfl
  | cons ha _ ih => simp only [List.map_cons, ha.1, ih]

lemma resultFor_of_adapts {U : Unicode} {P : Polars} {rules : List PersistedRuleSnapshot}
    {as : List AdaptedRule} (h : List.Forall₂ (Adapts U P) rules as) :
    ∀ {rows : List ValidationResult}, List.Forall₂ RowFor as rows → List.Forall₂ ResultFor rows rules := by
  induction h with
  | nil => intro rows hr; cases hr; exact .nil
  | cons ha _ ih =>
    intro rows hr
    cases hr with
    | cons hrow hrest =>
      exact .cons ⟨hrow.1.trans ha.rule_id, hrow.2.1.trans ha.rule_type,
        hrow.2.2.trans ha.target_column⟩ (ih hrest)

/-- **The rows of an analysis are complete.** -/
theorem complete_of_resultModels {ok : ValidationRule → Prop} {U : Unicode} {P : Polars}
    {source : SourceSnapshot} {rules : List PersistedRuleSnapshot} {content : Bytes}
    (hs : SoundSnapshot ok source rules content) {as : List AdaptedRule}
    (has : List.Forall₂ (Adapts U P) rules as) {rs : List RuleValidationResult}
    (hfits : Fits source.row_count rs) {score : Option ℚ}
    (hscore : calculateQualityScore rs = some score) {analysis_id dataset_id : Uuid}
    {created_at : Time} {rows : List ValidationResult}
    (hrows : resultModels analysis_id source 0 as rs = .ok rows) :
    Complete (analysisModel analysis_id dataset_id source rs score created_at) rows := by
  obtain ⟨hfor, hof, hpos, -⟩ := resultModels_ok hrows
  obtain ⟨he, hp, hv⟩ := rows_map_eq hof
  have hids : rows.map ValidationResult.source_rule_id = rules.map PersistedRuleSnapshot.rule_id :=
    (rowFor_rule_ids hfor).trans (adapts_rule_ids has)
  refine ⟨?_, ?_, ?_, countsFit_of_rowOf hof hfits, ?_, ?_⟩
  · rintro rfl
    exact hs.nonempty (List.map_eq_nil_iff.mp hids.symm)
  · rw [hpos, List.range_eq_range']
  · rw [hids]
    exact hs.distinct
  · rw [hv]
    rfl
  · rw [hp, he]
    exact hscore

/-! ### Running a snapshot -/

/-- The engine accepts every validated configuration. -/
lemma validateCheck_checkOf {U : Unicode} {P : Polars} (c : RuleConfiguration U P) :
    validateCheck P (checkOf U P c) = .ok () := by
  cases c with
  | required => rfl
  | unique => rfl
  | type c => rfl
  | range c =>
    obtain ⟨minimum, maximum, hb, ho⟩ := c
    cases minimum with
    | none =>
      cases maximum with
      | none => simp at hb
      | some b => simp [checkOf, validateCheck, validateRange, Number.isFinite]
    | some a =>
      cases maximum with
      | none => simp [checkOf, validateCheck, validateRange, Number.isFinite]
      | some b =>
        have hab : ¬ b.val < a.val := not_lt.mpr (ho a rfl b rfl)
        simp [checkOf, validateCheck, validateRange, Number.isFinite, Number.value, hab]
  | regex c =>
    obtain ⟨-, hne, hcon⟩ := validatePolarsRegex_ok c.valid
    simp only [checkOf, validateCheck, validateRegexPattern, if_neg hne, if_neg hcon]

/-- The rules that are ever created can be run. -/
structure Runs (U : Unicode) (P : Polars) (ok : ValidationRule → Prop) : Prop where
  by_pattern : ByPattern P
  rule : ∀ r, ok r → r.rule_type ∈ ruleTypes ∧
    ∃ c, RuleConfiguration.modelValidate U P r.rule_type r.configuration = some c

lemma adaptRules_runs {ok : ValidationRule → Prop} {U : Unicode} {P : Polars} {source : SourceSnapshot}
    {rules : List PersistedRuleSnapshot} {content : Bytes} (hs : SoundSnapshot ok source rules content)
    (hr : Runs U P ok) : ∃ as, adaptRules U P rules = .ok as := by
  refine adaptRules_isOk fun r hmem => ?_
  obtain ⟨v, hv, rfl⟩ := hs.rules_ok r hmem
  obtain ⟨htype, c, hc⟩ := hr.rule v hv
  exact ⟨_, by simp only [adaptRule, ruleSnapshot, if_pos htype, hc]; rfl⟩

/-- **The engine accepts what a sound snapshot holds**, once its file is loaded. -/
theorem validate_runs {ok : ValidationRule → Prop} {U : Unicode} {P : Polars} {source : SourceSnapshot}
    {rules : List PersistedRuleSnapshot} {content : Bytes} (hs : SoundSnapshot ok source rules content)
    (hP : ByPattern P) {frame : DataFrame}
    (hload : loadTextualCsv P content source.column_names source.row_count = .ok frame)
    {as : List AdaptedRule} (has : List.Forall₂ (Adapts U P) rules as) :
    ∃ e, validate U P frame (as.map AdaptedRule.spec) = .ok e := by
  obtain ⟨hnames, -, hstring⟩ := loadTextualCsv_ok hload
  obtain ⟨-, body, -, hheader, -⟩ := scanRows_ok hs.scan
  obtain ⟨-, -, -, hcolumns, -⟩ := validateHeader_ok hheader
  refine validate_isOk hP hstring (fun spec hspec => ?_) ?_
  · obtain ⟨a, ha, rfl⟩ := List.mem_map.mp hspec
    obtain ⟨r, hr, hadapt⟩ := exists_adapts has ha
    obtain ⟨c, -, -, hspec⟩ := hadapt.spec
    have hcol := hs.targets r hr
    rw [hspec]
    refine ⟨⟨fun hnil => ?_, by rw [hnames]; exact hcol⟩, validateCheck_checkOf c⟩
    have hbad := hcolumns _ hcol
    rw [show r.target_column = [] from hnil] at hbad
    cases hbad
  · rw [List.map_map, adapts_spec_ids has]
    exact hs.distinct

/-! ### The commit -/

lemma applyAll_historyWrites (db : Db) (a : Analysis) (rows : List ValidationResult) :
    db.applyAll (historyWrites a rows) = { db with
      analyses := db.analyses.put a.stored
      validation_results := rows.foldl Table.put db.validation_results } := by
  have hres : ∀ (rows : List ValidationResult) (db : Db), (rows.map Write.insertResult).foldl Db.apply db =
      { db with validation_results := rows.foldl Table.put db.validation_results } := by
    intro rows
    induction rows with
    | nil => exact fun _ => rfl
    | cons row rows ih =>
      intro db
      rw [List.map_cons, List.foldl_cons, ih]
      rfl
  rw [historyWrites, Db.applyAll, List.foldl_cons, hres]
  rfl

/-- Rows of one analysis at the positions `0 .. n-1`. -/
structure Positioned (analysis_id : Uuid) (rows : List ValidationResult) : Prop where
  analysis_id : ∀ row ∈ rows, row.analysis_id = analysis_id
  positions : rows.map ValidationResult.rule_position = List.range' 0 rows.length

lemma Positioned.nodup {analysis_id : Uuid} {rows : List ValidationResult}
    (h : Positioned analysis_id rows) :
    (rows.map fun r => (r.analysis_id, r.rule_position)).Nodup := by
  have hp : (rows.map ValidationResult.rule_position).Nodup := h.positions ▸ List.nodup_range'
  exact List.Nodup.of_map Prod.snd (by rw [List.map_map]; exact hp)

/-- After the commit, the results of the analysis are its rows. -/
theorem mem_results_commit {db : Db} {a : Analysis} {rows : List ValidationResult}
    (hpos : Positioned a.id rows) (hnew : ∀ r ∈ db.validation_results, r.analysis_id ≠ a.id)
    {r : ValidationResult} :
    r ∈ (db.applyAll (historyWrites a rows)).validation_results ↔
      r ∈ rows ∨ r ∈ db.validation_results := by
  rw [applyAll_historyWrites]
  refine Table.mem_foldl_put hpos.nodup fun row hrow s hs he => ?_
  exact hnew s hs ((congrArg Prod.fst he).trans (hpos.analysis_id row hrow))

theorem resultsOf_commit {db : Db} {a : Analysis} {rows : List ValidationResult}
    (hpos : Positioned a.id rows) (hnew : ∀ r ∈ db.validation_results, r.analysis_id ≠ a.id) :
    (db.applyAll (historyWrites a rows)).resultsOf a.id = rows := by
  have hsorted : rows.Pairwise fun r s => r.rule_position ≤ s.rule_position := by
    have hp : (rows.map ValidationResult.rule_position).Pairwise (· ≤ ·) := by
      rw [hpos.positions]
      exact List.pairwise_le_range'
    exact List.pairwise_map.mp hp
  have hnd : rows.Nodup := List.Nodup.of_map _ hpos.nodup
  refine Eq.trans ?_ (sortOn_eq_self hsorted)
  refine sortOn_congr (Table.select_nodup _ _) hnd (fun r => ?_) fun r hr s hs he => ?_
  · rw [Table.mem_select, mem_results_commit hpos hnew, decide_eq_true_eq]
    constructor
    · rintro ⟨hr | hr, hid⟩
      · exact hr
      · exact absurd hid (hnew r hr)
    · exact fun hr => ⟨Or.inl hr, hpos.analysis_id r hr⟩
  · simp only [Table.mem_select, decide_eq_true_eq] at hr hs
    exact Table.eq_of_key hr.1 hs.1 (Prod.ext (hr.2.trans hs.2.symm) he)

end DataCheck.Analyses
