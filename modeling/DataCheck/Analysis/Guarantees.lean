import DataCheck.Datasets.Guarantees
import DataCheck.Shared.Alone
import DataCheck.Shared.Transactions

/-!
# What the analysis service guarantees

A captured snapshot is the state of one moment, an accepted rule always runs, and a stored analysis
is complete and never changes.
-/

namespace DataCheck.Analyses

open Lib Shared Datasets Validation

variable {U : Unicode} {P : Polars} {F : Faults} {cfg cfg₁ cfg₂ : SysConfig} {p : Pid}

/-! ### Snapshots -/

/-- **A snapshot is atomic.** Where `_capture_snapshot` returned, there was one moment since the call
started at which the dataset had exactly this upload, these rules and this file; and the file is
never found missing, or with another size or hash, unless a disk read fails. -/
theorem snapshot_atomic (hF : F.lostAcknowledgement = false) (hr : Reach U P F anyCall cfg) :
    (∀ p k h₀ source rules content f,
      cfg.threads p = some ⟨k, h₀, .vis (.captured source rules content) f⟩ →
        ∃ owner_id dataset_id, k = .createAnalysis owner_id dataset_id ∧ ∃ h₁, h₀ ≤ h₁ ∧ h₁ ≤ cfg.hist ∧
          SnapshotAt h₁.now owner_id dataset_id source rules content) ∧
    ∀ p owner_id dataset_id h₀ f,
      cfg.threads p = some ⟨.createAnalysis owner_id dataset_id, h₀, .ret (.error (.integrityFault f), ())⟩ →
        f ≠ .sizeMismatch ∧ f ≠ .hashMismatch ∧ f ≠ .overByteLimit ∧
          (f = .csvUnavailable → F.fails .read = true ∨ ∃ key, F.fails (.openBinary key) = true) := by
  refine ⟨fun p k h₀ source rules content f hp => ?_, fun p owner_id dataset_id h₀ f hp => ?_⟩
  · obtain ⟨owner_id, dataset_id, h₁, hk, hle, hle', hs⟩ :=
      reachable_at (sysInv_empty _ F) since_start (safe_body creates_any) hr hp
    exact ⟨owner_id, dataset_id, hk, h₁, hle, hle', hs⟩
  · have hf : RaiseOk U P F (fun _ => True) (.integrityFault f) := reach_threw creates_any hr hp
    rcases hf f rfl with ⟨rfl, h⟩ | h | ⟨h, -⟩
    · refine ⟨by decide, by decide, by decide, fun _ => ?_⟩
      rcases h with h | h | h
      · exact Or.inl h
      · exact Or.inr h
      · rw [hF] at h
        cases h
    · rcases h with rfl | rfl | rfl | rfl <;> simp
    · rcases h with rfl | rfl | rfl <;> simp

/-- What the thread has captured, just before it goes on. -/
def capturedBy (cfg : SysConfig) (p : Pid) : Option (SourceSnapshot × List PersistedRuleSnapshot × Bytes) :=
  match cfg.threads p with
  | some ⟨_, _, .vis (.captured source rules content) _⟩ => some (source, rules, content)
  | _ => none

lemma exists_captured (h : (capturedBy cfg p).isSome = true) : ∃ k h₀ source rules content f,
    cfg.threads p = some ⟨k, h₀, .vis (.captured source rules content) f⟩ := by
  unfold capturedBy at h
  split at h
  · next hp => exact ⟨_, _, _, _, _, _, hp⟩
  · cases h

theorem snapshot_atomic_sample : ∃ h₁ owner_id dataset_id source rules content, h₁ ≤ Sample.captured.hist ∧
    SnapshotAt h₁.now owner_id dataset_id source rules content := by
  obtain ⟨k, h₀, source, rules, content, f, hp⟩ :=
    exists_captured (show (capturedBy Sample.captured 3).isSome = true by decide +kernel)
  obtain ⟨owner_id, dataset_id, -, h₁, -, hle, hs⟩ :=
    (snapshot_atomic rfl (Sample.reach _)).1 3 k h₀ source rules content f hp
  exact ⟨h₁, owner_id, dataset_id, source, rules, content, hle, hs⟩

/-! ### Accepted rules -/

/-- A `create_rule` as the router calls it: for a payload that the schema accepted, with its canonical
configuration. -/
def AcceptedCall (U : Unicode) (P : Polars) : Call → Prop
  | .createRule _ _ rule_type target_column configuration =>
    ∃ body payload, RuleCreateRequest.modelValidate U P body = some payload ∧
      rule_type = payload.configuration.typeName ∧ target_column = payload.target_column ∧
        configuration = canonicalRuleConfiguration payload
  | _ => True

/-- The rule has a configuration of its type in canonical form. -/
def Canonical (U : Unicode) (P : Polars) (r : ValidationRule) : Prop :=
  ∃ c : RuleConfiguration U P, r.rule_type = c.typeName ∧ r.configuration = c.modelDump

lemma creates_canonical : Creates (AcceptedCall U P) (Canonical U P) := by
  rintro _ _ _ _ _ ⟨_, payload, -, htype, -, hconf⟩ _ _
  exact ⟨payload.configuration, htype, hconf⟩

lemma runs_canonical (hP : ByPattern P) : Runs U P (Canonical U P) where
  by_pattern := hP
  rule r := by
    rintro ⟨c, htype, hconf⟩
    rw [htype, hconf]
    refine ⟨?_, c, c.modelValidate_modelDump⟩
    cases c <;> simp [RuleConfiguration.typeName, ruleTypes]

/-- A snapshot with a rule is sound, whenever it was taken. -/
lemma SnapshotAt.sound {ok : ValidationRule → Prop} {h : Hist World} (hi : SysInv ok F h)
    {owner_id dataset_id : Uuid} {source : SourceSnapshot} {rules : List PersistedRuleSnapshot}
    {content : Bytes} (hs : SnapshotAt h.now owner_id dataset_id source rules content)
    (hne : rules ≠ []) : SoundSnapshot ok source rules content := by
  obtain ⟨d, u, hd, hu, rfl, rfl, hf⟩ := hs
  obtain ⟨hmem, rfl, -⟩ := ownedDataset_eq_some.mp hd
  exact soundSnapshot hi hmem hu rfl (fun hn => hne (by rw [hn]; rfl)) hf

/-- **What was accepted always runs.** Once the file of a captured snapshot is loaded, its rules are
adapted, the engine accepts them, and its results pass every check; so `create_analysis` reports
damaged data only where it reads or loads the file. -/
theorem accepted_rules_run (hP : ByPattern P) (hr : Reach U P F (AcceptedCall U P) cfg) :
    (∀ p k h₀ source rules content f,
      cfg.threads p = some ⟨k, h₀, .vis (.captured source rules content) f⟩ → rules ≠ [] →
        ∀ frame, loadTextualCsv P content source.column_names source.row_count = .ok frame →
          ∃ as e, adaptRules U P rules = .ok as ∧ validate U P frame (as.map AdaptedRule.spec) = .ok e ∧
            as.length = e.rule_results.length ∧ e.total_rows = source.row_count ∧
              ∀ analysis_id, ∃ rows, resultModels analysis_id source 0 as e.rule_results = .ok rows) ∧
    ∀ p owner_id dataset_id h₀ f,
      cfg.threads p = some ⟨.createAnalysis owner_id dataset_id, h₀, .ret (.error (.integrityFault f), ())⟩ →
        f = .csvUnavailable ∨ LoadFault f := by
  have hruns := runs_canonical (U := U) hP
  refine ⟨fun p k h₀ source rules content f hp hne frame hload => ?_,
    fun p owner_id dataset_id h₀ f hp => ?_⟩
  · obtain ⟨owner_id, dataset_id, h₁, -, -, hle, hsnap⟩ :=
      reachable_at (sysInv_empty _ F) since_start (safe_body creates_canonical) hr hp
    have hs := SnapshotAt.sound (reach_past creates_canonical hr hle) hsnap hne
    obtain ⟨as, has⟩ := adaptRules_runs hs hruns
    obtain ⟨e, he⟩ := validate_runs (U := U) hs hP hload (adaptRules_ok has)
    obtain ⟨htotal, hresults⟩ := validate_ok he
    obtain ⟨-, hheight, -⟩ := loadTextualCsv_ok hload
    rw [hheight] at htotal hresults
    have hrs := List.forall₂_map_left_iff.mp hresults
    exact ⟨as, e, has, he, hrs.length_eq, htotal, fun analysis_id => resultModels_isOk analysis_id hrs 0⟩
  · have hf : RaiseOk U P F (Canonical U P) (.integrityFault f) := reach_threw creates_canonical hr hp
    rcases hf f rfl with h | h | ⟨-, h⟩
    · exact Or.inl h.1
    · exact Or.inr h
    · exact absurd hruns h

lemma Sample.byPattern : ByPattern Sample.polars where
  pattern_alone _ _ _ h := by cases h
  elementwise _ _ _ h := by
    cases h
    exact List.length_map _

lemma Sample.reach_accepted : Reach Sample.unicode Sample.polars Sample.noFaults
    (AcceptedCall Sample.unicode Sample.polars) Sample.captured := by
  refine Config.Reachable.init.follow fun p k hk => ?_
  have hk' : k = .createDataset 7 (py "d") ∨ k = .uploadCsv 7 101 (some (py "f.csv")) [some Sample.content] ∨
      k = .createRule 7 101 (py "required") (py "a") [] ∨ k = .createAnalysis 7 101 := by
    simp [Sample.prepared, Sample.effects] at hk
    tauto
  rcases hk' with rfl | rfl | rfl | rfl
  · trivial
  · trivial
  · exact ⟨.obj [(py "configuration", .obj []), (py "target_column", .str (py "a")),
      (py "type", .str (py "required"))], ⟨py "a", .required⟩, rfl, rfl, rfl, rfl⟩
  · trivial

theorem accepted_rules_run_sample : ∃ rules as frame e, rules ≠ [] ∧
    adaptRules Sample.unicode Sample.polars rules = .ok as ∧
      validate Sample.unicode Sample.polars frame (as.map AdaptedRule.spec) = .ok e := by
  obtain ⟨k, h₀, source, rules, content, f, hp⟩ :=
    exists_captured (show (capturedBy Sample.captured 3).isSome = true by decide +kernel)
  have hby : capturedBy Sample.captured 3 = some (source, rules, content) := by rw [capturedBy, hp]
  have hgood : ((capturedBy Sample.captured 3).any fun s => !s.2.1.isEmpty && (loadTextualCsv Sample.polars
      s.2.2 s.1.column_names s.1.row_count).isOk) = true := by decide +kernel
  rw [hby, Option.any_some, Bool.and_eq_true] at hgood
  obtain ⟨hne, hload⟩ := hgood
  have hne' : rules ≠ [] := by
    rintro rfl
    cases hne
  cases hl : loadTextualCsv Sample.polars content source.column_names source.row_count with
  | error x => rw [hl] at hload; cases hload
  | ok frame =>
    obtain ⟨as, e, has, he, -⟩ := (accepted_rules_run Sample.byPattern Sample.reach_accepted).1 3 k h₀
      source rules content f hp hne' frame hl
    exact ⟨rules, as, frame, e, hne', has, he⟩

/-! ### Stored analyses -/

/-- The tables of analyses and of their results have the same rows. -/
def SameHistory (db db' : Db) : Prop :=
  (∀ a, a ∈ db'.analyses ↔ a ∈ db.analyses) ∧
    ∀ r, r ∈ db'.validation_results ↔ r ∈ db.validation_results

def HasStored (p : Pid) (w : World) : Prop := ∃ a ∈ w.db.analyses, (p, a.id) ∈ w.issued

/-- Once the thread has stored an analysis its session closes without a fault, on every way to `cfg`. -/
def ClosesStored (U : Unicode) (P : Polars) (F : Faults) (p : Pid) (cfg : SysConfig) : Prop :=
  ∀ cfg₁ cfg₂ c k h₀ f, Reach U P F anyCall cfg₁ → cfg₁.threads p = some ⟨k, h₀, .vis .close f⟩ →
    HasStored p cfg₁.hist.now → cfg₁.step (machine F) (Call.body U P) (.run p c) = some cfg₂ →
      cfg₂.Steps (machine F) (Call.body U P) anyCall cfg → c.fault = .none

lemma closesStored_of_not_fails (hF : F.fails .close = false) : ClosesStored U P F p cfg := by
  intro cfg₁ cfg₂ c k h₀ f _ hp _ hs _
  rcases Config.step_cases hs with ⟨_, _, hl, -⟩ | ⟨q, c', k', h', e, f', r, w, hl, hq, he, -⟩
  · cases hl
  cases hl
  rw [hp] at hq
  cases hq
  simp only [machine, hF, Bool.false_eq_true, if_false] at he
  split at he
  · assumption
  · cases he
  · cases he

/-- What a thread has stored stays. -/
lemma hasStored_steps (hr : Reach U P F anyCall cfg₁) (hs : cfg₁.Steps (machine F) (Call.body U P) anyCall cfg)
    (h : HasStored p cfg₁.hist.now) : HasStored p cfg.hist.now := by
  obtain ⟨a, ha, hm⟩ := h
  exact ⟨a, reachable_mono (φ := fun w => a ∈ w.db.analyses ∧ (p, a.id) ∈ w.issued) (sysInv_empty _ F) since_start
    (safe_body creates_any) (fun _ _ _ _ _ hg hφ => ⟨hg.analyses _ hφ.1, hg.issued_mono _ hφ.2⟩) (hs.reachable hr)
    cfg₁.hist hs.hist_le ⟨ha, hm⟩⟩

/-- What the threads of a run know of their changes. -/
lemma reach_progress (hr : Reach U P F anyCall cfg) : ∃ progress : Pid → Progress, ∀ p t, cfg.threads p = some t →
    t.prog.Follows changeOnce t.call.Knows (progress p) := by
  have hJ : Typestate.Kept (machine F) (fun _ : Call => changeOnce) fun _ _ => True := fun _ _ _ _ _ _ _ _ _ _ _ => trivial
  have hbody : Typestate.Obeyed (fun _ => changeOnce) .untried (fun _ _ => True) Call.Knows (Call.body U P) anyCall :=
    ⟨fun _ _ => trivial, fun _ _ _ _ _ _ => trivial, fun k _ => changing_body k⟩
  obtain ⟨progress, hG⟩ := reachable_tracks hJ hbody trivial hr
  exact ⟨progress, hG.follows⟩

/-- A step of a thread that changes a table is its commit, which is acknowledged. -/
lemma sameHistory_or_made (hF : F.lostAcknowledgement = false) (hr : Reach U P F anyCall cfg₁) {c : Choice}
    (hs : cfg₁.step (machine F) (Call.body U P) (.run p c) = some cfg₂) :
    SameHistory cfg₁.hist.now.db cfg₂.hist.now.db ∨ HasStored p cfg₂.hist.now ∧
      ∃ t, cfg₂.threads p = some t ∧ cfg₂.Goes changeOnce t.call.Knows (· = .made) p := by
  rcases Config.step_cases hs with ⟨_, _, hl, -⟩ | ⟨q, c', k, h', e, f, r, w, hl, hp, he, hh, hth⟩
  · cases hl
  cases hl
  have hg := reach_guar creates_any hr hp he
  have hnow : cfg₂.hist.now = w := by rw [hh]; rfl
  rw [hnow]
  by_cases hnew : ∃ a ∈ w.db.analyses, a ∉ cfg₁.hist.now.db.analyses
  · obtain ⟨a, ha, hfresh⟩ := hnew
    have hmine := (hg.new_analyses a ha).resolve_left hfresh
    refine Or.inr ⟨⟨a, ha, hg.issued_mono _ hmine⟩, ⟨k, h', f r⟩, by rw [hth, Function.update_self], ?_⟩
    have hdb : w.db ≠ cfg₁.hist.now.db := fun hdb => hfresh (hdb ▸ ha)
    have hch : e.changes = true := by
      by_contra hno
      exact hdb (exec_db (Bool.not_eq_true _ ▸ hno) he)
    obtain ⟨progress, hfollows⟩ := reach_progress hr
    obtain ⟨-, hf⟩ := hfollows p _ hp
    refine ⟨⟨k, h', f r⟩, _, by rw [hth, Function.update_self], hf r, ?_⟩
    obtain ⟨u, us, rfl⟩ := commit_of_changes hch
    rcases exec_commit_cases he with ⟨-, rfl⟩ | ⟨-, rfl | ⟨hlost, -⟩⟩
    · exact absurd rfl hdb
    · rfl
    · rw [hF] at hlost
      cases hlost
  · have hanalyses : ∀ a ∈ w.db.analyses, a ∈ cfg₁.hist.now.db.analyses := fun a ha => by
      by_contra hfresh
      exact hnew ⟨a, ha, hfresh⟩
    have hi₂ := reach_inv creates_any (Config.Reachable.step (.run p c) hr (fun _ _ hl => (nomatch hl)) hs)
    refine Or.inl ⟨fun a => ⟨hanalyses a, hg.analyses a⟩, fun r => ⟨fun hr' => ?_, hg.results r⟩⟩
    rcases hg.new_results r hr' with hold | hnew
    · exact hold
    · obtain ⟨a, ha, hid⟩ := hi₂.result_analysis r (by rw [hnow]; exact hr')
      exact absurd hid (hnew a (hanalyses a (by rw [← hnow]; exact ha)))

/-- **Every stored analysis is complete**, whatever fails.  A `create_analysis` that raises leaves both tables as
they were, unless its commit was not acknowledged, or its session then failed to close: no step of its thread
changes them. -/
theorem stored_analysis_complete (hr : Reach U P F anyCall cfg) :
    (∀ a ∈ cfg.hist.now.db.analyses, Complete a (cfg.hist.now.db.resultsOf a.id) ∧
      FromSnapshot cfg.hist a (cfg.hist.now.db.resultsOf a.id)) ∧
    (F.lostAcknowledgement = false → ∀ p owner_id dataset_id h₀ x, cfg.threads p =
        some ⟨.createAnalysis owner_id dataset_id, h₀, .ret (.error x, ())⟩ → ClosesStored U P F p cfg →
      ∀ cfg₁ cfg₂ c, Reach U P F anyCall cfg₁ →
        cfg₁.step (machine F) (Call.body U P) (.run p c) = some cfg₂ →
        cfg₂.Steps (machine F) (Call.body U P) anyCall cfg →
          SameHistory cfg₁.hist.now.db cfg₂.hist.now.db) := by
  refine ⟨(reach_inv creates_any hr).complete, fun hF p owner_id dataset_id h₀ x hp hclose cfg₁ cfg₂ c hr₁ hs hs' => ?_⟩
  rcases sameHistory_or_made hF hr₁ hs with hsame | ⟨hstored, ⟨k, h₂, m⟩, ht, hgoes⟩
  · exact hsame
  exfalso
  have hr₂ : Reach U P F anyCall cfg₂ := .step (.run p c) hr₁ (fun _ _ hl => (nomatch hl)) hs
  -- the changes stay made, since the session is closed without a fault
  have hend : cfg.Goes changeOnce k.Knows (· = .made) p := by
    refine hgoes.steps hs' fun c₁ c₂ c k h' e f r w s hto hstep hlater hq he hmay hmade => ?_
    subst hmade
    refine Progress.next_made (Bool.eq_false_iff.mpr fun hch => (nomatch hmay hch)) fun hclosing => ?_
    subst hclosing
    have hfault := hclose c₁ c₂ c k h' f (hto.reachable hr₂) hq (hasStored_steps hr₂ hto hstored) hstep hlater
    simp only [machine, hfault] at he
    cases he
    exact ⟨_, rfl⟩
  obtain ⟨m, hm⟩ := hs'.thread ht
  rw [hp] at hm
  cases hm
  obtain ⟨t', s, ht', hf, rfl⟩ := hend
  rw [hp] at ht'
  cases ht'
  have hx : x = .integrityFault .sampleInvalid := hf rfl
  rcases reach_threw creates_any hr hp _ hx with ⟨h, -⟩ | h | ⟨h, -⟩
  · cases h
  · simp [LoadFault] at h
  · simp [RuleFault] at h

namespace Sample

open Datasets.Sample

/-- The analysis of a dataset that is not there. -/
def missing : SysConfig := config (prepared ++ [.spawn 3 (.createAnalysis 7 999)])

def missed : SysConfig := missing.follow (machine noFaults) (Call.body unicode polars) (effects 3 6 400)

/-- The thread 3 has raised in that analysis. -/
def hasRaised (cfg : SysConfig) : Bool :=
  match cfg.threads 3 with
  | some ⟨.createAnalysis owner_id dataset_id, _, .ret (.error _, _)⟩ => owner_id == 7 && dataset_id == 999
  | _ => false

lemma threads_raised {cfg : SysConfig} (h : hasRaised cfg = true) :
    ∃ h₀ x, cfg.threads 3 = some ⟨.createAnalysis 7 999, h₀, .ret (.error x, ())⟩ := by
  unfold hasRaised at h
  split at h
  · next owner_id dataset_id h₀ x v hp =>
    simp only [Bool.and_eq_true, beq_iff_eq] at h
    obtain ⟨rfl, rfl⟩ := h
    exact ⟨h₀, x, hp⟩
  · cases h

end Sample

/-- A stored analysis, and the first step of one that raises. -/
theorem stored_analysis_complete_sample : (∃ a ∈ Sample.analysed.hist.now.db.analyses,
      Complete a (Sample.analysed.hist.now.db.resultsOf a.id)) ∧
    ∃ cfg, Sample.missing.step (machine Sample.noFaults) (Call.body Sample.unicode Sample.polars)
        (.run 3 ⟨.none, 5, 400⟩) = some cfg ∧ SameHistory Sample.missing.hist.now.db cfg.hist.now.db := by
  constructor
  · have h : ∃ a ∈ Sample.analysed.hist.now.db.analyses.rows, a.id = 407 := by decide +kernel
    obtain ⟨a, ha, -⟩ := h
    exact ⟨a, ha, ((stored_analysis_complete (Sample.reach _)).1 a ha).1⟩
  · have hsome : (Sample.missing.step (machine Sample.noFaults) (Call.body Sample.unicode Sample.polars)
        (.run 3 ⟨.none, 5, 400⟩)).isSome = true := by decide +kernel
    obtain ⟨cfg, hs⟩ := Option.isSome_iff_exists.mp hsome
    obtain ⟨h₀, x, hp⟩ := Sample.threads_raised (show Sample.hasRaised Sample.missed = true by decide +kernel)
    have hrest : Sample.missed = cfg.follow (machine Sample.noFaults) (Call.body Sample.unicode Sample.polars)
        ((List.range' 1 5).map fun i => .run 3 ⟨.none, 5, 400 + i⟩) := by
      rw [Sample.missed, show Sample.effects 3 6 400 = .run 3 ⟨.none, 5, 400⟩ ::
        (List.range' 1 5).map (fun i => .run 3 ⟨.none, 5, 400 + i⟩) from rfl, Config.follow, hs]
    have hreach : Reach Sample.unicode Sample.polars Sample.noFaults anyCall Sample.missed :=
      Config.Reachable.follow (Sample.reach _) fun _ _ _ => trivial
    have hs' : cfg.Steps (machine Sample.noFaults) (Call.body Sample.unicode Sample.polars) anyCall Sample.missed :=
      hrest ▸ Config.steps_follow (fun _ _ _ => trivial) .refl
    exact ⟨cfg, hs, (stored_analysis_complete hreach).2 rfl 3 7 999 h₀ x hp (closesStored_of_not_fails rfl) _ cfg _
      (Sample.reach _) hs hs'⟩

/-! ### Frozen history -/

/-- **`get_analysis` alone.** -/
theorem reads_getAnalysis {db : Db} {owner_id dataset_id analysis_id : Uuid} {a : Analysis}
    (ha : db.eval (.getForDatasetOwner analysis_id dataset_id owner_id) = some a)
    {d : AnalysisDetailReference} (hd : detailReference a (db.resultsOf a.id) = .ok d) :
    Reads U P F 4 db (.getAnalysis owner_id dataset_id analysis_id) (.ok (.analysis d)) := by
  rintro q cs w rfl hcalm hlen
  obtain ⟨c₁, c₂, c₃, c₄, cs, rfl, h₁, h₂, h₃, h₄⟩ := hcalm.four hlen
  refine ⟨(((w.apply []).unlock q).unlock q), cs, ?_, rfl⟩
  refine (Op.solo_bind_ok (solo_transaction_ok (a := d) (l := []) h₃ h₄ ?_)).trans rfl
  refine (Op.solo_bind_ok (solo_perform h₁ rfl)).trans ?_
  rw [ha]
  refine (Op.solo_bind_ok (solo_perform h₂ rfl)).trans ?_
  rw [show w.db.eval (.listForAnalysis a.id) = w.db.resultsOf a.id from rfl, hd]
  rfl

/-- **`list_analyses` alone**: one page of the summaries. -/
theorem reads_listAnalyses {db : Db} {owner_id dataset_id : Uuid} {e : Dataset}
    (he : db.ownedDataset dataset_id owner_id = some e) (limit offset : ℕ) :
    Reads U P F 4 db (.listAnalyses owner_id dataset_id limit offset)
      (.ok (.analyses ((page limit offset (db.analysesOf dataset_id owner_id)).map summaryReference))) := by
  rintro q cs w rfl hcalm hlen
  obtain ⟨c₁, c₂, c₃, c₄, cs, rfl, h₁, h₂, h₃, h₄⟩ := hcalm.four hlen
  refine ⟨(((w.apply []).unlock q).unlock q), cs, ?_, rfl⟩
  refine (Op.solo_bind_ok (solo_transaction_ok (l := []) h₃ h₄ ?_)).trans rfl
  refine (Op.solo_bind_ok (solo_perform h₁ rfl)).trans ?_
  rw [show w.db.eval (.getForOwner dataset_id owner_id) = w.db.ownedDataset dataset_id owner_id from rfl, he]
  exact (Op.solo_bind_ok (solo_perform h₂ rfl)).trans rfl

/-- The summary of a stored analysis stands once in the list of all of them. -/
lemma filter_summaries {db : Db} {owner_id dataset_id : Uuid} {a : Analysis}
    (ha : a ∈ db.analysesOf dataset_id owner_id) :
    ((db.analysesOf dataset_id owner_id).map summaryReference).filter
      (fun s => s.analysis_id = a.id) = [summaryReference a] := by
  classical
  have hmem : ∀ x ∈ db.analysesOf dataset_id owner_id, x ∈ db.analyses := by
    intro x hx
    simp only [Db.analysesOf, mem_sortOn, Table.mem_select] at hx
    exact hx.1
  have hnd : (db.analysesOf dataset_id owner_id).Nodup := sortOn_nodup (Table.select_nodup _ _)
  have hid : (db.analysesOf dataset_id owner_id).filter (fun x => x.id = a.id) =
      (db.analysesOf dataset_id owner_id).filter (· = a) := by
    refine List.filter_congr fun x hx => ?_
    exact decide_eq_decide.mpr ⟨fun he => Table.eq_of_key (hmem x hx) (hmem a ha) he, fun he => he ▸ rfl⟩
  rw [List.filter_map]
  have hcomp : ((fun s : AnalysisSummaryReference => decide (s.analysis_id = a.id)) ∘ summaryReference) =
      fun x => decide (x.id = a.id) := rfl
  rw [hcomp, hid, List.filter_eq, List.count_eq_one_of_mem hnd ha]
  rfl

/-- **History is frozen.** Once `create_analysis` returned a detail, `get_analysis` never returns
another one, whatever else runs; alone it returns that detail; and the pages of `list_analyses`, read
up to an empty page with no write in between, hold its summary exactly once. -/
theorem history_frozen {owner_id dataset_id : Uuid} {h₀ : Hist World} {d : AnalysisDetailReference}
    (hr : Reach U P F anyCall cfg) (hp : cfg.threads p =
      some ⟨.createAnalysis owner_id dataset_id, h₀, .ret (.ok (.analysis d), ())⟩) :
    (∀ q cfg₁ cfg₂ k h out,
      cfg.step (machine F) (Call.body U P) (.spawn q (.getAnalysis owner_id dataset_id d.analysis_id)) =
        some cfg₁ → cfg₁.Steps (machine F) (Call.body U P) anyCall cfg₂ →
      cfg₂.threads q = some ⟨k, h, .ret (out, ())⟩ →
        out = .ok (.analysis d) ∨ out = .error (.database .operational)) ∧
    Reads U P F 4 cfg.hist.now.db (.getAnalysis owner_id dataset_id d.analysis_id) (.ok (.analysis d)) ∧
    ∀ limit, 0 < limit → ∃ pages : ℕ → List AnalysisSummaryReference,
      (∀ i, Reads U P F 4 cfg.hist.now.db (.listAnalyses owner_id dataset_id limit (i * limit))
        (.ok (.analyses (pages i)))) ∧
      ∀ n, pages n = [] → ((List.range n).flatMap pages).filter
        (fun s => s.analysis_id = d.analysis_id) = [d.toAnalysisSummaryReference] := by
  obtain ⟨d', hd', hret⟩ := reach_reply creates_any hr hp
  cases hd'
  obtain ⟨⟨e, he, heid, heo⟩, a, rows, ⟨ha, hrows⟩, hdet, hid, hds, hsum⟩ := id hret
  have hown : cfg.hist.now.db.ownedDataset dataset_id owner_id = some e :=
    ownedDataset_eq_some.mpr ⟨he, heid, heo⟩
  refine ⟨?_, ?_, fun limit hlimit => ⟨_, fun i => reads_listAnalyses hown limit (i * limit), ?_⟩⟩
  · intro q cfg₁ cfg₂ k h out hs hs' hq
    have hr₁ : Reach U P F anyCall cfg₁ := .step _ hr (fun _ _ _ => trivial) hs
    have hr₂ := hs'.reachable hr₁
    rcases Config.step_cases hs with ⟨q', k', hl, -, -, ht⟩ | ⟨_, _, _, _, _, _, _, _, hl, -⟩
    swap
    · cases hl
    cases hl
    -- the thread of `get_analysis` started when the detail had been returned
    obtain ⟨m, hm⟩ := hs'.thread (t := ⟨_, cfg.hist, _⟩) (by rw [ht, Function.update_self])
    rw [hq] at hm
    cases hm
    have hearlier : Earlier ⟨q, .getAnalysis owner_id dataset_id d.analysis_id, cfg.hist⟩ owner_id
        dataset_id d.analysis_id d := ⟨hret, rfl⟩
    cases out with
    | ok r => exact Or.inl (congrArg Except.ok (reach_reply creates_any hr₂ hq d hearlier))
    | error x => exact Or.inr (congrArg Except.error (reach_threw creates_any hr₂ hq d hearlier))
  · refine reads_getAnalysis (a := a) ?_ (by rw [hrows]; exact hdet)
    refine Option.filter_eq_some_iff.mpr ⟨Table.find?_eq_some.mpr ⟨ha, hid⟩, ?_⟩
    rw [decide_eq_true_eq, hds, hown]
    exact ⟨rfl, rfl⟩
  · intro n hn
    have hmem : a ∈ cfg.hist.now.db.analysesOf dataset_id owner_id := by
      simp only [Db.analysesOf, mem_sortOn, Table.mem_select, decide_eq_true_eq]
      exact ⟨ha, hds, by rw [hds, hown]; rfl⟩
    have hlen : (cfg.hist.now.db.analysesOf dataset_id owner_id).length ≤ n * limit := by
      have hpage := congrArg List.length (List.map_eq_nil_iff.mp hn)
      simp only [page, List.length_take, List.length_drop, List.length_nil] at hpage
      omega
    rw [← List.map_flatMap, flatMap_page, List.take_of_length_le hlen, ← hid, hsum]
    exact filter_summaries hmem

/-- The thread has returned an analysis of the dataset 101 of the owner 7. -/
def hasReturned (cfg : SysConfig) (p : Pid) : Bool :=
  match cfg.threads p with
  | some ⟨.createAnalysis owner_id dataset_id, _, .ret (.ok (.analysis _), _)⟩ =>
    owner_id == 7 && dataset_id == 101
  | _ => false

theorem history_frozen_sample : ∃ d : AnalysisDetailReference,
    Reads Sample.unicode Sample.polars Sample.noFaults 4 Sample.analysed.hist.now.db
      (.getAnalysis 7 101 d.analysis_id) (.ok (.analysis d)) := by
  have h : hasReturned Sample.analysed 3 = true := by decide +kernel
  unfold hasReturned at h
  split at h
  · next owner_id dataset_id h₀ d _ hp =>
    simp only [Bool.and_eq_true, beq_iff_eq] at h
    obtain ⟨rfl, rfl⟩ := h
    exact ⟨d, (history_frozen (Sample.reach _) hp).2.1⟩
  · cases h

end DataCheck.Analyses
