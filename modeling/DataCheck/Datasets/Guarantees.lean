import DataCheck.Shared.Runs

/-!
# What the dataset service guarantees

Two invariants of every run: an active file never dangles, and a rule never targets a column that
its dataset does not have.
-/

namespace DataCheck.Datasets

open Lib Shared

variable {U : Unicode} {P : Polars} {F : Faults} {cfg : SysConfig}

abbrev anyCall : Call → Prop := fun _ => True

lemma creates_any : Creates anyCall fun _ => True := fun _ _ _ _ _ _ _ _ => trivial

/-! ### A run -/

namespace Sample

/-- Text in which no character is special. -/
def unicode : Unicode := ⟨fun _ => false, id, id, id⟩

/-- One column with one cell. -/
def content : Bytes := [97, 10, 49, 10]

def polars : Polars where
  readCsv b := if b = content then some ⟨[⟨py "a", true, [some (py "1")]⟩], 1, by simp, by simp⟩ else none
  contains _ values := some (values.map (Option.map fun _ => true))

def noFaults : Faults := ⟨fun _ => false, false⟩

/-- `n` effects of the thread `p`; the UUIDs it draws are numbered from `u` on. -/
def effects (p : Pid) (n : ℕ) (u : Uuid) : List (Label Call Choice) :=
  (List.range n).map fun i => .run p ⟨.none, 5, u + i⟩

/-- A dataset is created, a file is uploaded, and a rule is created. -/
def prepared : List (Label Call Choice) :=
  .spawn 0 (.createDataset 7 (py "d")) :: effects 0 5 100 ++
  .spawn 1 (.uploadCsv 7 101 (some (py "f.csv")) [some content]) :: effects 1 17 200 ++
  .spawn 2 (.createRule 7 101 (py "required") (py "a") []) :: effects 2 6 300

/-- The choices of the scheduler, from the empty store. -/
def config (ls : List (Label Call Choice)) : SysConfig :=
  (Config.init World.empty).follow (machine noFaults) (Call.body unicode polars) ls

def captured : SysConfig := config (prepared ++ .spawn 3 (.createAnalysis 7 101) :: effects 3 6 400)

def analysed : SysConfig := config (prepared ++ .spawn 3 (.createAnalysis 7 101) :: effects 3 12 400)

lemma reach (ls : List (Label Call Choice)) : Reach unicode polars noFaults anyCall (config ls) :=
  Config.Reachable.init.follow fun _ _ _ => trivial

end Sample

/-! ### The guarantees -/

/-- **The active file never dangles**: every committed row with a storage key names a file that is
what the row says it is, and no two rows share a storage key. -/
theorem active_file_never_dangles (hF : F.lostAcknowledgement = false) (hr : Reach U P F anyCall cfg) :
    (∀ d ∈ cfg.hist.now.db.datasets, ∀ u, d.upload = some u → Backed cfg.hist.now u) ∧
      ∀ d ∈ cfg.hist.now.db.datasets, ∀ d' ∈ cfg.hist.now.db.datasets, ∀ u u', d.upload = some u →
        d'.upload = some u' → u.storage_key = u'.storage_key → d = d' := by
  have hi := reach_inv creates_any hr
  refine ⟨fun d hd u hu => ?_, hi.key_once⟩
  rcases hi.kept d hd u hu with hb | ⟨hl, -⟩
  · exact hb
  · rw [hF] at hl
    cases hl

theorem active_file_never_dangles_sample : ∃ d ∈ Sample.analysed.hist.now.db.datasets, ∃ u,
    d.upload = some u ∧ Backed Sample.analysed.hist.now u := by
  have hd : ∃ d ∈ Sample.analysed.hist.now.db.datasets.rows, d.upload.isSome = true := by
    decide +kernel
  obtain ⟨d, hd, hu⟩ := hd
  obtain ⟨u, hu⟩ := Option.isSome_iff_exists.mp hu
  exact ⟨d, hd, u, hu, (active_file_never_dangles rfl (Sample.reach _)).1 d hd u hu⟩

/-- **Rules always target existing columns**: a dataset with a rule has an active upload, and every
rule targets one of its columns. -/
theorem rules_target_columns (hr : Reach U P F anyCall cfg) :
    ∀ d ∈ cfg.hist.now.db.datasets, ∀ r ∈ cfg.hist.now.db.validation_rules, r.dataset_id = d.id →
      ∃ u, d.upload = some u ∧ r.target_column ∈ u.column_names := by
  intro d hd r hr' hid
  obtain ⟨d', hd', hid', hu⟩ := (reach_inv creates_any hr).targets r hr'
  obtain rfl : d' = d := Table.eq_of_key hd' hd (hid'.trans hid)
  exact hu

theorem rules_target_columns_sample : ∃ d ∈ Sample.analysed.hist.now.db.datasets,
    ∃ r ∈ Sample.analysed.hist.now.db.validation_rules, r.dataset_id = d.id ∧
      ∃ u, d.upload = some u ∧ r.target_column ∈ u.column_names := by
  have h : ∃ d ∈ Sample.analysed.hist.now.db.datasets.rows,
      ∃ r ∈ Sample.analysed.hist.now.db.validation_rules.rows, r.dataset_id = d.id := by
    decide +kernel
  obtain ⟨d, hd, r, hr, hid⟩ := h
  exact ⟨d, hd, r, hr, hid, rules_target_columns (Sample.reach _) d hd r hr hid⟩

end DataCheck.Datasets
