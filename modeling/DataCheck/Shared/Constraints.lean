import DataCheck.Shared.Linearization

/-!
# The constraints of the schema

The services read before they write and commit later, with other calls in between.  The constraints hold
all the same: each operation keeps them, so whatever operations do one after the other keeps them, and that
is what every run does.
-/

namespace DataCheck.Shared

open Lib Datasets Analyses

variable {U : Unicode} {P : Polars} {F : Faults} {ok : ValidationRule → Prop} {cfg : SysConfig} {p : Pid}
  {h : Hist World} {k : Call} {r : Reply} {db : Db}

/-- What every operation keeps: the CHECK constraints, the names that the policies let through, the unique
definitions of the rules, and the datasets of the analyses. -/
structure Lawful (U : Unicode) (db : Db) : Prop where
  datasets : ∀ d ∈ db.datasets, d.storable = true ∧ d.checks = true
  names : ∀ d ∈ db.datasets, ∃ name, normalizeDatasetName U name = .ok d.name
  filenames : ∀ d ∈ db.datasets, ∀ u, d.upload = some u →
    ∃ filename, normalizeCsvFilename U filename = .ok u.original_filename
  rules : ∀ r ∈ db.validation_rules, r.storable = true ∧ r.checks = true
  columns : ∀ r ∈ db.validation_rules, validateTargetColumn U r.target_column = .ok r.target_column
  definitions : ∀ r ∈ db.validation_rules, ∀ s ∈ db.validation_rules, r.sameDefinition s = true → r = s
  analyses : ∀ a ∈ db.analyses, a.storable = true ∧ a.checks = true
  analysis_dataset : ∀ a ∈ db.analyses, ∃ d ∈ db.datasets, d.id = a.dataset_id
  results : ∀ r ∈ db.validation_results, r.storable = true ∧ r.checks = true

lemma lawful_empty (U : Unicode) : Lawful U Db.empty where
  datasets d hd := absurd hd (Table.not_mem_empty d)
  names d hd := absurd hd (Table.not_mem_empty d)
  filenames d hd := absurd hd (Table.not_mem_empty d)
  rules r hr := absurd hr (Table.not_mem_empty r)
  columns r hr := absurd hr (Table.not_mem_empty r)
  definitions r hr := absurd hr (Table.not_mem_empty r)
  analyses a ha := absurd ha (Table.not_mem_empty a)
  analysis_dataset a ha := absurd ha (Table.not_mem_empty a)
  results r hr := absurd hr (Table.not_mem_empty r)

lemma sameDefinition_comm (r s : ValidationRule) : r.sameDefinition s = s.sameDefinition r := by
  rw [Bool.eq_iff_iff]
  simp only [ValidationRule.sameDefinition, Bool.and_eq_true, beq_iff_eq, Json.eqMembers_iff]
  constructor
  · rintro ⟨⟨⟨h₁, h₂⟩, h₃⟩, h₄⟩
    exact ⟨⟨⟨h₁.symm, h₂.symm⟩, h₃.symm⟩, h₄.symm⟩
  · rintro ⟨⟨⟨h₁, h₂⟩, h₃⟩, h₄⟩
    exact ⟨⟨⟨h₁.symm, h₂.symm⟩, h₃.symm⟩, h₄.symm⟩

/-- A row is written that satisfies what the others do. -/
lemma forall_put {κ α : Type} {key : α → κ} [DecidableEq κ] {t : Table κ α key} {a : α} {p : α → Prop} (ht : ∀ b ∈ t, p b)
    (ha : p a) : ∀ b ∈ t.put a, p b := by
  intro b hb
  rcases Table.mem_put.mp hb with rfl | ⟨hb, -⟩
  · exact ha
  · exact ht b hb

lemma forall_foldl_put {κ α : Type} {key : α → κ} [DecidableEq κ] {l : List α} {p : α → Prop} (hl : ∀ a ∈ l, p a) :
    ∀ {t : Table κ α key}, (∀ b ∈ t, p b) → ∀ b ∈ l.foldl Table.put t, p b := by
  induction l with
  | nil => exact fun ht => ht
  | cons a l ih =>
    intro t ht
    exact ih (fun b hb => hl b (List.mem_cons_of_mem _ hb)) (forall_put ht (hl a List.mem_cons_self))

/-- Datasets with the same identifiers are there after a row was written. -/
lemma exists_put {κ α : Type} {key : α → κ} [DecidableEq κ] {t : Table κ α key} (a : α) {x : κ} (h : ∃ b ∈ t, key b = x) :
    ∃ b ∈ t.put a, key b = x := by
  obtain ⟨b, hb, rfl⟩ := h
  by_cases he : key b = key a
  · exact ⟨a, Table.mem_put.mpr (Or.inl rfl), he.symm⟩
  · exact ⟨b, Table.mem_put.mpr (Or.inr ⟨hb, he⟩), rfl⟩

/-- **Every operation keeps the constraints.** -/
theorem Changes.lawful (hc : Changes U p h k r db) (hl : Lawful U h.now.db) : Lawful U db := by
  cases hc with
  | createDataset hname _ hupload _ hrow =>
    exact { hl with
      datasets := forall_put hl.datasets hrow
      names := forall_put hl.names ⟨_, hname⟩
      filenames := forall_put hl.filenames fun u hu => (by rw [hupload] at hu; cases hu)
      analysis_dataset := fun a ha => exists_put _ (hl.analysis_dataset a ha) }
  | @uploadCsv _ _ _ _ d u _ _ hd hname _ _ _ _ _ _ _ hrow =>
    have hname' : ∃ name, normalizeDatasetName U name = .ok d.name := hl.names d (ownedDataset_eq_some.mp hd).1
    exact { hl with
      datasets := forall_put hl.datasets hrow
      names := forall_put hl.names hname'
      filenames := forall_put hl.filenames fun u hu => (by cases hu; exact ⟨_, hname⟩)
      analysis_dataset := fun a ha => exists_put _ (hl.analysis_dataset a ha) }
  | createRule _ _ _ hvalid hrow _ _ hother =>
    refine { hl with
      rules := forall_put hl.rules hrow
      columns := forall_put hl.columns hvalid
      definitions := fun s hs t ht hsame => ?_ }
    -- no other rule has the definition of the new one
    rcases Table.mem_put.mp hs with rfl | ⟨hs', -⟩
    · rcases Table.mem_put.mp ht with rfl | ⟨ht', -⟩
      · rfl
      · rw [hother t ht'] at hsame
        cases hsame
    · rcases Table.mem_put.mp ht with rfl | ⟨ht', -⟩
      · rw [sameDefinition_comm, hother s hs'] at hsame
        cases hsame
      · exact hl.definitions s hs' t ht' hsame
  | deleteRule _ _ =>
    exact { hl with
      rules := fun s hs => hl.rules s (Table.mem_erase.mp hs).1
      columns := fun s hs => hl.columns s (Table.mem_erase.mp hs).1
      definitions := fun s hs t ht => hl.definitions s (Table.mem_erase.mp hs).1 t (Table.mem_erase.mp ht).1 }
  | createAnalysis hd _ _ hrow hrows =>
    exact { hl with
      analyses := forall_put hl.analyses hrow
      analysis_dataset := forall_put hl.analysis_dataset
        ⟨_, (ownedDataset_eq_some.mp hd).1, (ownedDataset_eq_some.mp hd).2.1⟩
      results := forall_foldl_put hrows hl.results }

/-- **Operations one after the other keep the constraints.** -/
theorem Serially.lawful {ops : List Operation} (hs : Serially U ops h) : Lawful U h.now.db := by
  induction hs with
  | start => exact lawful_empty U
  | quiet _ hdb ih =>
    rw [Hist.push_now, hdb]
    exact ih
  | perform _ hc ih => exact hc.lawful ih

/-- The constraints of the schema: CHECK, UNIQUE and FOREIGN KEY. -/
structure Constrained (U : Unicode) (db : Db) : Prop extends Lawful U db where
  storage_keys : ∀ d ∈ db.datasets, ∀ e ∈ db.datasets, ∀ u v, d.upload = some u → e.upload = some v →
    u.storage_key = v.storage_key → d = e
  rule_dataset : ∀ r ∈ db.validation_rules, ∃ d ∈ db.datasets, d.id = r.dataset_id
  result_analysis : ∀ r ∈ db.validation_results, ∃ a ∈ db.analyses, a.id = r.analysis_id
  result_rules : ∀ r ∈ db.validation_results, ∀ s ∈ db.validation_results, r.analysis_id = s.analysis_id →
    r.source_rule_id = s.source_rule_id → r = s

/-- **The constraints hold in every state that is reached.** -/
theorem constraints_hold (hr : Reach U P F anyCall cfg) : Constrained U cfg.hist.now.db := by
  obtain ⟨ops, tried, hrec⟩ := reach_recorded hr
  have hi : SysInv (fun _ => True) F cfg.hist := reach_inv creates_any hr
  refine
    { hrec.serial.lawful with
      storage_keys := hi.key_once
      rule_dataset := fun s hs => ?_
      result_analysis := hi.result_analysis
      result_rules := fun s hs t ht hanalysis hrule => ?_ }
  · obtain ⟨d, hd, hid, -⟩ := hi.targets s hs
    exact ⟨d, hd, hid⟩
  · obtain ⟨a, ha, hid⟩ := hi.result_analysis s hs
    have hdistinct := (hi.complete a ha).1.distinct
    have hmem : ∀ x ∈ cfg.hist.now.db.validation_results, x.analysis_id = a.id → x ∈ cfg.hist.now.db.resultsOf a.id :=
      fun x hx he => mem_resultsOf.mpr ⟨hx, he⟩
    exact List.inj_on_of_nodup_map hdistinct (hmem s hs hid.symm) (hmem t ht (hanalysis.symm.trans hid.symm)) hrule

theorem constraints_hold_sample : Constrained Datasets.Sample.unicode Datasets.Sample.analysed.hist.now.db :=
  constraints_hold (Datasets.Sample.reach _)

end DataCheck.Shared
