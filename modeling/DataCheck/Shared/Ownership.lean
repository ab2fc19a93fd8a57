import DataCheck.Shared.Invariant
import Mathlib.Data.Set.Insert

/-!
# What belongs to an owner

A dataset belongs to its owner, and so do its rules, its analyses and their results.  Here is what
a change, a constraint and a query are to an owner: a change to an owner's data is the same change
of the owner's rows, whatever else is stored, and leaves the rows of every other owner alone; what
the database refuses or answers depends on the owner's rows only.
-/

namespace DataCheck.Shared

open Lib Datasets Analyses

/-! ### The rows of an owner -/

/-- Rows of the four tables. -/
@[ext]
structure OwnerRows where
  datasets : Set Dataset
  validation_rules : Set ValidationRule
  analyses : Set Analysis
  validation_results : Set ValidationResult

namespace OwnerRows

def Owns (R : OwnerRows) (dataset_id : Uuid) : Prop := ∃ d ∈ R.datasets, d.id = dataset_id

def OwnsAnalysis (R : OwnerRows) (analysis_id : Uuid) : Prop := ∃ a ∈ R.analyses, a.id = analysis_id

def Names (R : OwnerRows) (key : StorageKey) : Prop :=
  ∃ d ∈ R.datasets, ∃ u, d.upload = some u ∧ u.storage_key = key

/-- What a change is to the owner whose data it changes. -/
def apply (R : OwnerRows) : Write → OwnerRows
  | .insertDataset d => { R with datasets := insert d R.datasets }
  | .updateUpload dataset_id upload updated_at => { R with
      datasets := {b | b ∈ R.datasets ∧ b.id ≠ dataset_id ∨
        ∃ d ∈ R.datasets, d.id = dataset_id ∧ b = { d with upload := some upload, updated_at }} }
  | .insertRule r => { R with validation_rules := insert r R.validation_rules }
  | .deleteRule rule_id => { R with validation_rules := {r | r ∈ R.validation_rules ∧ r.id ≠ rule_id} }
  | .insertAnalysis a => { R with analyses := insert a.stored R.analyses }
  | .insertResult r => { R with validation_results := insert r R.validation_results }

end OwnerRows

namespace Db

def Owns (db : Db) (owner_id dataset_id : Uuid) : Prop :=
  ∃ d ∈ db.datasets, d.id = dataset_id ∧ d.owner_id = owner_id

/-- The analysis is one of a dataset of the owner. -/
def OwnsAnalysis (db : Db) (owner_id analysis_id : Uuid) : Prop :=
  ∃ a ∈ db.analyses, a.id = analysis_id ∧ db.Owns owner_id a.dataset_id

/-- What belongs to the owner. -/
def ownRows (db : Db) (owner_id : Uuid) : OwnerRows where
  datasets := {d | d ∈ db.datasets ∧ d.owner_id = owner_id}
  validation_rules := {r | r ∈ db.validation_rules ∧ db.Owns owner_id r.dataset_id}
  analyses := {a | a ∈ db.analyses ∧ db.Owns owner_id a.dataset_id}
  validation_results := {r | r ∈ db.validation_results ∧ db.OwnsAnalysis owner_id r.analysis_id}

section ownRows

variable {db : Db} {o A : Uuid}

@[simp] lemma mem_ownRows_datasets {d : Dataset} :
    d ∈ (db.ownRows o).datasets ↔ d ∈ db.datasets ∧ d.owner_id = o := Iff.rfl

@[simp] lemma mem_ownRows_rules {r : ValidationRule} :
    r ∈ (db.ownRows o).validation_rules ↔ r ∈ db.validation_rules ∧ db.Owns o r.dataset_id := Iff.rfl

@[simp] lemma mem_ownRows_analyses {a : Analysis} :
    a ∈ (db.ownRows o).analyses ↔ a ∈ db.analyses ∧ db.Owns o a.dataset_id := Iff.rfl

@[simp] lemma mem_ownRows_results {r : ValidationResult} :
    r ∈ (db.ownRows o).validation_results ↔
      r ∈ db.validation_results ∧ db.OwnsAnalysis o r.analysis_id := Iff.rfl

@[simp] lemma owns_ownRows {dataset_id : Uuid} : (db.ownRows o).Owns dataset_id ↔ db.Owns o dataset_id := by
  simp only [OwnerRows.Owns, Owns, mem_ownRows_datasets, and_assoc, and_comm]

@[simp] lemma ownsAnalysis_ownRows {analysis_id : Uuid} :
    (db.ownRows o).OwnsAnalysis analysis_id ↔ db.OwnsAnalysis o analysis_id := by
  simp only [OwnerRows.OwnsAnalysis, OwnsAnalysis, mem_ownRows_analyses, and_assoc, and_comm]

lemma Owns.unique {dataset_id : Uuid} (h : db.Owns o dataset_id) (h' : db.Owns A dataset_id) : A = o := by
  obtain ⟨d, hd, hid, rfl⟩ := h
  obtain ⟨d', hd', hid', rfl⟩ := h'
  rw [Table.eq_of_key hd' hd (hid'.trans hid.symm)]

lemma OwnsAnalysis.unique {analysis_id : Uuid} (h : db.OwnsAnalysis o analysis_id)
    (h' : db.OwnsAnalysis A analysis_id) : A = o := by
  obtain ⟨a, ha, hid, ho⟩ := h
  obtain ⟨a', ha', hid', ho'⟩ := h'
  rw [Table.eq_of_key ha' ha (hid'.trans hid.symm)] at ho'
  exact ho.unique ho'

end ownRows

/-! ### Well-formed databases -/

/-- What the constraints of the tables and the drawing of identifiers promise: foreign keys, unique
storage keys, and no identifier that was not `issued`. -/
structure WellFormed (issued : Uuid → Prop) (db : Db) : Prop where
  dataset_issued : ∀ d ∈ db.datasets, issued d.id
  key_issued : ∀ d ∈ db.datasets, ∀ u, d.upload = some u → issued u.storage_key.uuid
  key_once : ∀ d ∈ db.datasets, ∀ d' ∈ db.datasets, ∀ u u', d.upload = some u → d'.upload = some u' →
    u.storage_key = u'.storage_key → d = d'
  rule_issued : ∀ r ∈ db.validation_rules, issued r.id
  rule_dataset : ∀ r ∈ db.validation_rules, ∃ d ∈ db.datasets, d.id = r.dataset_id
  analysis_issued : ∀ a ∈ db.analyses, issued a.id
  analysis_dataset : ∀ a ∈ db.analyses, ∃ d ∈ db.datasets, d.id = a.dataset_id
  result_analysis : ∀ r ∈ db.validation_results, ∃ a ∈ db.analyses, a.id = r.analysis_id

/-- Whatever is not `old` belongs to the owner. -/
structure NewIsOf (o : Uuid) (old : Uuid → Prop) (db : Db) : Prop where
  dataset : ∀ d ∈ db.datasets, ¬ old d.id → d.owner_id = o
  key : ∀ d ∈ db.datasets, ∀ u, d.upload = some u → ¬ old u.storage_key.uuid → d.owner_id = o
  rule : ∀ r ∈ db.validation_rules, ¬ old r.id → db.Owns o r.dataset_id
  analysis : ∀ a ∈ db.analyses, ¬ old a.id → db.Owns o a.dataset_id

/-- A change of an owner who has the rows `R`: to a dataset of the owner, with new identifiers. -/
def MayWrite (new : Uuid → Prop) (o : Uuid) (R : OwnerRows) : Write → Prop
  | .insertDataset d => d.owner_id = o ∧ new d.id ∧ d.upload = none
  | .updateUpload dataset_id upload _ => R.Owns dataset_id ∧ new upload.storage_key.uuid
  | .insertRule r => R.Owns r.dataset_id ∧ new r.id
  | .deleteRule rule_id => ∃ r ∈ R.validation_rules, r.id = rule_id
  | .insertAnalysis a => R.Owns a.dataset_id ∧ new a.id
  | .insertResult r => new r.analysis_id

/-! ### What the database accepts -/

section Accepted

variable {db : Db}

lemma accepts_insertDataset {d : Dataset} (h : db.writeError (.insertDataset d) = none) :
    ∀ b ∈ db.datasets, b.id ≠ d.id := by
  simp only [writeError] at h
  split at h
  · cases h
  · next hd => exact fun b hb he => hd (Table.isSome_find?.mpr ⟨b, hb, he⟩)

lemma keyFree_iff {dataset_id : Uuid} {key : StorageKey} : db.keyFree dataset_id key = true ↔
    ∀ d ∈ db.datasets, ∀ u, d.upload = some u → u.storage_key = key → d.id = dataset_id := by
  simp only [keyFree, List.all_eq_true, Bool.or_eq_true, beq_iff_eq, Option.all_eq_true, bne_iff_ne,
    ne_eq, Table.mem_def]
  refine forall₂_congr fun d _ => ?_
  constructor
  · rintro (h | h) u hu hk
    · exact h
    · exact absurd hk (h u hu)
  · intro h
    by_cases hd : d.id = dataset_id
    · exact Or.inl hd
    · exact Or.inr fun u hu hk => hd (h u hu hk)

lemma accepts_updateUpload {d : Dataset} {upload : UploadColumns} {updated_at : Time}
    (hd : d ∈ db.datasets) (h : db.writeError (.updateUpload d.id upload updated_at) = none) :
    ∀ b ∈ db.datasets, ∀ u, b.upload = some u → u.storage_key = upload.storage_key → b.id = d.id := by
  have hf : db.datasets.find? d.id = some d := Table.find?_eq_some.mpr ⟨hd, rfl⟩
  simp only [writeError, hf, datasetError] at h
  split at h
  · cases h
  · split at h
    · cases h
    · split at h
      · cases h
      · next hk =>
        simp only [Option.any_some, Bool.not_eq_true', Bool.not_eq_false] at hk
        exact keyFree_iff.mp hk

lemma accepts_insertRule {r : ValidationRule} (h : db.writeError (.insertRule r) = none) :
    ∀ b ∈ db.validation_rules, b.id ≠ r.id := by
  simp only [writeError] at h
  split at h
  · cases h
  · split at h
    · cases h
    · split at h
      · cases h
      · next hr => exact fun b hb he => hr (Table.isSome_find?.mpr ⟨b, hb, he⟩)

lemma accepts_insertAnalysis {a : Analysis} (h : db.writeError (.insertAnalysis a) = none) :
    ∀ b ∈ db.analyses, b.id ≠ a.id := by
  simp only [writeError] at h
  split at h
  · cases h
  · split at h
    · cases h
    · split at h
      · cases h
      · next ha => exact fun b hb he => ha (Table.isSome_find?.mpr ⟨b, hb, he⟩)

lemma accepts_insertResult {r : ValidationResult} (h : db.writeError (.insertResult r) = none) :
    (∀ b ∈ db.validation_results, (b.analysis_id, b.rule_position) ≠ (r.analysis_id, r.rule_position)) ∧
      ∃ a ∈ db.analyses, a.id = r.analysis_id := by
  simp only [writeError] at h
  split at h
  · cases h
  · split at h
    · cases h
    · split at h
      · cases h
      · next hr =>
        split at h
        · cases h
        · split at h
          · cases h
          · next ha =>
            refine ⟨fun b hb he => hr (Table.isSome_find?.mpr ⟨b, hb, he⟩), ?_⟩
            exact Table.isSome_find?.mp (Option.isSome_iff_ne_none.mpr (by simpa using ha))

end Accepted

/-! ### A change to an owner's data -/

section Apply

variable {db : Db} {issued old : Uuid → Prop} {o A : Uuid} {x : Write}

def New (issued old : Uuid → Prop) (u : Uuid) : Prop := issued u ∧ ¬ old u

/-- A table of datasets in which every dataset keeps its owner. -/
lemma ownRows_datasets (hw : db.WellFormed issued) {t : Table Uuid Dataset Dataset.id} {S : Set Dataset}
    (hown : ∀ id, (∃ d ∈ db.datasets, d.id = id) → ({ db with datasets := t }.Owns A id ↔ db.Owns A id))
    (hS : ∀ d, d ∈ t ∧ d.owner_id = A ↔ d ∈ S) :
    { db with datasets := t }.ownRows A = { db.ownRows A with datasets := S } := by
  refine OwnerRows.ext (Set.ext hS) (Set.ext fun r => ?_) (Set.ext fun a => ?_) (Set.ext fun r => ?_)
  · exact and_congr_right fun hr => hown _ (hw.rule_dataset r hr)
  · exact and_congr_right fun ha => hown _ (hw.analysis_dataset a ha)
  · refine and_congr_right fun _ => exists_congr fun a => and_congr_right fun ha => ?_
    exact and_congr_right fun _ => hown _ (hw.analysis_dataset a ha)

lemma ownRows_insertAnalysis (hw : db.WellFormed issued) {a : Analysis} {S : Set Analysis}
    (hfresh : ∀ b ∈ db.analyses, b.id ≠ a.id)
    (hS : ∀ b, b ∈ db.analyses.put a ∧ db.Owns A b.dataset_id ↔ b ∈ S) :
    { db with analyses := db.analyses.put a }.ownRows A = { db.ownRows A with analyses := S } := by
  refine OwnerRows.ext rfl rfl (Set.ext hS) (Set.ext fun r => and_congr_right fun hr => ?_)
  obtain ⟨b, hb, hid⟩ := hw.result_analysis r hr
  refine exists_congr fun c => ?_
  rw [Table.mem_put_of_new hfresh]
  constructor
  · rintro ⟨rfl | hc, hcid, ho⟩
    · exact absurd (hid.trans hcid.symm) (hfresh b hb)
    · exact ⟨hc, hcid, ho⟩
  · exact fun ⟨hc, h⟩ => ⟨Or.inr hc, h⟩

lemma owns_insertDataset {d : Dataset} (hfresh : ∀ b ∈ db.datasets, b.id ≠ d.id) {id : Uuid}
    (hid : ∃ b ∈ db.datasets, b.id = id) : (db.apply (.insertDataset d)).Owns A id ↔ db.Owns A id := by
  obtain ⟨b, hb, rfl⟩ := hid
  simp only [Owns, apply, Table.mem_put_of_new hfresh]
  constructor
  · rintro ⟨c, rfl | hc, hid, hA⟩
    · exact absurd hid.symm (hfresh b hb)
    · exact ⟨c, hc, hid, hA⟩
  · rintro ⟨c, hc, h⟩
    exact ⟨c, Or.inr hc, h⟩

lemma apply_updateUpload {d : Dataset} (hd : d ∈ db.datasets) (upload : UploadColumns) (updated_at : Time) :
    db.apply (.updateUpload d.id upload updated_at) =
      { db with datasets := db.datasets.put { d with upload := some upload, updated_at } } := by
  rw [apply, Table.find?_eq_some.mpr ⟨hd, rfl⟩]

lemma owns_updateUpload {d : Dataset} (hd : d ∈ db.datasets) (upload : UploadColumns) (updated_at : Time)
    {id : Uuid} : { db with datasets := db.datasets.put { d with upload := some upload, updated_at } }.Owns A id ↔
      db.Owns A id := by
  simp only [Owns, Table.mem_put]
  constructor
  · rintro ⟨b, rfl | ⟨hb, -⟩, hid, hA⟩
    · exact ⟨d, hd, hid, hA⟩
    · exact ⟨b, hb, hid, hA⟩
  · rintro ⟨b, hb, hid, hA⟩
    by_cases hbd : b.id = d.id
    · obtain rfl := Table.eq_of_key hb hd hbd
      exact ⟨_, Or.inl rfl, hid, hA⟩
    · exact ⟨b, Or.inr ⟨hb, hbd⟩, hid, hA⟩

/-- **A change to an owner's data is the same change of the owner's rows, and leaves the rows of every
other owner alone.** -/
theorem ownRows_apply (hw : db.WellFormed issued) (hn : db.NewIsOf o old)
    (hm : MayWrite (New issued old) o (db.ownRows o) x) (he : db.writeError x = none) :
    (db.apply x).ownRows o = (db.ownRows o).apply x ∧ ∀ A, A ≠ o → (db.apply x).ownRows A = db.ownRows A := by
  cases x with
  | insertDataset d =>
    obtain ⟨ho, -, -⟩ := hm
    have hfresh := accepts_insertDataset he
    refine ⟨ownRows_datasets hw (fun _ => owns_insertDataset hfresh) fun b => ?_,
      fun A hA => ownRows_datasets (S := (db.ownRows A).datasets) hw (fun _ => owns_insertDataset hfresh) fun b => ?_⟩
    · rw [Table.mem_put_of_new hfresh, or_and_right, Set.mem_insert_iff]
      exact or_congr_left (and_iff_left_of_imp fun h => h ▸ ho)
    · rw [Table.mem_put_of_new hfresh, or_and_right]
      exact or_iff_right fun h => hA (h.2.symm.trans (h.1 ▸ ho))
  | updateUpload dataset_id upload updated_at =>
    obtain ⟨d, ⟨hd, ho⟩, rfl⟩ := hm.1
    rw [apply_updateUpload hd]
    refine ⟨ownRows_datasets hw (fun _ _ => owns_updateUpload hd upload updated_at) fun b => ?_,
      fun A hA => ownRows_datasets (S := (db.ownRows A).datasets) hw
        (fun _ _ => owns_updateUpload hd upload updated_at) fun b => ?_⟩
    · rw [Table.mem_put]
      constructor
      · rintro ⟨rfl | ⟨hb, hne⟩, hbo⟩
        · exact Or.inr ⟨d, ⟨hd, ho⟩, rfl, rfl⟩
        · exact Or.inl ⟨⟨hb, hbo⟩, hne⟩
      · rintro (⟨⟨hb, hbo⟩, hne⟩ | ⟨c, ⟨hc, hco⟩, hid, rfl⟩)
        · exact ⟨Or.inr ⟨hb, hne⟩, hbo⟩
        · obtain rfl := Table.eq_of_key hc hd hid
          exact ⟨Or.inl rfl, ho⟩
    · rw [Table.mem_put]
      constructor
      · rintro ⟨rfl | ⟨hb, -⟩, hbA⟩
        · exact absurd (hbA.symm.trans ho) hA
        · exact ⟨hb, hbA⟩
      · rintro ⟨hb, hbA⟩
        refine ⟨Or.inr ⟨hb, fun hid => hA ?_⟩, hbA⟩
        rw [Table.eq_of_key hb hd hid] at hbA
        exact hbA.symm.trans ho
  | insertRule r =>
    have ho : db.Owns o r.dataset_id := owns_ownRows.mp hm.1
    have hfresh := accepts_insertRule he
    refine ⟨OwnerRows.ext rfl (Set.ext fun b => ?_) rfl rfl,
      fun A hA => OwnerRows.ext rfl (Set.ext fun b => ?_) rfl rfl⟩
    · change b ∈ db.validation_rules.put r ∧ db.Owns o b.dataset_id ↔ _
      rw [Table.mem_put_of_new hfresh, or_and_right]
      exact or_congr_left (and_iff_left_of_imp fun h => h ▸ ho)
    · change b ∈ db.validation_rules.put r ∧ db.Owns A b.dataset_id ↔ _
      rw [Table.mem_put_of_new hfresh, or_and_right]
      exact or_iff_right fun h => hA (ho.unique (h.1 ▸ h.2))
  | deleteRule rule_id =>
    obtain ⟨r, ⟨hr, ho⟩, rfl⟩ := hm
    refine ⟨OwnerRows.ext rfl (Set.ext fun b => ?_) rfl rfl,
      fun A hA => OwnerRows.ext rfl (Set.ext fun b => ?_) rfl rfl⟩
    · change b ∈ db.validation_rules.erase r.id ∧ db.Owns o b.dataset_id ↔ _
      rw [Table.mem_erase]
      exact and_right_comm
    · change b ∈ db.validation_rules.erase r.id ∧ db.Owns A b.dataset_id ↔ _
      rw [Table.mem_erase]
      refine and_congr_left fun hbA => and_iff_left_of_imp fun hb hid => hA ?_
      rw [Table.eq_of_key hb hr hid] at hbA
      exact ho.unique hbA
  | insertAnalysis a =>
    have ho : db.Owns o a.dataset_id := owns_ownRows.mp hm.1
    have hfresh : ∀ b ∈ db.analyses, b.id ≠ a.stored.id := @accepts_insertAnalysis db a he
    refine ⟨ownRows_insertAnalysis hw hfresh fun b => ?_,
      fun A hA => ownRows_insertAnalysis (S := (db.ownRows A).analyses) hw hfresh fun b => ?_⟩
    · rw [Table.mem_put_of_new hfresh, or_and_right, Set.mem_insert_iff]
      exact or_congr_left (and_iff_left_of_imp fun h => h ▸ ho)
    · rw [Table.mem_put_of_new hfresh, or_and_right]
      refine or_iff_right fun h => hA (ho.unique ?_)
      have hA' := h.2
      rw [h.1] at hA'
      exact hA'
  | insertResult r =>
    obtain ⟨hfresh, a, ha, hid⟩ := accepts_insertResult he
    have ho : db.OwnsAnalysis o r.analysis_id := ⟨a, ha, hid, hn.analysis a ha (hid ▸ hm.2)⟩
    refine ⟨OwnerRows.ext rfl rfl rfl (Set.ext fun b => ?_),
      fun A hA => OwnerRows.ext rfl rfl rfl (Set.ext fun b => ?_)⟩
    · change b ∈ db.validation_results.put r ∧ db.OwnsAnalysis o b.analysis_id ↔ _
      rw [Table.mem_put_of_new hfresh, or_and_right]
      exact or_congr_left (and_iff_left_of_imp fun h => h ▸ ho)
    · change b ∈ db.validation_results.put r ∧ db.OwnsAnalysis A b.analysis_id ↔ _
      rw [Table.mem_put_of_new hfresh, or_and_right]
      exact or_iff_right fun h => hA (ho.unique (h.1 ▸ h.2))

lemma mem_insertDataset {d b : Dataset} (he : db.writeError (.insertDataset d) = none) :
    b ∈ (db.apply (.insertDataset d)).datasets ↔ b = d ∨ b ∈ db.datasets :=
  Table.mem_put_of_new (accepts_insertDataset he)

lemma mem_insertRule {r b : ValidationRule} (he : db.writeError (.insertRule r) = none) :
    b ∈ (db.apply (.insertRule r)).validation_rules ↔ b = r ∨ b ∈ db.validation_rules :=
  Table.mem_put_of_new (accepts_insertRule he)

lemma mem_insertAnalysis {a b : Analysis} (he : db.writeError (.insertAnalysis a) = none) :
    b ∈ (db.apply (.insertAnalysis a)).analyses ↔ b = a.stored ∨ b ∈ db.analyses :=
  Table.mem_put_of_new (@accepts_insertAnalysis db a he)

lemma owns_apply (hm : MayWrite (New issued old) o (db.ownRows o) x) (he : db.writeError x = none)
    {id : Uuid} (h : db.Owns A id) : (db.apply x).Owns A id := by
  cases x with
  | insertDataset d =>
    have hid : ∃ b ∈ db.datasets, b.id = id := h.imp fun b hb => ⟨hb.1, hb.2.1⟩
    exact (owns_insertDataset (accepts_insertDataset he) hid).mpr h
  | updateUpload dataset_id upload updated_at =>
    obtain ⟨d, ⟨hd, -⟩, rfl⟩ := hm.1
    rw [apply_updateUpload hd]
    exact (owns_updateUpload hd upload updated_at).mpr h
  | insertRule _ | deleteRule _ | insertAnalysis _ | insertResult _ => exact h

lemma Owns.exists {id : Uuid} (h : db.Owns A id) : ∃ d ∈ db.datasets, d.id = id :=
  h.imp fun _ hd => ⟨hd.1, hd.2.1⟩

lemma exists_owns {id : Uuid} (h : ∃ d ∈ db.datasets, d.id = id) : ∃ A, db.Owns A id :=
  let ⟨d, hd, hid⟩ := h
  ⟨d.owner_id, d, hd, hid, rfl⟩

/-- A change to an owner's data keeps the database well-formed. -/
theorem wellFormed_apply (hw : db.WellFormed issued)
    (hm : MayWrite (New issued old) o (db.ownRows o) x) (he : db.writeError x = none) :
    (db.apply x).WellFormed issued := by
  have hfk : ∀ id, (∃ d ∈ db.datasets, d.id = id) → ∃ d ∈ (db.apply x).datasets, d.id = id := fun id h =>
    let ⟨_, ho⟩ := exists_owns h
    (owns_apply hm he ho).exists
  cases x with
  | insertDataset d =>
    obtain ⟨-, hnew, hup⟩ := hm
    have hold : ∀ b ∈ (db.apply (.insertDataset d)).datasets, ∀ u, b.upload = some u → b ∈ db.datasets := by
      intro b hb u hu
      rcases (mem_insertDataset he).mp hb with rfl | hb
      · rw [hup] at hu
        cases hu
      · exact hb
    exact { hw with
      dataset_issued := fun b hb => ((mem_insertDataset he).mp hb).elim (fun h => h ▸ hnew.1) (hw.dataset_issued b)
      key_issued := fun b hb u hu => hw.key_issued b (hold b hb u hu) u hu
      key_once := fun b hb c hc u v hu hv => hw.key_once b (hold b hb u hu) c (hold c hc v hv) u v hu hv
      rule_dataset := fun r hr => hfk _ (hw.rule_dataset r hr)
      analysis_dataset := fun a ha => hfk _ (hw.analysis_dataset a ha) }
  | updateUpload dataset_id upload updated_at =>
    obtain ⟨⟨d, ⟨hd, -⟩, rfl⟩, hnew⟩ := hm
    have hkey := accepts_updateUpload hd he
    rw [apply_updateUpload hd] at hfk ⊢
    exact { hw with
      dataset_issued := fun b hb => by
        rcases Table.mem_put.mp hb with rfl | ⟨hb, -⟩
        · exact hw.dataset_issued d hd
        · exact hw.dataset_issued b hb
      key_issued := fun b hb u hu => by
        rcases Table.mem_put.mp hb with rfl | ⟨hb, -⟩
        · cases hu
          exact hnew.1
        · exact hw.key_issued b hb u hu
      key_once := fun b hb c hc u v hu hv hk => by
        rcases Table.mem_put.mp hb with rfl | ⟨hb, hbd⟩ <;> rcases Table.mem_put.mp hc with rfl | ⟨hc, hcd⟩
        · rfl
        · cases hu
          exact absurd (hkey c hc v hv hk.symm) hcd
        · cases hv
          exact absurd (hkey b hb u hu hk) hbd
        · exact hw.key_once b hb c hc u v hu hv hk
      rule_dataset := fun r hr => hfk _ (hw.rule_dataset r hr)
      analysis_dataset := fun a ha => hfk _ (hw.analysis_dataset a ha) }
  | insertRule r =>
    obtain ⟨ho, hnew⟩ := hm
    exact { hw with
      rule_issued := fun b hb => ((mem_insertRule he).mp hb).elim (fun h => h ▸ hnew.1) (hw.rule_issued b)
      rule_dataset := fun b hb =>
        ((mem_insertRule he).mp hb).elim (fun h => h ▸ (owns_ownRows.mp ho).exists) (hw.rule_dataset b) }
  | deleteRule rule_id =>
    exact { hw with
      rule_issued := fun b hb => hw.rule_issued b (Table.mem_erase.mp hb).1
      rule_dataset := fun b hb => hw.rule_dataset b (Table.mem_erase.mp hb).1 }
  | insertAnalysis a =>
    obtain ⟨ho, hnew⟩ := hm
    exact { hw with
      analysis_issued := fun b hb => ((mem_insertAnalysis he).mp hb).elim (fun h => h ▸ hnew.1) (hw.analysis_issued b)
      analysis_dataset := fun b hb =>
        ((mem_insertAnalysis he).mp hb).elim (fun h => h ▸ (owns_ownRows.mp ho).exists) (hw.analysis_dataset b)
      result_analysis := fun r hr =>
        (hw.result_analysis r hr).imp fun b hb => ⟨(mem_insertAnalysis he).mpr (Or.inr hb.1), hb.2⟩ }
  | insertResult r =>
    obtain ⟨hfresh, ha⟩ := accepts_insertResult he
    exact { hw with
      result_analysis := fun b hb =>
        ((Table.mem_put_of_new hfresh).mp hb).elim (fun h => h ▸ ha) (hw.result_analysis b) }

/-- A change to an owner's data adds nothing new to another owner's. -/
theorem newIsOf_apply (hn : db.NewIsOf o old) (hm : MayWrite (New issued old) o (db.ownRows o) x)
    (he : db.writeError x = none) : (db.apply x).NewIsOf o old := by
  have howns : ∀ id, db.Owns o id → (db.apply x).Owns o id := fun id => owns_apply hm he
  cases x with
  | insertDataset d =>
    obtain ⟨ho, -, hup⟩ := hm
    exact {
      dataset := fun b hb hb' => ((mem_insertDataset he).mp hb).elim (fun h => h ▸ ho) fun hb => hn.dataset b hb hb'
      key := fun b hb u hu hu' => ((mem_insertDataset he).mp hb).elim (fun h => h ▸ ho) fun hb => hn.key b hb u hu hu'
      rule := fun r hr hr' => howns _ (hn.rule r hr hr')
      analysis := fun a ha ha' => howns _ (hn.analysis a ha ha') }
  | updateUpload dataset_id upload updated_at =>
    obtain ⟨⟨d, ⟨hd, ho⟩, rfl⟩, -⟩ := hm
    rw [apply_updateUpload hd] at howns ⊢
    exact {
      dataset := fun b hb hb' => by
        rcases Table.mem_put.mp hb with rfl | ⟨hb, -⟩
        · exact ho
        · exact hn.dataset b hb hb'
      key := fun b hb u hu hu' => by
        rcases Table.mem_put.mp hb with rfl | ⟨hb, -⟩
        · exact ho
        · exact hn.key b hb u hu hu'
      rule := fun r hr hr' => howns _ (hn.rule r hr hr')
      analysis := fun a ha ha' => howns _ (hn.analysis a ha ha') }
  | insertRule r =>
    have ho : db.Owns o r.dataset_id := owns_ownRows.mp hm.1
    exact { hn with
      rule := fun b hb hb' => ((mem_insertRule he).mp hb).elim (fun h => h ▸ ho) fun hb => hn.rule b hb hb' }
  | deleteRule rule_id =>
    exact { hn with rule := fun b hb hb' => hn.rule b (Table.mem_erase.mp hb).1 hb' }
  | insertAnalysis a =>
    have ho : db.Owns o a.dataset_id := owns_ownRows.mp hm.1
    exact { hn with
      analysis := fun b hb hb' =>
        ((mem_insertAnalysis he).mp hb).elim (fun h => h ▸ ho) fun hb => hn.analysis b hb hb' }
  | insertResult r => exact { hn with }

end Apply

/-! ### What the database refuses -/

section Congr

variable {db db' : Db} {issued old : Uuid → Prop} {o : Uuid} {x : Write}

lemma dataset_taken (hn : db.NewIsOf o old) {id : Uuid} (h : ¬ old id) :
    (db.datasets.find? id).isSome ↔ (db.ownRows o).Owns id := by
  rw [Table.isSome_find?, owns_ownRows]
  exact exists_congr fun d => and_congr_right fun hd =>
    (and_iff_left_of_imp fun (hid : d.id = id) => hn.dataset d hd (hid ▸ h)).symm

lemma keyFree_own (hn : db.NewIsOf o old) {id : Uuid} {key : StorageKey} (h : ¬ old key.uuid) :
    db.keyFree id key = true ↔ ∀ d ∈ (db.ownRows o).datasets, ∀ u, d.upload = some u →
      u.storage_key = key → d.id = id := by
  rw [keyFree_iff]
  constructor
  · exact fun hk d hd => hk d hd.1
  · exact fun hk d hd u hu he => hk d ⟨hd, hn.key d hd u hu (he ▸ h)⟩ u hu he

lemma rule_taken (hn : db.NewIsOf o old) {id : Uuid} (h : ¬ old id) :
    (db.validation_rules.find? id).isSome ↔ ∃ r ∈ (db.ownRows o).validation_rules, r.id = id := by
  rw [Table.isSome_find?]
  refine exists_congr fun r => and_congr_left fun hid => ?_
  exact (and_iff_left_of_imp fun hr => hn.rule r hr (hid ▸ h)).symm

lemma definition_taken {r : ValidationRule} (h : db.Owns o r.dataset_id) :
    db.validation_rules.rows.any r.sameDefinition ↔
      ∃ s ∈ (db.ownRows o).validation_rules, r.sameDefinition s = true := by
  rw [List.any_eq_true]
  refine exists_congr fun s => and_congr_left fun hs => ?_
  refine (and_iff_left_of_imp fun _ => ?_).symm
  simp only [ValidationRule.sameDefinition, Bool.and_eq_true, beq_iff_eq] at hs
  exact hs.1.1.1 ▸ h

lemma analysis_taken (hn : db.NewIsOf o old) {id : Uuid} (h : ¬ old id) :
    (db.analyses.find? id).isSome ↔ (db.ownRows o).OwnsAnalysis id := by
  rw [Table.isSome_find?, ownsAnalysis_ownRows]
  exact exists_congr fun a => and_congr_right fun ha =>
    (and_iff_left_of_imp fun (hid : a.id = id) => hn.analysis a ha (hid ▸ h)).symm

/-- The results of a new analysis belong to the owner. -/
lemma result_own (hw : db.WellFormed issued) (hn : db.NewIsOf o old) {r : ValidationResult}
    (h : ¬ old r.analysis_id) : r ∈ db.validation_results ↔ r ∈ (db.ownRows o).validation_results := by
  refine (and_iff_left_of_imp fun hr => ?_).symm
  obtain ⟨a, ha, hid⟩ := hw.result_analysis r hr
  exact ⟨a, ha, hid, hn.analysis a ha (hid ▸ h)⟩

lemma result_taken (hw : db.WellFormed issued) (hn : db.NewIsOf o old) {analysis_id : Uuid} {position : ℕ}
    (h : ¬ old analysis_id) : (db.validation_results.find? (analysis_id, position)).isSome ↔
      ∃ r ∈ (db.ownRows o).validation_results, (r.analysis_id, r.rule_position) = (analysis_id, position) := by
  rw [Table.isSome_find?]
  refine exists_congr fun r => and_congr_left fun hr => result_own hw hn ?_
  rw [(Prod.mk.inj hr).1]
  exact h

lemma source_rule_taken (hw : db.WellFormed issued) (hn : db.NewIsOf o old) {r : ValidationResult}
    (h : ¬ old r.analysis_id) :
    (db.validation_results.rows.any fun s =>
        s.analysis_id == r.analysis_id && s.source_rule_id == r.source_rule_id) ↔
      ∃ s ∈ (db.ownRows o).validation_results,
        s.analysis_id = r.analysis_id ∧ s.source_rule_id = r.source_rule_id := by
  simp only [List.any_eq_true, Bool.and_eq_true, beq_iff_eq]
  refine exists_congr fun s => and_congr_left fun hs => result_own hw hn ?_
  rw [hs.1]
  exact h

lemma dataset_found {id : Uuid} (h : db.Owns o id) : (db.datasets.find? id).isNone = false := by
  obtain ⟨d, hd, rfl, -⟩ := h
  rw [Table.find?_eq_some.mpr ⟨hd, rfl⟩]
  rfl

/-- **What the database refuses depends on the owner's rows only.** -/
theorem writeError_congr (hw : db.WellFormed issued) (hw' : db'.WellFormed issued) (hn : db.NewIsOf o old)
    (hn' : db'.NewIsOf o old) (hr : db.ownRows o = db'.ownRows o)
    (hm : MayWrite (New issued old) o (db.ownRows o) x) : db.writeError x = db'.writeError x := by
  cases x with
  | insertDataset d =>
    obtain ⟨-, ⟨-, hnew⟩, hup⟩ := hm
    have hid : (db.datasets.find? d.id).isSome = (db'.datasets.find? d.id).isSome := by
      rw [Bool.eq_iff_iff, dataset_taken hn hnew, dataset_taken hn' hnew, hr]
    simp only [writeError, hid, datasetError, hup, Option.any_none]
  | updateUpload dataset_id upload updated_at =>
    obtain ⟨⟨d, hd, rfl⟩, -, hnew⟩ := hm
    have hd' : d ∈ (db'.ownRows o).datasets := hr ▸ hd
    have hkey : db.keyFree d.id upload.storage_key = db'.keyFree d.id upload.storage_key := by
      rw [Bool.eq_iff_iff, keyFree_own hn hnew, keyFree_own hn' hnew, hr]
    simp only [writeError, Table.find?_eq_some.mpr ⟨hd.1, rfl⟩, Table.find?_eq_some.mpr ⟨hd'.1, rfl⟩, datasetError,
      Option.any_some, hkey]
  | insertRule r =>
    obtain ⟨ho, -, hnew⟩ := hm
    have ho' : db'.Owns o r.dataset_id := owns_ownRows.mp (hr ▸ ho)
    rw [owns_ownRows] at ho
    have hid : (db.validation_rules.find? r.id).isSome = (db'.validation_rules.find? r.id).isSome := by
      rw [Bool.eq_iff_iff, rule_taken hn hnew, rule_taken hn' hnew, hr]
    have hdef : db.validation_rules.rows.any r.sameDefinition = db'.validation_rules.rows.any r.sameDefinition := by
      rw [Bool.eq_iff_iff, definition_taken ho, definition_taken ho', hr]
    simp only [writeError, hid, hdef, dataset_found ho, dataset_found ho']
  | deleteRule rule_id => rfl
  | insertAnalysis a =>
    obtain ⟨ho, -, hnew⟩ := hm
    have ho' : db'.Owns o a.dataset_id := owns_ownRows.mp (hr ▸ ho)
    rw [owns_ownRows] at ho
    have hid : (db.analyses.find? a.id).isSome = (db'.analyses.find? a.id).isSome := by
      rw [Bool.eq_iff_iff, analysis_taken hn hnew, analysis_taken hn' hnew, hr]
    simp only [writeError, hid, dataset_found ho, dataset_found ho']
  | insertResult r =>
    have hnew : ¬ old r.analysis_id := hm.2
    have hid : (db.validation_results.find? (r.analysis_id, r.rule_position)).isSome =
        (db'.validation_results.find? (r.analysis_id, r.rule_position)).isSome := by
      rw [Bool.eq_iff_iff, result_taken hw hn hnew, result_taken hw' hn' hnew, hr]
    have hsource := Bool.eq_iff_iff.mpr (((source_rule_taken hw hn hnew).trans (by rw [hr])).trans
      (source_rule_taken hw' hn' hnew).symm)
    have hanalysis : (db.analyses.find? r.analysis_id).isNone = (db'.analyses.find? r.analysis_id).isNone := by
      rw [← Option.not_isSome, ← Option.not_isSome, Bool.not_inj_iff, Bool.eq_iff_iff, analysis_taken hn hnew,
        analysis_taken hn' hnew, hr]
    simp only [writeError, hid, hsource, hanalysis]

end Congr

/-! ### Transactions -/

/-- Changes of an owner, one after the other. -/
def MayWrites (new : Uuid → Prop) (o : Uuid) : OwnerRows → List Write → Prop
  | _, [] => True
  | R, x :: xs => MayWrite new o R x ∧ MayWrites new o (R.apply x) xs

lemma MayWrites.mono {new new' : Uuid → Prop} (hnew : ∀ u, new u → new' u) {o : Uuid} {ws : List Write} :
    ∀ {R : OwnerRows}, MayWrites new o R ws → MayWrites new' o R ws := by
  induction ws with
  | nil => exact fun h => h
  | cons x xs ih =>
    rintro R ⟨hx, hxs⟩
    refine ⟨?_, ih hxs⟩
    cases x with
    | insertDataset d => exact ⟨hx.1, hnew _ hx.2.1, hx.2.2⟩
    | updateUpload _ _ _ | insertRule _ | insertAnalysis _ => exact ⟨hx.1, hnew _ hx.2⟩
    | deleteRule _ => exact hx
    | insertResult _ => exact hnew _ hx

section Transactions

variable {db db' : Db} {issued old : Uuid → Prop} {o : Uuid} {ws : List Write}

/-- **What a transaction is to the owners**: the database stays well-formed, the owner's rows change
as the transaction says, and all other rows are as before. -/
theorem ownRows_applyAll (hw : db.WellFormed issued) (hn : db.NewIsOf o old)
    (hm : MayWrites (New issued old) o (db.ownRows o) ws) (he : db.firstError ws = none) :
    (db.applyAll ws).WellFormed issued ∧ (db.applyAll ws).NewIsOf o old ∧
      (db.applyAll ws).ownRows o = ws.foldl OwnerRows.apply (db.ownRows o) ∧
      ∀ A, A ≠ o → (db.applyAll ws).ownRows A = db.ownRows A := by
  induction ws generalizing db with
  | nil => exact ⟨hw, hn, rfl, fun _ _ => rfl⟩
  | cons x xs ih =>
    obtain ⟨hx, hxs⟩ := hm
    rw [firstError] at he
    split at he
    · cases he
    · next hex =>
      obtain ⟨hmine, hothers⟩ := ownRows_apply hw hn hx hex
      obtain ⟨h₁, h₂, h₃, h₄⟩ :=
        ih (wellFormed_apply hw hx hex) (newIsOf_apply hn hx hex) (hmine ▸ hxs) he
      exact ⟨h₁, h₂, h₃.trans (by rw [hmine]; rfl), fun A hA => (h₄ A hA).trans (hothers A hA)⟩

/-- The same transaction is refused, or not, wherever the owner has the same rows. -/
theorem firstError_congr (hw : db.WellFormed issued) (hw' : db'.WellFormed issued) (hn : db.NewIsOf o old)
    (hn' : db'.NewIsOf o old) (hr : db.ownRows o = db'.ownRows o)
    (hm : MayWrites (New issued old) o (db.ownRows o) ws) : db.firstError ws = db'.firstError ws := by
  induction ws generalizing db db' with
  | nil => rfl
  | cons x xs ih =>
    obtain ⟨hx, hxs⟩ := hm
    have hx' : MayWrite (New issued old) o (db'.ownRows o) x := hr ▸ hx
    have he := writeError_congr hw hw' hn hn' hr hx
    simp only [firstError]
    cases hex : db.writeError x with
    | some _ => rw [← he, hex]
    | none =>
      rw [← he, hex]
      have hmine := (ownRows_apply hw hn hx hex).1
      have hmine' := (ownRows_apply hw' hn' hx' (he ▸ hex)).1
      exact ih (wellFormed_apply hw hx hex) (wellFormed_apply hw' hx' (he ▸ hex)) (newIsOf_apply hn hx hex)
        (newIsOf_apply hn' hx' (he ▸ hex)) (by rw [hmine, hmine', hr]) (hmine ▸ hxs)

/-- A storage key that a change makes an owner name is new. -/
lemma names_foldl {new : Uuid → Prop} {R : OwnerRows} {key : StorageKey}
    (hm : MayWrites new o R ws) (h : (ws.foldl OwnerRows.apply R).Names key) : R.Names key ∨ new key.uuid := by
  induction ws generalizing R with
  | nil => exact Or.inl h
  | cons x xs ih =>
    obtain ⟨hx, hxs⟩ := hm
    rcases ih hxs h with ⟨d, hd, u, hu, hk⟩ | hnew
    · cases x with
      | insertDataset b =>
        rcases hd with rfl | hd
        · rw [hx.2.2] at hu
          cases hu
        · exact Or.inl ⟨d, hd, u, hu, hk⟩
      | updateUpload dataset_id upload updated_at =>
        rcases hd with ⟨hd, -⟩ | ⟨c, -, -, rfl⟩
        · exact Or.inl ⟨d, hd, u, hu, hk⟩
        · cases hu
          exact Or.inr (hk ▸ hx.2)
      | insertRule _ | deleteRule _ | insertAnalysis _ | insertResult _ => exact Or.inl ⟨d, hd, u, hu, hk⟩
    · exact Or.inr hnew

end Transactions

/-! ### What a query answers -/

/-- A query about an owner's data. -/
def MayQuery (o : Uuid) (R : OwnerRows) : Query → Prop
  | .getForOwner _ owner_id | .listForOwner owner_id _ _ | .listForDatasetOwner _ owner_id _ _
  | .getForDatasetOwner _ _ owner_id => owner_id = o
  | .targetColumns dataset_id | .listForDataset dataset_id _ _ | .listAllForDataset dataset_id
  | .getRule dataset_id _ => R.Owns dataset_id
  | .listForAnalysis analysis_id => R.OwnsAnalysis analysis_id

end Db

def SameColumns (l l' : List PyStr) : Prop := ∀ column, column ∈ l ↔ column ∈ l'

/-- The same answer; the query without `ORDER BY` may answer in any order. -/
def Query.Same : (q : Query) → q.Rows → q.Rows → Prop
  | .targetColumns _, l, l' => SameColumns l l'
  | _, a, b => a = b

namespace Db

section Queries

variable {db db' : Db} {o : Uuid}

lemma ownedDataset_congr (hr : db.ownRows o = db'.ownRows o) (dataset_id : Uuid) :
    db.ownedDataset dataset_id o = db'.ownedDataset dataset_id o := by
  refine Option.ext fun d => ?_
  have hd : d ∈ (db.ownRows o).datasets ↔ d ∈ (db'.ownRows o).datasets := by rw [hr]
  rw [ownedDataset_eq_some, ownedDataset_eq_some, and_left_comm, and_left_comm (b := d.id = dataset_id)]
  exact and_congr_right fun _ => hd

lemma ownedDataset_isSome {dataset_id : Uuid} :
    (db.ownedDataset dataset_id o).isSome ↔ db.Owns o dataset_id := by
  simp only [Option.isSome_iff_exists, ownedDataset_eq_some, Owns]

lemma mem_rules_congr (hr : db.ownRows o = db'.ownRows o) {r : ValidationRule} (ho : db.Owns o r.dataset_id) :
    r ∈ db.validation_rules ↔ r ∈ db'.validation_rules := by
  have ho' : db'.Owns o r.dataset_id := owns_ownRows.mp (hr ▸ owns_ownRows.mpr ho)
  have hm : r ∈ (db.ownRows o).validation_rules ↔ r ∈ (db'.ownRows o).validation_rules := by rw [hr]
  rwa [mem_ownRows_rules, mem_ownRows_rules, and_iff_left ho, and_iff_left ho'] at hm

lemma rulesOf_congr (hr : db.ownRows o = db'.ownRows o) {dataset_id : Uuid} (ho : db.Owns o dataset_id) :
    db.rulesOf dataset_id = db'.rulesOf dataset_id := by
  refine sortOn_congr (Table.select_nodup _ _) (Table.select_nodup _ _) (fun r => ?_) fun r h s h' he => ?_
  · simp only [Table.mem_select, decide_eq_true_eq]
    exact and_congr_left fun hid => mem_rules_congr hr (hid ▸ ho)
  · exact Table.eq_of_key (Table.mem_select.mp h).1 (Table.mem_select.mp h').1 (Prod.ext_iff.mp he).2

lemma owned_analysis {dataset_id : Uuid} {a : Analysis} : a ∈ db.analyses ∧
    (a.dataset_id = dataset_id ∧ (db.ownedDataset a.dataset_id o).isSome = true) ↔
      a ∈ (db.ownRows o).analyses ∧ a.dataset_id = dataset_id := by
  rw [ownedDataset_isSome, mem_ownRows_analyses, and_assoc, and_comm (a := a.dataset_id = dataset_id)]

lemma analysesOf_congr (hr : db.ownRows o = db'.ownRows o) (dataset_id : Uuid) :
    db.analysesOf dataset_id o = db'.analysesOf dataset_id o := by
  refine sortOn_congr (Table.select_nodup _ _) (Table.select_nodup _ _) (fun a => ?_) fun a h b h' he => ?_
  · simp only [Table.mem_select, decide_eq_true_eq]
    rw [owned_analysis, owned_analysis, hr]
  · exact Table.eq_of_key (Table.mem_select.mp h).1 (Table.mem_select.mp h').1 (Prod.ext_iff.mp he).2

/-- **What a query about an owner's data answers depends on the owner's rows only.** -/
theorem eval_congr (hr : db.ownRows o = db'.ownRows o) {q : Query} (hq : MayQuery o (db.ownRows o) q) :
    q.Same (db.eval q) (db'.eval q) := by
  cases q with
  | getForOwner dataset_id owner_id =>
    obtain rfl : owner_id = o := hq
    exact ownedDataset_congr hr dataset_id
  | listForOwner owner_id limit offset =>
    obtain rfl : owner_id = o := hq
    refine congrArg (page limit offset) ?_
    refine sortOn_congr (Table.select_nodup _ _) (Table.select_nodup _ _) (fun d => ?_) fun d h b h' he => ?_
    · simp only [Table.mem_select, decide_eq_true_eq]
      rw [← mem_ownRows_datasets, ← mem_ownRows_datasets, hr]
    · exact Table.eq_of_key (Table.mem_select.mp h).1 (Table.mem_select.mp h').1 (Prod.ext_iff.mp he).2
  | targetColumns dataset_id =>
    have ho := owns_ownRows.mp hq
    refine fun column => ?_
    simp only [eval, List.mem_map, Table.mem_select, decide_eq_true_eq]
    refine exists_congr fun r => and_congr_left fun _ => and_congr_left fun hid => ?_
    exact mem_rules_congr hr (hid ▸ ho)
  | listForDataset dataset_id limit offset =>
    exact congrArg (page limit offset) (rulesOf_congr hr (owns_ownRows.mp hq))
  | listAllForDataset dataset_id => exact rulesOf_congr hr (owns_ownRows.mp hq)
  | getRule dataset_id rule_id =>
    have ho := owns_ownRows.mp hq
    refine Option.ext fun r => ?_
    simp only [eval, Option.filter_eq_some_iff, Table.find?_eq_some, decide_eq_true_eq]
    exact and_congr_left fun hid => and_congr_left fun _ => mem_rules_congr hr (hid ▸ ho)
  | listForDatasetOwner dataset_id owner_id limit offset =>
    obtain rfl : owner_id = o := hq
    exact congrArg (page limit offset) (analysesOf_congr hr dataset_id)
  | getForDatasetOwner analysis_id dataset_id owner_id =>
    obtain rfl : owner_id = o := hq
    refine Option.ext fun a => ?_
    simp only [eval, Option.filter_eq_some_iff, Table.find?_eq_some, decide_eq_true_eq]
    rw [and_right_comm, owned_analysis, and_right_comm (a := a ∈ db'.analyses), owned_analysis, hr]
  | listForAnalysis analysis_id =>
    have ho := ownsAnalysis_ownRows.mp hq
    have ho' : db'.OwnsAnalysis o analysis_id := ownsAnalysis_ownRows.mp (hr ▸ hq)
    refine resultsOf_congr fun r => ?_
    rw [mem_resultsOf, mem_resultsOf]
    refine and_congr_left fun hid => ?_
    have hm : r ∈ (db.ownRows o).validation_results ↔ r ∈ (db'.ownRows o).validation_results := by rw [hr]
    rwa [mem_ownRows_results, mem_ownRows_results, hid, and_iff_left ho, and_iff_left ho'] at hm

end Queries

end Db

end DataCheck.Shared
