import DataCheck.Shared.AtomicSteps

/-!
# The dataset service performs atomic operations

Each method of the dataset service, effect by effect: the moment at which it reads, the reason for
which it refuses, and the operation that its commit is.
-/

namespace DataCheck.Datasets

open Lib Shared

variable {ok : ValidationRule → Prop} {F : Faults} {U : Unicode} {h : Hist World} {σ α β : Type}
  {t : Caller Call World} {owner_id dataset_id : Uuid}

lemma answered_since {r : Reply} (ha : Answered U t h r) : t.start ≤ h := by
  cases ha with
  | saw hle hle' _ => exact Hist.le_trans hle hle'
  | changed hle hle' _ => exact Hist.le_trans (Hist.le_push _ hle) hle'
  | overtaken _ hle hle₁ hle₂ _ _ _ => exact Hist.le_trans hle (Hist.le_trans hle₁ hle₂)

lemma refused_since {x : Exn} (hr : Refused U t x h) : t.start ≤ h := by
  obtain ⟨_, hle, hle', _⟩ := hr
  exact Hist.le_trans hle hle'

lemma refused_push {x : Exn} (w : World) (hr : Refused U t x h) : Refused U t x (h.push w) := by
  obtain ⟨h₁, hle, hle', hr⟩ := hr
  exact ⟨h₁, hle, Hist.le_push w hle', hr⟩

abbrev sinceStart (t : Caller Call World) : σ → Assert World := fun _ h => t.start ≤ h

lemma persists_since {p : Pid} : Persists ok F U p fun h => t.start ≤ h := (Steady.since _).persists

/-! ### Lookups -/

lemma shows_findDataset {Q : β → σ → Assert World} {f : Dataset → Body σ β}
    (hk : t.call.dataset = some dataset_id) (ho : t.call.owner = owner_id)
    (hf : ∀ d, Shows ok F U t (fun _ h => OwnedBy dataset_id owner_id h ∧
      Once t.start (fun w => w.db.ownedDataset dataset_id owner_id = some d) h) (f d) Q fun x _ => Refused U t x) :
    Shows ok F U t (sinceStart t) (do
      match ← getForOwner dataset_id owner_id with
      | none => Body.raise .datasetNotFound
      | some dataset => f dataset) Q fun x _ => Refused U t x := by
  refine AlsoTriple.bind (B := fun found _ h => (found = none → Refused U t .datasetNotFound h) ∧
    ∀ d, found = some d → OwnedBy dataset_id owner_id h ∧
      Once t.start (fun w => w.db.ownedDataset dataset_id owner_id = some d) h) ?_ fun found => ?_
  · refine shows_query tolerant_refused (fun _ _ hp => hp) (fun found _ => ?_) fun _ h _ hp => ⟨fun hnone => ?_, ?_⟩
    · refine Stable.and (Stable.imp _ (persists_refused _).stable) (Stable.forall fun d => Stable.imp _ ?_)
      exact ((steady_ownedBy _ _).and (steady_once _ _)).persists.stable
    · exact ⟨h, hp, Hist.le_rfl, Or.inl ⟨dataset_id, hk, by rw [ho]; exact hnone⟩⟩
    · intro d hd
      obtain ⟨hmem, hid, how⟩ := ownedDataset_eq_some.mp hd
      exact ⟨⟨d, hmem, hid, how⟩, h, hp, Hist.le_rfl, hd⟩
  · cases found with
    | none => exact AlsoTriple.raise fun _ _ _ hp => hp.1 rfl
    | some d => exact (hf d).pre fun _ _ _ hp => hp.2 d rfl

/-- The dataset of a call is looked up, and its row is locked. -/
lemma shows_lockDataset {Z : Exn → σ → Assert World} (hZ : Tolerant ok F U t Z) {A : σ → Assert World}
    (hA : ∀ s, Persists ok F U t.pid (A s)) (hle : ∀ s h, A s h → t.start ≤ h) {Q : β → σ → Assert World}
    {f : Dataset → Body σ β} (hk : t.call.dataset = some dataset_id) (ho : t.call.owner = owner_id)
    (hnone : ∀ s h, A s h → Refused U t .datasetNotFound h → Z .datasetNotFound s h)
    (hf : ∀ d, d.id = dataset_id → d.owner_id = owner_id →
      Shows ok F U t (fun s h => A s h ∧ Holds t.pid d h) (f d) Q Z) :
    Shows ok F U t A (do
      match ← getForOwnerForUpdate dataset_id owner_id with
      | none => Body.raise .datasetNotFound
      | some dataset => f dataset) Q Z := by
  refine AlsoTriple.bind (B := fun found s h => (found = none → Z .datasetNotFound s h) ∧
    ∀ d, found = some d → (A s h ∧ Holds t.pid d h) ∧ d.id = dataset_id ∧ d.owner_id = owner_id) ?_ fun found => ?_
  · refine shows_getForOwnerForUpdate hZ hle (fun found s => ?_) (fun s h _ hp hd => ⟨fun _ => ?_, ?_⟩)
      fun d s h w hi hp hd hw hh => ⟨?_, ?_⟩
    · refine Stable.and (Stable.imp _ (hZ.persists _ s).stable) (Stable.forall fun d => Stable.imp _ ?_)
      exact ((hA s).stable.and ((stable_holds d).both _)).and (Stable.const _)
    · refine hnone s h hp ⟨h, hle s h hp, Hist.le_rfl, Or.inl ⟨dataset_id, hk, ?_⟩⟩
      rw [ho]
      exact hd
    · intro d hd
      cases hd
    · intro hd
      cases hd
    · intro d' hd'
      cases hd'
      exact ⟨⟨(hA s).locks h w hi.1 hp hw, hh⟩, (ownedDataset_eq_some.mp hd).2⟩
  · cases found with
    | none => exact AlsoTriple.raise fun _ _ _ hp => hp.1 rfl
    | some d =>
      refine AlsoTriple.assume (φ := d.id = dataset_id ∧ d.owner_id = owner_id) (fun _ _ _ hp => (hp.2 d rfl).2)
        fun hd => ?_
      exact (hf d hd.1 hd.2).pre fun _ _ _ hp => (hp.2 d rfl).1

lemma isSome_of_ownedBy {dataset_id owner_id : Uuid} (hd : OwnedBy dataset_id owner_id h) :
    ∃ d, h.now.db.ownedDataset dataset_id owner_id = some d := by
  obtain ⟨d, hd, hid, ho⟩ := hd
  exact ⟨d, ownedDataset_eq_some.mpr ⟨hd, hid, ho⟩⟩

lemma shows_policy {r : Except PolicyCode α}
    (hx : ∀ code, r = .error code → ∀ db, Refusal U t.call (.datasetPolicy code) db) :
    Shows ok F U t (sinceStart t) (Body.policy r : Body σ α) (fun a _ h => t.start ≤ h ∧ r = .ok a)
      fun x _ => Refused U t x := by
  cases r with
  | ok a => exact AlsoTriple.pure fun _ _ _ hp => ⟨hp, rfl⟩
  | error code => exact AlsoTriple.raise fun _ h _ hp => ⟨h, hp, Hist.le_rfl, hx code rfl _⟩

/-! ### Reading -/

theorem shows_listDatasets {limit offset : ℕ} (hcall : t.call = .listDatasets owner_id limit offset) :
    Shows ok F U t (sinceStart t) (listDatasets owner_id limit offset : Body σ _)
      (fun ds _ h => Answered U t h (.datasets ds)) fun x _ => Refused U t x := by
  refine shows_reading tolerant_refused (fun _ _ => persists_answered _) (fun _ _ _ => answered_since) ?_
  refine AlsoTriple.bind (B := fun rows _ h => Answered U t h (.datasets (rows.map datasetReference))) ?_
    fun rows => AlsoTriple.pure fun _ _ _ hp => ⟨rfl, hp⟩
  refine shows_query tolerant_refused (fun _ _ hp => hp) (fun _ _ => (persists_answered _).stable) fun _ h _ hp => ?_
  refine .saw hp Hist.le_rfl ?_
  rw [hcall]
  rfl

theorem shows_getDataset (hcall : t.call = .getDataset owner_id dataset_id) :
    Shows ok F U t (sinceStart t) (getDataset owner_id dataset_id : Body σ _)
      (fun d _ h => Answered U t h (.dataset d)) fun x _ => Refused U t x := by
  refine shows_reading tolerant_refused (fun _ _ => persists_answered _) (fun _ _ _ => answered_since) ?_
  refine shows_findDataset (by rw [hcall]; rfl) (by rw [hcall]; rfl) fun d => AlsoTriple.pure fun _ h _ hp => ⟨rfl, ?_⟩
  obtain ⟨-, h₁, hle, hle', hd⟩ := hp
  refine .saw hle hle' ?_
  rw [hcall]
  exact ⟨d, hd, rfl⟩

theorem shows_listRules {limit offset : ℕ} (hcall : t.call = .listRules owner_id dataset_id limit offset) :
    Shows ok F U t (sinceStart t) (listRules owner_id dataset_id limit offset : Body σ _)
      (fun rs _ h => Answered U t h (.rules rs)) fun x _ => Refused U t x := by
  refine shows_reading tolerant_refused (fun _ _ => persists_answered _) (fun _ _ _ => answered_since) ?_
  refine shows_findDataset (by rw [hcall]; rfl) (by rw [hcall]; rfl) fun d => ?_
  refine AlsoTriple.bind (B := fun rows _ h => Answered U t h (.rules (rows.map ruleReference))) ?_
    fun rows => AlsoTriple.pure fun _ _ _ hp => ⟨rfl, hp⟩
  refine shows_query tolerant_refused (fun _ _ hp => ?_) (fun _ _ => (persists_answered _).stable) fun _ h _ hp => ?_
  · obtain ⟨-, h₁, hle, hle', -⟩ := hp
    exact Hist.le_trans hle hle'
  · -- the dataset is still there
    obtain ⟨hown, h₁, hle, hle', -⟩ := hp
    refine .saw (Hist.le_trans hle hle') Hist.le_rfl ?_
    rw [hcall]
    exact ⟨Option.isSome_iff_exists.mpr (isSome_of_ownedBy hown), rfl⟩

/-! ### Flushes -/

lemma refused_row {x : DbError} (hx : x = .data ∨ x = .integrity .check) (hw : t.call.writes = true)
    (hle : t.start ≤ h) : Refused U t (.database x) h := by
  refine ⟨h, hle, Hist.le_rfl, ?_⟩
  rcases hx with rfl | rfl
  · exact hw
  · exact ⟨rfl, hw⟩

lemma firstError_one (db : Db) (w : Write) : db.firstError [w] = db.writeError w := by
  rw [Db.firstError]
  cases db.writeError w <;> rfl

/-- A dataset row whose storage key is free is refused only for what it is. -/
lemma datasetError_cases {db : Db} {d : Dataset}
    (hfree : ∀ u, d.upload = some u → db.keyFree d.id u.storage_key = true) :
    (db.datasetError d = none → d.storable = true ∧ d.checks = true) ∧
      ∀ x, db.datasetError d = some x → x = .data ∨ x = .integrity .check := by
  have hany : (d.upload.any fun u => !db.keyFree d.id u.storage_key) = false := by
    cases hu : d.upload with
    | none => rfl
    | some u => simp [hfree u hu]
  unfold Db.datasetError
  rw [hany]
  cases d.storable <;> cases d.checks <;> simp

lemma writeError_insertDataset {db : Db} {d : Dataset} (hnew : ∀ e ∈ db.datasets, e.id ≠ d.id) :
    db.writeError (.insertDataset d) = db.datasetError d := by
  have hfind : db.datasets.find? d.id = none := Table.find?_eq_none.mpr hnew
  simp [Db.writeError, hfind]

/-! ### Creating a dataset -/

theorem shows_createDataset {name : PyStr} (hcall : t.call = .createDataset owner_id name) :
    Shows ok F U t (sinceStart t) (createDataset U owner_id name : Body σ _)
      (fun d _ h => Answered U t h (.dataset d)) fun x _ => Refused U t x := by
  refine AlsoTriple.bind (shows_policy fun code hx _ => ?_) fun normalized_name => ?_
  · rw [hcall]
    exact hx
  refine AlsoTriple.assume (fun _ _ _ hp => hp.2) fun hname => ?_
  refine AlsoTriple.bind (B := fun _ => sinceStart t) ?_ fun now => ?_
  · exact (shows_now tolerant_refused (fun _ _ hp => hp) fun _ => persists_since.stable).pre fun _ _ _ hp => hp.1
  refine AlsoTriple.bind (B := fun u _ h => t.start ≤ h ∧ FreshDataset t.pid u h) ?_ fun id => ?_
  · refine shows_uuid4 tolerant_refused (fun _ _ hp => hp)
      (fun u _ => ((Steady.since _).and (steady_freshDataset u)).persists.stable) fun u _ h hi hp hu => ?_
    refine ⟨Hist.le_push _ hp, List.mem_cons_self, fun d hd he => ?_⟩
    obtain ⟨q, hq⟩ := hi.1.dataset_issued d hd
    exact hu q (he ▸ hq)
  set d : Dataset := ⟨id, owner_id, normalized_name, none, now, now⟩ with hd
  refine AlsoTriple.bind (B := fun _ _ h => Answered U t h (.dataset (datasetReference d))) ?_
    fun _ => AlsoTriple.pure fun _ _ _ hp => hp
  have hfree : ∀ (db : Db) (u : UploadColumns), d.upload = some u → db.keyFree d.id u.storage_key = true :=
    fun _ _ hu => by cases hu
  refine shows_transaction (B := fun out _ h => out.2 = [.insertDataset d] ∧
      (d.storable = true ∧ d.checks = true) ∧ t.start ≤ h ∧ FreshDataset t.pid id h) tolerant_refused
    (fun _ _ => persists_answered _) (fun _ _ _ => answered_since) (fun _ _ _ hb => hb.2.2.1) ?_
    fun _ ws _ h hi hb _ => ?_
  · refine AlsoTriple.bind (B := fun _ _ h => (d.storable = true ∧ d.checks = true) ∧ t.start ≤ h ∧
      FreshDataset t.pid id h) ?_ fun _ => AlsoTriple.pure fun _ _ _ hp => ⟨rfl, hp⟩
    refine shows_flush tolerant_refused (fun _ _ hp => hp.1)
      (fun _ _ => ((Steady.const _).and ((Steady.since _).and (steady_freshDataset id))).persists.stable)
      (fun _ h _ hp he => ⟨?_, hp⟩) fun x _ h _ hp he => ?_
    · rw [firstError_one, writeError_insertDataset hp.2.2] at he
      exact (datasetError_cases (hfree _)).1 he
    · rw [firstError_one, writeError_insertDataset hp.2.2] at he
      exact refused_row ((datasetError_cases (hfree _)).2 x he) (by rw [hcall]; rfl) hp.1
  · obtain ⟨rfl, hrow, hle, hfresh⟩ := hb
    have hchange : Changes U t.pid h t.call (.dataset (datasetReference d))
        ((h.now.apply [.insertDataset d]).unlock t.pid).db := by
      rw [hcall]
      exact .createDataset hname rfl rfl rfl hrow hfresh.1 hfresh.2
    exact ⟨⟨Or.inr ⟨_, hchange⟩, fun r hr => Or.inl hr⟩, .changed hle Hist.le_rfl hchange⟩

/-! ### Rules -/

/-- A rule under the lock of its dataset, and with an identifier of its own, is refused only for what
it is, or for a rule that is there. -/
lemma insertRule_cases {db : Db} {r : ValidationRule} (hnew : ∀ s ∈ db.validation_rules, s.id ≠ r.id)
    (hd : ∃ d ∈ db.datasets, d.id = r.dataset_id) :
    (db.writeError (.insertRule r) = none → (r.storable = true ∧ r.checks = true) ∧
      ∀ s ∈ db.validation_rules, r.sameDefinition s = false) ∧
    ∀ x, db.writeError (.insertRule r) = some x → (x = .data ∨ x = .integrity .check) ∨
      x = .integrity .uq_validation_rules_definition ∧ ∃ s ∈ db.validation_rules, r.sameDefinition s = true := by
  have hfind : db.validation_rules.find? r.id = none := Table.find?_eq_none.mpr hnew
  have hdataset : (db.datasets.find? r.dataset_id).isNone = false := by
    rw [Option.isNone_eq_false_iff]
    exact Table.isSome_find?.mpr hd
  simp only [Db.writeError, hfind, hdataset]
  cases r.storable with
  | false => exact ⟨fun he => (by cases he), fun x hx => by cases hx; exact Or.inl (Or.inl rfl)⟩
  | true =>
    cases r.checks with
    | false => exact ⟨fun he => (by cases he), fun x hx => by cases hx; exact Or.inl (Or.inr rfl)⟩
    | true =>
      cases ha : db.validation_rules.rows.any r.sameDefinition with
      | false =>
        refine ⟨fun _ => ⟨⟨rfl, rfl⟩, fun s hs => ?_⟩, fun x hx => by cases hx⟩
        simpa using List.any_eq_false.mp ha s hs
      | true => exact ⟨fun he => (by cases he), fun x hx => by cases hx; exact Or.inr ⟨rfl, List.any_eq_true.mp ha⟩⟩

lemma sameDefinition_eq {r s : ValidationRule} (h : r.sameDefinition s = true) :
    s.dataset_id = r.dataset_id ∧ s.rule_type = r.rule_type ∧ s.target_column = r.target_column ∧
      s.configuration = r.configuration := by
  simp only [ValidationRule.sameDefinition, Bool.and_eq_true, beq_iff_eq, Json.eqMembers_iff] at h
  exact ⟨h.1.1.1.symm, h.1.1.2.symm, h.1.2.symm, h.2.symm⟩

/-- How the transaction of `create_rule` raises, before a duplicate is given its name. -/
def InsertRaises (U : Unicode) (t : Caller Call World) (x : Exn) : Assert World :=
  if x = .database (.integrity .uq_validation_rules_definition) then Refused U t .duplicateRule else Refused U t x

lemma tolerant_insertRaises : Tolerant ok F U t fun x (_ : σ) => InsertRaises U t x where
  persists x s := by
    unfold InsertRaises
    split
    · exact persists_refused _
    · exact persists_refused _
  faults x s h hx hle := by
    unfold InsertRaises
    split
    · next he =>
      rw [he] at hx
      cases hx
    · exact refused_fault hx hle
  since x s h hz := by
    unfold InsertRaises at hz
    split at hz
    · exact refused_since hz
    · exact refused_since hz

lemma insertRaises_of_ne {x : Exn} (hx : x ≠ .database (.integrity .uq_validation_rules_definition))
    (hr : Refused U t x h) : InsertRaises U t x h := by
  rw [InsertRaises, if_neg hx]
  exact hr

lemma shows_insertRule {rule : ValidationRule}
    (hcall : t.call = .createRule owner_id rule.dataset_id rule.rule_type rule.target_column rule.configuration)
    (hvalid : validateTargetColumn U rule.target_column = .ok rule.target_column) :
    Shows ok F U t (fun (_ : σ) h => t.start ≤ h ∧ FreshRule t.pid rule.id h)
      (insertRule owner_id rule.dataset_id rule.target_column rule)
      (fun _ _ h => Answered U t h (.rule (ruleReference rule))) fun x _ => InsertRaises U t x := by
  refine shows_transaction (B := fun out _ h => out.2 = [.insertRule rule] ∧
      (t.start ≤ h ∧ FreshRule t.pid rule.id h) ∧ (rule.storable = true ∧ rule.checks = true) ∧
        ∃ d u, HoldsNoTwin t.pid d rule h ∧ d.id = rule.dataset_id ∧ d.owner_id = owner_id ∧
          d.upload = some u ∧ rule.target_column ∈ u.column_names) tolerant_insertRaises
    (fun _ _ => persists_answered _) (fun _ _ _ => answered_since) (fun _ _ _ hb => hb.2.1.1) ?_
    fun _ ws _ h hi hb _ => ?_
  · refine shows_lockDataset tolerant_insertRaises (fun _ => persists_since.and (persists_freshRule _))
      (fun _ _ hp => hp.1) (by rw [hcall]; rfl) (by rw [hcall]; rfl)
      (fun _ _ _ hr => insertRaises_of_ne (fun hx => by cases hx) hr) fun d hid ho => ?_
    have habout : ∀ {h : Hist World}, Holds t.pid d h → t.call.About h.now.db d := fun hd =>
      ⟨rule.dataset_id, by rw [hcall]; rfl, ownedDataset_eq_some.mpr ⟨hd.2, hid, by rw [hcall]; exact ho⟩⟩
    have hraise : ∀ {x : Exn} {h : Hist World}, x ≠ .database (.integrity .uq_validation_rules_definition) →
        t.start ≤ h → Refusal U t.call x h.now.db → InsertRaises U t x h := fun hx hle hr =>
      insertRaises_of_ne hx ⟨_, hle, Hist.le_rfl, hr⟩
    cases hu : d.upload with
    | none =>
      refine AlsoTriple.raise fun _ h _ hp => hraise (fun hx => by cases hx) hp.1.1 ?_
      rw [hcall]
      exact ⟨d, hcall ▸ habout hp.2, hu⟩
    | some u =>
      simp only
      split
      · next hcol =>
        refine AlsoTriple.raise fun _ h _ hp => hraise (fun hx => by cases hx) hp.1.1 ?_
        rw [hcall]
        exact ⟨d, u, hcall ▸ habout hp.2, hu, hcol⟩
      · next hcol =>
        refine AlsoTriple.bind (B := fun _ _ h => (t.start ≤ h ∧ FreshRule t.pid rule.id h) ∧
          (rule.storable = true ∧ rule.checks = true) ∧ HoldsNoTwin t.pid d rule h) ?_ fun _ => ?_
        · refine shows_flush tolerant_insertRaises (fun _ _ hp => hp.1.1) (fun _ _ => ?_) (fun _ h _ hp he => ?_)
            fun x _ h _ hp he => ?_
          · exact (persists_since.and (persists_freshRule _)).stable.and
              ((Stable.const _).and (stable_holdsNoTwin hid.symm))
          · have hnew : ∀ s ∈ h.now.db.validation_rules, s.id ≠ rule.id := fun s hs he' =>
              hp.1.2.2 (he' ▸ hadRule_now hs)
            rw [firstError_one] at he
            obtain ⟨hrow, hno⟩ := (insertRule_cases hnew ⟨d, hp.2.2, hid⟩).1 he
            exact ⟨hp.1, hrow, hp.2, hno⟩
          · have hnew : ∀ s ∈ h.now.db.validation_rules, s.id ≠ rule.id := fun s hs he' =>
              hp.1.2.2 (he' ▸ hadRule_now hs)
            rw [firstError_one] at he
            rcases (insertRule_cases hnew ⟨d, hp.2.2, hid⟩).2 x he with hx | ⟨rfl, s, hs, hsame⟩
            · refine insertRaises_of_ne (fun hx' => ?_) (refused_row hx (by rw [hcall]; rfl) hp.1.1)
              cases hx'
              rcases hx with hx | hx <;> cases hx
            · -- the rule that is there
              rw [InsertRaises, if_pos rfl]
              refine ⟨h, hp.1.1, Hist.le_rfl, ?_⟩
              rw [hcall]
              exact ⟨s, hs, sameDefinition_eq hsame⟩
        · exact AlsoTriple.pure fun _ h _ hp => ⟨rfl, hp.1, hp.2.1, d, u, hp.2.2, hid, ho, hu, not_not.mp hcol⟩
  · obtain ⟨rfl, ⟨hle, hfresh⟩, hrow, d, u, hd, hid, ho, hu, hcol⟩ := hb
    have hchange : Changes U t.pid h t.call (.rule (ruleReference rule))
        ((h.now.apply [.insertRule rule]).unlock t.pid).db := by
      rw [hcall]
      exact .createRule (ownedDataset_eq_some.mpr ⟨hd.1.2, hid, ho⟩) hu hcol hvalid hrow hfresh.1 hfresh.2 hd.2
    refine ⟨⟨Or.inr ⟨_, hchange⟩, fun r hr => ?_⟩, .changed hle Hist.le_rfl hchange⟩
    rcases Table.mem_put.mp hr with rfl | ⟨hr, -⟩
    · exact Or.inr hfresh
    · exact Or.inl hr

theorem shows_createRule {rule_type target_column : PyStr} {configuration : Dict}
    (hcall : t.call = .createRule owner_id dataset_id rule_type target_column configuration) :
    Shows ok F U t (sinceStart t) (createRule U owner_id dataset_id rule_type target_column configuration : Body σ _)
      (fun r _ h => Answered U t h (.rule r)) fun x _ => Refused U t x := by
  refine AlsoTriple.bind (shows_policy fun code hx _ => ?_) fun safe_column => ?_
  · rw [hcall]
    exact hx
  refine AlsoTriple.assume (fun _ _ _ hp => hp.2) fun hvalid => ?_
  obtain rfl := (validateTargetColumn_ok hvalid).1
  refine AlsoTriple.bind (B := fun _ => sinceStart t) ?_ fun now => ?_
  · exact (shows_now tolerant_refused (fun _ _ hp => hp) fun _ => persists_since.stable).pre fun _ _ _ hp => hp.1
  refine AlsoTriple.bind (B := fun u _ h => t.start ≤ h ∧ FreshRule t.pid u h) ?_ fun id => ?_
  · refine shows_uuid4 tolerant_refused (fun _ _ hp => hp)
      (fun u _ => (persists_since.and (persists_freshRule u)).stable) fun u _ h hi hp hu => ?_
    have hnever : ¬ HadRule h u := fun hhad => (hi.2 u hhad).elim hu
    refine ⟨Hist.le_push _ hp, List.mem_cons_self, fun hhad => ?_⟩
    rcases hadRule_push.mp hhad with ⟨r, hr, he⟩ | hhad
    · exact hnever (he ▸ hadRule_now hr)
    · exact hnever hhad
  set rule : ValidationRule := ⟨id, dataset_id, rule_type, safe_column, configuration, now⟩ with hrule
  refine AlsoTriple.bind (B := fun _ _ h => Answered U t h (.rule (ruleReference rule))) ?_
    fun _ => AlsoTriple.pure fun _ _ _ hp => hp
  have hinsert : Shows ok F U t (fun (_ : σ) h => t.start ≤ h ∧ FreshRule t.pid rule.id h)
      (insertRule owner_id rule.dataset_id rule.target_column rule)
      (fun _ _ h => Answered U t h (.rule (ruleReference rule))) fun x _ => InsertRaises U t x :=
    shows_insertRule hcall hvalid
  refine AlsoTriple.catching hinsert fun x => ?_
  split
  · next hx => exact AlsoTriple.raise fun _ _ _ hz => by rwa [InsertRaises, if_pos hx] at hz
  · next hx => exact AlsoTriple.raise fun _ _ _ hz => by rwa [InsertRaises, if_neg hx] at hz

theorem shows_deleteRule {rule_id : Uuid} (hcall : t.call = .deleteRule owner_id dataset_id rule_id) :
    Shows ok F U t (sinceStart t) (deleteRule owner_id dataset_id rule_id : Body σ _)
      (fun _ _ h => Answered U t h .unit) fun x _ => Refused U t x := by
  -- the rule was there, in a dataset of the owner
  set There : ValidationRule → World → Prop := fun r w => r ∈ w.db.validation_rules ∧ r.dataset_id = dataset_id ∧
    (w.db.ownedDataset dataset_id owner_id).isSome = true with hThere
  have hle : ∀ {r : ValidationRule} {h : Hist World}, Once t.start (There r) h → t.start ≤ h :=
    fun ⟨_, hle, hle', _⟩ => Hist.le_trans hle hle'
  refine shows_transaction (B := fun out _ h => ∃ r, out.2 = [.deleteRule r.id] ∧ r.id = rule_id ∧
      OwnedBy dataset_id owner_id h ∧ Once t.start (There r) h ∧ Known r h) tolerant_refused
    (fun _ _ => persists_answered _) (fun _ _ _ => answered_since)
    (fun _ _ _ ⟨_, _, _, _, hr, _⟩ => hle hr) ?_ fun _ ws _ h hi hb _ => ?_
  · refine shows_findDataset (by rw [hcall]; rfl) (by rw [hcall]; rfl) fun d => ?_
    have hsince : ∀ {h : Hist World}, OwnedBy dataset_id owner_id h ∧
        Once t.start (fun w => w.db.ownedDataset dataset_id owner_id = some d) h → t.start ≤ h :=
      fun ⟨_, _, hle, hle', _⟩ => Hist.le_trans hle hle'
    refine AlsoTriple.bind (B := fun found _ h => (found = none → Refused U t .datasetNotFound h) ∧
      ∀ r, found = some r → (OwnedBy dataset_id owner_id h ∧ Once t.start (There r) h ∧ Known r h) ∧
        r.id = rule_id) ?_ fun found => ?_
    · refine shows_query tolerant_refused (fun _ _ hp => hsince hp) (fun found _ => ?_)
        fun _ h _ hp => ⟨fun hnone => ?_, fun r hr => ?_⟩
      · refine Stable.and (Stable.imp _ (persists_refused _).stable) (Stable.forall fun r => Stable.imp _ ?_)
        exact ((steady_ownedBy _ _).persists.and ((steady_once _ _).persists.and (persists_known r))).stable.and
          (Stable.const _)
      · refine ⟨h, hsince hp, Hist.le_rfl, Or.inr ?_⟩
        rw [hcall]
        exact hnone
      · obtain ⟨hfind, hds⟩ := Option.filter_eq_some_iff.mp hr
        obtain ⟨hmem, hid⟩ := Table.find?_eq_some.mp hfind
        refine ⟨⟨hp.1, ⟨h, hsince hp, Hist.le_rfl, hmem, of_decide_eq_true hds, ?_⟩, Hist.ever_now hmem, ?_⟩, hid⟩
        · exact Option.isSome_iff_exists.mpr (isSome_of_ownedBy hp.1)
        · exact fun s hs he => Table.eq_of_key hs hmem he
    · cases found with
      | none => exact AlsoTriple.raise fun _ _ _ hp => hp.1 rfl
      | some r =>
        refine AlsoTriple.pure fun _ h _ hp => ?_
        obtain ⟨⟨hown, honce, hknown⟩, hid⟩ := hp.2 r rfl
        exact ⟨r, rfl, hid, hown, honce, hknown⟩
  · obtain ⟨r, rfl, rfl, hown, ⟨h₁, hle₁, hle₂, hr, rfl, how⟩, hknown⟩ := hb
    have hsub : ∀ s ∈ (h.now.db.validation_rules.erase r.id), s ∈ h.now.db.validation_rules := fun s hs =>
      (Table.mem_erase.mp hs).1
    by_cases hmem : r ∈ h.now.db.validation_rules
    · obtain ⟨d, hd⟩ := isSome_of_ownedBy hown
      have hchange : Changes U t.pid h t.call .unit ((h.now.apply [.deleteRule r.id]).unlock t.pid).db := by
        rw [hcall]
        exact .deleteRule hd hmem
      exact ⟨⟨Or.inr ⟨_, hchange⟩, fun s hs => Or.inl (hsub s hs)⟩,
        .changed (Hist.le_trans hle₁ hle₂) Hist.le_rfl hchange⟩
    · -- another call deleted the rule first
      have hgone : ∀ s ∈ h.now.db.validation_rules, s.id ≠ r.id := fun s hs he => by
        rw [hknown.2 s hs he] at hs
        exact hmem hs
      have hdb : ((h.now.apply [.deleteRule r.id]).unlock t.pid).db = h.now.db := by
        simp only [World.unlock, World.apply, Db.applyAll, List.foldl, Db.apply, Table.erase_of_notMem hgone]
      exact ⟨atomically_same hdb, .overtaken hcall hle₁ hle₂ (Hist.le_push _ Hist.le_rfl) ⟨hr, rfl⟩ how hgone⟩

end DataCheck.Datasets
