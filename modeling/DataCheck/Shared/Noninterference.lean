import DataCheck.Datasets.Guarantees
import DataCheck.Shared.Alone
import DataCheck.Shared.Isolation
import DataCheck.Shared.Journal

/-!
# Noninterference

What a call says of data that is not its owner's: nothing.  A dataset, a rule or an analysis of
another owner, or of another dataset, is refused with the exception for one that does not exist, and
with all of it together the services keep the owners apart.
-/

namespace DataCheck.Shared

open Lib Datasets Analyses

variable {F : Faults} {p : Pid} {o A : Uuid} {old : Uuid → Prop} {w w' v : World} {σ α : Type}

/-! ### Calls that name what is not the owner's -/

section Refused

/-- The dataset is another owner's. -/
def Db.OfAnother (db : Db) (owner_id dataset_id : Uuid) : Prop :=
  ∃ d ∈ db.datasets, d.id = dataset_id ∧ d.owner_id ≠ owner_id

/-- The call names a dataset, a rule or an analysis that exists, but for another owner or in another
dataset. -/
def Call.Foreign (db : Db) : Call → Prop
  | .createDataset .. | .listDatasets .. => False
  | .getDataset o d | .uploadCsv o d _ _ | .createRule o d _ _ _ | .listRules o d _ _ | .createAnalysis o d
  | .listAnalyses o d _ _ => db.OfAnother o d
  | .deleteRule o d r => db.OfAnother o d ∨ ∃ rule ∈ db.validation_rules, rule.id = r ∧ rule.dataset_id ≠ d
  | .getAnalysis o d a => db.OfAnother o d ∨ ∃ analysis ∈ db.analyses, analysis.id = a ∧ analysis.dataset_id ≠ d

/-- The call names a dataset, a rule or an analysis that does not exist. -/
def Call.Absent (db : Db) : Call → Prop
  | .createDataset .. | .listDatasets .. => False
  | .getDataset _ d | .uploadCsv _ d _ _ | .createRule _ d _ _ _ | .listRules _ d _ _ | .createAnalysis _ d
  | .listAnalyses _ d _ _ => ∀ dataset ∈ db.datasets, dataset.id ≠ d
  | .deleteRule _ d r => (∀ dataset ∈ db.datasets, dataset.id ≠ d) ∨ ∀ rule ∈ db.validation_rules, rule.id ≠ r
  | .getAnalysis _ d a => (∀ dataset ∈ db.datasets, dataset.id ≠ d) ∨ ∀ analysis ∈ db.analyses, analysis.id ≠ a

/-- The query for what the call names finds nothing. -/
def Call.Missing (db : Db) : Call → Prop
  | .createDataset .. | .listDatasets .. => False
  | .getDataset o d | .uploadCsv o d _ _ | .createRule o d _ _ _ | .listRules o d _ _ | .createAnalysis o d
  | .listAnalyses o d _ _ => db.ownedDataset d o = none
  | .deleteRule o d r =>
    db.ownedDataset d o = none ∨ ∀ rule ∈ db.validation_rules, rule.id = r → rule.dataset_id ≠ d
  | .getAnalysis o d a =>
    db.ownedDataset d o = none ∨ ∀ analysis ∈ db.analyses, analysis.id = a → analysis.dataset_id ≠ d

variable {db : Db}

lemma ownedDataset_eq_none {dataset_id : Uuid} :
    db.ownedDataset dataset_id o = none ↔ ∀ d ∈ db.datasets, d.id = dataset_id → d.owner_id ≠ o := by
  simp only [Option.eq_none_iff_forall_not_mem, Option.mem_def, ownedDataset_eq_some, not_and, ne_eq]

lemma getRule_eq_none {dataset_id rule_id : Uuid}
    (h : ∀ r ∈ db.validation_rules, r.id = rule_id → r.dataset_id ≠ dataset_id) :
    db.eval (.getRule dataset_id rule_id) = (none : Option ValidationRule) := by
  refine Option.filter_eq_none_iff.mpr fun r hr => ?_
  obtain ⟨hr, hid⟩ := Table.find?_eq_some.mp hr
  simpa using h r hr hid

lemma getAnalysis_eq_none {dataset_id analysis_id : Uuid} (h : db.ownedDataset dataset_id o = none ∨
      ∀ a ∈ db.analyses, a.id = analysis_id → a.dataset_id ≠ dataset_id) :
    db.eval (.getForDatasetOwner analysis_id dataset_id o) = (none : Option Analysis) := by
  refine Option.filter_eq_none_iff.mpr fun a ha => ?_
  obtain ⟨ha, hid⟩ := Table.find?_eq_some.mp ha
  rw [decide_eq_true_eq]
  rintro ⟨rfl, ho⟩
  rcases h with h | h
  · rw [h] at ho
    cases ho
  · exact h a ha hid rfl

lemma Db.OfAnother.ownedDataset {dataset_id : Uuid} (h : db.OfAnother o dataset_id) :
    db.ownedDataset dataset_id o = none := by
  obtain ⟨b, hb, rfl, hbo⟩ := h
  refine ownedDataset_eq_none.mpr fun d hd hid => ?_
  rwa [Table.eq_of_key hd hb hid]

lemma ownedDataset_of_absent {dataset_id : Uuid} (h : ∀ d ∈ db.datasets, d.id ≠ dataset_id) :
    db.ownedDataset dataset_id o = none :=
  ownedDataset_eq_none.mpr fun d hd hid => absurd hid (h d hd)

/-- **What is another's is not found.** -/
lemma Call.Foreign.missing {k : Call} (h : k.Foreign db) : k.Missing db := by
  cases k with
  | createDataset _ _ | listDatasets _ _ _ => exact h
  | getDataset _ _ | uploadCsv _ _ _ _ | createRule _ _ _ _ _ | listRules _ _ _ _ | createAnalysis _ _
  | listAnalyses _ _ _ _ => exact Db.OfAnother.ownedDataset h
  | deleteRule o d r =>
    rcases h with h | ⟨b, hb, rfl, hbd⟩
    · exact Or.inl h.ownedDataset
    · exact Or.inr fun r hr hid => by rwa [Table.eq_of_key hr hb hid]
  | getAnalysis o d a =>
    rcases h with h | ⟨b, hb, rfl, hbd⟩
    · exact Or.inl h.ownedDataset
    · exact Or.inr fun a ha hid => by rwa [Table.eq_of_key ha hb hid]

lemma Call.Absent.missing {k : Call} (h : k.Absent db) : k.Missing db := by
  cases k with
  | createDataset _ _ | listDatasets _ _ _ => exact h
  | getDataset _ _ | uploadCsv _ _ _ _ | createRule _ _ _ _ _ | listRules _ _ _ _ | createAnalysis _ _
  | listAnalyses _ _ _ _ => exact ownedDataset_of_absent h
  | deleteRule o d r =>
    rcases h with h | h
    · exact Or.inl (ownedDataset_of_absent h)
    · exact Or.inr fun r hr hid => absurd hid (h r hr)
  | getAnalysis o d a =>
    rcases h with h | h
    · exact Or.inl (ownedDataset_of_absent h)
    · exact Or.inr fun a ha hid => absurd hid (h a ha)

/-- The exception of such a call: its other arguments are looked at first. -/
def Call.refusal (U : Unicode) : Call → Exn
  | .uploadCsv _ _ filename _ =>
    match normalizeCsvFilename U filename with
    | .error code => .datasetPolicy code
    | .ok _ => .datasetNotFound
  | .createRule _ _ _ target_column _ =>
    match validateTargetColumn U target_column with
    | .error code => .datasetPolicy code
    | .ok _ => .datasetNotFound
  | _ => .datasetNotFound

/-- The exception of an effect that failed. -/
def Failed (F : Faults) (x : Exn) : Prop := ∃ e : Eff, F.fails e = true ∧ x = e.failure

/-- The body changes neither rows nor files, and raises: `x`, or the exception of an effect that
failed. -/
abbrev Refuses (F : Faults) (p : Pid) (db : Db) (files : FileName → Option Bytes) (x : Exn) (m : Body σ α) : Prop :=
  Op.Alone (machine F) p (fun _ w => w.db = db ∧ w.files = files) m (fun _ _ _ => False)
    fun y _ w => (w.db = db ∧ w.files = files) ∧ (y = x ∨ Failed F y)

section Rules

variable {files : FileName → Option Bytes} {x : Exn}

lemma refuses_raise : Refuses F p db files x (Body.raise x : Body σ α) := Op.Alone.raise fun _ _ h => ⟨h, Or.inl rfl⟩

lemma Refuses.left {β : Type} {m : Body σ α} {f : α → Body σ β} (h : Refuses F p db files x m) :
    Refuses F p db files x (m >>= f) :=
  Op.Alone.bind h fun _ _ _ _ _ _ _ _ hf => hf.elim

lemma Refuses.catching {m : Body σ α} {g : Exn → Body σ α} (h : Refuses F p db files x m)
    (hg : ∀ y, y = x ∨ Failed F y → Refuses F p db files x (g y)) : Refuses F p db files x (Op.catching m g) :=
  Op.Alone.catching h fun y => Op.Alone.assume (fun _ _ h => h.2) fun hy => (hg y hy).pre fun _ _ h => h.1

/-- An effect that changes neither rows nor files and raises only when it fails, and a rest that
refuses whatever it may answer. -/
lemma refuses_effect {e : Eff} (hne : ∀ ws, e ≠ .commit ws) (he : e.still = true) {A : e.Resp → Prop}
    (hans : ∀ (w : World) c r w', w.db = db → w.perform p c e = some (r, w') → ∃ a, r = .ok a ∧ A a)
    {f : e.Resp → Body σ α} (hf : ∀ a, A a → Refuses F p db files x (f a)) :
    Refuses F p db files x (Body.perform e >>= f) := by
  refine Op.Alone.bind (B := fun a _ w => A a ∧ w.db = db ∧ w.files = files) ?_ fun a =>
    Op.Alone.assume (fun _ _ h => h.1) fun h => (hf a h).pre fun _ _ hp => hp.2
  refine Op.Alone.perform fun s w c r w' hp hx => ?_
  rcases exec_cases hne hx with ⟨hf, rfl, rfl⟩ | hx
  · have hl := locksOnly_failed w p e
    refine ⟨fun _ h => (nomatch h), fun y hy => ?_⟩
    cases hy
    exact ⟨⟨hl.db.trans hp.1, hl.files.trans hp.2⟩, Or.inr ⟨e, hf, rfl⟩⟩
  · obtain ⟨hdb, hfiles, -⟩ := perform_still he hx
    obtain ⟨a, rfl, ha⟩ := hans w c r w' hp.1 hx
    refine ⟨fun b hb => ?_, fun y hy => (nomatch hy)⟩
    cases hb
    exact ⟨ha, hdb.trans hp.1, hfiles.trans hp.2⟩

lemma refuses_transaction {m : Body σ (α × List Write)} (hm : Refuses F p db files x m) :
    Refuses F p db files x (Body.transaction m) := by
  have hafter : ∀ {β : Type} {y : Exn}, y = x ∨ Failed F y → Refuses F p db files x (Body.raise y : Body σ β) :=
    fun {_ _} hy => Op.Alone.raise fun _ _ h => ⟨h, hy⟩
  refine Refuses.left (Refuses.catching (Refuses.left (Refuses.catching hm fun y hy => ?_)) fun y hy => ?_)
  · exact refuses_effect (e := .rollback) (A := fun _ => True) (fun _ h => by cases h) rfl
      (fun _ _ _ _ _ h => by cases h; exact ⟨_, rfl, trivial⟩) fun _ _ => hafter hy
  · exact refuses_effect (e := .close) (A := fun _ => True) (fun _ h => by cases h) rfl
      (fun _ _ _ _ _ h => by cases h; exact ⟨_, rfl, trivial⟩) fun _ _ => hafter hy

lemma refuses_getForOwner {dataset_id : Uuid} {f : Option Dataset → Body σ α}
    (hf : ∀ d, d = db.ownedDataset dataset_id o → Refuses F p db files x (f d)) :
    Refuses F p db files x (getForOwner dataset_id o >>= f) :=
  refuses_effect (e := .query (.getForOwner dataset_id o)) (A := fun d => d = db.ownedDataset dataset_id o)
    (fun _ h => by cases h) rfl (fun w _ _ _ hdb h => by cases h; exact ⟨_, rfl, by rw [← hdb]; rfl⟩) hf

lemma refuses_getForUpdate {dataset_id : Uuid} {f : Option Dataset → Body σ α}
    (hd : db.ownedDataset dataset_id o = none) (hf : Refuses F p db files x (f none)) :
    Refuses F p db files x (getForOwnerForUpdate dataset_id o >>= f) := by
  refine refuses_effect (e := .getForOwnerForUpdate dataset_id o) (A := fun d => d = (none : Option Dataset))
    (fun _ h => by cases h) rfl (fun w _ _ _ hdb h => ?_) (by rintro _ rfl; exact hf)
  simp only [World.perform, hdb, hd] at h
  cases h
  exact ⟨_, rfl, rfl⟩

lemma refuses_now {f : Time → Body σ α} (hf : ∀ t, Refuses F p db files x (f t)) :
    Refuses F p db files x (Body.now >>= f) :=
  refuses_effect (A := fun _ => True) (fun _ h => by cases h) rfl
    (fun _ _ _ _ _ h => by cases h; exact ⟨_, rfl, trivial⟩) fun t _ => hf t

lemma refuses_uuid4 {f : Uuid → Body σ α} (hf : ∀ u, Refuses F p db files x (f u)) :
    Refuses F p db files x (Body.uuid4 >>= f) := by
  refine refuses_effect (A := fun _ => True) (fun _ h => by cases h) rfl (fun _ _ _ _ _ h => ?_) fun u _ => hf u
  simp only [World.perform] at h
  split at h <;> cases h
  exact ⟨_, rfl, trivial⟩

lemma refuses_ok {β : Type} {a : β} {f : β → Body σ α} (h : Refuses F p db files x (f a)) :
    Refuses F p db files x (Body.policy (.ok a) >>= f) := h

/-- A failing effect does not raise an `IntegrityError`. -/
lemma Failed.ne_integrity {y : Exn} (h : Failed F y) (c : Constraint) : y ≠ .database (.integrity c) := by
  obtain ⟨e, -, rfl⟩ := h
  cases e <;> exact fun h => by cases h

end Rules

/-- A read of a dataset the owner does not have is refused. -/
lemma refuses_read {β : Type} {d o : Uuid} {f : Dataset → Body Unit (β × List Write)} (h : db.ownedDataset d o = none) :
    Refuses F p db files .datasetNotFound (Body.transaction do
      match ← getForOwner d o with
      | none => Body.raise .datasetNotFound
      | some dataset => f dataset) := by
  refine refuses_transaction (refuses_getForOwner ?_)
  rintro _ rfl
  rw [h]
  exact refuses_raise

/-- **A call that names what is not there for its owner changes nothing and raises.** -/
theorem refuses_call (U : Unicode) (P : Polars) {k : Call} (h : k.Missing db) (files : FileName → Option Bytes) :
    Refuses F p db files (k.refusal U) (k.op U P) := by
  cases k with
  | createDataset _ _ | listDatasets _ _ _ => exact h.elim
  | getDataset o d => exact Refuses.left (refuses_read h)
  | uploadCsv o d filename source =>
    refine Refuses.left ?_
    simp only [Call.refusal, uploadCsv]
    cases normalizeCsvFilename U filename with
    | error code => exact Refuses.left refuses_raise
    | ok safe_filename => exact refuses_ok (Refuses.left (refuses_read h))
  | createRule o d rule_type target_column configuration =>
    refine Refuses.left ?_
    simp only [Call.refusal, createRule]
    cases validateTargetColumn U target_column with
    | error code => exact Refuses.left refuses_raise
    | ok safe_column =>
      refine refuses_ok (refuses_now fun now => refuses_uuid4 fun id => Refuses.left ?_)
      refine Refuses.catching (refuses_transaction (refuses_getForUpdate h refuses_raise)) fun y hy => ?_
      rw [if_neg]
      · exact Op.Alone.raise fun _ _ h => ⟨h, hy⟩
      · rcases hy with rfl | hy
        · simp
        · exact hy.ne_integrity _
  | listRules o d limit offset => exact Refuses.left (refuses_read h)
  | deleteRule o d r =>
    refine Refuses.left (refuses_transaction (refuses_getForOwner ?_))
    rintro _ rfl
    cases hd : db.ownedDataset d o with
    | none => exact refuses_raise
    | some dataset =>
      have hr := getRule_eq_none (h.resolve_left (by rw [hd]; exact Option.some_ne_none _))
      refine refuses_effect (e := .query (.getRule d r)) (A := fun r => r = (none : Option ValidationRule))
        (fun _ h => by cases h) rfl (fun w _ _ _ hdb h => ?_) (by rintro _ rfl; exact refuses_raise)
      cases h
      exact ⟨_, rfl, hdb ▸ hr⟩
  | createAnalysis o d => exact Refuses.left (Refuses.left (refuses_transaction (refuses_getForUpdate h refuses_raise)))
  | listAnalyses o d limit offset => exact Refuses.left (refuses_read h)
  | getAnalysis o d a =>
    have ha := getAnalysis_eq_none h
    refine Refuses.left (refuses_transaction (refuses_effect (e := .query (.getForDatasetOwner a d o))
      (A := fun a => a = (none : Option Analysis)) (fun _ h => by cases h) rfl (fun w _ _ _ hdb h => ?_) ?_))
    · cases h
      exact ⟨_, rfl, hdb ▸ ha⟩
    · rintro _ rfl
      exact refuses_raise

/-! ### Such a call ends -/

section Stops

variable {s : σ} {cs cs' : List Choice} {c c₁ c₂ c₃ : Choice}

/-- The body, alone, stops with the exception `x`. -/
def Stops (F : Faults) (p : Pid) (m : Body σ α) (s : σ) (cs : List Choice) (w : World) (x : Exn) : Prop :=
  ∃ s' w' cs', (m s).solo (machine F) p cs w = some ((.error x, s'), w', cs')

lemma Stops.left {β : Type} {m : Body σ α} {f : α → Body σ β} {x : Exn} (h : Stops F p m s cs w x) :
    Stops F p (m >>= f) s cs w x := by
  obtain ⟨s', w', cs', h⟩ := h
  exact ⟨s', w', cs', Op.solo_bind_error h⟩

lemma Stops.ok {β : Type} {a : β} {f : β → Body σ α} {x : Exn} (h : Stops F p (f a) s cs w x) :
    Stops F p (Body.policy (.ok a) >>= f) s cs w x := h

lemma Stops.step {e : Eff} {a : e.Resp} {f : e.Resp → Body σ α} {x : Exn} (hc : c.fault = .none)
    (he : w.perform p c e = some (.ok a, w')) (h : Stops F p (f a) s cs w' x) :
    Stops F p (Body.perform e >>= f) s (c :: cs) w x := by
  obtain ⟨s', w'', cs', h⟩ := h
  exact ⟨s', w'', cs', (Op.solo_bind_ok (solo_perform hc he)).trans h⟩

lemma Stops.catching {m : Body σ α} {g : Exn → Body σ α} {x : Exn} (h : Stops F p m s cs w x)
    (hg : g x = Body.raise x) : Stops F p (Op.catching m g) s cs w x := by
  obtain ⟨s', w', cs', h⟩ := h
  refine ⟨s', w', cs', (Op.solo_catching_error h).trans ?_⟩
  rw [hg]
  rfl

/-- A transaction whose body, after the effect `e`, raises. -/
lemma stops_transaction {e : Eff} {a : e.Resp} {f : e.Resp → Body σ (α × List Write)} {x : Exn}
    (hcs : Calm (c :: c₁ :: c₂ :: cs)) (he : w.perform p c e = some (.ok a, w)) (hf : f a = Body.raise x) :
    Stops F p (Body.transaction (Body.perform e >>= f)) s (c :: c₁ :: c₂ :: cs) w x := by
  simp only [calm_cons] at hcs
  obtain ⟨hc, hc₁, hc₂, -⟩ := hcs
  have hm : ((Body.perform e >>= f) s).solo (machine F) p (c :: c₁ :: c₂ :: cs) w =
      some ((.error x, s), w, c₁ :: c₂ :: cs) := by
    refine (Op.solo_bind_ok (solo_perform hc he)).trans ?_
    rw [hf]
    rfl
  exact ⟨_, _, _, solo_transaction_error hc₁ hc₂ hm⟩

lemma perform_getForOwner {dataset_id : Uuid} (h : w.db.ownedDataset dataset_id o = none) :
    w.perform p c (.query (.getForOwner dataset_id o)) = some (.ok (none : Option Dataset), w) := by
  rw [← h]
  rfl

lemma perform_getForUpdate {dataset_id : Uuid} (h : w.db.ownedDataset dataset_id o = none) :
    w.perform p c (.getForOwnerForUpdate dataset_id o) = some (.ok (none : Option Dataset), w) := by
  simp only [World.perform, h]

/-- A read of a dataset the owner does not have stops the call. -/
lemma stops_read {β : Type} {d : Uuid} {f : Dataset → Body Unit (β × List Write)} (hcs : Calm (c :: c₁ :: c₂ :: cs))
    (h : w.db.ownedDataset d o = none) :
    Stops F p (Body.transaction do
      match ← getForOwner d o with
      | none => Body.raise .datasetNotFound
      | some dataset => f dataset) () (c :: c₁ :: c₂ :: cs) w .datasetNotFound :=
  stops_transaction (e := .query (.getForOwner d o)) hcs (perform_getForOwner h) rfl

/-- **Such a call ends**, when nothing goes wrong. -/
theorem refused_call_stops (U : Unicode) (P : Polars) {k : Call} (h : k.Missing w.db) (hcs : Calm cs)
    (hlen : 5 ≤ cs.length) (hfresh : ∀ c ∈ cs, ¬ w.Issued c.uuid) : ∃ x, Stops F p (k.op U P) () cs w x := by
  match cs, hlen with
  | c₁ :: c₂ :: c₃ :: c₄ :: c₅ :: cs, _ =>
    cases k with
    | createDataset _ _ | listDatasets _ _ _ => exact h.elim
    | getDataset o d => exact ⟨_, Stops.left (stops_read hcs h)⟩
    | uploadCsv o d filename source =>
      simp only [Call.op, uploadCsv]
      cases normalizeCsvFilename U filename with
      | error code => exact ⟨.datasetPolicy code, Stops.left (Stops.left ⟨_, _, _, rfl⟩)⟩
      | ok safe_filename => exact ⟨_, Stops.left (Stops.ok (Stops.left (stops_read hcs h)))⟩
    | createRule o d rule_type target_column configuration =>
      simp only [Call.op, createRule]
      cases validateTargetColumn U target_column with
      | error code => exact ⟨.datasetPolicy code, Stops.left (Stops.left ⟨_, _, _, rfl⟩)⟩
      | ok safe_column =>
        obtain ⟨hc₁, hcs⟩ := calm_cons.mp hcs
        obtain ⟨hc₂, hcs⟩ := calm_cons.mp hcs
        have hu : w.perform p c₂ .uuid4 = some (.ok c₂.uuid, { w with issued := (p, c₂.uuid) :: w.issued }) :=
          if_neg (hfresh c₂ (by simp))
        refine ⟨.datasetNotFound, Stops.left (Stops.ok (Stops.step hc₁ (e := .now) rfl (Stops.step hc₂ hu ?_)))⟩
        refine Stops.left (Stops.catching (stops_transaction (e := .getForOwnerForUpdate d o) hcs
          (perform_getForUpdate h) rfl) (if_neg (by simp)))
    | listRules o d limit offset => exact ⟨_, Stops.left (stops_read hcs h)⟩
    | deleteRule o d r =>
      cases hd : w.db.ownedDataset d o with
      | none => exact ⟨_, Stops.left (stops_read hcs hd)⟩
      | some dataset =>
        have hr := getRule_eq_none (h.resolve_left (by rw [hd]; exact Option.some_ne_none _))
        simp only [calm_cons] at hcs
        obtain ⟨hc₁, hc₂, hc₃, hc₄, -⟩ := hcs
        have hfound : w.perform p c₁ (.query (.getForOwner d o)) = some (.ok (some dataset), w) := by
          rw [← hd]
          rfl
        have hrule : w.perform p c₂ (.query (.getRule d r)) = some (.ok (none : Option ValidationRule), w) := by
          rw [← hr]
          rfl
        refine ⟨_, Stops.left ⟨_, _, _, solo_transaction_error hc₃ hc₄ (Op.solo_bind_ok (solo_perform hc₁ hfound)
          |>.trans ((Op.solo_bind_ok (solo_perform hc₂ hrule)).trans rfl))⟩⟩
    | createAnalysis o d =>
      exact ⟨_, Stops.left (Stops.left (stops_transaction (e := .getForOwnerForUpdate d o) hcs
        (perform_getForUpdate h) rfl))⟩
    | listAnalyses o d limit offset => exact ⟨_, Stops.left (stops_read hcs h)⟩
    | getAnalysis o d a =>
      refine ⟨_, Stops.left (stops_transaction (e := .query (.getForDatasetOwner a d o)) hcs
        (a := (none : Option Analysis)) ?_ rfl)⟩
      rw [← getAnalysis_eq_none h]
      rfl

end Stops

/-- Where nothing goes wrong it does not matter what could. -/
lemma solo_calm {G : Faults} {m : Prog Eff (fun e => Except Exn e.Resp) α} :
    ∀ {cs : List Choice} {w : World}, Calm cs → m.solo (machine F) p cs w = m.solo (machine G) p cs w := by
  induction m with
  | ret a => exact fun _ => rfl
  | vis e k ih =>
    rintro (_ | ⟨c, cs⟩) w hcs
    · rfl
    · obtain ⟨hc, hcs⟩ := calm_cons.mp hcs
      simp only [Prog.solo, machine, hc]
      split
      · exact ih _ hcs
      · rfl

theorem refused_call {U : Unicode} {P : Polars} {k : Call} (h : k.Missing w.db) {cs cs' : List Choice}
    {out : Outcome} (hrun : (k.body U P).solo (machine F) p cs w = some (out, w', cs')) :
    w'.db = w.db ∧ w'.files = w.files ∧ ∃ x, out = (.error x, ()) ∧ (x = k.refusal U ∨ Failed F x) := by
  obtain ⟨r, s⟩ := out
  obtain ⟨hok, herr⟩ := refuses_call U P h w.files () w cs r s w' cs' ⟨rfl, rfl⟩ hrun
  cases r with
  | ok a => exact (hok a rfl).elim
  | error x =>
    obtain ⟨⟨hdb, hfiles⟩, hx⟩ := herr x rfl
    exact ⟨hdb, hfiles, x, rfl, hx⟩

theorem refused_call_calm {U : Unicode} {P : Polars} {k : Call} (h : k.Missing w.db) {cs cs' : List Choice}
    (hcs : Calm cs) {out : Outcome} (hrun : (k.body U P).solo (machine F) p cs w = some (out, w', cs')) :
    out = (.error (k.refusal U), ()) := by
  rw [solo_calm (G := ⟨fun _ => false, false⟩) hcs] at hrun
  obtain ⟨-, -, x, rfl, rfl | ⟨e, he, -⟩⟩ := refused_call h hrun
  · rfl
  · cases he

end Refused

/-! ### Owner isolation -/

/-- **Owner isolation.**  In two stores that agree on the rows and the files of an owner, with the same
UUIDs taken, any calls of that owner end the same way and leave stores that agree again.  A call for
anyone else leaves the owner's rows and files as they are.  And a call that names what belongs to
another owner, or to another dataset, ends like one that names what does not exist: it changes
nothing, and raises `DatasetNotFound` once its other arguments are valid. -/
theorem owner_isolation (U : Unicode) (P : Polars) (F : Faults) (A : Uuid) :
    (∀ w v : World, w.WellFormed → v.WellFormed → w.issued = v.issued → w.locks = v.locks → Agree A w v →
      ∀ (calls : List (Pid × Call)) (cs : List Choice), (∀ k ∈ calls, k.2.owner = A) →
        Option.Rel (fun x y => x.1 = y.1 ∧ x.2.2 = y.2.2 ∧ Agree A x.2.1 y.2.1 ∧ x.2.1.WellFormed ∧
          y.2.1.WellFormed ∧ x.2.1.issued = y.2.1.issued ∧ x.2.1.locks = y.2.1.locks)
          (serve U P F calls cs w) (serve U P F calls cs v)) ∧
    (∀ (w : World) (p : Pid) (k : Call) (cs : List Choice) (out : Outcome) (w' : World) (cs' : List Choice),
      w.WellFormed → (k.body U P).solo (machine F) p cs w = some (out, w', cs') →
        w'.WellFormed ∧ (k.owner ≠ A → Agree A w w')) ∧
    ∀ (w : World) (p : Pid) (k : Call), k.owner = A → k.Foreign w.db ∨ k.Absent w.db →
      (∀ (cs : List Choice) (out : Outcome) (w' : World) (cs' : List Choice),
        (k.body U P).solo (machine F) p cs w = some (out, w', cs') →
          w'.db = w.db ∧ w'.files = w.files ∧ (∃ x, out = (.error x, ()) ∧ (x = k.refusal U ∨ Failed F x)) ∧
          (Calm cs → out = (.error (k.refusal U), ()))) ∧
      ∀ cs : List Choice, Calm cs → 5 ≤ cs.length → (∀ c ∈ cs, ¬ w.Issued c.uuid) →
        ∃ w' cs', (k.body U P).solo (machine F) p cs w = some ((.error (k.refusal U), ()), w', cs') := by
  refine ⟨fun w v hw hv hi hl h calls cs ho => ?_, fun w p k cs out w' cs' hw hrun => ?_, fun w p k _ h => ?_⟩
  · have hrel : Option.Rel _ (serve U P F calls cs w) (serve U P F calls cs v) :=
      serve_alike ho (alike_of_agree hw hv hi hl h)
    generalize serve U P F calls cs w = x at hrel ⊢
    generalize serve U P F calls cs v = y at hrel ⊢
    cases hrel with
    | none => exact .none
    | some hxy =>
      obtain ⟨hout, ha, hcs⟩ := hxy
      exact .some ⟨hout, hcs, ha.agree, ha.left.wellFormed, ha.right.wellFormed, ha.issued, ha.locks⟩
  · obtain ⟨hw', hA⟩ := call_frame hw hrun
    exact ⟨hw', fun hne => hA A (Ne.symm hne)⟩
  · have hm : k.Missing w.db := h.elim Call.Foreign.missing Call.Absent.missing
    refine ⟨fun cs out w' cs' hrun => ?_, fun cs hcs hlen hfresh => ?_⟩
    · obtain ⟨hdb, hfiles, hx⟩ := refused_call hm hrun
      exact ⟨hdb, hfiles, hx, fun hcs => refused_call_calm hm hcs hrun⟩
    · obtain ⟨x, s', w', cs', hrun⟩ := refused_call_stops (F := F) (p := p) U P hm hcs hlen hfresh
      have hout := refused_call_calm hm hcs hrun
      exact ⟨w', cs', by rw [← hout]; exact hrun⟩

/-! ### A sample -/

namespace Sample

/-- A dataset of the owner 1, and one of the owner 2. -/
def mine : Dataset := ⟨10, 1, py "d", none, 0, 0⟩

def theirs : Dataset := ⟨20, 2, py "e", none, 0, 0⟩

/-- A store with these datasets and nothing else. -/
def storeOf (datasets : Table Uuid Dataset Dataset.id) : World :=
  ⟨⟨datasets, .empty, .empty, .empty⟩, fun _ => none, fun _ => none, [(0, 10), (0, 20)]⟩

/-- What the owner 1 has, alone and beside the other owner. -/
def alone : World := storeOf ⟨[mine], by decide⟩

def shared : World := storeOf ⟨[mine, theirs], by decide⟩

/-- Choices with which nothing goes wrong. -/
def choices : List Choice := (List.range 20).map fun i => ⟨.none, 5, 100 + i⟩

/-- Calls of the owner 1. -/
def calls : List (Pid × Call) := [(0, .getDataset 1 20), (1, .listDatasets 1 10 0), (2, .createDataset 1 (py "n"))]

lemma wellFormed_storeOf {t : Table Uuid Dataset Dataset.id}
    (ht : ∀ d ∈ t.rows, d.upload = none ∧ (d.id = 10 ∨ d.id = 20)) : (storeOf t).WellFormed where
  db := {
    dataset_issued := fun d hd => by simpa [storeOf, World.Issued] using (ht d hd).2
    key_issued := fun d hd u hu => by rw [(ht d hd).1] at hu; cases hu
    key_once := fun d hd _ _ u _ hu => by rw [(ht d hd).1] at hu; cases hu
    rule_issued := fun _ h => absurd h List.not_mem_nil
    rule_dataset := fun _ h => absurd h List.not_mem_nil
    analysis_issued := fun _ h => absurd h List.not_mem_nil
    analysis_dataset := fun _ h => absurd h List.not_mem_nil
    result_analysis := fun _ h => absurd h List.not_mem_nil }
  files _ _ h := by cases h

lemma wellFormed_alone : alone.WellFormed := wellFormed_storeOf (by decide)

lemma wellFormed_shared : shared.WellFormed := wellFormed_storeOf (by decide)

lemma agree_alone_shared : Agree 1 alone shared where
  rows := by
    refine OwnerRows.ext (Set.ext fun d => ?_) (Set.ext fun _ => ?_) (Set.ext fun _ => ?_) (Set.ext fun _ => ?_)
    · change d ∈ [mine] ∧ d.owner_id = 1 ↔ d ∈ [mine, theirs] ∧ d.owner_id = 1
      simp only [List.mem_cons, List.not_mem_nil, or_false, or_and_right, iff_self_or, and_imp]
      rintro rfl h
      cases h
    all_goals exact iff_of_false (fun h => absurd h.1 List.not_mem_nil) fun h => absurd h.1 List.not_mem_nil
  files _ _ := rfl

lemma calm_choices : Calm choices := fun c hc => by
  obtain ⟨i, -, rfl⟩ := List.mem_map.mp hc
  rfl

lemma fresh_choices : ∀ c ∈ choices, ¬ shared.Issued c.uuid := fun c hc => by
  obtain ⟨i, -, rfl⟩ := List.mem_map.mp hc
  change (100 + i : ℕ) ∉ ([10, 20] : List ℕ)
  simp only [List.mem_cons, List.not_mem_nil, or_false]
  omega

end Sample

open Datasets.Sample in
/-- The owner 1 sees the same beside the owner 2 and alone; the owner 2 changes nothing of the owner
1's; and the other's dataset is not found. -/
theorem owner_isolation_sample :
    Option.Rel (fun x y => x.1 = y.1 ∧ x.2.2 = y.2.2 ∧ Agree 1 x.2.1 y.2.1 ∧ x.2.1.WellFormed ∧
        y.2.1.WellFormed ∧ x.2.1.issued = y.2.1.issued ∧ x.2.1.locks = y.2.1.locks)
      (serve unicode polars noFaults Sample.calls Sample.choices Sample.alone)
      (serve unicode polars noFaults Sample.calls Sample.choices Sample.shared) ∧
    (∃ out w' cs', ((Call.createDataset 2 (py "n")).body unicode polars).solo (machine noFaults) 0 Sample.choices
      Sample.shared = some (out, w', cs') ∧ Agree 1 Sample.shared w') ∧
    ∃ w' cs', ((Call.getDataset 1 20).body unicode polars).solo (machine noFaults) 0 Sample.choices
      Sample.shared = some ((.error .datasetNotFound, ()), w', cs') := by
  obtain ⟨hsame, hframe, hmissing⟩ := owner_isolation unicode polars noFaults 1
  refine ⟨?_, ?_, ?_⟩
  · exact hsame _ _ Sample.wellFormed_alone Sample.wellFormed_shared rfl rfl Sample.agree_alone_shared _ _ (by decide)
  · exact ⟨_, _, _, rfl, (hframe _ 0 (.createDataset 2 (py "n")) Sample.choices _ _ _ Sample.wellFormed_shared rfl).2
      (by decide)⟩
  · have hforeign : (Call.getDataset 1 20).Foreign Sample.shared.db :=
      ⟨Sample.theirs, List.mem_cons_of_mem _ List.mem_cons_self, rfl, by decide⟩
    exact (hmissing Sample.shared 0 (.getDataset 1 20) rfl (Or.inl hforeign)).2 Sample.choices Sample.calm_choices
      (by decide) Sample.fresh_choices

end DataCheck.Shared
