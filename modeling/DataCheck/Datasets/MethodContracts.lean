import DataCheck.Datasets.UploadContract

/-!
# The other methods of the dataset service

Creating a dataset, creating and deleting a rule, and the methods that only read.
-/

namespace DataCheck.Datasets

open Lib Shared

variable {ok : ValidationRule → Prop} {F : Faults} {p : Pid} {h : Hist World}

/-- Nothing is said of the local variables. -/
abbrev anything {σ ι : Type} : ι → σ → Assert World := fun _ _ _ => True

lemma steady_anything {σ ι : Type} (i : ι) (s : σ) : Steady ok F p (anything i s) := Steady.const _

/-! ### Commits -/

/-- **The commit of a new dataset.** -/
theorem allowed_commitDataset (hi : SysInv ok F h) {d : Dataset} (hd : FreshDataset p d.id h)
    (hup : d.upload = none) : Allowed ok F p h ((h.now.apply [.insertDataset d]).unlock p) := by
  have hg : SysGuar F p h ((h.now.apply [.insertDataset d]).unlock p) :=
    { issued_mono := fun x hx => hx
      issued_mine := fun x hx => Or.inl hx
      locks := fun d' q hqp hq => by simp [World.unlock, World.apply, hq, hqp]
      datasets := fun d' hd' => Or.inl (Table.mem_put.mpr (Or.inr ⟨hd', hd.2 d' hd'⟩))
      new_datasets := by
        intro d' hd'
        rcases Table.mem_put.mp hd' with rfl | ⟨hd', -⟩
        · exact Or.inr hd.1
        · exact Or.inl ⟨d', hd', rfl⟩
      names := by
        rintro key ⟨d', hd', u, hu, rfl⟩
        rcases Table.mem_put.mp hd' with rfl | ⟨hd', -⟩
        · rw [hup] at hu
          cases hu
        · exact Or.inl ⟨d', hd', u, hu, rfl⟩
      candidates := fun u => Or.inl rfl
      stored := fun key => Or.inl rfl
      rules := fun r hr => Or.inl hr
      analyses := fun a ha => ha
      new_analyses := fun a ha => Or.inl ha
      results := fun r hr => hr
      new_results := fun r hr => Or.inl hr }
  refine ⟨hg, hi.push_dataset hg hi.issued_once d rfl (fun u hu => ?_) (fun r hr hid => ?_) rfl rfl rfl⟩
  · rw [hup] at hu
    cases hu
  · -- a rule of the new dataset would have a dataset already
    obtain ⟨d', hd', he, -⟩ := hi.targets r hr
    exact absurd (he.trans hid) (hd.2 d' hd')

/-- A commit that changes the rules only: what is new is under the lock of its dataset. -/
theorem allowed_commitRules (hi : SysInv ok F h) {ws : List Write}
    (hdb : ∃ rules, h.now.db.applyAll ws = { h.now.db with validation_rules := rules } ∧
      ∀ r ∈ rules, r ∈ h.now.db.validation_rules ∨
        h.now.locks r.dataset_id = some p ∧ Targets h.now.db r ∧ ok r) :
    Allowed ok F p h ((h.now.apply ws).unlock p) := by
  obtain ⟨rules, hdb, hnew⟩ := hdb
  have hw : ((h.now.apply ws).unlock p).db = { h.now.db with validation_rules := rules } := hdb
  have hg : SysGuar F p h ((h.now.apply ws).unlock p) :=
    { issued_mono := fun x hx => hx
      issued_mine := fun x hx => Or.inl hx
      locks := fun d' q hqp hq => by simp [World.unlock, World.apply, hq, hqp]
      datasets := fun d hd => Or.inl (by rw [hw]; exact hd)
      new_datasets := fun d hd => Or.inl ⟨d, by rw [hw] at hd; exact hd, rfl⟩
      names := fun key hn => Or.inl (by rw [hw] at hn; exact hn)
      candidates := fun u => Or.inl rfl
      stored := fun key => Or.inl rfl
      rules := fun r hr => by
        rw [hw] at hr
        exact (hnew r hr).imp id And.left
      analyses := fun a ha => by rw [hw]; exact ha
      new_analyses := fun a ha => Or.inl (by rw [hw] at ha; exact ha)
      results := fun r hr => by rw [hw]; exact hr
      new_results := fun r hr => Or.inl (by rw [hw] at hr; exact hr) }
  refine ⟨hg, hi.push hg hi.issued_once (by rw [hw]) (fun r hr => ?_) (fun a ha => ?_) fun r hr => ?_⟩
  · rw [hw] at hr
    exact (hnew r hr).imp id And.right
  · exact Or.inl (by rw [hw] at ha; exact ha)
  · exact Or.inl (by rw [hw] at hr; exact hr)

section Methods

variable {σ α : Type} {t : Caller Call World}

lemma does_anyQuery (q : Query) :
    Does ok F t (fun (_ : σ) _ => True) (Body.perform (.query q)) anything anything :=
  does_query (fun _ _ => Stable.const _) (fun _ _ => Stable.const _) (fun _ _ _ _ => trivial)
    fun _ _ _ _ => trivial

lemma does_reading {m : Body σ (α × List Write)}
    (hm : Does ok F t (fun _ _ => True) m (fun out _ _ => out.2 = []) anything) :
    Does ok F t (fun _ _ => True) (Body.transaction m) anything anything := by
  refine does_transaction steady_anything steady_anything hm (fun _ ws _ h hi hc => ?_)
    (fun _ _ _ _ _ _ => trivial) (fun _ _ _ _ _ _ => trivial) fun _ _ _ _ _ => trivial
  obtain rfl : ws = [] := hc
  exact commit_nil (Steady.const _) hi trivial

theorem does_listDatasets {owner_id : Uuid} {limit offset : ℕ} :
    Does ok F t (fun (_ : σ) _ => True) (listDatasets owner_id limit offset) anything anything :=
  does_reading ((does_anyQuery _).bind fun _ => Triple.pure fun _ _ _ _ => rfl)

theorem does_getDataset {owner_id dataset_id : Uuid} :
    Does ok F t (fun (_ : σ) _ => True) (getDataset owner_id dataset_id) anything anything := by
  refine does_reading ((does_anyQuery _).bind fun d => ?_)
  cases d with
  | none => exact Triple.raise fun _ _ _ _ => trivial
  | some d => exact Triple.pure fun _ _ _ _ => rfl

theorem does_listRules {owner_id dataset_id : Uuid} {limit offset : ℕ} :
    Does ok F t (fun (_ : σ) _ => True) (listRules owner_id dataset_id limit offset)
      anything anything := by
  refine does_reading ((does_anyQuery _).bind fun d => ?_)
  cases d with
  | none => exact Triple.raise fun _ _ _ _ => trivial
  | some d => exact (does_anyQuery _).bind fun _ => Triple.pure fun _ _ _ _ => rfl

theorem does_createDataset (U : Unicode) {owner_id : Uuid} {name : PyStr} :
    Does ok F t (fun (_ : σ) _ => True) (createDataset U owner_id name) anything anything := by
  refine Triple.bind (B := anything) ?_ fun normalized_name => ?_
  · exact Triple.ofExcept (fun _ _ _ _ _ _ => trivial) fun _ _ _ _ _ _ => trivial
  refine Triple.bind (B := anything) ?_ fun now => ?_
  · exact does_now (fun _ _ => Stable.const _) (fun _ _ => Stable.const _)
      (fun _ _ _ _ _ => trivial) fun _ _ _ _ => trivial
  refine Triple.bind (B := fun u _ => FreshDataset t.pid u) ?_ fun id => ?_
  · refine does_uuid4 (fun u _ => (steady_freshDataset u).stable) (fun _ _ => Stable.const _)
      (fun u _ h hi _ hu => ⟨List.mem_cons_self, fun d hd he => ?_⟩) fun _ _ _ _ => trivial
    obtain ⟨q, hq⟩ := hi.dataset_issued d hd
    exact hu q (he ▸ hq)
  refine Triple.bind (B := anything) ?_ fun _ => Triple.pure fun _ _ _ _ => trivial
  refine does_transaction (C := fun out _ h => out.2 =
      [.insertDataset ⟨id, owner_id, normalized_name, none, now, now⟩] ∧ FreshDataset t.pid id h)
    steady_anything steady_anything ?_ (fun _ ws _ h hi hc => ?_)
    (fun _ _ _ _ _ _ => trivial) (fun _ _ _ _ _ _ => trivial) fun _ _ _ _ _ => trivial
  · refine Triple.bind (B := fun _ _ => FreshDataset t.pid id) ?_
      fun _ => Triple.pure fun _ _ _ hp => ⟨rfl, hp⟩
    exact does_flush (fun _ _ => (steady_freshDataset id).stable) (fun _ _ => Stable.const _)
      (fun _ _ _ hp => hp) fun _ _ _ _ _ => trivial
  · obtain ⟨rfl, hd⟩ := hc
    exact ⟨allowed_commitDataset hi hd rfl, trivial⟩

lemma does_insertRule {owner_id dataset_id : Uuid} {rule : ValidationRule}
    (hrule : rule.dataset_id = dataset_id) (hok : ok rule) :
    Does ok F t (fun (_ : σ) _ => True) (insertRule owner_id dataset_id rule.target_column rule)
      anything anything := by
  refine does_transaction (C := fun out _ h => out.2 = [.insertRule rule] ∧
      ∃ d u, Holds t.pid d h ∧ d.id = dataset_id ∧ d.upload = some u ∧
        rule.target_column ∈ u.column_names)
    steady_anything steady_anything ?_ (fun _ ws _ h hi hc => ?_)
    (fun _ _ _ _ _ _ => trivial) (fun _ _ _ _ _ _ => trivial) fun _ _ _ _ _ => trivial
  · refine Triple.bind (B := fun d _ h => ∀ d', d = some d' → Holds t.pid d' h ∧ d'.id = dataset_id)
      ?_ fun d => ?_
    · refine does_getForOwnerForUpdate (fun d _ => ?_) (fun _ _ => Stable.const _)
        (fun _ _ _ _ _ d' hd => (nomatch hd)) (fun d _ h w _ _ hd _ hh d' hd' => ?_)
        fun _ _ _ _ => trivial
      · exact Stable.forall fun d' => Stable.imp _ ((stable_holds d').and (Stable.const _))
      · cases hd'
        exact ⟨hh, (ownedDataset_eq_some.mp hd).2.1⟩
    · cases d with
      | none => exact Triple.raise fun _ _ _ _ => trivial
      | some d =>
        simp only
        cases hu : d.upload with
        | none => exact Triple.raise fun _ _ _ _ => trivial
        | some u =>
          simp only
          split
          · exact Triple.raise fun _ _ _ _ => trivial
          · next hcol =>
            refine Triple.bind (B := fun _ _ h => Holds t.pid d h ∧ d.id = dataset_id) ?_ fun _ => ?_
            · exact does_flush (fun _ _ => (stable_holds d).and (Stable.const _))
                (fun _ _ => Stable.const _) (fun _ _ _ hp => hp d rfl) fun _ _ _ _ _ => trivial
            · exact Triple.pure fun _ h _ hp => ⟨rfl, d, u, hp.1, hp.2, hu, not_not.mp hcol⟩
  · obtain ⟨rfl, d, u, hd, hid, hu, hcol⟩ := hc
    refine ⟨allowed_commitRules hi ⟨_, rfl, fun r hr => ?_⟩, trivial⟩
    rcases Table.mem_put.mp hr with rfl | ⟨hr, -⟩
    · exact Or.inr ⟨by rw [hrule, ← hid]; exact hd.1,
        ⟨d, hd.2, hid.trans hrule.symm, u, hu, hcol⟩, hok⟩
    · exact Or.inl hr

theorem does_createRule (U : Unicode) {owner_id dataset_id : Uuid} {rule_type target_column : PyStr}
    {configuration : Dict}
    (hok : ∀ id now, ok ⟨id, dataset_id, rule_type, target_column, configuration, now⟩) :
    Does ok F t (fun (_ : σ) _ => True)
      (createRule U owner_id dataset_id rule_type target_column configuration)
      anything anything := by
  refine Triple.bind (B := fun c _ _ => c = target_column) ?_ fun safe_column => ?_
  · refine Triple.ofExcept (fun c _ _ hc _ _ => ?_) fun _ _ _ _ _ _ => trivial
    cases hv : validateTargetColumn U target_column with
    | error x => rw [hv] at hc; cases hc
    | ok c' =>
      rw [hv] at hc
      cases hc
      exact (validateTargetColumn_ok hv).1
  refine Triple.assume (fun _ _ _ hp => hp) fun hcolumn => ?_
  subst hcolumn
  refine Triple.bind (B := anything) ?_ fun now => ?_
  · exact does_now (fun _ _ => Stable.const _) (fun _ _ => Stable.const _)
      (fun _ _ _ _ _ => trivial) fun _ _ _ _ => trivial
  refine Triple.bind (B := anything) ?_ fun id => ?_
  · exact does_uuid4 (fun u _ => Stable.const _) (fun _ _ => Stable.const _)
      (fun _ _ _ _ _ _ => trivial) fun _ _ _ _ => trivial
  refine Triple.bind (B := anything) ?_ fun _ => Triple.pure fun _ _ _ _ => trivial
  refine Triple.catching (Y := anything) (does_insertRule rfl (hok id now)) fun x => ?_
  split <;> exact Triple.raise fun _ _ _ _ => trivial

theorem does_deleteRule {owner_id dataset_id rule_id : Uuid} :
    Does ok F t (fun (_ : σ) _ => True) (deleteRule owner_id dataset_id rule_id)
      anything anything := by
  refine does_transaction (C := fun out _ _ => ∃ id, out.2 = [.deleteRule id])
    steady_anything steady_anything ?_ (fun _ ws _ h hi hc => ?_)
    (fun _ _ _ _ _ _ => trivial) (fun _ _ _ _ _ _ => trivial) fun _ _ _ _ _ => trivial
  · refine (does_anyQuery _).bind fun d => ?_
    cases d with
    | none => exact Triple.raise fun _ _ _ _ => trivial
    | some d =>
      refine (does_anyQuery _).bind fun r => ?_
      cases r with
      | none => exact Triple.raise fun _ _ _ _ => trivial
      | some r => exact Triple.pure fun _ _ _ _ => ⟨r.id, rfl⟩
  · obtain ⟨id, rfl⟩ := hc
    exact ⟨allowed_commitRules hi ⟨_, rfl, fun r hr => Or.inl (Table.mem_erase.mp hr).1⟩, trivial⟩

end Methods

end DataCheck.Datasets
