import DataCheck.Shared.Refinement
import DataCheck.Shared.Transactions

/-!
# Runs, read as operations one after the other

The history of the database in a run is that of a list of atomic operations, at most one for each call,
each performed while its call was in progress; and what a changing call has replied is the reply of its
operation.
-/

namespace DataCheck.Shared

open Lib Datasets Analyses

variable {U : Unicode} {P : Polars} {F : Faults} {ok : ValidationRule → Prop} {cfg : SysConfig} {p q : Pid}
  {h h₁ h₂ : Hist World} {w : World} {k : Call} {r : Reply} {db : Db}

/-- An operation: the thread that performs it, its call, its reply, and the moment before it. -/
structure Operation where
  pid : Pid
  call : Call
  reply : Reply
  moment : Hist World

/-- The database is what these operations make of an empty one, the latest first. -/
inductive Serially (U : Unicode) : List Operation → Hist World → Prop
  | start : Serially U [] ⟨World.empty, []⟩
  | quiet {ops : List Operation} {h : Hist World} {w : World} (hs : Serially U ops h)
      (hdb : w.db = h.now.db) : Serially U ops (h.push w)
  | perform {ops : List Operation} {h : Hist World} {w : World} {p : Pid} {k : Call} {r : Reply}
      (hs : Serially U ops h) (hc : Changes U p h k r w.db) : Serially U (⟨p, k, r, h⟩ :: ops) (h.push w)

/-! ### What an operation can be told by -/

lemma Changes.of_newDataset (hc : Changes U q h k r db) {d : Dataset} (hd : d ∈ db.datasets)
    (hnew : ∀ e ∈ h.now.db.datasets, e.id ≠ d.id) : (q, d.id) ∈ h.now.issued ∧ r = .dataset (datasetReference d) := by
  cases hc with
  | createDataset _ _ _ _ _ hmine _ =>
    rcases Table.mem_put.mp hd with rfl | ⟨hd, -⟩
    · exact ⟨hmine, rfl⟩
    · exact absurd rfl (hnew d hd)
  | @uploadCsv _ _ _ _ e u updated_at _ he =>
    rcases Table.mem_put.mp hd with rfl | ⟨hd, -⟩
    · have hid : (withUpload e u updated_at).id = e.id := rfl
      exact absurd hid.symm (hnew _ (ownedDataset_eq_some.mp he).1)
    · exact absurd rfl (hnew d hd)
  | createRule => exact absurd rfl (hnew d hd)
  | deleteRule => exact absurd rfl (hnew d hd)
  | createAnalysis => exact absurd rfl (hnew d hd)

lemma Changes.of_newFile (hc : Changes U q h k r db) {d : Dataset} {u : UploadColumns} (hd : d ∈ db.datasets)
    (hu : d.upload = some u) (hnew : ¬ Published h u.storage_key) :
    (q, u.storage_key.uuid) ∈ h.now.issued ∧ r = .dataset (datasetReference d) := by
  have hold : d ∉ h.now.db.datasets := fun hd => hnew (published_of_names ⟨d, hd, u, hu, rfl⟩)
  cases hc with
  | createDataset _ _ hupload =>
    rcases Table.mem_put.mp hd with rfl | ⟨hd, -⟩
    · rw [hupload] at hu
      cases hu
    · exact absurd hd hold
  | uploadCsv _ _ _ _ _ hmine =>
    rcases Table.mem_put.mp hd with rfl | ⟨hd, -⟩
    · cases hu
      exact ⟨hmine, rfl⟩
    · exact absurd hd hold
  | createRule => exact absurd hd hold
  | deleteRule => exact absurd hd hold
  | createAnalysis => exact absurd hd hold

lemma Changes.of_newRule (hc : Changes U q h k r db) {rule : ValidationRule} (hr : rule ∈ db.validation_rules)
    (hnew : ¬ HadRule h rule.id) : (q, rule.id) ∈ h.now.issued ∧ r = .rule (ruleReference rule) := by
  have hold : rule ∉ h.now.db.validation_rules := fun hr => hnew (hadRule_now hr)
  cases hc with
  | createRule _ _ _ _ _ hmine =>
    rcases Table.mem_put.mp hr with rfl | ⟨hr, -⟩
    · exact ⟨hmine, rfl⟩
    · exact absurd hr hold
  | deleteRule => exact absurd (Table.mem_erase.mp hr).1 hold
  | createDataset => exact absurd hr hold
  | uploadCsv => exact absurd hr hold
  | createAnalysis => exact absurd hr hold

lemma resultsOf_created (hi : SysInv ok F h) {a : Analysis} {results : List ValidationResult}
    (hnew : ∀ b ∈ h.now.db.analyses, b.id ≠ a.id) (hpos : Positioned a.id results) :
    Db.resultsOf { h.now.db with
      analyses := h.now.db.analyses.put a
      validation_results := results.foldl Table.put h.now.db.validation_results } a.id = results := by
  have hres : ∀ s ∈ h.now.db.validation_results, s.analysis_id ≠ a.id := by
    intro s hs he
    obtain ⟨b, hb, hid⟩ := hi.result_analysis s hs
    exact hnew b hb (hid.trans he)
  have hresults := resultsOf_commit hpos hres
  rwa [applyAll_historyWrites] at hresults

lemma Changes.of_newAnalysis (hi : SysInv ok F h) (hc : Changes U q h k r db) {a : Analysis}
    {detail : AnalysisDetailReference} (ha : a ∈ db.analyses) (hnew : ∀ b ∈ h.now.db.analyses, b.id ≠ a.id)
    (hdetail : detailReference a (db.resultsOf a.id) = .ok detail) :
    (q, a.id) ∈ h.now.issued ∧ r = .analysis detail := by
  cases hc with
  | @createAnalysis _ _ b results detail' _ hmine hfresh _ _ hpos hcomplete hsnap hdetail' =>
    rcases Table.mem_put.mp ha with rfl | ⟨ha, -⟩
    · rw [resultsOf_created hi hnew hpos, hdetail'] at hdetail
      cases hdetail
      exact ⟨hmine, rfl⟩
    · exact absurd rfl (hnew a ha)
  | createDataset => exact absurd rfl (hnew a ha)
  | uploadCsv => exact absurd rfl (hnew a ha)
  | createRule => exact absurd rfl (hnew a ha)
  | deleteRule => exact absurd rfl (hnew a ha)

lemma Changes.of_lostRule (hc : Changes U q h k r db) {rule : ValidationRule}
    (hr : rule ∈ h.now.db.validation_rules) (hgone : rule ∉ db.validation_rules) :
    r = .unit ∧ ∃ owner_id, k = .deleteRule owner_id rule.dataset_id rule.id := by
  cases hc with
  | @deleteRule owner_id _ s hd hs =>
    have he : rule.id = s.id := by
      by_contra hne
      exact hgone (Table.mem_erase.mpr ⟨hr, hne⟩)
    obtain rfl := Table.eq_of_key hr hs he
    exact ⟨rfl, owner_id, rfl⟩
  | createRule _ _ _ _ _ _ hnew =>
    refine absurd (Table.mem_put.mpr (Or.inr ⟨hr, fun he => hnew ?_⟩)) hgone
    rw [← he]
    exact hadRule_now hr
  | createDataset => exact absurd hr hgone
  | uploadCsv => exact absurd hr hgone
  | createAnalysis => exact absurd hr hgone

/-! ### Recording the operations of a run -/

/-- The operations so far, where `progress p` says how far the thread `p` is with its changes. -/
structure Recorded (U : Unicode) (ops : List Operation) (progress : Pid → Progress) (cfg : SysConfig) : Prop where
  serial : Serially U ops cfg.hist
  once : (ops.map Operation.pid).Nodup
  during : ∀ op ∈ ops, ∃ t, cfg.threads op.pid = some t ∧ t.call = op.call ∧ t.start ≤ op.moment
  spent : ∀ op ∈ ops, progress op.pid ≠ .untried
  fresh : ∀ p, cfg.threads p = none → progress p = .untried
  follows : ∀ p t, cfg.threads p = some t → t.prog.Follows changeOnce (fun _ _ => True) (progress p)

lemma recorded_init : Recorded U [] (fun _ => .untried) (Config.init World.empty : SysConfig) where
  serial := .start
  once := List.nodup_nil
  during op h := absurd h List.not_mem_nil
  spent op h := absurd h List.not_mem_nil
  fresh _ _ := rfl
  follows p t h := by cases h

/-- One step, and at most one more operation. -/
theorem Recorded.step {ops : List Operation} {progress : Pid → Progress} {cfg' : SysConfig} {l : Label Call Choice}
    (hrec : Recorded U ops progress cfg) (hr : Reach U P F anyCall cfg)
    (hs : cfg.step (machine F) (Call.body U P) l = some cfg') :
    ∃ new progress', Recorded U (new ++ ops) progress' cfg' := by
  rcases Config.step_cases hs with ⟨p, k, -, hp, hh, hth⟩ | ⟨p, c, k, h₀, e, f, r, w, -, hp, he, hh, hth⟩
  · -- a call starts
    refine ⟨[], progress, hh ▸ hrec.serial, hrec.once, fun op hop => ?_, hrec.spent, fun q hq => ?_, fun q t hq => ?_⟩
    · obtain ⟨t, ht, hcall, hle⟩ := hrec.during op hop
      have hne : op.pid ≠ p := by
        intro he
        rw [he, hp] at ht
        cases ht
      exact ⟨t, by rw [hth, Function.update_of_ne hne, ht], hcall, hle⟩
    · rw [hth] at hq
      exact hrec.fresh q (update_none hq).2
    · rw [hth] at hq
      rcases update_some hq with ⟨rfl, rfl⟩ | ⟨-, hq⟩
      · rw [hrec.fresh q hp]
        exact (changing_body k).mono fun _ _ _ => trivial
      · exact hrec.follows q t hq
  · obtain ⟨hmay, hf⟩ := hrec.follows p _ hp
    have hduring : ∀ op ∈ ops, ∃ t, cfg'.threads op.pid = some t ∧ t.call = op.call ∧ t.start ≤ op.moment := by
      intro op hop
      obtain ⟨t, ht, hcall, hle⟩ := hrec.during op hop
      by_cases hop' : op.pid = p
      · rw [hop', hp] at ht
        cases ht
        exact ⟨⟨k, h₀, f r⟩, by rw [hth, hop', Function.update_self], hcall, hle⟩
      · exact ⟨t, by rw [hth, Function.update_of_ne hop', ht], hcall, hle⟩
    have hfresh : ∀ q, cfg'.threads q = none → Function.update progress p ((progress p).next e r) q = .untried := by
      intro q hq
      rw [hth] at hq
      obtain ⟨hqp, hq⟩ := update_none hq
      rw [Function.update_of_ne hqp]
      exact hrec.fresh q hq
    have hfollows : ∀ q t, cfg'.threads q = some t → t.prog.Follows changeOnce (fun _ _ => True)
        (Function.update progress p ((progress p).next e r) q) := by
      intro q t hq
      rw [hth] at hq
      rcases update_some hq with ⟨rfl, rfl⟩ | ⟨hqp, hq⟩
      · rw [Function.update_self]
        exact hf r
      · rw [Function.update_of_ne hqp]
        exact hrec.follows q t hq
    have hspent : ∀ op ∈ ops, Function.update progress p ((progress p).next e r) op.pid ≠ .untried := by
      intro op hop
      by_cases hop' : op.pid = p
      · rw [hop', Function.update_self]
        exact Progress.next_spent (hop' ▸ hrec.spent op hop)
      · rw [Function.update_of_ne hop']
        exact hrec.spent op hop
    by_cases hdb : w.db = cfg.hist.now.db
    · exact ⟨[], _, hh ▸ .quiet hrec.serial hdb, hrec.once, hduring, hspent, hfresh, hfollows⟩
    · -- the database changed, by the first commit of its call
      have hch : e.changes = true := by
        by_contra hno
        exact hdb (exec_db (Bool.not_eq_true _ ▸ hno) he)
      have hunspent : progress p = .untried := hmay hch
      have hle : h₀ ≤ cfg.hist := reach_start creates_any hr hp
      obtain ⟨reply, hc⟩ := (reach_atomically creates_any hr hp he).1.resolve_left hdb
      refine ⟨[⟨p, k, reply, cfg.hist⟩], _, hh ▸ .perform hrec.serial hc, ?_, fun op hop => ?_, fun op hop => ?_,
        hfresh, hfollows⟩
      · refine List.nodup_cons.mpr ⟨fun hmem => ?_, hrec.once⟩
        obtain ⟨op, hop, hop'⟩ := List.mem_map.mp hmem
        exact hrec.spent op hop (hop' ▸ hunspent)
      · rcases List.mem_cons.mp hop with rfl | hop
        · exact ⟨⟨k, h₀, f r⟩, by rw [hth, Function.update_self], rfl, hle⟩
        · exact hduring op hop
      · rcases List.mem_cons.mp hop with rfl | hop
        · rw [Function.update_self]
          exact Progress.next_changes hch
        · exact hspent op hop

lemma reach_recorded (hr : Reach U P F anyCall cfg) : ∃ ops progress, Recorded U ops progress cfg := by
  induction hr with
  | init => exact ⟨[], _, recorded_init⟩
  | step l hr _ hs ih =>
    obtain ⟨ops, progress, hrec⟩ := ih
    obtain ⟨new, progress', hrec'⟩ := hrec.step hr hs
    exact ⟨new ++ ops, progress', hrec'⟩

lemma Recorded.steps {ops : List Operation} {progress : Pid → Progress} {cfg' : SysConfig}
    (hrec : Recorded U ops progress cfg) (hr : Reach U P F anyCall cfg)
    (hs : Config.Steps (machine F) (Call.body U P) anyCall cfg cfg') :
    ∃ new progress', Recorded U (new ++ ops) progress' cfg' := by
  induction hs with
  | refl => exact ⟨[], progress, hrec⟩
  | step l hs _ hs' ih =>
    obtain ⟨new, progress', hrec'⟩ := ih
    obtain ⟨new', progress'', hrec''⟩ := hrec'.step (hs.reachable hr) hs'
    exact ⟨new' ++ new, progress'', by rwa [List.append_assoc]⟩

/-! ### What a call replied -/

/-- The change of the database between two successive moments is one of the operations. -/
lemma Serially.at {ops : List Operation} (hs : Serially U ops h) (hle : h₁.push w ≤ h) :
    w.db = h₁.now.db ∨ ∃ op ∈ ops, op.moment = h₁ ∧ Changes U op.pid h₁ op.call op.reply w.db := by
  induction hs with
  | start => cases hle
  | @quiet ops h w' hs hdb ih =>
    rcases Hist.le_push_iff.mp hle with he | hle
    · obtain ⟨rfl, rfl⟩ := Hist.push_inj he
      exact Or.inl hdb
    · exact ih hle
  | @perform ops h w' p k r hs hc ih =>
    rcases Hist.le_push_iff.mp hle with he | hle
    · obtain ⟨rfl, rfl⟩ := Hist.push_inj he
      exact Or.inr ⟨_, List.mem_cons_self, rfl, hc⟩
    · obtain hdb | ⟨op, hop, hop'⟩ := ih hle
      · exact Or.inl hdb
      · exact Or.inr ⟨op, List.mem_cons_of_mem _ hop, hop'⟩

/-- A rule that was there and is not any more was deleted by one of the operations. -/
lemma Serially.lost {ops : List Operation} (hs : Serially U ops h) {rule : ValidationRule} (hle : h₁ ≤ h₂)
    (hle' : h₂ ≤ h) (hr : rule ∈ h₁.now.db.validation_rules) (hgone : rule ∉ h₂.now.db.validation_rules) :
    ∃ op ∈ ops, h₁ ≤ op.moment ∧ ∃ owner_id, op.call = .deleteRule owner_id rule.dataset_id rule.id := by
  induction hle with
  | refl => exact absurd hr hgone
  | @push h₂ w hle ih =>
    by_cases hr₂ : rule ∈ h₂.now.db.validation_rules
    · rcases hs.at hle' with hdb | ⟨op, hop, hm, hc⟩
      · rw [Hist.push_now, hdb] at hgone
        exact absurd hr₂ hgone
      · exact ⟨op, hop, hm ▸ hle, (hc.of_lostRule hr₂ hgone).2⟩
    · exact ih (Hist.le_trans (Hist.le_push w Hist.le_rfl) hle') hr₂

lemma Recorded.call_eq {ops : List Operation} {progress : Pid → Progress} (hrec : Recorded U ops progress cfg)
    {op : Operation} (hop : op ∈ ops) (hpid : op.pid = p) {h₀ : Hist World} {m}
    (hp : cfg.threads p = some ⟨k, h₀, m⟩) :
    op.call = k ∧ h₀ ≤ op.moment := by
  obtain ⟨t, ht, hcall, hle⟩ := hrec.during op hop
  rw [hpid, hp] at ht
  cases ht
  exact ⟨hcall.symm, hle⟩

/-- The call of the thread `p` had this reply. -/
def Operation.Is (op : Operation) (p : Pid) (k : Call) (r : Reply) : Prop := op.pid = p ∧ op.call = k ∧ op.reply = r

/-- Another call deletes the rule. -/
def Call.Overtakes (k' k : Call) : Prop :=
  ∃ owner_id owner_id' dataset_id rule_id, k = .deleteRule owner_id dataset_id rule_id ∧
    k' = .deleteRule owner_id' dataset_id rule_id

lemma Changes.ne (hc : Changes U p h k r db) : db ≠ h.now.db := by
  intro he
  cases hc with
  | @createDataset _ _ d _ _ _ _ _ _ hnew =>
    have hd : d ∈ h.now.db.datasets := by
      rw [← he]
      exact Table.mem_put.mpr (Or.inl rfl)
    exact hnew d hd rfl
  | @uploadCsv _ _ _ _ d u updated_at _ _ _ _ _ _ _ hnew =>
    have hd : withUpload d u updated_at ∈ h.now.db.datasets := by
      rw [← he]
      exact Table.mem_put.mpr (Or.inl rfl)
    exact hnew (published_of_names ⟨_, hd, u, rfl, rfl⟩)
  | @createRule _ _ _ rule _ _ _ _ _ _ hnew =>
    have hr : rule ∈ h.now.db.validation_rules := by
      rw [← he]
      exact Table.mem_put.mpr (Or.inl rfl)
    exact hnew (hadRule_now hr)
  | @deleteRule _ _ rule _ hr =>
    rw [← he] at hr
    exact (Table.mem_erase.mp hr).2 rfl
  | @createAnalysis _ _ a _ _ _ _ hnew =>
    have ha : a ∈ h.now.db.analyses := by
      rw [← he]
      exact Table.mem_put.mpr (Or.inl rfl)
    exact hnew a ha rfl

/-- **A change tells its operation**: the thread and the reply, or for a deletion the rule. -/
theorem Changes.unique {k' : Call} {r' : Reply} (hi : SysInv ok F h) (hc : Changes U p h k r db)
    (hc' : Changes U q h k' r' db) : q = p ∧ r' = r ∨ k'.Overtakes k := by
  cases hc with
  | createDataset _ _ _ _ _ hmine hnew =>
    obtain ⟨hq, hr⟩ := hc'.of_newDataset (Table.mem_put.mpr (Or.inl rfl)) hnew
    exact Or.inl ⟨hi.issued_once _ _ _ hq hmine, hr⟩
  | uploadCsv _ _ _ _ _ hmine hnew =>
    obtain ⟨hq, hr⟩ := hc'.of_newFile (Table.mem_put.mpr (Or.inl rfl)) rfl hnew
    exact Or.inl ⟨hi.issued_once _ _ _ hq hmine, hr⟩
  | createRule _ _ _ _ _ hmine hnew =>
    obtain ⟨hq, hr⟩ := hc'.of_newRule (Table.mem_put.mpr (Or.inl rfl)) hnew
    exact Or.inl ⟨hi.issued_once _ _ _ hq hmine, hr⟩
  | @deleteRule owner_id _ rule _ hr =>
    obtain ⟨-, owner_id', hk'⟩ := hc'.of_lostRule hr fun hmem => (Table.mem_erase.mp hmem).2 rfl
    exact Or.inr ⟨owner_id, owner_id', _, _, rfl, hk'⟩
  | createAnalysis _ hmine hnew _ _ hpos _ _ hdetail =>
    rw [← resultsOf_created hi hnew hpos] at hdetail
    obtain ⟨hq, hr⟩ := hc'.of_newAnalysis hi (Table.mem_put.mpr (Or.inl rfl)) hnew hdetail
    exact Or.inl ⟨hi.issued_once _ _ _ hq hmine, hr⟩

/-- A call that changes the database does not only read. -/
lemma not_sees (hk : k.writes = true) : ¬ Sees k r db := by
  cases k <;> first | exact id | cases hk

/-- A call that replied to a change is one of the operations, or one of them did what it was to do. -/
theorem Recorded.answers {ops : List Operation} {progress : Pid → Progress} (hrec : Recorded U ops progress cfg)
    (hr : Reach U P F anyCall cfg) {h₀ : Hist World} (hp : cfg.threads p = some ⟨k, h₀, .ret (.ok r, ())⟩)
    (hk : k.writes = true) : ∃ op ∈ ops, h₀ ≤ op.moment ∧ (op.Is p k r ∨ op.call.Overtakes k) := by
  have ha : Answered U ⟨p, k, h₀⟩ cfg.hist r := (reach_finishes creates_any hr hp).2
  cases ha with
  | saw _ _ hr => exact absurd hr (not_sees hk)
  | @changed _ h₁ w hle hle' hc =>
    rcases hrec.serial.at hle' with hdb | ⟨op, hop, hm, hc'⟩
    · exact absurd hdb hc.ne
    · have hi : SysInv (fun _ => True) F h₁ := reach_past creates_any hr (Hist.le_trans (Hist.le_push w Hist.le_rfl) hle')
      rcases hc.unique hi hc' with ⟨hpid, hreply⟩ | hover
      · exact ⟨op, hop, hm ▸ hle, Or.inl ⟨hpid, (hrec.call_eq hop hpid hp).1, hreply⟩⟩
      · exact ⟨op, hop, hm ▸ hle, Or.inr hover⟩
  | @overtaken owner_id dataset_id rule h₁ h₂ hcall hle hle₁ hle₂ hrule howner hgone =>
    obtain ⟨op, hop, hm, owner_id', hk'⟩ := hrec.serial.lost hle₁ hle₂ hrule.1 fun hmem => hgone _ hmem rfl
    exact ⟨op, hop, Hist.le_trans hle hm, Or.inr ⟨owner_id, owner_id', dataset_id, rule.id, hcall, hrule.2 ▸ hk'⟩⟩

/-! ### The result -/

/-- These operations, one after the other, are what the calls did so far. -/
structure Linearizes (U : Unicode) (ops : List Operation) (cfg : SysConfig) : Prop where
  serial : Serially U ops cfg.hist
  once : (ops.map Operation.pid).Nodup
  during : ∀ op ∈ ops, ∃ t, cfg.threads op.pid = some t ∧ t.call = op.call ∧ t.start ≤ op.moment
  changed : ∀ p k h₀ r, cfg.threads p = some ⟨k, h₀, .ret (.ok r, ())⟩ → k.writes = true →
    ∃ op ∈ ops, h₀ ≤ op.moment ∧ (op.Is p k r ∨ op.call.Overtakes k)

lemma Recorded.linearizes {ops : List Operation} {progress : Pid → Progress} (hrec : Recorded U ops progress cfg)
    (hr : Reach U P F anyCall cfg) : Linearizes U ops cfg :=
  ⟨hrec.serial, hrec.once, hrec.during, fun _ _ _ _ hp hk => hrec.answers hr hp hk⟩

/-- **Runs linearize.**  What the calls of a run did is what operations do one after the other, at most one
for each call and while it goes on, whose replies are the calls' replies; and in every continuation the
operations so far stay, with the later ones after them. -/
theorem runs_linearize (hr : Reach U P F anyCall cfg) : ∃ ops, Linearizes U ops cfg ∧
    ∀ cfg', Config.Steps (machine F) (Call.body U P) anyCall cfg cfg' → ∃ new, Linearizes U (new ++ ops) cfg' := by
  obtain ⟨ops, progress, hrec⟩ := reach_recorded hr
  refine ⟨ops, hrec.linearizes hr, fun cfg' hs => ?_⟩
  obtain ⟨new, progress', hrec'⟩ := hrec.steps hr hs
  exact ⟨new, hrec'.linearizes (hs.reachable hr)⟩

theorem runs_linearize_sample : ∃ ops, Linearizes Datasets.Sample.unicode ops Sample.deleted := by
  have hr : Reach Datasets.Sample.unicode Datasets.Sample.polars Datasets.Sample.noFaults anyCall Sample.deleted :=
    Datasets.Sample.reach _
  obtain ⟨ops, hops, -⟩ := runs_linearize hr
  exact ⟨ops, hops⟩

end DataCheck.Shared
