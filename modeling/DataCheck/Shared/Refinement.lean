import DataCheck.Analysis.Operations
import DataCheck.Datasets.Guarantees

/-!
# The services refine the atomic operations

In every run, whatever the interleaving and wherever calls fail: the database changes only by atomic
operations of the calls in progress, a reply is the answer of one moment of its call, and an exception
has its reason at one moment of its call.  What holds of the atomic operations therefore holds of the
services.
-/

namespace DataCheck.Shared

open Lib Datasets Analyses

variable {U : Unicode} {P : Polars} {F : Faults} {ok : ValidationRule → Prop} {calls : Call → Prop}
  {cfg cfg' : SysConfig} {p : Pid} {h : Hist World} {w : World} {k : Call}

/-! ### Every call is atomic -/

lemma shows_reply {α : Type} {t : Caller Call World} {m : Body Unit α} {f : α → Reply}
    (hm : Shows ok F U t (sinceStart t) m (fun a _ h => Answered U t h (f a)) fun x _ => Refused U t x) :
    Also (machine F) (contract ok F) (atomically U) t ((do return f (← m) : Body Unit Reply) ()) (fun h => t.start ≤ h)
      (post (fun r _ h => Answered U t h r) fun x _ => Refused U t x) :=
  (hm.bind fun _ => AlsoTriple.pure fun _ _ _ hq => hq) ()

/-- **Every call is an atomic operation.** -/
theorem also_body (t : Caller Call World) :
    Also (machine F) (contract ok F) (atomically U) t (t.call.body U P) (fun h => t.start ≤ h)
      (post (fun r _ h => Answered U t h r) fun x _ => Refused U t x) := by
  obtain ⟨pid, k, start⟩ := t
  cases k with
  | createDataset owner_id name => exact shows_reply (shows_createDataset rfl)
  | listDatasets owner_id limit offset => exact shows_reply (shows_listDatasets rfl)
  | getDataset owner_id dataset_id => exact shows_reply (shows_getDataset rfl)
  | uploadCsv owner_id dataset_id filename source => exact shows_reply (shows_uploadCsv rfl)
  | createRule owner_id dataset_id rule_type target_column configuration =>
    exact shows_reply (shows_createRule rfl)
  | listRules owner_id dataset_id limit offset => exact shows_reply (shows_listRules rfl)
  | deleteRule owner_id dataset_id rule_id =>
    exact shows_reply (f := fun _ => .unit) (shows_deleteRule rfl)
  | createAnalysis owner_id dataset_id => exact shows_reply (shows_createAnalysis rfl P)
  | listAnalyses owner_id dataset_id limit offset => exact shows_reply (shows_listAnalyses rfl)
  | getAnalysis owner_id dataset_id analysis_id => exact shows_reply (shows_getAnalysis rfl)

/-- What a call starts with, under both contracts. -/
def Opens (t : Caller Call World) : Assert World := fun h => Since t h ∧ t.start ≤ h

/-- What a call ends with, under both contracts. -/
def Finishes (U : Unicode) (P : Polars) (F : Faults) (ok : ValidationRule → Prop) (t : Caller Call World)
    (out : Outcome) : Assert World := fun h =>
  post (fun r (_ : Unit) => Replied t r) (fun x _ _ => Threw U P F ok t x) out h ∧
    post (fun r (_ : Unit) h => Answered U t h r) (fun x _ => Refused U t x) out h

lemma opens_start (t : Caller Call World) : Stable (services ok F U) t.pid (Opens t) ∧ Opens t t.start := by
  have hs : Stable (contract ok F) t.pid (Since t) ∧ Since t t.start := since_start t
  exact ⟨(hs.1.both _).and (Stable.since _), hs.2, Hist.le_rfl⟩

lemma services_empty : (services ok F U).Inv ⟨World.empty, []⟩ := by
  refine ⟨sysInv_empty ok F, fun rule_id hr => ?_⟩
  obtain ⟨w, hw, r, hmem, -⟩ := hr
  rw [List.mem_singleton.mp hw] at hmem
  exact absurd hmem List.not_mem_nil

lemma safe_services (hc : Creates calls ok) (t : Caller Call World) (hk : calls t.call) :
    Safe (machine F) (services ok F U) t (t.call.body U P) (Opens t) (Finishes U P F ok t) :=
  (safe_body hc t hk).also (also_body t)

section Reach

variable (hc : Creates calls ok) (hr : Reach U P F calls cfg)
include hc hr

lemma reach_finishes {h₀ : Hist World} {out : Outcome} (hp : cfg.threads p = some ⟨k, h₀, .ret out⟩) :
    Finishes U P F ok ⟨p, k, h₀⟩ out cfg.hist :=
  reachable_post services_empty opens_start (safe_services hc) hr hp

lemma reach_atomically {h₀ : Hist World} {e : Eff}
    {f : Except Exn e.Resp → Prog Eff (fun e => Except Exn e.Resp) Outcome}
    (hp : cfg.threads p = some ⟨k, h₀, .vis e f⟩) {c : Choice} {r : Except Exn e.Resp}
    (he : (machine F).exec p e c cfg.hist.now = some (r, w)) : (atomically U).Guar p k cfg.hist w :=
  (reachable_guar services_empty opens_start (safe_services hc) hr hp he).2

end Reach

/-- What each step keeps is so from one moment on. -/
lemma reach_keeps {A : Assert World}
    (hA : ∀ p k h w, A h → (atomically U).Guar p k h w → A (h.push w)) (hr : Reach U P F anyCall cfg) :
    ∀ h h', h ≤ h' → h' ≤ cfg.hist → A h → A h' := by
  induction hr with
  | init =>
    intro h h' hle hle' ha
    cases hle'
    cases hle
    exact ha
  | @step cfg cfg' l hr hl hs ih =>
    rcases Config.step_cases hs with ⟨_, _, _, _, hh, _⟩ | ⟨p, c, k, h₀, e, f, r, w, _, hp, he, hh, _⟩
    · rw [hh]
      exact ih
    · intro h h' hle hle' ha
      rw [hh] at hle'
      rcases Hist.le_push_iff.mp hle' with rfl | hle'
      · rcases Hist.le_push_iff.mp hle with rfl | hle
        · exact ha
        · exact hA p k cfg.hist w (ih h cfg.hist hle Hist.le_rfl ha) (reach_atomically creates_any hr hp he)
      · exact ih h h' hle hle' ha

/-! ### More runs -/

namespace Sample

open Datasets.Sample

/-- Nobody else's dataset is found. -/
def refused : SysConfig := config (prepared ++ .spawn 3 (.getDataset 8 101) :: effects 3 5 400)

/-- The rule is deleted while an analysis goes on. -/
def deleted : SysConfig := config (prepared ++ .spawn 3 (.createAnalysis 7 101) :: effects 3 6 400 ++
  .spawn 4 (.deleteRule 7 101 301) :: effects 4 8 500)

def outcomeOf (cfg : SysConfig) (p : Pid) : Option (Except Exn Reply) :=
  match cfg.threads p with
  | some ⟨_, _, .ret (out, _)⟩ => some out
  | _ => none

lemma exists_outcome {cfg : SysConfig} {p : Pid} {out : Except Exn Reply} (h : outcomeOf cfg p = some out) :
    ∃ k h₀, cfg.threads p = some ⟨k, h₀, .ret (out, ())⟩ := by
  unfold outcomeOf at h
  split at h
  · next k h₀ out' v hp =>
    cases h
    exact ⟨k, h₀, hp⟩
  · cases h

def hasDeleted (cfg : SysConfig) (p : Pid) : Bool :=
  match cfg.threads p with
  | some ⟨.deleteRule owner_id dataset_id rule_id, _, .ret (.ok .unit, _)⟩ =>
    owner_id == 7 && dataset_id == 101 && rule_id == 301
  | _ => false

end Sample

/-! ### The results -/

/-- **A reply is true at one moment of its call**: what a reading call answers is what the database said
at one moment between its start and its end, and a changing call answers with the operation that it was. -/
theorem replies_atomic (hr : Reach U P F anyCall cfg) {h₀ : Hist World} {r : Reply}
    (hp : cfg.threads p = some ⟨k, h₀, .ret (.ok r, ())⟩) : Answered U ⟨p, k, h₀⟩ cfg.hist r :=
  (reach_finishes creates_any hr hp).2

theorem replies_atomic_sample : ∃ k h₀ r,
    Answered Datasets.Sample.unicode ⟨3, k, h₀⟩ Datasets.Sample.analysed.hist r := by
  have h : (Sample.outcomeOf Datasets.Sample.analysed 3).any Except.isOk = true := by decide +kernel
  cases ho : Sample.outcomeOf Datasets.Sample.analysed 3 with
  | none =>
    rw [ho] at h
    cases h
  | some out =>
    cases out with
    | error x =>
      rw [ho] at h
      cases h
    | ok r =>
      obtain ⟨k, h₀, hp⟩ := Sample.exists_outcome ho
      exact ⟨k, h₀, r, replies_atomic (Datasets.Sample.reach _) hp⟩

/-- **An exception has its reason at one moment of its call.** -/
theorem refusals_atomic (hr : Reach U P F anyCall cfg) {h₀ : Hist World} {x : Exn}
    (hp : cfg.threads p = some ⟨k, h₀, .ret (.error x, ())⟩) : Refused U ⟨p, k, h₀⟩ x cfg.hist :=
  (reach_finishes creates_any hr hp).2

theorem refusals_atomic_sample : ∃ k h₀ x,
    Refused Datasets.Sample.unicode ⟨3, k, h₀⟩ x Sample.refused.hist := by
  have h : (Sample.outcomeOf Sample.refused 3).any (fun out => !out.isOk) = true := by decide +kernel
  cases ho : Sample.outcomeOf Sample.refused 3 with
  | none =>
    rw [ho] at h
    cases h
  | some out =>
    cases out with
    | ok r =>
      rw [ho] at h
      cases h
    | error x =>
      obtain ⟨k, h₀, hp⟩ := Sample.exists_outcome ho
      exact ⟨k, h₀, x, refusals_atomic (Datasets.Sample.reach _) hp⟩

lemma changes_deleteRule {owner_id dataset_id rule_id : Uuid} {r : Reply} {db : Db}
    (hc : Changes U p h (.deleteRule owner_id dataset_id rule_id) r db) : HadRule h rule_id ∧
      db = { h.now.db with validation_rules := h.now.db.validation_rules.erase rule_id } := by
  cases hc with
  | deleteRule hd hr => exact ⟨hadRule_now hr, rfl⟩

/-- How a deletion ends: the rule was there and was erased, or it was there and is not any more. -/
lemma answered_deleteRule {t : Caller Call World} {owner_id dataset_id rule_id : Uuid} {r : Reply}
    (hcall : t.call = .deleteRule owner_id dataset_id rule_id) (ha : Answered U t h r) :
    (∃ h₁ w, h₁.push w ≤ h ∧ HadRule h₁ rule_id ∧
      w.db = { h₁.now.db with validation_rules := h₁.now.db.validation_rules.erase rule_id }) ∨
      ∃ h₂ ≤ h, Deleted rule_id h₂ := by
  cases ha with
  | saw _ _ hr =>
    rw [hcall] at hr
    exact hr.elim
  | changed _ hle' hr =>
    rw [hcall] at hr
    obtain ⟨hhad, hdb⟩ := changes_deleteRule hr
    exact Or.inl ⟨_, _, hle', hhad, hdb⟩
  | overtaken hcall' _ hle₁ hle₂ hs _ hgone =>
    rw [hcall] at hcall'
    cases hcall'
    exact Or.inr ⟨_, hle₂, (hadRule_now hs.1).mono hle₁, hgone⟩

/-- **A deleted rule stays deleted**: after `delete_rule` has returned, no rule ever has that identifier
again. -/
theorem deleted_rule_stays_deleted (hr : Reach U P F anyCall cfg) {owner_id dataset_id rule_id : Uuid}
    {h₀ : Hist World} (hp : cfg.threads p = some ⟨.deleteRule owner_id dataset_id rule_id, h₀, .ret (.ok .unit, ())⟩) :
    ∀ r ∈ cfg.hist.now.db.validation_rules, r.id ≠ rule_id := by
  have hkeeps : ∀ h ≤ cfg.hist, Deleted rule_id h → Deleted rule_id cfg.hist := by
    refine fun h hle => reach_keeps (fun q k h w hd hg => ⟨hadRule_push.mpr (Or.inr hd.1), fun s hs he => ?_⟩) hr h _ hle
      Hist.le_rfl
    rcases hg.2 s hs with hold | ⟨-, hnew⟩
    · exact hd.2 s hold he
    · exact hnew (he ▸ hd.1)
  refine (?_ : Deleted rule_id cfg.hist).2
  rcases answered_deleteRule rfl (reach_finishes creates_any hr hp).2 with ⟨h₁, w, hle, hr', hw⟩ | ⟨h₂, hle, hd⟩
  · refine hkeeps _ hle ⟨hadRule_push.mpr (Or.inr hr'), fun s hs => ?_⟩
    rw [Hist.push_now, hw] at hs
    exact (Table.mem_erase.mp hs).2
  · exact hkeeps _ hle hd

theorem deleted_rule_stays_deleted_sample : Sample.deleted.hist.now.db.validation_rules.find? 301 = none := by
  have h : Sample.hasDeleted Sample.deleted 4 = true := by decide +kernel
  unfold Sample.hasDeleted at h
  split at h
  · next owner_id dataset_id rule_id h₀ _ hp =>
    simp only [Bool.and_eq_true, beq_iff_eq] at h
    obtain ⟨⟨rfl, rfl⟩, rfl⟩ := h
    exact Table.find?_eq_none.mpr (deleted_rule_stays_deleted (Datasets.Sample.reach _) hp)
  · cases h

end DataCheck.Shared
