import DataCheck.Lib.Paging
import DataCheck.Shared.Refinement

/-!
# Reading a list page by page

A client lists its datasets, or the analyses of a dataset, page by page, while other calls go on.  Each page
is read at a moment of its own.  Datasets and analyses are never removed and keep their place in the order,
so the pages together miss nothing that was there at the start.
-/

namespace DataCheck.Shared

open Lib Datasets Analyses

variable {U : Unicode} {P : Polars} {F : Faults} {h : Hist World} {n limit : ℕ} {owner_id dataset_id : Uuid}

/-- The pages `0` to `n` of a list are read, each after the one before; before the page `i` the configuration
is `cfg i`. -/
structure Browses (U : Unicode) (P : Polars) (F : Faults) (list : ℕ → Call) (answer : ℕ → Reply) (n : ℕ)
    (cfg : ℕ → SysConfig) : Prop where
  reach : Reach U P F anyCall (cfg 0)
  steps : ∀ i ≤ n, Config.Steps (machine F) (Call.body U P) anyCall (cfg i) (cfg (i + 1))
  reply : ∀ i ≤ n, ∃ p h₀, (cfg i).threads p = none ∧
    (cfg (i + 1)).threads p = some ⟨list i, h₀, .ret (.ok (answer i), ())⟩

section Moments

variable {list : ℕ → Call} {answer : ℕ → Reply} {cfg : ℕ → SysConfig}

lemma Browses.reach_at (hb : Browses U P F list answer n cfg) : ∀ i ≤ n + 1, Reach U P F anyCall (cfg i) := by
  intro i
  induction i with
  | zero => exact fun _ => hb.reach
  | succ i ih => exact fun hi => (hb.steps i (Nat.le_of_succ_le_succ hi)).reachable (ih (Nat.le_of_succ_le hi))

/-- A call that only reads saw one moment. -/
lemma answered_reads {t : Caller Call World} {r : Reply} (hk : t.call.writes = false) (ha : Answered U t h r) :
    ∃ h₁, t.start ≤ h₁ ∧ h₁ ≤ h ∧ Sees t.call r h₁.now.db := by
  cases ha with
  | saw hle hle' hr => exact ⟨_, hle, hle', hr⟩
  | changed _ _ hc =>
    have hw := hc.writes
    rw [hk] at hw
    cases hw
  | overtaken hcall =>
    rw [hcall] at hk
    cases hk

/-- The moments at which the pages were read, one after the other. -/
lemma Browses.moments (hb : Browses U P F list answer n cfg) (hk : ∀ i, (list i).writes = false) :
    ∃ at_ : ℕ → Hist World, ∀ i ≤ n, (cfg i).hist ≤ at_ i ∧ at_ i ≤ (cfg (i + 1)).hist ∧
      Sees (list i) (answer i) (at_ i).now.db := by
  have hone : ∀ i, ∃ h, i ≤ n → (cfg i).hist ≤ h ∧ h ≤ (cfg (i + 1)).hist ∧ Sees (list i) (answer i) h.now.db := by
    intro i
    by_cases hi : i ≤ n
    · obtain ⟨p, h₀, hnone, hend⟩ := hb.reply i hi
      have ha : Answered U ⟨p, list i, h₀⟩ (cfg (i + 1)).hist (answer i) :=
        (reach_finishes creates_any (hb.reach_at (i + 1) (Nat.succ_le_succ hi)) hend).2
      obtain ⟨h, hle, hle', hsees⟩ := answered_reads (hk i) ha
      exact ⟨h, fun _ => ⟨Hist.le_trans ((hb.steps i hi).start_of_none hnone hend) hle, hle', hsees⟩⟩
    · exact ⟨(cfg i).hist, fun h => absurd h hi⟩
  exact Classical.axiomOfChoice hone

end Moments

/-! ### What stays -/

/-- A dataset with this identifier, owner and time of creation is there. -/
def HasDataset (d : Dataset) : Assert World := fun h =>
  ∃ e ∈ h.now.db.datasets, e.id = d.id ∧ e.owner_id = d.owner_id ∧ e.created_at = d.created_at

lemma hasDataset_put {d e : Dataset} {datasets : Table Uuid Dataset Dataset.id} (hd : d ∈ datasets)
    (hsame : d.id = e.id → e.owner_id = d.owner_id ∧ e.created_at = d.created_at) :
    ∃ e' ∈ datasets.put e, e'.id = d.id ∧ e'.owner_id = d.owner_id ∧ e'.created_at = d.created_at := by
  by_cases he : d.id = e.id
  · exact ⟨e, Table.mem_put.mpr (Or.inl rfl), he.symm, hsame he⟩
  · exact ⟨d, Table.mem_put.mpr (Or.inr ⟨hd, he⟩), rfl, rfl, rfl⟩

/-- **Datasets stay, with their owner and their place.** -/
lemma hasDataset_step {p : Pid} {k : Call} {w : World} {d : Dataset} (hd : HasDataset d h)
    (hg : (atomically U).Guar p k h w) : HasDataset d (h.push w) := by
  obtain ⟨e, he, hid, howner, htime⟩ := hd
  suffices h : ∃ e' ∈ w.db.datasets, e'.id = e.id ∧ e'.owner_id = e.owner_id ∧ e'.created_at = e.created_at by
    obtain ⟨e', he', hid', howner', htime'⟩ := h
    exact ⟨e', he', hid'.trans hid, howner'.trans howner, htime'.trans htime⟩
  rcases hg.1 with hdb | ⟨r, hc⟩
  · rw [hdb]
    exact ⟨e, he, rfl, rfl, rfl⟩
  · generalize w.db = db at hc
    cases hc with
    | createDataset _ _ _ _ _ _ hnew => exact hasDataset_put he fun hid => absurd hid (hnew e he)
    | uploadCsv hrow =>
      refine hasDataset_put he fun hid => ?_
      obtain rfl := Table.eq_of_key he (ownedDataset_eq_some.mp hrow).1 hid
      exact ⟨rfl, rfl⟩
    | createRule => exact ⟨e, he, rfl, rfl, rfl⟩
    | deleteRule => exact ⟨e, he, rfl, rfl, rfl⟩
    | createAnalysis => exact ⟨e, he, rfl, rfl, rfl⟩

/-- **Analyses stay.** -/
lemma analysis_step {p : Pid} {k : Call} {w : World} {a : Analysis} (ha : a ∈ h.now.db.analyses)
    (hg : (atomically U).Guar p k h w) : a ∈ w.db.analyses := by
  rcases hg.1 with hdb | ⟨r, hc⟩
  · rw [hdb]
    exact ha
  · generalize w.db = db at hc
    cases hc with
    | createAnalysis _ _ hnew => exact Table.mem_put.mpr (Or.inr ⟨ha, hnew a ha⟩)
    | createDataset => exact ha
    | uploadCsv => exact ha
    | createRule => exact ha
    | deleteRule => exact ha

/-! ### Datasets -/

/-- The datasets of an owner, `ORDER BY created_at, id`. -/
def Db.datasetsOf (db : Db) (owner_id : Uuid) : List Dataset :=
  sortOn (fun d => toLex (d.created_at, d.id)) (db.datasets.select fun d => d.owner_id = owner_id)

lemma mem_datasetsOf {db : Db} {d : Dataset} : d ∈ db.datasetsOf owner_id ↔ d ∈ db.datasets ∧ d.owner_id = owner_id := by
  rw [Db.datasetsOf, mem_sortOn, Table.mem_select, decide_eq_true_eq]

lemma ascending_datasetsOf (db : Db) (owner_id : Uuid) :
    Ascending (fun d => toLex (d.created_at, d.id)) (db.datasetsOf owner_id) := by
  refine ascending_sortOn (Table.select_nodup _ _) fun d hd e he hkey => ?_
  exact Table.eq_of_key (Table.mem_select.mp hd).1 (Table.mem_select.mp he).1 (congrArg (fun x => (ofLex x).2) hkey)

/-- **Pages of datasets miss nothing**: when the last page is not full, every dataset that the owner had before
the first one is on a page, whatever other calls did in the meantime. -/
theorem list_datasets_complete {cfg : ℕ → SysConfig} {pages : ℕ → List DatasetReference}
    (hb : Browses U P F (fun i => .listDatasets owner_id limit (i * limit)) (fun i => .datasets (pages i)) n cfg)
    (hshort : (pages n).length < limit) {d : Dataset} (hd : d ∈ (cfg 0).hist.now.db.datasets)
    (howner : d.owner_id = owner_id) : ∃ i ≤ n, ∃ r ∈ pages i, r.dataset_id = d.id := by
  obtain ⟨at_, hat⟩ := hb.moments fun _ => rfl
  have hpage : ∀ i ≤ n, pages i = (page limit (i * limit) ((at_ i).now.db.datasetsOf owner_id)).map datasetReference :=
    fun i hi => Reply.datasets.inj (hat i hi).2.2
  have hgrow : ∀ h h' : Hist World, ∀ i ≤ n, h ≤ h' → h' ≤ (cfg (i + 1)).hist →
      ∀ e ∈ h.now.db.datasetsOf owner_id, ∃ e' ∈ h'.now.db.datasetsOf owner_id,
        toLex (e'.created_at, e'.id) = toLex (e.created_at, e.id) := by
    intro h h' i hi hle hle' e he
    obtain ⟨he, hown⟩ := mem_datasetsOf.mp he
    obtain ⟨e', he', hid, hown', htime⟩ := reach_keeps (A := HasDataset e) (fun _ _ _ _ => hasDataset_step)
      (hb.reach_at (i + 1) (Nat.succ_le_succ hi)) h h' hle hle' ⟨e, he, rfl, rfl, rfl⟩
    exact ⟨e', mem_datasetsOf.mpr ⟨he', hown'.trans hown⟩, by rw [hid, htime]⟩
  obtain ⟨e, he, hkey⟩ := hgrow _ _ 0 (Nat.zero_le n) (hat 0 (Nat.zero_le n)).1 (hat 0 (Nat.zero_le n)).2.1 d
    (mem_datasetsOf.mpr ⟨hd, howner⟩)
  have hlast : (page limit (n * limit) ((at_ n).now.db.datasetsOf owner_id)).length < limit := by
    rw [hpage n le_rfl, List.length_map] at hshort
    exact hshort
  obtain ⟨i, hi, b, hb', hkey'⟩ := pages_complete (fun i _ => ascending_datasetsOf (at_ i).now.db owner_id)
    (fun i hi => hgrow _ _ (i + 1) hi (Hist.le_trans (hat i hi.le).2.1 (hat (i + 1) hi).1) (hat (i + 1) hi).2.1) hlast he
  refine ⟨i, hi, datasetReference b, ?_, ?_⟩
  · rw [hpage i hi]
    exact List.mem_map_of_mem hb'
  · exact congrArg (fun x => (ofLex x).2) (hkey'.trans hkey)

namespace Sample

open Datasets.Sample

/-- A new thread performs a few effects. -/
def readOn (cfg : SysConfig) (p : Pid) (k : Call) : SysConfig :=
  cfg.follow (machine noFaults) (Call.body unicode polars) (.spawn p k :: effects p 6 600)

/-- The configurations before the pages, which the threads from 10 on read; `others` happens before the page `1`. -/
def browsing (cfg : SysConfig) (others : List (Label Call Choice)) (list : ℕ → Call) : ℕ → SysConfig
  | 0 => cfg
  | 1 => (readOn cfg 10 (list 0)).follow (machine noFaults) (Call.body unicode polars) others
  | i + 2 => readOn (browsing cfg others list (i + 1)) (i + 11) (list (i + 1))

lemma steps_browsing {cfg : SysConfig} {others : List (Label Call Choice)} {list : ℕ → Call} : ∀ i,
    Config.Steps (machine noFaults) (Call.body unicode polars) anyCall (browsing cfg others list i)
      (browsing cfg others list (i + 1))
  | 0 => Config.steps_follow (fun _ _ _ => trivial) (Config.steps_follow (fun _ _ _ => trivial) .refl)
  | _ + 1 => Config.steps_follow (fun _ _ _ => trivial) .refl

lemma browses {ls others : List (Label Call Choice)} {list : ℕ → Call} {answer : ℕ → Reply}
    (h : ∀ i ≤ n, (browsing (config ls) others list i).threads (i + 10) = none ∧
      ∃ h₀, (browsing (config ls) others list (i + 1)).threads (i + 10) = some ⟨list i, h₀, .ret (.ok (answer i), ())⟩) :
    Browses unicode polars noFaults list answer n (browsing (config ls) others list) where
  reach := Datasets.Sample.reach ls
  steps i _ := steps_browsing i
  reply i hi := ⟨i + 10, (h i hi).2.choose, (h i hi).1, (h i hi).2.choose_spec⟩

/-- The datasets that the thread has listed. -/
def listed (cfg : SysConfig) (p : Pid) : List DatasetReference :=
  match cfg.threads p with
  | some ⟨_, _, .ret (.ok (.datasets l), _)⟩ => l
  | _ => []

/-- The thread has listed a page of one dataset. -/
def hasListed (cfg : SysConfig) (p : Pid) (offset : ℕ) : Bool :=
  match cfg.threads p with
  | some ⟨.listDatasets owner_id limit offset', _, .ret (.ok (.datasets _), _)⟩ =>
    owner_id == 7 && limit == 1 && offset' == offset
  | _ => false

lemma threads_listed {cfg : SysConfig} {p : Pid} {offset : ℕ} (h : hasListed cfg p offset = true) :
    ∃ h₀, cfg.threads p = some ⟨.listDatasets 7 1 offset, h₀, .ret (.ok (.datasets (listed cfg p)), ())⟩ := by
  unfold hasListed at h
  split at h
  · next owner_id limit offset' h₀ l v hp =>
    simp only [Bool.and_eq_true, beq_iff_eq] at h
    obtain ⟨⟨rfl, rfl⟩, rfl⟩ := h
    exact ⟨h₀, by simp only [hp, listed]⟩
  · cases h

/-- Between the first two pages a dataset is created, which goes to the front. -/
def browsingDatasets : ℕ → SysConfig :=
  browsing (config prepared) (.spawn 20 (.createDataset 7 (py "e")) :: effects 20 5 50) fun i => .listDatasets 7 1 (i * 1)

def datasetPages (i : ℕ) : List DatasetReference := listed (browsingDatasets (i + 1)) (i + 10)

lemma browses_datasets : Browses unicode polars noFaults (fun i => .listDatasets 7 1 (i * 1))
    (fun i => .datasets (datasetPages i)) 2 browsingDatasets := by
  have hread : ∀ i ≤ 2, (browsingDatasets i).threads (i + 10) = none ∧
      hasListed (browsingDatasets (i + 1)) (i + 10) (i * 1) = true := by decide +kernel
  exact browses fun i hi => ⟨(hread i hi).1, threads_listed (hread i hi).2⟩

end Sample

/-- A dataset stays on a page, though another one is created in front of it. -/
theorem list_datasets_complete_sample : (∃ i ≤ 2, ∃ r ∈ Sample.datasetPages i, r.dataset_id = 101) ∧
    (Sample.browsingDatasets 0).hist.now.db.datasets.rows.map Dataset.id = [101] ∧
    (Sample.browsingDatasets 1).hist.now.db.datasets.rows.map Dataset.id = [51, 101] := by
  have hd : ∃ d ∈ (Sample.browsingDatasets 0).hist.now.db.datasets.rows, d.id = 101 ∧ d.owner_id = 7 := by
    decide +kernel
  obtain ⟨d, hd, hid, howner⟩ := hd
  refine ⟨?_, by decide +kernel, by decide +kernel⟩
  rw [← hid]
  exact list_datasets_complete Sample.browses_datasets (by decide +kernel) hd howner

/-! ### Analyses -/

lemma mem_analysesOf {db : Db} {a : Analysis} : a ∈ db.analysesOf dataset_id owner_id ↔ a ∈ db.analyses ∧
    a.dataset_id = dataset_id ∧ (db.ownedDataset dataset_id owner_id).isSome = true := by
  rw [Db.analysesOf, mem_sortOn, Table.mem_select, decide_eq_true_eq]
  constructor
  · rintro ⟨ha, rfl, hown⟩
    exact ⟨ha, rfl, hown⟩
  · rintro ⟨ha, rfl, hown⟩
    exact ⟨ha, rfl, hown⟩

lemma ascending_analysesOf (db : Db) (dataset_id owner_id : Uuid) :
    Ascending (fun a => OrderDual.toDual (toLex (a.created_at, a.id))) (db.analysesOf dataset_id owner_id) := by
  refine ascending_sortOn (Table.select_nodup _ _) fun a ha b hb hkey => ?_
  exact Table.eq_of_key (Table.mem_select.mp ha).1 (Table.mem_select.mp hb).1
    (congrArg (fun x => (ofLex (OrderDual.ofDual x)).2) hkey)

/-- **Pages of analyses miss nothing**: when the last page is not full, the summary of every analysis that the
dataset had before the first one is on a page. -/
theorem list_analyses_complete {cfg : ℕ → SysConfig} {pages : ℕ → List AnalysisSummaryReference}
    (hb : Browses U P F (fun i => .listAnalyses owner_id dataset_id limit (i * limit)) (fun i => .analyses (pages i)) n cfg)
    (hshort : (pages n).length < limit) {a : Analysis} (ha : a ∈ (cfg 0).hist.now.db.analyses)
    (hdataset : a.dataset_id = dataset_id) : ∃ i ≤ n, summaryReference a ∈ pages i := by
  obtain ⟨at_, hat⟩ := hb.moments fun _ => rfl
  have hpage : ∀ i ≤ n, pages i =
      (page limit (i * limit) ((at_ i).now.db.analysesOf dataset_id owner_id)).map summaryReference :=
    fun i hi => Reply.analyses.inj (hat i hi).2.2.2
  have hgrow : ∀ h h' : Hist World, ∀ i ≤ n, h ≤ h' → h' ≤ (cfg (i + 1)).hist → ∀ b ∈ h.now.db.analyses,
      b ∈ h'.now.db.analyses := by
    intro h h' i hi hle hle' b hb'
    exact reach_keeps (A := fun h => b ∈ h.now.db.analyses) (fun _ _ _ _ => analysis_step)
      (hb.reach_at (i + 1) (Nat.succ_le_succ hi)) h h' hle hle' hb'
  have hlisted : ∀ i ≤ n, ∀ b ∈ (at_ i).now.db.analyses, b.dataset_id = dataset_id →
      b ∈ (at_ i).now.db.analysesOf dataset_id owner_id :=
    fun i hi b hb' hid => mem_analysesOf.mpr ⟨hb', hid, (hat i hi).2.2.1⟩
  have hlast : (page limit (n * limit) ((at_ n).now.db.analysesOf dataset_id owner_id)).length < limit := by
    rw [hpage n le_rfl, List.length_map] at hshort
    exact hshort
  have hfirst := hgrow _ _ 0 (Nat.zero_le n) (hat 0 (Nat.zero_le n)).1 (hat 0 (Nat.zero_le n)).2.1 a ha
  obtain ⟨i, hi, b, hb', hkey⟩ := pages_complete (fun i _ => ascending_analysesOf (at_ i).now.db dataset_id owner_id)
    (fun i hi b hb' => by
      obtain ⟨hb', hid, -⟩ := mem_analysesOf.mp hb'
      have hle := Hist.le_trans (hat i hi.le).2.1 (hat (i + 1) hi).1
      exact ⟨b, hlisted (i + 1) hi b (hgrow _ _ (i + 1) hi hle (hat (i + 1) hi).2.1 b hb') hid, rfl⟩)
    hlast (hlisted 0 (Nat.zero_le n) a hfirst hdataset)
  have hthere : ∀ i ≤ n, a ∈ (at_ i).now.db.analyses := by
    intro i hi
    have hle : (cfg 0).hist ≤ (cfg i).hist := by
      induction i with
      | zero => exact Hist.le_rfl
      | succ i ih => exact Hist.le_trans (ih (Nat.le_of_succ_le hi)) (hb.steps i (Nat.le_of_succ_le hi)).hist_le
    exact hgrow _ _ i hi (Hist.le_trans hle (hat i hi).1) (hat i hi).2.1 a ha
  refine ⟨i, hi, ?_⟩
  have hmem : b ∈ (at_ i).now.db.analyses :=
    (mem_analysesOf.mp (List.mem_of_mem_drop (List.mem_of_mem_take hb'))).1
  obtain rfl := Table.eq_of_key hmem (hthere i hi) (congrArg (fun x => (ofLex (OrderDual.ofDual x)).2) hkey)
  rw [hpage i hi]
  exact List.mem_map_of_mem hb'

namespace Sample

open Datasets.Sample

/-- The analyses that the thread has listed. -/
def listedAnalyses (cfg : SysConfig) (p : Pid) : List AnalysisSummaryReference :=
  match cfg.threads p with
  | some ⟨_, _, .ret (.ok (.analyses l), _)⟩ => l
  | _ => []

/-- The thread has listed a page of one analysis. -/
def hasListedAnalyses (cfg : SysConfig) (p : Pid) (offset : ℕ) : Bool :=
  match cfg.threads p with
  | some ⟨.listAnalyses owner_id dataset_id limit offset', _, .ret (.ok (.analyses _), _)⟩ =>
    owner_id == 7 && dataset_id == 101 && limit == 1 && offset' == offset
  | _ => false

lemma threads_listedAnalyses {cfg : SysConfig} {p : Pid} {offset : ℕ} (h : hasListedAnalyses cfg p offset = true) :
    ∃ h₀, cfg.threads p = some ⟨.listAnalyses 7 101 1 offset, h₀, .ret (.ok (.analyses (listedAnalyses cfg p)), ())⟩ := by
  unfold hasListedAnalyses at h
  split at h
  · next owner_id dataset_id limit offset' h₀ l v hp =>
    simp only [Bool.and_eq_true, beq_iff_eq] at h
    obtain ⟨⟨⟨rfl, rfl⟩, rfl⟩, rfl⟩ := h
    exact ⟨h₀, by simp only [hp, listedAnalyses]⟩
  · cases h

/-- Between the first two pages another analysis is created, which goes to the front. -/
def browsingAnalyses : ℕ → SysConfig :=
  browsing analysed (.spawn 20 (.createAnalysis 7 101) :: effects 20 12 500) fun i => .listAnalyses 7 101 1 (i * 1)

def analysisPages (i : ℕ) : List AnalysisSummaryReference := listedAnalyses (browsingAnalyses (i + 1)) (i + 10)

lemma browses_analyses : Browses unicode polars noFaults (fun i => .listAnalyses 7 101 1 (i * 1))
    (fun i => .analyses (analysisPages i)) 2 browsingAnalyses := by
  have hread : ∀ i ≤ 2, (browsingAnalyses i).threads (i + 10) = none ∧
      hasListedAnalyses (browsingAnalyses (i + 1)) (i + 10) (i * 1) = true := by decide +kernel
  exact browses fun i hi => ⟨(hread i hi).1, threads_listedAnalyses (hread i hi).2⟩

end Sample

/-- An analysis stays on a page, though another one is created in front of it. -/
theorem list_analyses_complete_sample : (∃ a ∈ (Sample.browsingAnalyses 0).hist.now.db.analyses, ∃ i ≤ 2,
      summaryReference a ∈ Sample.analysisPages i) ∧
    (Sample.browsingAnalyses 0).hist.now.db.analyses.rows.length = 1 ∧
    (Sample.browsingAnalyses 1).hist.now.db.analyses.rows.length = 2 := by
  have ha : ∃ a ∈ (Sample.browsingAnalyses 0).hist.now.db.analyses.rows, a.dataset_id = 101 := by decide +kernel
  obtain ⟨a, ha, hdataset⟩ := ha
  exact ⟨⟨a, ha, list_analyses_complete Sample.browses_analyses (by decide +kernel) ha hdataset⟩, by decide +kernel,
    by decide +kernel⟩

end DataCheck.Shared
