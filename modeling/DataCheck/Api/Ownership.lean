import DataCheck.Api.Replies
import DataCheck.Shared.Paging

/-!
# What a response names

The datasets, rules and analyses in a response are those of the user of the session.
-/

namespace DataCheck.Api

open Lib Shared Datasets Analyses Identity

variable {settings : ApiSettings} {U : Unicode} {P : Polars} {F : Faults} {users : Table Uuid User User.id}
  {cfg : ApiConfig} {p : Pid} {route : Route} {request : HttpRequest} {k : Shared.Call} {owner_id : Uuid}
  {h : Hist World} {r : Reply}

/-! ### What a reply names, and what the response model makes of it -/

/-- The datasets that a reply names. -/
def namedBy : Reply → List Uuid
  | .dataset d => [d.dataset_id]
  | .datasets ds => ds.map DatasetReference.dataset_id
  | .rule r => [r.dataset_id]
  | .rules rs => rs.map ValidationRuleReference.dataset_id
  | .analysis a => [a.dataset_id]
  | .analyses as => as.map AnalysisSummaryReference.dataset_id
  | .unit => []

/-- The datasets that the body of a response names. -/
def Content.datasetIds : Content → List Uuid
  | .nothing => []
  | .dataset d => [d.id]
  | .datasets ds => ds.map DatasetSummary.id
  | .rule r => [r.dataset_id]
  | .rules rs => rs.map ValidationRuleResponse.dataset_id
  | .analysis a => [a.dataset_id]
  | .analyses as => as.map AnalysisSummary.dataset_id

lemma datasetSummary_id {d : DatasetReference} {s : DatasetSummary} (h : datasetSummary d = some s) :
    s.id = d.dataset_id := by
  obtain ⟨name, -, h⟩ := Option.bind_eq_some_iff.mp h
  cases h
  rfl

lemma datasetDetail_id {d : DatasetReference} {s : DatasetDetail} (h : datasetDetail d = some s) :
    s.id = d.dataset_id := by
  obtain ⟨summary, hs, h⟩ := Option.bind_eq_some_iff.mp h
  obtain ⟨upload, -, h⟩ := Option.bind_eq_some_iff.mp h
  cases h
  exact datasetSummary_id hs

lemma ruleResponse_dataset {r : ValidationRuleReference} {s : ValidationRuleResponse} (h : ruleResponse r = some s) :
    s.dataset_id = r.dataset_id := by
  obtain ⟨type, -, h⟩ := Option.bind_eq_some_iff.mp h
  obtain ⟨target_column, -, h⟩ := Option.bind_eq_some_iff.mp h
  obtain ⟨configuration, -, h⟩ := Option.bind_eq_some_iff.mp h
  cases h
  rfl

lemma summaryResponse_dataset {a : AnalysisSummaryReference} {s : AnalysisSummary} (h : summaryResponse a = some s) :
    s.dataset_id = a.dataset_id := by
  obtain ⟨quality_score, -, h⟩ := Option.bind_eq_some_iff.mp h
  cases h
  rfl

lemma detailResponse_dataset {a : AnalysisDetailReference} {s : AnalysisDetail} (h : detailResponse a = some s) :
    s.dataset_id = a.dataset_id := by
  obtain ⟨summary, hs, h⟩ := Option.bind_eq_some_iff.mp h
  obtain ⟨source, -, h⟩ := Option.bind_eq_some_iff.mp h
  obtain ⟨rule_results, -, h⟩ := Option.bind_eq_some_iff.mp h
  cases h
  exact summaryResponse_dataset hs

lemma dataset_of_detail {a : Analysis} {results : List ValidationResult} {detail : AnalysisDetailReference}
    (h : detailReference a results = .ok detail) : detail.dataset_id = a.dataset_id := by
  unfold detailReference at h
  split at h
  · cases h
  · cases h
    rfl

/-- What is made of the items of a list has their marks. -/
lemma map_of_mapM {α β γ : Type} {f : α → Option β} {g : β → γ} {g' : α → γ}
    (hf : ∀ a b, f a = some b → g b = g' a) {l : List α} {bs : List β} (h : l.mapM f = some bs) :
    bs.map g = l.map g' := by
  induction l generalizing bs with
  | nil =>
    cases h
    rfl
  | cons a l ih =>
    rw [List.mapM_cons] at h
    obtain ⟨b, hb, h⟩ := Option.bind_eq_some_iff.mp h
    obtain ⟨bs', hbs, h⟩ := Option.bind_eq_some_iff.mp h
    cases h
    rw [List.map_cons, List.map_cons, hf a b hb, ih hbs]

/-- The response model keeps the datasets that a reply names. -/
lemma datasetIds_content (hm : Makes U P owner_id route k) {content : Content} (h : route.content r = some content) :
    content.datasetIds = namedBy r := by
  have hdataset : ∀ {d}, (datasetDetail d).map Content.dataset = some content →
      content.datasetIds = namedBy (.dataset d) := by
    intro d h
    obtain ⟨s, hs, rfl⟩ := Option.map_eq_some_iff.mp h
    exact congrArg (fun id => [id]) (datasetDetail_id hs)
  have hdatasets : ∀ {ds}, (ds.mapM datasetSummary).map Content.datasets = some content →
      content.datasetIds = namedBy (.datasets ds) := by
    intro ds h
    obtain ⟨s, hs, rfl⟩ := Option.map_eq_some_iff.mp h
    exact map_of_mapM (fun _ _ => datasetSummary_id) hs
  have hrule : ∀ {r}, (ruleResponse r).map Content.rule = some content → content.datasetIds = namedBy (.rule r) := by
    intro r h
    obtain ⟨s, hs, rfl⟩ := Option.map_eq_some_iff.mp h
    exact congrArg (fun id => [id]) (ruleResponse_dataset hs)
  have hrules : ∀ {rs}, (rs.mapM ruleResponse).map Content.rules = some content →
      content.datasetIds = namedBy (.rules rs) := by
    intro rs h
    obtain ⟨s, hs, rfl⟩ := Option.map_eq_some_iff.mp h
    exact map_of_mapM (fun _ _ => ruleResponse_dataset) hs
  have hanalysis : ∀ {a}, (detailResponse a).map Content.analysis = some content →
      content.datasetIds = namedBy (.analysis a) := by
    intro a h
    obtain ⟨s, hs, rfl⟩ := Option.map_eq_some_iff.mp h
    exact congrArg (fun id => [id]) (detailResponse_dataset hs)
  have hanalyses : ∀ {as}, (as.mapM summaryResponse).map Content.analyses = some content →
      content.datasetIds = namedBy (.analyses as) := by
    intro as h
    obtain ⟨s, hs, rfl⟩ := Option.map_eq_some_iff.mp h
    exact map_of_mapM (fun _ _ => summaryResponse_dataset) hs
  cases hm <;> cases r <;> first
    | (cases h <;> rfl)
    | exact hdataset h
    | exact hdatasets h
    | exact hrule h
    | exact hrules h
    | exact hanalysis h
    | exact hanalyses h

/-! ### What a response names is owned -/

/-- The database has the dataset, and it is the owner's. -/
def Owned (owner_id : Uuid) (db : Db) (dataset_id : Uuid) : Prop :=
  ∃ d ∈ db.datasets, d.id = dataset_id ∧ d.owner_id = owner_id

lemma owned_of_ownedDataset {db : Db} {dataset_id : Uuid} {d : Dataset}
    (h : db.ownedDataset dataset_id owner_id = some d) : Owned owner_id db dataset_id :=
  ⟨d, ownedDataset_eq_some.mp h⟩

lemma owned_of_sees {db : Db} (hs : Sees k r db) : ∀ id ∈ namedBy r, Owned k.owner db id := by
  cases k with
  | listDatasets owner_id limit offset =>
    rw [show r = _ from hs]
    intro id hid
    obtain ⟨_, hmem, rfl⟩ := List.mem_map.mp hid
    obtain ⟨d, hd, rfl⟩ := List.mem_map.mp hmem
    have hrow := Table.mem_select.mp (mem_sortOn.mp (of_mem_page hd))
    exact ⟨d, hrow.1, rfl, of_decide_eq_true hrow.2⟩
  | getDataset owner_id dataset_id =>
    obtain ⟨d, hd, rfl⟩ := hs
    intro id hid
    obtain rfl := List.mem_singleton.mp hid
    obtain ⟨hmem, -, howner⟩ := ownedDataset_eq_some.mp hd
    exact ⟨d, hmem, rfl, howner⟩
  | listRules owner_id dataset_id limit offset =>
    obtain ⟨hd, rfl⟩ := hs
    obtain ⟨d, hd⟩ := Option.isSome_iff_exists.mp hd
    intro id hid
    obtain ⟨_, hmem, rfl⟩ := List.mem_map.mp hid
    obtain ⟨s, hs, rfl⟩ := List.mem_map.mp hmem
    obtain rfl := (mem_rulesOf.mp (of_mem_page hs)).2
    exact owned_of_ownedDataset hd
  | listAnalyses owner_id dataset_id limit offset =>
    obtain ⟨hd, rfl⟩ := hs
    obtain ⟨d, hd⟩ := Option.isSome_iff_exists.mp hd
    intro id hid
    obtain ⟨_, hmem, rfl⟩ := List.mem_map.mp hid
    obtain ⟨a, ha, rfl⟩ := List.mem_map.mp hmem
    obtain ⟨-, rfl, -⟩ := mem_analysesOf.mp (of_mem_page ha)
    exact owned_of_ownedDataset hd
  | getAnalysis owner_id dataset_id analysis_id =>
    obtain ⟨a, detail, ha, hdetail, rfl⟩ := hs
    intro id hid
    obtain rfl := List.mem_singleton.mp hid
    have hfilter := (Option.filter_eq_some_iff.mp ha).2
    obtain ⟨d, hd⟩ := Option.isSome_iff_exists.mp (of_decide_eq_true hfilter).2
    rw [dataset_of_detail hdetail]
    exact owned_of_ownedDataset hd
  | _ => exact hs.elim

lemma owned_of_changes {db : Db} (hc : Changes U p h k r db) : ∀ id ∈ namedBy r, Owned k.owner db id := by
  cases hc with
  | createDataset _ howner =>
    intro id hid
    obtain rfl := List.mem_singleton.mp hid
    exact ⟨_, Table.mem_put.mpr (Or.inl rfl), rfl, howner⟩
  | uploadCsv hd =>
    intro id hid
    obtain rfl := List.mem_singleton.mp hid
    exact ⟨_, Table.mem_put.mpr (Or.inl rfl), rfl, (ownedDataset_eq_some.mp hd).2.2⟩
  | createRule hd =>
    intro id hid
    obtain rfl := List.mem_singleton.mp hid
    exact owned_of_ownedDataset hd
  | deleteRule => exact fun id hid => (List.not_mem_nil hid).elim
  | createAnalysis hd _ _ _ _ _ _ _ hdetail =>
    intro id hid
    obtain rfl := List.mem_singleton.mp hid
    rw [dataset_of_detail hdetail]
    exact owned_of_ownedDataset hd

lemma owned_later {c : SysConfig} (hr : Reach U P F anyCall c) {h' : Hist World} (hle : h' ≤ c.hist) {id : Uuid}
    (ho : Owned owner_id h'.now.db id) : Owned owner_id c.hist.now.db id := by
  obtain ⟨d, hd, rfl, rfl⟩ := ho
  obtain ⟨e, he, hid, howner, -⟩ := reach_keeps (A := HasDataset d) (fun _ _ _ _ => hasDataset_step) hr h' c.hist hle
    Hist.le_rfl ⟨d, hd, rfl, rfl, rfl⟩
  exact ⟨e, he, hid, howner⟩

lemma owned_of_answered {c : SysConfig} (hr : Reach U P F anyCall c) {h₀ : Hist World}
    (ha : Answered U ⟨p, k, h₀⟩ c.hist r) : ∀ id ∈ namedBy r, Owned k.owner c.hist.now.db id := by
  cases ha with
  | saw _ hle hs => exact fun id hid => owned_later hr hle (owned_of_sees hs id hid)
  | changed _ hle hc => exact fun id hid => owned_later hr hle (owned_of_changes hc id hid)
  | overtaken => exact fun id hid => (List.not_mem_nil hid).elim

/-- **A response names only what the user owns**: the datasets in its body, and those of the rules and of the
analyses in it, are datasets of the user whose session the cookie of the request is for. -/
theorem responses_owned (hr : ApiReach settings U P F users cfg) {h₀ : Hist ApiWorld} {success : Success}
    (hp : cfg.threads p = some ⟨.endpoint route request, h₀, .ret (.ok success, ())⟩) :
    ∃ s ∈ cfg.hist.now.sessions.drawn, bearerHash (getSessionCookie settings request) = some s.token_hash ∧
      ∀ id ∈ success.content.datasetIds, Owned s.user_id cfg.hist.now.services.hist.now.db id := by
  obtain ⟨hroute, hexplains⟩ := reach_explains hr hp
  obtain ⟨G, hG⟩ := reach_joint hr
  cases hexplains with
  | @answered k h₁ r content hthread hk hanswered hcontent =>
    obtain ⟨s, hs, huser, htoken, -⟩ := hk.session
    refine ⟨s, hs, htoken, ?_⟩
    rw [datasetIds_content (makes_of_call hroute hk.call) hcontent, huser]
    exact owned_of_answered hG.shared.services hanswered

namespace Sample

/-- The datasets that a response names. -/
def shown (cfg : ApiConfig) (p : Pid) : Option (List Uuid) :=
  match cfg.threads p with
  | some ⟨.endpoint _ _, _, .ret (.ok success, _)⟩ => some success.content.datasetIds
  | _ => none

lemma shown_eq {cfg : ApiConfig} {p : Pid} {ids : List Uuid} (h : shown cfg p = some ids) :
    ∃ route request h₀ success, cfg.threads p = some ⟨.endpoint route request, h₀, .ret (.ok success, ())⟩ ∧
      success.content.datasetIds = ids := by
  unfold shown at h
  split at h
  · next route request h₀ success _ ht =>
    cases h
    exact ⟨route, request, h₀, success, ht, rfl⟩
  · cases h

end Sample

/-- The dataset that was asked for. -/
theorem responses_owned_sample : ∃ s ∈ (Sample.config Sample.created).hist.now.sessions.drawn,
    Owned s.user_id (Sample.config Sample.created).hist.now.services.hist.now.db 201 := by
  have hshown : Sample.shown (Sample.config Sample.created) 1 = some [201] := by decide +kernel
  obtain ⟨route, request, h₀, success, hp, hids⟩ := Sample.shown_eq hshown
  obtain ⟨s, hs, -, howned⟩ := responses_owned (Sample.reach fun _ _ => Sample.known_created) hp
  exact ⟨s, hs, howned 201 (by rw [hids]; exact List.mem_singleton.mpr rfl)⟩

end DataCheck.Api
