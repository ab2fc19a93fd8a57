import DataCheck.Api.Guarantees

/-!
# What a response tells

A response to a request is true: a reply is that of the call of the user, at one moment of it, and an error has
its reason.
-/

namespace DataCheck.Api

open Lib Shared Datasets Analyses Identity

variable {settings : ApiSettings} {U : Unicode} {P : Polars} {F : Faults} {users : Table Uuid User User.id}
  {cfg : ApiConfig} {p : Pid} {w : ApiWorld} {route : Route} {request : HttpRequest} {k : Shared.Call}
  {owner_id : Uuid} {h : Hist World} {r : Reply} {out : Except ApiExn Success}

/-! ### The response models accept every reply -/

lemma lawful_at {ops : List Operation} (hs : Serially U ops h) : ∀ h' ≤ h, Lawful U h'.now.db := by
  induction hs with
  | start =>
    intro h' hle
    cases hle
    exact lawful_empty U
  | quiet hs hdb ih =>
    intro h' hle
    rcases Hist.le_push_iff.mp hle with rfl | hle
    · exact (Serially.quiet hs hdb).lawful
    · exact ih h' hle
  | perform hs hc ih =>
    intro h' hle
    rcases Hist.le_push_iff.mp hle with rfl | hle
    · exact (Serially.perform hs hc).lawful
    · exact ih h' hle

lemma of_mem_page {α : Type} {limit offset : ℕ} {l : List α} {a : α} (h : a ∈ page limit offset l) : a ∈ l :=
  List.mem_of_mem_drop (List.mem_of_mem_take h)

lemma isSome_pages {α β γ : Type} {f : α → β} {g : β → Option γ} {l : List α} {limit offset : ℕ}
    (h : ∀ a ∈ l, (g (f a)).isSome = true) : (((page limit offset l).map f).mapM g).isSome = true := by
  refine isSome_mapM fun b hb => ?_
  obtain ⟨a, ha, rfl⟩ := List.mem_map.mp hb
  exact h a (of_mem_page ha)

/-- **What a call sees is accepted.** -/
lemma content_of_sees (hm : Makes U P owner_id route k) {db : Db} (hs : Sees k r db) (hl : Lawful U db) :
    (route.content r).isSome = true := by
  cases hm with
  | listDatasets =>
    rw [show r = _ from hs]
    refine (Option.isSome_map ..).trans (isSome_pages fun d hd => ?_)
    exact isSome_datasetSummary (hl.datasets d (Table.mem_select.mp (mem_sortOn.mp hd)).1).1
  | getDataset =>
    obtain ⟨d, hd, rfl⟩ := hs
    exact (Option.isSome_map ..).trans (isSome_datasetDetail (hl.datasets d (ownedDataset_eq_some.mp hd).1).1)
  | listRules =>
    obtain ⟨-, rfl⟩ := hs
    refine (Option.isSome_map ..).trans (isSome_pages fun s hs => ?_)
    have hrow := hl.rules s (Table.mem_select.mp (mem_sortOn.mp hs)).1
    exact isSome_ruleResponse hrow.1 hrow.2
  | listAnalyses =>
    obtain ⟨-, rfl⟩ := hs
    refine (Option.isSome_map ..).trans (isSome_pages fun a ha => ?_)
    exact isSome_summaryResponse (hl.analyses a (Table.mem_select.mp (mem_sortOn.mp ha)).1).2
  | getAnalysis =>
    obtain ⟨a, detail, ha, hdetail, rfl⟩ := hs
    have hrow := hl.analyses a (Table.find?_eq_some.mp (Option.filter_eq_some_iff.mp ha).1).1
    refine (Option.isSome_map ..).trans (isSome_detailResponse hdetail hrow.1 hrow.2 fun s hs => ?_)
    exact hl.results s (Table.mem_select.mp (mem_sortOn.mp hs)).1
  | _ => exact hs.elim

/-- **What a call answers when it changes the database is accepted.** -/
lemma content_of_changes (hm : Makes U P owner_id route k) {db : Db} (hc : Changes U p h k r db) :
    (route.content r).isSome = true := by
  rw [hm.eq]
  cases hc with
  | createDataset _ _ _ _ hrow => exact (Option.isSome_map ..).trans (isSome_datasetDetail hrow.1)
  | uploadCsv _ _ _ _ _ _ _ _ _ hrow => exact (Option.isSome_map ..).trans (isSome_datasetDetail hrow.1)
  | createRule _ _ _ _ hrow => exact (Option.isSome_map ..).trans (isSome_ruleResponse hrow.1 hrow.2)
  | deleteRule => rfl
  | createAnalysis _ _ _ hrow hrows _ _ _ hdetail =>
    exact (Option.isSome_map ..).trans (isSome_detailResponse hdetail hrow.1 hrow.2 hrows)

/-- **The response model accepts every reply.** -/
lemma content_isSome (hm : Makes U P owner_id route k) {h₀ : Hist World} (ha : Answered U ⟨p, k, h₀⟩ h r)
    (hl : ∀ h' ≤ h, Lawful U h'.now.db) : (route.content r).isSome = true := by
  cases ha with
  | saw _ hle hs => exact content_of_sees hm hs (hl _ hle)
  | changed _ _ hc => exact content_of_changes hm hc
  | overtaken hcall =>
    cases hcall
    cases hm
    rfl

/-! ### Why a response -/

/-- Why the request `p` ends with the response: with the reply of its call, or with the reason of its error. -/
inductive Explains (settings : ApiSettings) (U : Unicode) (p : Pid) (route : Route) (request : HttpRequest)
    (w : ApiWorld) : Except ApiExn Success → Prop
  /-- The call replied. -/
  | answered {k : Shared.Call} {h₀ : Hist World} {r : Reply} {content : Content}
      (hp : w.services.threads p = some ⟨k, h₀, .ret (.ok r, ())⟩) (hk : Authorized settings w route request k)
      (hr : Answered U ⟨p, k, h₀⟩ w.services.hist r) (hc : route.content r = some content) :
      Explains settings U p route request w (.ok ⟨route.status_code, content⟩)
  /-- The call raised. -/
  | refused {k : Shared.Call} {h₀ : Hist World} {x : Exn}
      (hp : w.services.threads p = some ⟨k, h₀, .ret (.error x, ())⟩) (hk : Authorized settings w route request k)
      (hx : Refused U ⟨p, k, h₀⟩ x w.services.hist) :
      Explains settings U p route request w (.error (route.raised (.service x)))
  /-- The parameters do not validate. -/
  | invalid {x : ApiExn} (hnone : w.services.threads p = none) {owner_id : Uuid}
      (hx : route.call request owner_id = .error x) : Explains settings U p route request w (.error x)
  | invalidCsrf (hnone : w.services.threads p = none) {context : ActiveSessionSnapshot} (hm : route.mutation = true)
      (hknown : Authenticated w.events (getSessionCookie settings request) context)
      (hc : csrfAccepted context.csrf_token request.toRequest = false) :
      Explains settings U p route request w (.error (.api invalidCsrfToken))
  | unauthenticated (hnone : w.services.threads p = none) {now : Time}
      (he : (SessionCall.authenticate (getSessionCookie settings request) now, SessionReply.authenticationRequired) ∈
        w.events) :
      Explains settings U p route request w (.error (.api authenticationRequired))
  /-- The identity service failed. -/
  | unavailable {x : ApiExn} (hnone : w.services.threads p = none) (hx : x = .database ∨ x = .clock) :
      Explains settings U p route request w (.error x)
  /-- A dependency refused. -/
  | dependency (hnone : w.services.threads p = none) {e : ApiError}
      (he : enforceAll settings request route.dependencies = .error e) :
      Explains settings U p route request w (.error (.api e.plain))
  /-- The body could not be read. -/
  | unread {x : ApiExn} (hnone : w.services.threads p = none) (hx : readBody route request = .error x) :
      Explains settings U p route request w (.error x)

/-- Why the requests of a run end as they do. -/
lemma reach_explains (hr : ApiReach settings U P F users cfg) {h₀ : Hist ApiWorld}
    (hp : cfg.threads p = some ⟨.endpoint route request, h₀, .ret (out, ())⟩) :
    route ∈ routes U P ∧ Explains settings U p route request cfg.hist.now out := by
  obtain ⟨G, hG⟩ := reach_joint hr
  obtain ⟨hroute, hat⟩ := hG.state p _ hp
  refine ⟨hroute, ?_⟩
  have hvalid := hG.shared.valid p
  have hends : route.Ends settings request out (G p) := hG.follows p _ hp
  cases hstage : G p with
  | arrived =>
    rw [hstage] at hvalid hends
    obtain ⟨x, rfl, hread | ⟨e, he, rfl⟩⟩ := hends
    · exact .unread hvalid hread
    · exact .dependency hvalid he
  | failed x =>
    rw [hstage] at hvalid hends
    obtain rfl : out = .error x := hends
    exact .unavailable hvalid.1 hvalid.2
  | refused b =>
    rw [hstage] at hvalid hends hat
    obtain rfl : b = getSessionCookie settings request := hat
    obtain rfl : out = .error (.api authenticationRequired) := hends
    obtain ⟨hnone, now, he⟩ := hvalid
    exact .unauthenticated hnone he
  | known b context =>
    rw [hstage] at hvalid hends hat
    obtain ⟨rfl, -⟩ := hat
    obtain ⟨x, rfl, ⟨rfl, hno⟩ | hx⟩ := hends
    · have hm : route.mutation = true ∧ csrfAccepted context.csrf_token request.toRequest = false := by
        unfold Route.Accepts at hno
        rw [Classical.not_imp, Bool.not_eq_true] at hno
        exact hno
      exact .invalidCsrf hvalid.1 hm.1 hvalid.2 hm.2
    · exact .invalid hvalid.1 hx
  | called b context k =>
    rw [hstage] at hends
    exact hends.elim
  | answered b context k reply =>
    rw [hstage] at hvalid hends hat
    obtain ⟨rfl, hdeps, haccepts, hcall⟩ := hat
    obtain ⟨hknown, h₁, outcome, hthread, rfl⟩ := hvalid
    have hk := authorized_of_at hroute hG.shared.run hdeps haccepts hcall hknown
    have hfinish := (reach_finishes creates_any hG.shared.services hthread).2
    -- the thread of the call has ended, so its reply is atomic and its exception has a reason
    cases outcome with
    | error x =>
      obtain rfl : out = .error (route.raised (.service x)) := hends
      exact .refused hthread hk hfinish
    | ok r =>
      obtain ⟨ops, tried, hrec⟩ := reach_recorded hG.shared.services
      have haccepted := content_isSome (makes_of_call hroute hcall) hfinish (lawful_at hrec.serial)
      obtain ⟨content, hc⟩ := Option.isSome_iff_exists.mp haccepted
      have hout : out = route.respond r := hends
      rw [Route.respond, hc] at hout
      rw [hout]
      exact .answered hthread hk hfinish hc

/-- **Every response has its reason**: a success is the reply of an authorized call, as the response model
shows it, and the reply is true at one moment of that call; an error of the call has its reason at one moment of
it; and every other error comes before any call of a service.  No reply is lost to a response model. -/
theorem responses_explained (hr : ApiReach settings U P F users cfg) {h₀ : Hist ApiWorld}
    (hp : cfg.threads p = some ⟨.endpoint route request, h₀, .ret (out, ())⟩) :
    Explains settings U p route request cfg.hist.now out := (reach_explains hr hp).2

/-- The request for a dataset is answered with the dataset. -/
theorem responses_explained_sample : ∃ route request out,
    getSessionCookie Sample.development request = Identity.Sample.bearer ∧ statusOf out = 201 ∧
      Explains Sample.development Datasets.Sample.unicode 1 route request (Sample.config Sample.created).hist.now
        out := by
  have hended : Sample.ended (Sample.config Sample.created) 1 = some (Identity.Sample.bearer, 201) := by decide +kernel
  obtain ⟨route, request, h₀, out, hp, hcookie, hstatus⟩ := Sample.ended_eq hended
  exact ⟨route, request, out, hcookie, hstatus, responses_explained (Sample.reach fun _ _ => Sample.known_created) hp⟩

/-! ### Statuses -/

/-- An exception that tells of a fault of the server, and not of the request. -/
def isFault : Exn → Bool
  | .integrityFault _ | .os | .clock | .source | .zipLength | .invalidOperation => true
  | _ => false

/-- **A refusal that tells of the request is caught**, and its status code is declared. -/
lemma handled (hm : Makes U P owner_id route k) {x : Exn} {db : Db} (hx : Refusal U k x db) :
    (∃ e, route.handler x = some e ∧ e.status_code ∈ route.responses ∧ e.status_code ≠ 500) ∨ (∃ d, x = .database d) ∨
      route.handler x = none ∧ isFault x = true := by
  cases x with
  | database d => exact Or.inr (Or.inl ⟨d, rfl⟩)
  | datasetNotFound =>
    cases hm <;> first
      | exact Or.inl ⟨_, rfl, by decide, by decide⟩
      | exact Or.inl ⟨_, rfl, by simp [notFound, ApiError.plain, createRule], by decide⟩
      | (rcases hx with ⟨_, hnone, -⟩ | hx
         · cases hnone
         · exact hx.elim)
  | datasetPolicy code =>
    cases hm <;> first
      | exact hx.elim
      | exact Or.inl ⟨_, rfl, by simp [validationError, createDataset, uploadCsv, createRule], by simp [validationError]⟩
  | csvStructure code =>
    cases hm <;> first
      | exact hx.elim
      | exact Or.inl ⟨_, rfl, by simp [validationError, uploadCsv], by simp [validationError]⟩
  | fileTooLarge =>
    cases hm <;> first
      | exact hx.elim
      | exact Or.inl ⟨_, rfl, by decide, by decide⟩
  | datasetNotReady =>
    cases hm <;> first
      | exact hx.elim
      | exact Or.inl ⟨_, rfl, by simp [ApiError.plain, createRule, createAnalysis], by simp [ApiError.plain]⟩
  | unknownColumn =>
    cases hm <;> first
      | exact hx.elim
      | exact Or.inl ⟨_, rfl, by simp [validationError, createRule], by simp [validationError]⟩
  | duplicateRule =>
    cases hm <;> first
      | exact hx.elim
      | exact Or.inl ⟨_, rfl, by simp [ApiError.plain, createRule], by simp [ApiError.plain]⟩
  | incompatibleUpload =>
    cases hm <;> first
      | exact hx.elim
      | exact Or.inl ⟨_, rfl, by decide, by decide⟩
  | analysisRequiresRules =>
    cases hm <;> first
      | exact hx.elim
      | exact Or.inl ⟨_, rfl, by decide, by decide⟩
  | _ => cases hm <;> exact Or.inr (Or.inr ⟨rfl, rfl⟩)

/-- The statuses that an endpoint has to declare, for what it depends on. -/
structure Route.Declares (route : Route) : Prop where
  success : route.status_code ≠ 500
  always : 401 ∈ route.responses ∧ 500 ∈ route.responses ∧ 503 ∈ route.responses
  forbidden : route.mutation = true ∨ .trustedOrigin ∈ route.dependencies → 403 ∈ route.responses
  mediaType : (∃ d ∈ route.dependencies, d ≠ .trustedOrigin) → 415 ∈ route.responses
  payload : route.payload = true → 422 ∈ route.responses
  /-- No `except` clause is for a fault of the database. -/
  database : ∀ d, route.handler (.database d) = none

lemma declares (hroute : route ∈ routes U P) : route.Declares := by
  simp only [routes, List.mem_cons, List.not_mem_nil, or_false] at hroute
  rcases hroute with rfl | rfl | rfl | rfl | rfl | rfl | rfl | rfl | rfl | rfl
  · constructor <;> simp [createDataset]
  · constructor <;> simp [listDatasets]
  · constructor <;> simp [getDataset, onlyNotFound]
  · constructor <;> simp [uploadCsv]
  · constructor <;> simp [createRule]
  · constructor <;> simp [listRules, onlyNotFound]
  · constructor <;> simp [deleteRule, onlyNotFound]
  · constructor <;> simp [createAnalysis]
  · constructor <;> simp [listAnalyses, onlyNotFound]
  · constructor <;> simp [getAnalysis, onlyNotFound]

/-- A parameter that does not validate, or what comes after it. -/
lemma validated_bind {α β : Type} {o : Option α} {f : α → Except ApiExn β} {x : ApiExn}
    (h : (validated request o >>= f) = .error x) : x = .requestValidation request.errors ∨ ∃ a, f a = .error x := by
  cases o with
  | none =>
    cases h
    exact Or.inl rfl
  | some a => exact Or.inr ⟨a, h⟩

/-- Why an endpoint makes no call: a parameter does not validate, or the form is not that of an upload. -/
lemma call_error (hroute : route ∈ routes U P) {x : ApiExn} (h : route.call request owner_id = .error x) :
    x = .requestValidation request.errors ∧ (422 ∈ route.responses ∨ route = deleteRule) ∨
      x = .api invalidMultipart ∧ 400 ∈ route.responses := by
  simp only [routes, List.mem_cons, List.not_mem_nil, or_false] at hroute
  rcases hroute with rfl | rfl | rfl | rfl | rfl | rfl | rfl | rfl | rfl | rfl
  · obtain rfl | ⟨payload, h⟩ := validated_bind h
    · exact Or.inl ⟨rfl, Or.inl (by simp [createDataset])⟩
    · cases h
  · obtain rfl | ⟨limit, h⟩ := validated_bind h
    · exact Or.inl ⟨rfl, Or.inl (by simp [listDatasets])⟩
    obtain rfl | ⟨offset, h⟩ := validated_bind h
    · exact Or.inl ⟨rfl, Or.inl (by simp [listDatasets])⟩
    · cases h
  · obtain rfl | ⟨dataset_id, h⟩ := validated_bind h
    · exact Or.inl ⟨rfl, Or.inl (by simp [getDataset])⟩
    · cases h
  · obtain rfl | ⟨dataset_id, h⟩ := validated_bind h
    · exact Or.inl ⟨rfl, Or.inl (by simp [uploadCsv])⟩
    split at h
    · split at h
      · cases h
      · cases h
        exact Or.inr ⟨rfl, by simp [uploadCsv]⟩
    · cases h
      exact Or.inr ⟨rfl, by simp [uploadCsv]⟩
  · obtain rfl | ⟨dataset_id, h⟩ := validated_bind h
    · exact Or.inl ⟨rfl, Or.inl (by simp [createRule])⟩
    obtain rfl | ⟨payload, h⟩ := validated_bind h
    · exact Or.inl ⟨rfl, Or.inl (by simp [createRule])⟩
    · cases h
  · obtain rfl | ⟨dataset_id, h⟩ := validated_bind h
    · exact Or.inl ⟨rfl, Or.inl (by simp [listRules])⟩
    obtain rfl | ⟨limit, h⟩ := validated_bind h
    · exact Or.inl ⟨rfl, Or.inl (by simp [listRules])⟩
    obtain rfl | ⟨offset, h⟩ := validated_bind h
    · exact Or.inl ⟨rfl, Or.inl (by simp [listRules])⟩
    · cases h
  · obtain rfl | ⟨dataset_id, h⟩ := validated_bind h
    · exact Or.inl ⟨rfl, Or.inr rfl⟩
    obtain rfl | ⟨rule_id, h⟩ := validated_bind h
    · exact Or.inl ⟨rfl, Or.inr rfl⟩
    · cases h
  · obtain rfl | ⟨dataset_id, h⟩ := validated_bind h
    · exact Or.inl ⟨rfl, Or.inl (by simp [createAnalysis])⟩
    · cases h
  · obtain rfl | ⟨dataset_id, h⟩ := validated_bind h
    · exact Or.inl ⟨rfl, Or.inl (by simp [listAnalyses])⟩
    obtain rfl | ⟨limit, h⟩ := validated_bind h
    · exact Or.inl ⟨rfl, Or.inl (by simp [listAnalyses])⟩
    obtain rfl | ⟨offset, h⟩ := validated_bind h
    · exact Or.inl ⟨rfl, Or.inl (by simp [listAnalyses])⟩
    · cases h
  · obtain rfl | ⟨dataset_id, h⟩ := validated_bind h
    · exact Or.inl ⟨rfl, Or.inl (by simp [getAnalysis])⟩
    obtain rfl | ⟨analysis_id, h⟩ := validated_bind h
    · exact Or.inl ⟨rfl, Or.inl (by simp [getAnalysis])⟩
    · cases h

/-- The status code of a response to the request is one that the endpoint tells of. -/
structure StatusDeclared (route : Route) (request : HttpRequest) (out : Except ApiExn Success) : Prop where
  declared : statusOf out = route.status_code ∨ statusOf out ∈ route.responses ∨
    route = deleteRule ∧ statusOf out = 422 ∨ request.json = .unreadable ∧ statusOf out = 400
  fault : statusOf out = 500 → out = .error .clock ∨ ∃ x, isFault x = true ∧ out = .error (.service x)

lemma StatusDeclared.of_mem (hmem : statusOf out ∈ route.responses) (hne : statusOf out ≠ 500) :
    StatusDeclared route request out := ⟨Or.inr (Or.inl hmem), fun h => (hne h).elim⟩

lemma declared_refusal (hd : route.Declares) (hm : Makes U P owner_id route k) {x : Exn} {db : Db}
    (hx : Refusal U k x db) : StatusDeclared route request (.error (route.raised (.service x))) := by
  rcases handled hm hx with ⟨e, he, hmem, hne⟩ | ⟨d, rfl⟩ | ⟨hnone, hfault⟩
  · have hraised : route.raised (.service x) = .api e := by rw [Route.raised, he]
    rw [hraised]
    exact .of_mem hmem hne
  · have hraised : route.raised (.service (.database d)) = .service (.database d) := by
      rw [Route.raised, hd.database]
    rw [hraised]
    exact .of_mem hd.always.2.2 (by simp)
  · have hraised : route.raised (.service x) = .service x := by rw [Route.raised, hnone]
    have hstatus : statusOf (.error (.service x)) = 500 := by
      cases x <;> first
        | rfl
        | cases hfault
    rw [hraised]
    exact ⟨Or.inr (Or.inl (hstatus ▸ hd.always.2.1)), fun _ => Or.inr ⟨x, hfault, rfl⟩⟩

lemma declared_dependency (hd : route.Declares) {e : ApiError}
    (he : enforceAll settings request route.dependencies = .error e) :
    StatusDeclared route request (.error (.api e.plain)) := by
  rcases enforceAll_error he with ⟨hmem, hstatus⟩ | ⟨hmem, hstatus⟩
  · have hout : statusOf (.error (.api e.plain)) = 403 := hstatus
    exact .of_mem (hout ▸ hd.forbidden (Or.inr hmem)) (by rw [hout]; decide)
  · have hout : statusOf (.error (.api e.plain)) = 415 := hstatus
    exact .of_mem (hout ▸ hd.mediaType hmem) (by rw [hout]; decide)

/-- So are those of a body that cannot be read. -/
lemma declared_body (hd : route.Declares) {x : ApiExn} (hx : readBody route request = .error x) :
    StatusDeclared route request (.error x) := by
  unfold readBody at hx
  split at hx
  · next hpayload =>
    split at hx
    · cases hx
      exact .of_mem (hd.payload hpayload) (by simp)
    · next hjson =>
      cases hx
      exact ⟨Or.inr (Or.inr (Or.inr ⟨hjson, rfl⟩)), fun h => absurd h (by decide)⟩
    · cases hx
  · cases hx

/-- **Every status code is declared**, but for the 422 of `delete_rule` and the 400 of the framework for a body
that it cannot read; and with 500 a request only ends where the clock of the identity service is wrong or the call
met a fault of the server. -/
theorem statuses_declared (hr : ApiReach settings U P F users cfg) {h₀ : Hist ApiWorld}
    (hp : cfg.threads p = some ⟨.endpoint route request, h₀, .ret (out, ())⟩) : StatusDeclared route request out := by
  obtain ⟨hroute, hexplains⟩ := reach_explains hr hp
  have hd := declares hroute
  cases hexplains with
  | answered hthread hk hanswered hcontent => exact ⟨Or.inl rfl, fun h => (hd.success h).elim⟩
  | refused hthread hk hrefused =>
    obtain ⟨h', -, -, hrefusal⟩ := hrefused
    exact declared_refusal hd (makes_of_call hroute hk.call) hrefusal
  | invalid hnone hx =>
    rcases call_error hroute hx with ⟨rfl, hmem | rfl⟩ | ⟨rfl, hmem⟩
    · exact .of_mem hmem (by simp)
    · exact ⟨Or.inr (Or.inr (Or.inl ⟨rfl, rfl⟩)), fun h => absurd h (by simp)⟩
    · exact .of_mem hmem (by decide)
  | invalidCsrf hnone hm hknown hc => exact .of_mem (hd.forbidden (Or.inl hm)) (by decide)
  | unauthenticated hnone he => exact .of_mem hd.always.1 (by decide)
  | unavailable hnone hx =>
    obtain rfl | rfl := hx
    · exact .of_mem hd.always.2.2 (by decide)
    · exact ⟨Or.inr (Or.inl hd.always.2.1), fun _ => Or.inl rfl⟩
  | dependency hnone he => exact declared_dependency hd he
  | unread hnone hx => exact declared_body hd hx

/-- A request with the cookie of a revoked session. -/
theorem statuses_declared_sample : ∃ route request out, statusOf out = 401 ∧
    getSessionCookie Sample.development request = Identity.Sample.bearer ∧ StatusDeclared route request out := by
  have hended : Sample.ended Sample.afterwards 3 = some (Identity.Sample.bearer, 401) := by decide +kernel
  obtain ⟨route, request, h₀, out, hp, hcookie, hstatus⟩ := Sample.ended_eq hended
  exact ⟨route, request, out, hstatus, hcookie,
    statuses_declared (Sample.steps_afterwards.reachable Sample.reach_loggedOut) hp⟩

end DataCheck.Api
