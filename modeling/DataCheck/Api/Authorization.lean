import DataCheck.Api.System
import DataCheck.Shared.Atomic

/-!
# Who a call is made for

How far a request has come is a stage, and what it may do next depends on the stage alone.  So a call of a
service is only ever made by a request that has been authenticated, for the user of its session.
-/

namespace DataCheck.Api

open Lib Shared Datasets Identity

variable {settings : ApiSettings} {U : Unicode} {P : Polars} {F : Faults} {users : Table Uuid User User.id}
  {cfg cfg' : ApiConfig} {p : Pid} {w w' : ApiWorld} {route : Route} {request : HttpRequest} {k : Shared.Call}
  {owner_id : Uuid}

/-! ### The calls of the endpoints -/

/-- The endpoint makes this call for the user. -/
inductive Makes (U : Unicode) (P : Polars) (owner_id : Uuid) : Route → Shared.Call → Prop
  | createDataset {name : PyStr} : Makes U P owner_id createDataset (.createDataset owner_id name)
  | listDatasets {limit offset : ℕ} : Makes U P owner_id listDatasets (.listDatasets owner_id limit offset)
  | getDataset {dataset_id : Uuid} : Makes U P owner_id getDataset (.getDataset owner_id dataset_id)
  | uploadCsv {dataset_id : Uuid} {filename : Option PyStr} {file : Source} :
      Makes U P owner_id uploadCsv (.uploadCsv owner_id dataset_id filename file)
  | createRule {dataset_id : Uuid} {payload : RuleCreateRequest U P} :
      Makes U P owner_id (createRule U P) (.createRule owner_id dataset_id payload.configuration.typeName
        payload.target_column (canonicalRuleConfiguration payload))
  | listRules {dataset_id : Uuid} {limit offset : ℕ} :
      Makes U P owner_id listRules (.listRules owner_id dataset_id limit offset)
  | deleteRule {dataset_id rule_id : Uuid} : Makes U P owner_id deleteRule (.deleteRule owner_id dataset_id rule_id)
  | createAnalysis {dataset_id : Uuid} : Makes U P owner_id createAnalysis (.createAnalysis owner_id dataset_id)
  | listAnalyses {dataset_id : Uuid} {limit offset : ℕ} :
      Makes U P owner_id listAnalyses (.listAnalyses owner_id dataset_id limit offset)
  | getAnalysis {dataset_id analysis_id : Uuid} :
      Makes U P owner_id getAnalysis (.getAnalysis owner_id dataset_id analysis_id)

lemma bind_ok {ε α β : Type} {x : Except ε α} {f : α → Except ε β} {b : β} (h : (x >>= f) = .ok b) :
    ∃ a, x = .ok a ∧ f a = .ok b := by
  cases x with
  | error e => cases h
  | ok a => exact ⟨a, rfl, h⟩

lemma makes_of_call (hroute : route ∈ routes U P) (h : route.call request owner_id = .ok k) :
    Makes U P owner_id route k := by
  simp only [routes, List.mem_cons, List.not_mem_nil, or_false] at hroute
  rcases hroute with rfl | rfl | rfl | rfl | rfl | rfl | rfl | rfl | rfl | rfl
  · obtain ⟨payload, -, h⟩ := bind_ok h
    cases h
    exact .createDataset
  · obtain ⟨limit, -, h⟩ := bind_ok h
    obtain ⟨offset, -, h⟩ := bind_ok h
    cases h
    exact .listDatasets
  · obtain ⟨dataset_id, -, h⟩ := bind_ok h
    cases h
    exact .getDataset
  · obtain ⟨dataset_id, -, h⟩ := bind_ok h
    split at h
    · split at h
      · cases h
        exact .uploadCsv
      · cases h
    · cases h
  · obtain ⟨dataset_id, -, h⟩ := bind_ok h
    obtain ⟨payload, -, h⟩ := bind_ok h
    cases h
    exact .createRule
  · obtain ⟨dataset_id, -, h⟩ := bind_ok h
    obtain ⟨limit, -, h⟩ := bind_ok h
    obtain ⟨offset, -, h⟩ := bind_ok h
    cases h
    exact .listRules
  · obtain ⟨dataset_id, -, h⟩ := bind_ok h
    obtain ⟨rule_id, -, h⟩ := bind_ok h
    cases h
    exact .deleteRule
  · obtain ⟨dataset_id, -, h⟩ := bind_ok h
    cases h
    exact .createAnalysis
  · obtain ⟨dataset_id, -, h⟩ := bind_ok h
    obtain ⟨limit, -, h⟩ := bind_ok h
    obtain ⟨offset, -, h⟩ := bind_ok h
    cases h
    exact .listAnalyses
  · obtain ⟨dataset_id, -, h⟩ := bind_ok h
    obtain ⟨analysis_id, -, h⟩ := bind_ok h
    cases h
    exact .getAnalysis

/-- The endpoint that makes a call. -/
def endpointOf (U : Unicode) (P : Polars) : Shared.Call → Route
  | .createDataset .. => createDataset
  | .listDatasets .. => listDatasets
  | .getDataset .. => getDataset
  | .uploadCsv .. => uploadCsv
  | .createRule .. => createRule U P
  | .listRules .. => listRules
  | .deleteRule .. => deleteRule
  | .createAnalysis .. => createAnalysis
  | .listAnalyses .. => listAnalyses
  | .getAnalysis .. => getAnalysis

lemma Makes.eq (h : Makes U P owner_id route k) : route = endpointOf U P k := by cases h <;> rfl

lemma Makes.owner (h : Makes U P owner_id route k) : k.owner = owner_id := by cases h <;> rfl

/-- An endpoint that writes is a mutation and asks for a trusted origin. -/
lemma Makes.protected (h : Makes U P owner_id route k) (hw : k.writes = true) :
    route.mutation = true ∧ Dependency.trustedOrigin ∈ route.dependencies := by
  cases h <;> first
    | exact ⟨rfl, List.mem_cons_self⟩
    | cases hw

/-! ### Stages -/

/-- How far a request has come. -/
inductive Stage where
  | arrived
  | failed (x : ApiExn)
  | refused (encoded_bearer : Option PyStr)
  | known (encoded_bearer : Option PyStr) (context : ActiveSessionSnapshot)
  | called (encoded_bearer : Option PyStr) (context : ActiveSessionSnapshot) (k : Shared.Call)
  | answered (encoded_bearer : Option PyStr) (context : ActiveSessionSnapshot) (k : Shared.Call)
      (reply : Except ApiExn Reply)

def Stage.next (encoded_bearer : Option PyStr) : Stage → (e : ApiEff) → Except ApiExn e.Resp → Stage
  | .arrived, .session _, .ok (SessionReply.authenticated context) => .known encoded_bearer context
  | .arrived, .session _, .ok _ => .refused encoded_bearer
  | .arrived, .session _, .error x => .failed x
  | .known b context, .begin k, .ok _ => .called b context k
  | .known _ _, .begin _, .error x => .failed x
  | .called b context k, .await, reply => .answered b context k reply
  | s, _, _ => s

/-- The endpoint accepts the CSRF token of the request. -/
def Route.Accepts (route : Route) (request : HttpRequest) (context : ActiveSessionSnapshot) : Prop :=
  route.mutation = true → csrfAccepted context.csrf_token request.toRequest = true

/-- What a request may do at a stage. -/
def Route.may (settings : ApiSettings) (route : Route) (request : HttpRequest) : Stage → ApiEff → Prop
  | .arrived, .session call => call = .authenticate (getSessionCookie settings request) ∧
      enforceAll settings request route.dependencies = .ok ()
  | .known _ context, .begin k => route.Accepts request context ∧ route.call request context.user_id = .ok k
  | .called _ _ _, .await => True
  | _, _ => False

def Route.stages (settings : ApiSettings) (route : Route) (request : HttpRequest) :
    Typestate ApiEff (fun e => Except ApiExn e.Resp) Stage where
  may := route.may settings request
  next := Stage.next (getSessionCookie settings request)

/-- No stages: only effects that `allowed` allows. -/
def free (allowed : ApiEff → Prop) : Typestate ApiEff (fun e => Except ApiExn e.Resp) Stage where
  may s e := s = .arrived ∧ allowed e
  next s _ _ := s

def ApiCall.stages (settings : ApiSettings) : ApiCall → Typestate ApiEff (fun e => Except ApiExn e.Resp) Stage
  | .endpoint route request => route.stages settings request
  | .work => free fun e => e = .work
  | _ => free fun e => ∃ call, e = .session call

/-- What is known of a request at a stage. -/
def Route.At (settings : ApiSettings) (route : Route) (request : HttpRequest) : Stage → Prop
  | .arrived => True
  | .failed _ => True
  | .refused b => b = getSessionCookie settings request
  | .known b _ => b = getSessionCookie settings request ∧ enforceAll settings request route.dependencies = .ok ()
  | .called b context k => b = getSessionCookie settings request ∧
      enforceAll settings request route.dependencies = .ok () ∧ route.Accepts request context ∧
        route.call request context.user_id = .ok k
  | .answered b context k _ => b = getSessionCookie settings request ∧
      enforceAll settings request route.dependencies = .ok () ∧ route.Accepts request context ∧
        route.call request context.user_id = .ok k

/-- What is known of a call at a stage. -/
def ApiCall.At (settings : ApiSettings) (U : Unicode) (P : Polars) : ApiCall → Stage → Prop
  | .endpoint route request, s => route ∈ routes U P ∧ route.At settings request s
  | _, s => s = .arrived

/-- What a request ends with at a stage. -/
def Route.Ends (settings : ApiSettings) (route : Route) (request : HttpRequest) (out : Except ApiExn Success) :
    Stage → Prop
  | .arrived => ∃ x, out = .error x ∧ (readBody route request = .error x ∨
      ∃ e, enforceAll settings request route.dependencies = .error e ∧ x = .api e.plain)
  | .failed x => out = .error x
  | .refused _ => out = .error (.api authenticationRequired)
  | .known _ context => ∃ x, out = .error x ∧ (x = .api invalidCsrfToken ∧ ¬ route.Accepts request context ∨
      route.call request context.user_id = .error x)
  | .called _ _ _ => False
  | .answered _ _ _ (.ok reply) => out = route.respond reply
  | .answered _ _ _ (.error x) => out = .error (route.raised x)

/-- What a call ends with at a stage. -/
def ApiCall.Ends (settings : ApiSettings) : ApiCall → ApiOutcome → Stage → Prop
  | .endpoint route request, out, s => route.Ends settings request out.1 s
  | _, _, _ => True

/-! ### The program of a request follows the stages -/

/-- The stage of an authenticated request. -/
def Known (settings : ApiSettings) (request : HttpRequest) (context : ActiveSessionSnapshot) (s : Stage) : Prop :=
  s = .known (getSessionCookie settings request) context

section Follows

variable {Q : ActiveSessionSnapshot → Stage → Prop}

lemma follows_requireAuthenticatedContext :
    Op.Follows (route.stages settings request)
      (fun s => s = .arrived ∧ enforceAll settings request route.dependencies = .ok ())
      (requireAuthenticatedContext settings request) (Known settings request)
      fun x => route.Ends settings request (.error x) := by
  refine Op.Follows.bind (Q := fun reply s => s = Stage.next (getSessionCookie settings request) .arrived
    (.session (.authenticate (getSessionCookie settings request))) (.ok reply)) ?_ fun reply => ?_
  · refine Op.follows_perform ?_ ?_ ?_
    · rintro s ⟨rfl, hdeps⟩
      exact ⟨rfl, hdeps⟩
    · rintro reply s ⟨rfl, -⟩
      rfl
    · rintro x s ⟨rfl, -⟩
      rfl
  · cases reply <;> first
      | exact Op.follows_pure fun s hs => hs
      | exact Op.follows_raise fun s hs => by
          subst hs
          rfl

lemma follows_requireAuthenticatedMutation (hm : route.mutation = true) :
    Op.Follows (route.stages settings request)
      (fun s => s = .arrived ∧ enforceAll settings request route.dependencies = .ok ())
      (requireAuthenticatedMutation settings request)
      (fun context s => Known settings request context s ∧ route.Accepts request context)
      fun x => route.Ends settings request (.error x) := by
  refine follows_requireAuthenticatedContext.bind fun context => ?_
  by_cases hc : csrfAccepted context.csrf_token request.toRequest = true
  · rw [if_pos hc]
    exact Op.follows_pure fun s hs => ⟨hs, fun _ => hc⟩
  · rw [if_neg hc]
    refine Op.follows_raise fun s hs => ?_
    rw [hs]
    exact ⟨_, rfl, Or.inl ⟨rfl, fun h => hc (h hm)⟩⟩

/-- **A request goes through the stages.** -/
theorem follows_handle :
    Op.Follows (route.stages settings request) (fun s => s = .arrived) (route.handle settings request)
      (fun success => route.Ends settings request (.ok success)) fun x => route.Ends settings request (.error x) := by
  -- the body is read and the dependencies are called before the identity service
  refine Op.Follows.bind (Q := fun _ s => s = .arrived) ?_ fun _ => ?_
  · cases hread : readBody route request with
    | ok => exact Op.follows_pure fun s hs => hs
    | error x =>
      refine Op.follows_raise fun s hs => ?_
      rw [hs]
      exact ⟨x, rfl, Or.inl hread⟩
  refine Op.Follows.bind (Q := fun _ s => s = .arrived ∧ enforceAll settings request route.dependencies = .ok ()) ?_
    fun _ => ?_
  · cases hdeps : enforceAll settings request route.dependencies with
    | ok => exact Op.follows_pure fun s hs => ⟨hs, rfl⟩
    | error e =>
      refine Op.follows_raise fun s hs => ?_
      rw [hs]
      exact ⟨_, rfl, Or.inr ⟨e, hdeps, rfl⟩⟩
  refine Op.Follows.bind (Q := fun context s => Known settings request context s ∧ route.Accepts request context) ?_
    fun context => ?_
  · unfold Route.context
    by_cases hm : route.mutation = true
    · rw [if_pos hm]
      exact follows_requireAuthenticatedMutation hm
    · rw [if_neg hm]
      exact follows_requireAuthenticatedContext.post (fun context s hs => ⟨hs, fun h => (hm h).elim⟩) fun x s hx => hx
  -- from here on the user is known, and a call is made for this user or not at all
  cases hcall : route.call request context.user_id with
  | error x =>
    refine Op.Follows.bind (Q := fun _ _ => False) (Op.follows_raise fun s hs => ?_) fun _ => Op.follows_false
    rw [hs.1]
    exact ⟨x, rfl, Or.inr hcall⟩
  | ok k =>
    refine Op.Follows.bind (Q := fun k' s => k' = k ∧ Known settings request context s ∧ route.Accepts request context)
      (Op.follows_pure fun s hs => ⟨rfl, hs⟩) fun k' => ?_
    refine Op.Follows.bind (Q := fun _ s => s = .called (getSessionCookie settings request) context k) ?_ fun _ => ?_
    · refine Op.follows_perform ?_ ?_ ?_
      · rintro s ⟨rfl, rfl, haccepts⟩
        exact ⟨haccepts, hcall⟩
      · rintro _ s ⟨rfl, rfl, -⟩
        rfl
      · rintro x s ⟨rfl, rfl, -⟩
        rfl
    refine Op.Follows.bind
      (Q := fun reply s => s = .answered (getSessionCookie settings request) context k (.ok reply)) ?_ fun reply => ?_
    · refine Op.Follows.catching (Y := fun x s => s = .answered (getSessionCookie settings request) context k (.error x))
        ?_ fun x => Op.follows_raise fun s hs => ?_
      · refine Op.follows_perform ?_ ?_ ?_
        · rintro s rfl
          trivial
        · rintro reply s rfl
          rfl
        · rintro x s rfl
          rfl
      · rw [hs]
        rfl
    · cases hrespond : route.respond reply with
      | ok success =>
        refine Op.follows_pure fun s hs => ?_
        rw [hs]
        exact hrespond.symm
      | error x =>
        refine Op.follows_raise fun s hs => ?_
        rw [hs]
        exact hrespond.symm

end Follows

end DataCheck.Api
