import DataCheck.Api.Guarantees
import DataCheck.Shared.Locks

/-!
# Every request is answered

A request waits for the call that it has made and for nothing else, and the calls of the services end.
-/

namespace DataCheck.Api

open Lib Shared Identity Relation

variable {settings : ApiSettings} {U : Unicode} {P : Polars} {F : Faults} {users : Table Uuid User User.id}
  {cfg cfg' : ApiConfig} {p : Pid} {route : Route} {request : HttpRequest}

/-- A step in which no request comes in and nothing fails. -/
def Undisturbed : Label ApiCall ApiChoice → Prop
  | .spawn _ k => k = .work
  | .run _ c => c.fault = .none ∧ Faultless c.choice

/-- Such a step of the API. -/
def GoesOn (settings : ApiSettings) (U : Unicode) (P : Polars) (F : Faults) (cfg cfg' : ApiConfig) : Prop :=
  ∃ l, Undisturbed l ∧ cfg.step (apiMachine U P F) (ApiCall.body settings) l = some cfg'

lemma GoesOn.reach (h : GoesOn settings U P F cfg cfg') (hr : ApiReach settings U P F users cfg) :
    ApiReach settings U P F users cfg' := by
  obtain ⟨l, hl, hs⟩ := h
  refine .step l hr (fun q k he => ?_) hs
  subst he
  rw [show k = .work from hl]
  trivial

lemma reach_goesOn (h : ReflTransGen (GoesOn settings U P F) cfg cfg') (hr : ApiReach settings U P F users cfg) :
    ApiReach settings U P F users cfg' := by
  induction h with
  | refl => exact hr
  | tail _ hs ih => exact hs.reach ih

lemma exists_goesOn {call : ApiCall} {h₀ : Hist ApiWorld} {e : ApiEff}
    {f : Except ApiExn e.Resp → Prog ApiEff (fun e => Except ApiExn e.Resp) ApiOutcome}
    (hp : cfg.threads p = some ⟨call, h₀, .vis e f⟩) {c : ApiChoice} (hc : c.fault = .none ∧ Faultless c.choice)
    {r : Except ApiExn e.Resp} {w : ApiWorld} (hexec : cfg.hist.now.exec U P F p c e = some (r, w)) :
    GoesOn settings U P F cfg
      ⟨cfg.hist.push w, Function.update cfg.threads p (some ⟨call, h₀, f r⟩)⟩ := by
  refine ⟨.run p c, hc, ?_⟩
  simp only [Config.step, hp, apiMachine, hexec]

/-- **A step of the services is two steps of the API**, which leave the threads so far as they are. -/
lemma services_step (hr : ApiReach settings U P F users cfg) {v : SysConfig}
    (hs : Config.Runs (Shared.machine F) (Call.body U P) Faultless cfg.hist.now.services v) :
    ∃ cfg', ReflTransGen (GoesOn settings U P F) cfg cfg' ∧ cfg'.hist.now.services = v ∧
      ∀ q t, cfg.threads q = some t → cfg'.threads q = some t := by
  obtain ⟨s, hs'⟩ := Config.Reachable.exists_among hr
  obtain ⟨q, hq⟩ := Infinite.exists_notMem_finset s
  have hnone : cfg.threads q = none := by
    cases h : cfg.threads q with
    | none => rfl
    | some t => exact (hq (hs' q t h)).elim
  obtain ⟨x, c, hc, hstep⟩ := hs
  let cfg₁ : ApiConfig :=
    ⟨cfg.hist, Function.update cfg.threads q (some ⟨.work, cfg.hist, ApiCall.body settings .work⟩)⟩
  have h₁ : GoesOn settings U P F cfg cfg₁ := by
    refine ⟨.spawn q .work, rfl, ?_⟩
    simp only [Config.step, hnone]
    rfl
  have hexec : cfg₁.hist.now.exec U P F q ⟨0, .none, x, c⟩ .work =
      some (.ok (), { cfg.hist.now with services := v }) := by
    simp only [ApiWorld.exec, ApiWorld.serve]
    rw [show cfg₁.hist.now = cfg.hist.now from rfl, hstep]
    rfl
  have h₂ : GoesOn settings U P F cfg₁ _ := exists_goesOn (Function.update_self q _ cfg.threads) ⟨rfl, hc⟩ hexec
  refine ⟨_, (ReflTransGen.single h₁).tail h₂, rfl, fun y t hy => ?_⟩
  have hne : y ≠ q := by
    rintro rfl
    rw [hnone] at hy
    cases hy
  change Function.update (Function.update cfg.threads q _) q _ y = some t
  rw [Function.update_of_ne hne, Function.update_of_ne hne, hy]

lemma services_stopped (hr : ApiReach settings U P F users cfg) :
    ∃ cfg', ReflTransGen (GoesOn settings U P F) cfg cfg' ∧ cfg'.hist.now.services.Stopped ∧
      ∀ q t, cfg.threads q = some t → cfg'.threads q = some t := by
  obtain ⟨G, hG⟩ := reach_joint hr
  obtain ⟨v, hsteps, hstop⟩ := Config.exists_stopped (fun _ hr' => reach_progress hr') hG.shared.services
  clear hG G
  generalize hw : cfg.hist.now.services = w at hsteps
  induction hsteps using ReflTransGen.head_induction_on generalizing cfg with
  | refl => exact ⟨cfg, .refl, hw ▸ hstop, fun _ _ h => h⟩
  | head hs _ ih =>
    obtain ⟨cfg₁, h₁, hw₁, ht₁⟩ := services_step hr (hw ▸ hs)
    obtain ⟨cfg₂, h₂, hstop₂, ht₂⟩ := ih (reach_goesOn h₁ hr) hw₁
    exact ⟨cfg₂, h₁.trans h₂, hstop₂, fun q t h => ht₂ q t (ht₁ q t h)⟩

/-- What a request does next is possible, after steps that leave it as it is. -/
lemma request_goes_on (hr : ApiReach settings U P F users cfg) {h₀ : Hist ApiWorld} {e : ApiEff}
    {f : Except ApiExn e.Resp → Prog ApiEff (fun e => Except ApiExn e.Resp) ApiOutcome}
    (hp : cfg.threads p = some ⟨.endpoint route request, h₀, .vis e f⟩) :
    ∃ cfg' r, ReflTransGen (GoesOn settings U P F) cfg cfg' ∧
      cfg'.threads p = some ⟨.endpoint route request, h₀, f r⟩ := by
  -- the services come to an end first, so that a request that waits for its call can go on
  obtain ⟨cfg₁, h₁, hstop, hkeep⟩ := services_stopped hr
  have hp₁ := hkeep p _ hp
  obtain ⟨G, hG⟩ := reach_joint (reach_goesOn h₁ hr)
  have hvalid := hG.shared.valid p
  obtain ⟨hmay, -⟩ : route.may settings request (G p) e ∧ _ := hG.follows p _ hp₁
  suffices hexec : ∃ r w, cfg₁.hist.now.exec U P F p ⟨0, .none, 0, ⟨.none, 0, 0⟩⟩ e = some (r, w) by
    obtain ⟨r, w, hexec⟩ := hexec
    have hstep : GoesOn settings U P F cfg₁ _ :=
      exists_goesOn hp₁ (c := ⟨0, .none, 0, ⟨.none, 0, 0⟩⟩) ⟨rfl, rfl⟩ hexec
    exact ⟨_, r, h₁.tail hstep, Function.update_self ..⟩
  cases hstage : G p with
  | arrived =>
    rw [hstage] at hmay
    cases e with
    | session call =>
      obtain ⟨rfl, -⟩ := hmay
      exact ⟨_, _, rfl⟩
    | _ => exact hmay.elim
  | known b context =>
    rw [hstage] at hmay hvalid
    cases e with
    | begin k =>
      have hnone : cfg₁.hist.now.services.threads p = none := hvalid.1
      simp only [ApiWorld.exec, ApiWorld.serve, Config.step, hnone]
      exact ⟨_, _, rfl⟩
    | _ => exact hmay.elim
  | called b context k =>
    rw [hstage] at hmay hvalid
    cases e with
    | await =>
      obtain ⟨-, h₂, m, hm⟩ := hvalid
      obtain ⟨⟨out, u⟩, hout⟩ := hstop p _ hm
      obtain rfl : m = .ret (out, u) := hout
      simp only [ApiWorld.exec, hm]
      exact ⟨_, _, rfl⟩
    | _ => exact hmay.elim
  | _ =>
    rw [hstage] at hmay
    exact hmay.elim

/-- **Every request can be answered**: whatever has happened so far, there is a way for a request to come to its
end in which no other request comes in and nothing fails. -/
theorem requests_answered (hr : ApiReach settings U P F users cfg) {h₀ : Hist ApiWorld}
    {prog : Prog ApiEff (fun e => Except ApiExn e.Resp) ApiOutcome}
    (hp : cfg.threads p = some ⟨.endpoint route request, h₀, prog⟩) :
    ∃ cfg' out, ReflTransGen (GoesOn settings U P F) cfg cfg' ∧
      cfg'.threads p = some ⟨.endpoint route request, h₀, .ret (out, ())⟩ := by
  -- the induction is on what the request has left to do
  induction prog generalizing cfg with
  | ret out => exact ⟨cfg, out.1, .refl, hp⟩
  | vis e f ih =>
    obtain ⟨cfg₁, r, h₁, hp₁⟩ := request_goes_on hr hp
    obtain ⟨cfg₂, out, h₂, hp₂⟩ := ih r (reach_goesOn h₁ hr) hp₁
    exact ⟨cfg₂, out, h₁.trans h₂, hp₂⟩

namespace Sample

/-- Two requests for a dataset at once, and neither has gone on. -/
def arrived : List (Label ApiCall ApiChoice) :=
  transacts 0 (Identity.Sample.registered 7) ++
    [.spawn 1 (.endpoint createDataset datasetRequest), .spawn 2 (.endpoint createDataset datasetRequest)]

lemma known_arrived {p : Pid} {k : ApiCall} (h : .spawn p k ∈ arrived) : Known k := by
  have hcases : .spawn p k ∈ transacts 0 (Identity.Sample.registered 7) ∨
      p = 1 ∧ k = .endpoint createDataset datasetRequest ∨ p = 2 ∧ k = .endpoint createDataset datasetRequest := by
    simpa [arrived] using h
  rcases hcases with h | ⟨-, rfl⟩ | ⟨-, rfl⟩
  · exact known_transacts h
  · exact List.mem_cons_self
  · exact List.mem_cons_self

/-- The thread is there, and it is a request. -/
def requested (cfg : ApiConfig) (p : Pid) : Bool :=
  match cfg.threads p with
  | some ⟨.endpoint _ _, _, .vis _ _⟩ => true
  | _ => false

lemma requested_eq {cfg : ApiConfig} {p : Pid} (h : requested cfg p = true) :
    ∃ route request h₀ e f, cfg.threads p = some ⟨.endpoint route request, h₀, .vis e f⟩ := by
  unfold requested at h
  split at h
  · next route request h₀ e f ht => exact ⟨route, request, h₀, e, f, ht⟩
  · cases h

end Sample

/-- The second of two requests. -/
theorem requests_answered_sample : ∃ cfg' call h₀ out,
    ReflTransGen (GoesOn Sample.development Datasets.Sample.unicode Datasets.Sample.polars Datasets.Sample.noFaults)
      (Sample.config Sample.arrived) cfg' ∧ cfg'.threads 2 = some ⟨call, h₀, .ret (out, ())⟩ := by
  have hrequested : Sample.requested (Sample.config Sample.arrived) 2 = true := by decide +kernel
  obtain ⟨route, request, h₀, e, f, hp⟩ := Sample.requested_eq hrequested
  obtain ⟨cfg', out, hsteps, hout⟩ := requests_answered (Sample.reach fun _ _ => Sample.known_arrived) hp
  exact ⟨cfg', _, h₀, out, hsteps, hout⟩

end DataCheck.Api
