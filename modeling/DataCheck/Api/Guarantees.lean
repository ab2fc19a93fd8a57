import DataCheck.Api.Authorization
import DataCheck.Identity.Guarantees
import DataCheck.Shared.Constraints

/-!
# Every call is authorized

What a request knows at its stage is true of the shared state, in every run.
-/

namespace DataCheck.Api

open Lib Shared Datasets Identity

variable {settings : ApiSettings} {U : Unicode} {P : Polars} {F : Faults} {users : Table Uuid User User.id}
  {cfg cfg' : ApiConfig} {p q : Pid} {w w' : ApiWorld} {route : Route} {request : HttpRequest} {k : Shared.Call}
  {s : Stage} {G : Pid → Stage}

/-! ### What a stage says of the shared state -/

/-- The identity service answered with the context. -/
def Authenticated (events : List Event) (encoded_bearer : Option PyStr) (context : ActiveSessionSnapshot) : Prop :=
  ∃ now, (SessionCall.authenticate encoded_bearer now, SessionReply.authenticated context) ∈ events

/-- What the stage of the request `p` says. -/
def Stage.Valid (w : ApiWorld) (p : Pid) : Stage → Prop
  | .arrived => w.services.threads p = none
  | .failed x => w.services.threads p = none ∧ (x = .database ∨ x = .clock)
  | .refused b => w.services.threads p = none ∧
      ∃ now, (SessionCall.authenticate b now, SessionReply.authenticationRequired) ∈ w.events
  | .known b context => w.services.threads p = none ∧ Authenticated w.events b context
  | .called b context k => Authenticated w.events b context ∧ ∃ h₀ m, w.services.threads p = some ⟨k, h₀, m⟩
  | .answered b context k reply => Authenticated w.events b context ∧ ∃ h₀ out,
      w.services.threads p = some ⟨k, h₀, .ret (out, ())⟩ ∧ reply = out.mapError .service

/-- The sessions and the services run as before, and every stage is valid. -/
structure Joint (U : Unicode) (P : Polars) (F : Faults) (users : Table Uuid User User.id) (G : Pid → Stage)
    (w : ApiWorld) : Prop where
  run : Run (.start users) w.events w.sessions
  services : Reach U P F anyCall w.services
  valid : ∀ p, (G p).Valid w p

/-- What happens to a thread of the services while others go on: it stays away, or it goes on with its call. -/
def Evolves (t t' : Option (Thread Shared.Call Eff (fun e => Except Exn e.Resp) World Outcome)) : Prop :=
  (t = none → t' = none) ∧ ∀ k h₀ m, t = some ⟨k, h₀, m⟩ →
    ∃ m', t' = some ⟨k, h₀, m'⟩ ∧ ∀ out, m = .ret out → m' = .ret out

lemma evolves_refl (t : Option (Thread Shared.Call Eff (fun e => Except Exn e.Resp) World Outcome)) : Evolves t t :=
  ⟨id, fun _ _ m ht => ⟨m, ht, fun _ hm => hm⟩⟩

lemma Stage.Valid.mono (hs : s.Valid w p) (he : w.events ⊆ w'.events)
    (ht : Evolves (w.services.threads p) (w'.services.threads p)) : s.Valid w' p := by
  cases s with
  | arrived => exact ht.1 hs
  | failed x => exact ⟨ht.1 hs.1, hs.2⟩
  | refused b => exact ⟨ht.1 hs.1, hs.2.imp fun now hm => he hm⟩
  | known b context => exact ⟨ht.1 hs.1, hs.2.imp fun now hm => he hm⟩
  | called b context k =>
    obtain ⟨h₀, m, hm⟩ := hs.2
    obtain ⟨m', hm', -⟩ := ht.2 k h₀ m hm
    exact ⟨hs.1.imp fun now hm => he hm, h₀, m', hm'⟩
  | answered b context k reply =>
    obtain ⟨h₀, out, hm, hreply⟩ := hs.2
    obtain ⟨m', hm', hret⟩ := ht.2 k h₀ _ hm
    rw [hret _ rfl] at hm'
    exact ⟨hs.1.imp fun now hm => he hm, h₀, out, hm', hreply⟩

/-! ### What an effect does -/

lemma transact_cases {call : SessionCall} {reply : SessionReply} (h : w.transact call = some (reply, w')) :
    w.sessions.step call = some (reply, w'.sessions) ∧ w'.events = (call, reply) :: w.events ∧
      w'.services = w.services := by
  obtain ⟨out, hstep, he⟩ := Option.map_eq_some_iff.mp h
  obtain ⟨reply', st⟩ := out
  cases he
  exact ⟨hstep, rfl, rfl⟩

lemma serve_cases {l : Label Shared.Call Choice} (h : w.serve U P F l = some w') :
    w.services.step (Shared.machine F) (Call.body U P) l = some w'.services ∧ w'.sessions = w.sessions ∧
      w'.events = w.events := by
  obtain ⟨services, hstep, rfl⟩ := Option.map_eq_some_iff.mp h
  exact ⟨hstep, rfl, rfl⟩

/-- What an effect of the thread `p` does. -/
inductive Performs (U : Unicode) (P : Polars) (F : Faults) (p : Pid) (w : ApiWorld) :
    (e : ApiEff) → Except ApiExn e.Resp → ApiWorld → Prop
  | committed {call : Time → SessionCall} {time : Time} {reply : SessionReply} {w' : ApiWorld}
      (ht : w.transact (call time) = some (reply, w')) : Performs U P F p w (.session call) (.ok reply) w'
  | lost {call : Time → SessionCall} {time : Time} {reply : SessionReply} {w' : ApiWorld}
      (ht : w.transact (call time) = some (reply, w')) : Performs U P F p w (.session call) (.error .database) w'
  | failed {call : Time → SessionCall} {x : ApiExn} (hx : x = .database ∨ x = .clock) :
      Performs U P F p w (.session call) (.error x) w
  | begun {k : Shared.Call} {w' : ApiWorld} (hs : w.serve U P F (.spawn p k) = some w') :
      Performs U P F p w (.begin k) (.ok ()) w'
  | awaited {k : Shared.Call} {h₀ : Hist World} {out : Except Exn Reply}
      (hp : w.services.threads p = some ⟨k, h₀, .ret (out, ())⟩) :
      Performs U P F p w .await (out.mapError .service) w
  | worked {q : Pid} {c : Choice} {w' : ApiWorld} (hs : w.serve U P F (.run q c) = some w') :
      Performs U P F p w .work (.ok ()) w'

lemma exec_cases {c : ApiChoice} {e : ApiEff} {r : Except ApiExn e.Resp}
    (h : (apiMachine U P F).exec p e c w = some (r, w')) : Performs U P F p w e r w' := by
  cases e with
  | session call =>
    simp only [apiMachine, ApiWorld.exec] at h
    split at h
    · obtain ⟨out, ht, he⟩ := Option.map_eq_some_iff.mp h
      cases he
      exact .committed ht
    · cases h
      exact .failed (Or.inr rfl)
    · cases h
      exact .failed (Or.inl rfl)
    · obtain ⟨out, ht, he⟩ := Option.map_eq_some_iff.mp h
      cases he
      exact .lost ht
  | begin k =>
    obtain ⟨out, ht, he⟩ := Option.map_eq_some_iff.mp h
    cases he
    exact .begun ht
  | await =>
    simp only [apiMachine, ApiWorld.exec] at h
    split at h
    · next k h₀ out v hp =>
      cases h
      exact .awaited hp
    · cases h
  | work =>
    obtain ⟨out, ht, he⟩ := Option.map_eq_some_iff.mp h
    cases he
    exact .worked ht

/-- The sessions and the services run on, events stay, and other threads of the services than that of `p` evolve. -/
lemma Performs.goes_on {e : ApiEff} {r : Except ApiExn e.Resp} (h : Performs U P F p w e r w')
    (hrun : Run (.start users) w.events w.sessions) (hr : Reach U P F anyCall w.services) :
    Run (.start users) w'.events w'.sessions ∧ Reach U P F anyCall w'.services ∧ w.events ⊆ w'.events ∧
      ∀ q, (q = p → ∀ k, e ≠ .begin k) → Evolves (w.services.threads q) (w'.services.threads q) := by
  have htransact : ∀ {call reply w'}, w.transact call = some (reply, w') →
      Run (.start users) w'.events w'.sessions ∧ Reach U P F anyCall w'.services ∧ w.events ⊆ w'.events ∧
        ∀ q, Evolves (w.services.threads q) (w'.services.threads q) := by
    intro call reply w' ht
    obtain ⟨hstep, hevents, hservices⟩ := transact_cases ht
    rw [hevents, hservices]
    exact ⟨.cons hrun hstep, hr, List.subset_cons_self _ _, fun q => evolves_refl _⟩
  cases h with
  | committed ht =>
    obtain ⟨h₁, h₂, h₃, h₄⟩ := htransact ht
    exact ⟨h₁, h₂, h₃, fun q _ => h₄ q⟩
  | lost ht =>
    obtain ⟨h₁, h₂, h₃, h₄⟩ := htransact ht
    exact ⟨h₁, h₂, h₃, fun q _ => h₄ q⟩
  | failed _ => exact ⟨hrun, hr, List.Subset.refl _, fun q _ => evolves_refl _⟩
  | awaited _ => exact ⟨hrun, hr, List.Subset.refl _, fun q _ => evolves_refl _⟩
  | @begun k w' hs =>
    obtain ⟨hstep, hsessions, hevents⟩ := serve_cases hs
    rw [hsessions, hevents]
    refine ⟨hrun, .step _ hr (fun _ _ _ => trivial) hstep, List.Subset.refl _, fun q hq => ?_⟩
    rcases Config.step_cases hstep with ⟨_, _, hl, -, -, hth⟩ | ⟨_, _, _, _, _, _, _, _, hl, -⟩
    · cases hl
      rw [hth, Function.update_of_ne fun he => hq he k rfl]
      exact evolves_refl _
    · cases hl
  | @worked q' c w' hs =>
    obtain ⟨hstep, hsessions, hevents⟩ := serve_cases hs
    rw [hsessions, hevents]
    refine ⟨hrun, .step _ hr (fun _ _ _ => trivial) hstep, List.Subset.refl _, fun q _ => ?_⟩
    rcases Config.step_cases hstep with ⟨_, _, hl, -⟩ | ⟨_, _, k, h₀, e, f, r, v, hl, hp, -, -, hth⟩
    · cases hl
    · cases hl
      rw [hth]
      by_cases hq : q = q'
      · subst hq
        rw [Function.update_self, hp]
        refine ⟨fun h => (by cases h), fun k' h₀' m hm => ?_⟩
        cases hm
        exact ⟨_, rfl, fun out h => (by cases h)⟩
      · rw [Function.update_of_ne hq]
        exact evolves_refl _

lemma authenticate_step {b : Option PyStr} {now : Time} {reply : SessionReply} {st st' : SessionStore}
    (h : st.step (.authenticate b now) = some (reply, st')) :
    reply = .authenticationRequired ∨ ∃ context, reply = .authenticated context := by
  cases h
  exact IdentityDb.authenticate_reply b now

/-- **What a request does at a stage leads to a valid stage.** -/
lemma Performs.next_valid {e : ApiEff} {r : Except ApiExn e.Resp} (h : Performs U P F p w e r w') (hs : s.Valid w p)
    (hmay : route.may settings request s e) :
    (s.next (getSessionCookie settings request) e r).Valid w' p := by
  cases h with
  | @committed call time reply w' ht =>
    cases s with
    | arrived =>
      obtain ⟨rfl, -⟩ := hmay
      obtain ⟨hstep, hevents, hservices⟩ := transact_cases ht
      have hnone : w'.services.threads p = none := by
        rw [hservices]
        exact hs
      rcases authenticate_step hstep with rfl | ⟨context, rfl⟩
      · exact ⟨hnone, time, by rw [hevents]; exact List.mem_cons_self⟩
      · exact ⟨hnone, time, by rw [hevents]; exact List.mem_cons_self⟩
    | _ => exact hmay.elim
  | @lost call time reply w' ht =>
    cases s with
    | arrived =>
      obtain ⟨-, -, hservices⟩ := transact_cases ht
      refine ⟨?_, Or.inl rfl⟩
      rw [hservices]
      exact hs
    | _ => exact hmay.elim
  | failed hx =>
    cases s with
    | arrived => exact ⟨hs, hx⟩
    | _ => exact hmay.elim
  | @begun k w' hbegin =>
    cases s with
    | known b context =>
      obtain ⟨hstep, -, hevents⟩ := serve_cases hbegin
      refine ⟨hs.2.imp fun now hm => hevents ▸ hm, ?_⟩
      rcases Config.step_cases hstep with ⟨_, _, hl, -, -, hth⟩ | ⟨_, _, _, _, _, _, _, _, hl, -⟩
      · cases hl
        exact ⟨_, _, by rw [hth, Function.update_self]⟩
      · cases hl
    | _ => exact hmay.elim
  | @awaited k h₀ out hp =>
    cases s with
    | called b context k' =>
      obtain ⟨h₁, m, hm⟩ := hs.2
      cases hp.symm.trans hm
      exact ⟨hs.1, h₀, out, hp, rfl⟩
    | _ => exact hmay.elim
  | worked _ =>
    cases s <;> exact hmay.elim

/-! ### Every run -/

/-- A call that is no request stays where it is, and starts no call of a service. -/
lemma free_stages {call : ApiCall} (hcall : ∀ route request, call ≠ .endpoint route request) {e : ApiEff}
    {r : Except ApiExn e.Resp} (hmay : (call.stages settings).may s e) :
    (call.stages settings).next s e r = s ∧ ∀ k, e ≠ .begin k := by
  cases call with
  | endpoint route request => exact (hcall _ _ rfl).elim
  | work =>
    obtain ⟨-, rfl⟩ := hmay
    exact ⟨rfl, fun k he => by cases he⟩
  | logout request =>
    obtain ⟨-, _, rfl⟩ := hmay
    exact ⟨rfl, fun k he => by cases he⟩
  | identity call =>
    obtain ⟨-, _, rfl⟩ := hmay
    exact ⟨rfl, fun k he => by cases he⟩

/-- **Every effect keeps the stages valid.** -/
theorem joint_kept : Typestate.Kept (apiMachine U P F) (ApiCall.stages settings) (Joint U P F users) := by
  intro G p call e c w r w' hJ hmay hexec
  have hdoes := exec_cases hexec
  obtain ⟨hrun, hreach, hevents, hevolves⟩ := hdoes.goes_on hJ.run hJ.services
  refine ⟨hrun, hreach, fun q => ?_⟩
  by_cases hq : q = p
  · subst hq
    rw [Function.update_self]
    by_cases hcall : ∃ route request, call = .endpoint route request
    · obtain ⟨route, request, rfl⟩ := hcall
      exact hdoes.next_valid (hJ.valid q) hmay
    · have hother : ∀ route request, call ≠ .endpoint route request := fun route request he => hcall ⟨_, _, he⟩
      obtain ⟨hnext, hbegin⟩ := free_stages (r := r) hother hmay
      rw [hnext]
      exact (hJ.valid q).mono hevents (hevolves q fun _ => hbegin)
  · rw [Function.update_of_ne hq]
    exact (hJ.valid q).mono hevents (hevolves q fun he => (hq he).elim)

lemma follows_session {call : Time → SessionCall} :
    Op.Follows (free fun e => ∃ call, e = .session call) (fun s => s = .arrived) (Endpoint.session call)
      (fun _ s => s = .arrived) fun _ s => s = .arrived := by
  refine Op.follows_perform ?_ ?_ ?_
  · rintro s rfl
    exact ⟨rfl, call, rfl⟩
  · rintro _ s rfl
    rfl
  · rintro _ s rfl
    rfl

lemma follows_logout : Op.Follows (free fun e => ∃ call, e = .session call) (fun s => s = .arrived)
    (logout settings request) (fun _ s => s = .arrived) fun _ s => s = .arrived := by
  refine Op.Follows.bind (Q := fun _ s => s = .arrived)
    (Op.follows_ofExcept (fun _ _ hs => hs) fun _ _ hs => hs) fun _ => ?_
  refine follows_session.bind fun reply => ?_
  cases reply <;> first
    | exact Op.follows_pure fun _ hs => hs
    | exact Op.follows_raise fun _ hs => hs

lemma follows_identity {call : SessionCall} :
    Op.Follows (free fun e => ∃ call, e = .session call) (fun s => s = .arrived)
      (Op.bind (Endpoint.session fun _ => call) fun _ => Op.pure (⟨204, .nothing⟩ : Success))
      (fun _ s => s = .arrived) fun _ s => s = .arrived :=
  follows_session.bind fun _ => Op.follows_pure fun _ hs => hs

lemma at_next {call : ApiCall} {e : ApiEff} {r : Except ApiExn e.Resp} (hs : call.At settings U P s)
    (hmay : (call.stages settings).may s e) : call.At settings U P ((call.stages settings).next s e r) := by
  by_cases hcall : ∃ route request, call = .endpoint route request
  · obtain ⟨route, request, rfl⟩ := hcall
    obtain ⟨hroute, hs⟩ := hs
    refine ⟨hroute, ?_⟩
    have hmay' : route.may settings request s e := hmay
    cases s with
    | arrived =>
      cases e with
      | session call =>
        cases r with
        | error x => trivial
        | ok reply => cases reply <;> first
            | exact ⟨rfl, hmay'.2⟩
            | rfl
      | _ => exact hmay'.elim
    | known b context =>
      cases e with
      | begin k =>
        cases r with
        | error x => trivial
        | ok _ => exact ⟨hs.1, hs.2, hmay'.1, hmay'.2⟩
      | _ => exact hmay'.elim
    | called b context k =>
      cases e with
      | await => exact hs
      | _ => exact hmay'.elim
    | _ => exact hmay'.elim
  · have hother : ∀ route request, call ≠ .endpoint route request := fun route request he => hcall ⟨_, _, he⟩
    rw [(free_stages (r := r) hother hmay).1]
    exact hs

/-- **Every call goes through its stages.** -/
theorem calls_obey : Typestate.Obeyed (ApiCall.stages settings) .arrived (ApiCall.At settings U P)
    (ApiCall.Ends settings) (ApiCall.body settings) (ApiCall.Known U P) where
  start call hcall := by
    cases call with
    | endpoint route request => exact ⟨hcall, trivial⟩
    | _ => rfl
  next call s e r hs hmay := at_next hs hmay
  follows call _ := by
    cases call with
    | endpoint route request =>
      refine (follows_handle () .arrived rfl).mono fun out s h => ?_
      obtain ⟨out, v⟩ := out
      cases out <;> exact h
    | logout request => exact (follows_logout () .arrived rfl).mono fun _ _ _ => trivial
    | identity call => exact (follows_identity () .arrived rfl).mono fun _ _ _ => trivial
    | work => exact ⟨⟨rfl, rfl⟩, fun r => by cases r <;> trivial⟩

/-- The stages of the requests of a run. -/
abbrev ApiTracks (settings : ApiSettings) (U : Unicode) (P : Polars) (J : (Pid → Stage) → ApiWorld → Prop)
    (G : Pid → Stage) (cfg : ApiConfig) : Prop :=
  cfg.Tracks (ApiCall.stages settings) .arrived (ApiCall.At settings U P) (ApiCall.Ends settings) J G

/-- In every run there are stages of the requests, and they are valid. -/
lemma reach_joint (hr : ApiReach settings U P F users cfg) : ∃ G, ApiTracks settings U P (Joint U P F users) G cfg :=
  reachable_tracks joint_kept calls_obey
    ⟨.nil, .init, fun _ => (rfl : (ApiWorld.start users).services.threads _ = none)⟩ hr

/-! ### Complete mediation -/

variable {events : List Event} {st st' : SessionStore} {h : Digest}

/-- A context is that of a session with the token of the cookie, which was not over. -/
lemma authenticated_session (hr : Run (.start users) events st) {b : Option PyStr} {now : Time}
    {context : ActiveSessionSnapshot}
    (he : (SessionCall.authenticate b now, SessionReply.authenticated context) ∈ events) :
    ∃ s ∈ st.drawn, bearerHash b = some s.token_hash ∧ s.user_id = context.user_id ∧
      s.csrf_token = context.csrf_token ∧ s.csrf_token.length = 32 ∧ now < s.absolute_expires_at := by
  induction hr with
  | nil => exact (List.not_mem_nil he).elim
  | @cons events st st' call reply hr hs ih =>
    obtain ⟨hstep, hdrawn, -⟩ := SessionStore.step_cases hs
    rw [hdrawn]
    rcases List.mem_cons.mp he with heq | he
    · cases heq
      have hkept := hr.kept (kept_start users)
      generalize st'.db = db' at hstep
      cases hstep with
      | refused _ ha _ => exact (ha _ rfl).elim
      | touched hmem htoken htouch =>
        obtain ⟨s₀, hs₀, -, huser, hhash, hcsrf, -, hend⟩ := hkept.origin _ hmem
        have hlen := (checks_iff.mp (hkept.checks _ hmem)).2.1
        refine ⟨s₀, List.mem_append_right _ hs₀, ?_, huser.symm, hcsrf.symm, ?_, ?_⟩
        · rw [htoken, hhash]
        · rw [← hcsrf]
          exact hlen
        · rw [← hend]
          exact (touchable_iff.mp htouch).2.2.1
    · obtain ⟨s, hs, hrest⟩ := ih he
      exact ⟨s, List.mem_append_right _ hs, hrest⟩

/-- The request may make this call: it passes the checks of its endpoint, and its cookie is that of a session of
the user that the call is for; a call that writes has a trusted origin and the CSRF token of the session. -/
structure Authorized (settings : ApiSettings) (w : ApiWorld) (route : Route) (request : HttpRequest)
    (k : Shared.Call) : Prop where
  call : route.call request k.owner = .ok k
  dependencies : ∀ d ∈ route.dependencies, d.enforce settings request = .ok ()
  session : ∃ s ∈ w.sessions.drawn, s.user_id = k.owner ∧
    bearerHash (getSessionCookie settings request) = some s.token_hash ∧
    (∃ now context, (SessionCall.authenticate (getSessionCookie settings request) now,
      SessionReply.authenticated context) ∈ w.events ∧ now < s.absolute_expires_at) ∧
    (k.writes = true → request.getlist (py "x-csrf-token") = [base64Encode s.csrf_token])
  origin : k.writes = true → requireTrustedOrigin request.toRequest settings.trusted_origins = .ok ()

/-- What is known of a request that has called a service. -/
lemma authorized_of_at (hroute : route ∈ routes U P) (hrun : Run (.start users) w.events w.sessions)
    {context : ActiveSessionSnapshot} (hdeps : enforceAll settings request route.dependencies = .ok ())
    (haccepts : route.Accepts request context) (hcall : route.call request context.user_id = .ok k)
    (hknown : Authenticated w.events (getSessionCookie settings request) context) :
    Authorized settings w route request k := by
  have hmakes := makes_of_call hroute hcall
  have hall := enforceAll_eq_ok.mp hdeps
  obtain ⟨now, he⟩ := hknown
  obtain ⟨s, hs, htoken, huser, hcsrf, hlen, hnow⟩ := authenticated_session hrun he
  have howner := hmakes.owner.symm
  refine ⟨howner ▸ hcall, hall, ⟨s, hs, huser.trans howner, htoken, ⟨now, context, he, hnow⟩, fun hw => ?_⟩,
    fun hw => ?_⟩
  · have haccepted := haccepts (hmakes.protected hw).1
    rw [← hcsrf] at haccepted
    exact (csrfAccepted_iff hlen).mp haccepted
  · exact hall _ (hmakes.protected hw).2

/-- The thread of a call is that of a request, which is authorized. -/
lemma authorized_thread (hr : ApiReach settings U P F users cfg)
    {t : Thread Shared.Call Eff (fun e => Except Exn e.Resp) World Outcome}
    (ht : cfg.hist.now.services.threads p = some t) : ∃ route ∈ routes U P, ∃ request h₀ prog,
      cfg.threads p = some ⟨.endpoint route request, h₀, prog⟩ ∧
        Authorized settings cfg.hist.now route request t.call := by
  obtain ⟨G, hG⟩ := reach_joint hr
  have hvalid := hG.shared.valid p
  have hstate := hG.state p
  cases hthread : cfg.threads p with
  | none =>
    rw [hG.unstarted p hthread] at hvalid
    have hnone : cfg.hist.now.services.threads p = none := hvalid
    rw [ht] at hnone
    cases hnone
  | some u =>
    obtain ⟨call, h₀, prog⟩ := u
    have hat := hstate _ hthread
    cases call with
    | endpoint route request =>
      obtain ⟨hroute, hat⟩ := hat
      refine ⟨route, hroute, request, h₀, prog, rfl, ?_⟩
      cases hstage : G p with
      | called b context k =>
        rw [hstage] at hvalid hat
        obtain ⟨rfl, hdeps, haccepts, hcall⟩ := hat
        obtain ⟨hknown, h₁, m, hm⟩ := hvalid
        cases ht.symm.trans hm
        exact authorized_of_at hroute hG.shared.run hdeps haccepts hcall hknown
      | answered b context k reply =>
        rw [hstage] at hvalid hat
        obtain ⟨rfl, hdeps, haccepts, hcall⟩ := hat
        obtain ⟨hknown, h₁, out, hm, -⟩ := hvalid
        cases ht.symm.trans hm
        exact authorized_of_at hroute hG.shared.run hdeps haccepts hcall hknown
      | arrived =>
        rw [hstage] at hvalid
        cases ht.symm.trans hvalid
      | _ =>
        rw [hstage] at hvalid
        cases ht.symm.trans hvalid.1
    | _ =>
      have hnone : cfg.hist.now.services.threads p = none := by
        rw [show G p = .arrived from hat] at hvalid
        exact hvalid
      rw [ht] at hnone
      cases hnone

/-! ### A run -/

namespace Sample

def development : ApiSettings := ⟨.development, [py "http://localhost:5173"]⟩

abbrev machine : Machine ApiEff (fun e => Except ApiExn e.Resp) ApiChoice ApiWorld :=
  apiMachine Datasets.Sample.unicode Datasets.Sample.polars Datasets.Sample.noFaults

abbrev Known (k : ApiCall) : Prop := k.Known Datasets.Sample.unicode Datasets.Sample.polars

/-- The configurations that requests reach, with no user at first. -/
abbrev Reaches (cfg : ApiConfig) : Prop :=
  ApiReach development Datasets.Sample.unicode Datasets.Sample.polars Datasets.Sample.noFaults .empty cfg

def header (name : String) (value : PyStr) : Bytes × Bytes :=
  ((py name).map fun c => UInt8.ofNat c.val, value.map fun c => UInt8.ofNat c.val)

/-- The request for a dataset, by the session of the sample. -/
def datasetRequest : HttpRequest where
  headers := [header "origin" (py "http://localhost:5173"), header "content-type" (py "application/json"),
    header "x-csrf-token" (base64Encode (Identity.Sample.token 4).1)]
  cookie name := if name = py "datacheck_session" then Identity.Sample.bearer else none
  path _ := some 101
  query _ := some none
  json := .value (.obj [(py "name", .str (py "d"))])
  form := none
  errors := []

/-- A transaction of the identity service. -/
def transacts (p : Pid) (call : SessionCall) : List (Label ApiCall ApiChoice) :=
  [.spawn p (.identity call), .run p ⟨0, .none, 0, ⟨.none, 5, 0⟩⟩]

/-- `n` effects of the request `p`, which read the clock at `now`. -/
def effects (p : Pid) (n : ℕ) (now : Time) : List (Label ApiCall ApiChoice) :=
  List.replicate n (.run p ⟨now, .none, 0, ⟨.none, 5, 0⟩⟩)

/-- `n` effects of the call that the request `p` has made. -/
def works (p : Pid) (n : ℕ) : List (Label ApiCall ApiChoice) :=
  (List.range n).flatMap fun i => [.spawn (100 + i) .work, .run (100 + i) ⟨0, .none, p, ⟨.none, 5, 200 + i⟩⟩]

/-- A user registers and asks for a dataset. -/
def created : List (Label ApiCall ApiChoice) :=
  transacts 0 (Identity.Sample.registered 7) ++ .spawn 1 (.endpoint createDataset datasetRequest) ::
    effects 1 2 8 ++ works 1 5 ++ effects 1 1 8

def config (ls : List (Label ApiCall ApiChoice)) : ApiConfig :=
  (Config.init (.start .empty)).follow machine (ApiCall.body development) ls

/-- The cookie of a request that has ended, and the status code of its response. -/
def ended (cfg : ApiConfig) (p : Pid) : Option (Option PyStr × ℕ) :=
  match cfg.threads p with
  | some ⟨.endpoint _ request, _, .ret (out, _)⟩ => some (getSessionCookie development request, statusOf out)
  | _ => none

lemma ended_eq {cfg : ApiConfig} {p : Pid} {b : Option PyStr} {n : ℕ} (h : ended cfg p = some (b, n)) :
    ∃ route request h₀ out, cfg.threads p = some ⟨.endpoint route request, h₀, .ret (out, ())⟩ ∧
      getSessionCookie development request = b ∧ statusOf out = n := by
  unfold ended at h
  split at h
  · next route request h₀ out _ ht =>
    cases h
    exact ⟨route, request, h₀, out, ht, rfl, rfl⟩
  · cases h

def loggedOut : List (Label ApiCall ApiChoice) :=
  transacts 2 (.logout Identity.Sample.bearer (some (Identity.Sample.token 4).1) 9)

/-- Another request with the cookie of the session. -/
def late : List (Label ApiCall ApiChoice) := .spawn 3 (.endpoint listDatasets datasetRequest) :: effects 3 1 10

def afterwards : ApiConfig :=
  (config (created ++ loggedOut)).follow machine
    (ApiCall.body development) late

/-- The logout that has revoked the session. -/
def revocation (events : List Event) : Option (Option Bytes × Time) :=
  events.findSome? fun
    | (.logout b csrf now, .logout .revoked) => if b = Identity.Sample.bearer then some (csrf, now) else none
    | _ => none

lemma mem_of_revocation {events : List Event} {csrf : Option Bytes} {now : Time}
    (h : revocation events = some (csrf, now)) :
    (SessionCall.logout Identity.Sample.bearer csrf now, SessionReply.logout .revoked) ∈ events := by
  obtain ⟨e, he, hsome⟩ := List.exists_of_findSome?_eq_some h
  split at hsome
  · split at hsome
    · next hb =>
      cases hsome
      exact hb ▸ he
    · cases hsome
  · cases hsome

lemma known_transacts {p q : Pid} {call : SessionCall} {k : ApiCall} (h : .spawn p k ∈ transacts q call) :
    Known k := by
  obtain ⟨-, rfl⟩ : p = q ∧ k = .identity call := by simpa [transacts] using h
  trivial

lemma known_works {p q : Pid} {n : ℕ} {k : ApiCall} (h : .spawn p k ∈ works q n) :
    Known k := by
  obtain ⟨-, -, -, rfl⟩ : ∃ i < n, p = 100 + i ∧ k = .work := by simpa [works] using h
  trivial

lemma known_created {p : Pid} {k : ApiCall} (h : .spawn p k ∈ created) : Known k := by
  have hcases : .spawn p k ∈ transacts 0 (Identity.Sample.registered 7) ∨
      p = 1 ∧ k = .endpoint createDataset datasetRequest ∨ .spawn p k ∈ works 1 5 := by
    simpa [created, effects] using h
  rcases hcases with h | ⟨-, rfl⟩ | h
  · exact known_transacts h
  · exact List.mem_cons_self
  · exact known_works h

lemma reach {ls : List (Label ApiCall ApiChoice)} (h : ∀ p k, .spawn p k ∈ ls → Known k) : Reaches (config ls) :=
  Config.Reachable.init.follow h

lemma reach_loggedOut : Reaches (config (created ++ loggedOut)) :=
  reach fun _ _ h => (List.mem_append.mp h).elim known_created known_transacts

lemma known_late {p : Pid} {k : ApiCall} (h : .spawn p k ∈ late) : Known k := by
  obtain ⟨-, rfl⟩ : p = 3 ∧ k = .endpoint listDatasets datasetRequest := by simpa [late, effects] using h
  exact List.mem_cons_of_mem _ List.mem_cons_self

lemma steps_afterwards :
    Config.Steps machine (ApiCall.body development) Known (config (created ++ loggedOut)) afterwards :=
  Config.steps_follow (fun _ _ => known_late) .refl

end Sample

/-! ### The guarantees -/

/-- **Every call of a service is authorized**: the thread of a call is that of a request for one of the endpoints,
which may make this call, for the user of its session. -/
theorem calls_authorized (hr : ApiReach settings U P F users cfg)
    {t : Thread Shared.Call Eff (fun e => Except Exn e.Resp) World Outcome}
    (ht : cfg.hist.now.services.threads p = some t) : ∃ route ∈ routes U P, ∃ request h₀ prog,
      cfg.threads p = some ⟨.endpoint route request, h₀, prog⟩ ∧
        Authorized settings cfg.hist.now route request t.call := authorized_thread hr ht

theorem calls_authorized_sample : ∃ t, (Sample.config Sample.created).hist.now.services.threads 1 = some t ∧
    t.call.owner = 1 ∧ ∃ route ∈ routes Datasets.Sample.unicode Datasets.Sample.polars, ∃ request h₀ prog,
      (Sample.config Sample.created).threads 1 = some ⟨.endpoint route request, h₀, prog⟩ ∧
        Authorized Sample.development (Sample.config Sample.created).hist.now route request t.call := by
  have howner : ((Sample.config Sample.created).hist.now.services.threads 1).map (fun t => t.call.owner) = some 1 := by
    decide +kernel
  obtain ⟨t, ht, ho⟩ := Option.map_eq_some_iff.mp howner
  exact ⟨t, ht, ho, calls_authorized (Sample.reach fun _ _ => Sample.known_created) ht⟩

lemma serially_writes {ops : List Operation} {h : Hist World} (hs : Serially U ops h) :
    ∀ op ∈ ops, op.call.writes = true := by
  induction hs with
  | start => exact fun op hop => (List.not_mem_nil hop).elim
  | quiet _ _ ih => exact ih
  | perform _ hc ih =>
    intro op hop
    rcases List.mem_cons.mp hop with rfl | hop
    · exact hc.writes
    · exact ih op hop

/-- **Every change of the database is an authorized one**: the history of the database is that of atomic operations,
at most one for each request, and each is the call of an authorized request for an endpoint that writes. -/
theorem changes_authorized (hr : ApiReach settings U P F users cfg) :
    ∃ ops, Serially U ops cfg.hist.now.services.hist ∧ (ops.map Operation.pid).Nodup ∧
      ∀ op ∈ ops, op.call.writes = true ∧ ∃ route ∈ routes U P, ∃ request h₀ prog,
        cfg.threads op.pid = some ⟨.endpoint route request, h₀, prog⟩ ∧
          Authorized settings cfg.hist.now route request op.call := by
  obtain ⟨G, hG⟩ := reach_joint hr
  obtain ⟨ops, tried, hrec⟩ := reach_recorded hG.shared.services
  refine ⟨ops, hrec.serial, hrec.once, fun op hop => ⟨serially_writes hrec.serial op hop, ?_⟩⟩
  obtain ⟨t, ht, hcall, -⟩ := hrec.during op hop
  exact hcall ▸ authorized_thread hr ht

/-- A dataset was created. -/
theorem changes_authorized_sample :
    (Sample.config Sample.created).hist.now.services.hist.now.db.datasets.rows.length = 1 ∧
    ∃ ops, Serially Datasets.Sample.unicode ops (Sample.config Sample.created).hist.now.services.hist ∧
      ∀ op ∈ ops, op.call.writes = true ∧ ∃ route ∈ routes Datasets.Sample.unicode Datasets.Sample.polars,
        ∃ request h₀ prog, (Sample.config Sample.created).threads op.pid = some ⟨.endpoint route request, h₀, prog⟩ ∧
          Authorized Sample.development (Sample.config Sample.created).hist.now route request op.call := by
  obtain ⟨ops, hs, -, ha⟩ := changes_authorized (Sample.reach fun _ _ => Sample.known_created)
  exact ⟨by decide +kernel, ops, hs, ha⟩

/-! ### After a logout -/

/-- The session of the token was made, and is revoked or deleted. -/
def Dead (h : Digest) (st : SessionStore) : Prop :=
  (∃ s ∈ st.drawn, s.token_hash = h) ∧ ∀ s ∈ st.db.sessions, s.token_hash = h → s.revoked_at ≠ none

lemma Dead.step {call : SessionCall} {reply : SessionReply} (hd : Dead h st) (hs : st.step call = some (reply, st')) :
    Dead h st' := by
  obtain ⟨-, hdrawn, hfresh⟩ := SessionStore.step_cases hs
  obtain ⟨s₀, hs₀, hhash⟩ := hd.1
  refine ⟨⟨s₀, by rw [hdrawn]; exact List.mem_append_right _ hs₀, hhash⟩, fun s' hs' he => ?_⟩
  rcases row_cases hs hs' with ⟨s, hmem, hrow⟩ | ⟨-, hrow, -⟩
  · have hr := hd.2 s hmem (hrow.origin.2.2.1.trans he)
    rw [hrow.dead hr]
    exact hr
  · exact ((hfresh _ hrow s₀ hs₀).2 (hhash.trans he.symm)).elim

/-- A logout that revokes kills the session of its cookie. -/
lemma dead_of_logout (hr : Run (.start users) events st) {b : Option PyStr} {csrf : Option Bytes} {now : Time}
    (he : (SessionCall.logout b csrf now, SessionReply.logout .revoked) ∈ events) (hb : bearerHash b = some h) :
    Dead h st := by
  induction hr with
  | nil => exact (List.not_mem_nil he).elim
  | @cons events st st' call reply hr hs ih =>
    rcases List.mem_cons.mp he with heq | he
    · cases heq
      obtain ⟨hstep, hdrawn, -⟩ := SessionStore.step_cases hs
      have hkept := hr.kept (kept_start users)
      generalize hdb : st'.db = db' at hstep
      cases hstep with
      | refused _ _ hl => exact (hl rfl).elim
      | @revoked _ _ _ s hmem htoken _ _ _ =>
        obtain rfl := Option.some.inj (htoken.symm.trans hb)
        obtain ⟨s₀, hs₀, ho⟩ := hkept.origin s hmem
        refine ⟨⟨s₀, by rw [hdrawn]; exact List.mem_append_right _ hs₀, ho.2.2.1.symm⟩, fun s' hs' he => ?_⟩
        rw [hdb] at hs'
        rcases Table.mem_put.mp hs' with rfl | ⟨hs', hne⟩
        · exact fun h => by cases h
        · -- no other session has the token
          obtain ⟨t₀, ht₀, hto⟩ := hkept.origin s' hs'
          have hsame : t₀ = s₀ := List.inj_on_of_nodup_map hkept.drawn_token ht₀ hs₀
            (hto.2.2.1.symm.trans (he.trans ho.2.2.1))
          exact (hne (hto.1.trans (hsame ▸ ho.1.symm))).elim
    · exact (ih he).step hs

/-- A logout that revokes has a cookie with the token of a session. -/
lemma logout_token (hr : Run (.start users) events st) {b : Option PyStr} {csrf : Option Bytes} {now : Time}
    (he : (SessionCall.logout b csrf now, SessionReply.logout .revoked) ∈ events) :
    ∃ s ∈ st.drawn, bearerHash b = some s.token_hash := by
  induction hr with
  | nil => exact (List.not_mem_nil he).elim
  | @cons events st st' call reply hr hs ih =>
    obtain ⟨hstep, hdrawn, -⟩ := SessionStore.step_cases hs
    rw [hdrawn]
    rcases List.mem_cons.mp he with heq | he
    · cases heq
      generalize st'.db = db' at hstep
      cases hstep with
      | refused _ _ hl => exact (hl rfl).elim
      | revoked hmem htoken _ _ _ =>
        obtain ⟨s₀, hs₀, ho⟩ := (hr.kept (kept_start users)).origin _ hmem
        exact ⟨s₀, List.mem_append_right _ hs₀, htoken.trans (congrArg some ho.2.2.1)⟩
    · obtain ⟨s, hs, htoken⟩ := ih he
      exact ⟨s, List.mem_append_right _ hs, htoken⟩

lemma Dead.refuses {b : Option PyStr} {now : Time} {context : ActiveSessionSnapshot} (hd : Dead h st)
    (hb : bearerHash b = some h) : st.step (.authenticate b now) ≠ some (.authenticated context, st') := by
  intro hs
  obtain ⟨hstep, -, -⟩ := SessionStore.step_cases hs
  generalize st'.db = db' at hstep
  cases hstep with
  | refused _ ha _ => exact ha _ rfl
  | touched hmem htoken htouch =>
    have hhash := Option.some.inj (htoken.symm.trans hb)
    exact hd.2 _ hmem hhash (touchable_iff.mp htouch).2.1

/-- The cookie that a stage knows. -/
def Stage.bearer : Stage → Option (Option PyStr)
  | .known b _ | .called b _ _ | .answered b _ _ _ => some b
  | _ => none

/-- The session is dead, and the requests `late` are not authenticated by it. -/
def Barred (h : Digest) (late : Pid → Prop) (G : Pid → Stage) (w : ApiWorld) : Prop :=
  Dead h w.sessions ∧ ∀ p, late p → ∀ b, (G p).bearer = some b → bearerHash b ≠ some h

lemma Performs.dead {e : ApiEff} {r : Except ApiExn e.Resp} (hdoes : Performs U P F p w e r w')
    (hd : Dead h w.sessions) : Dead h w'.sessions := by
  cases hdoes with
  | committed ht => exact hd.step (transact_cases ht).1
  | lost ht => exact hd.step (transact_cases ht).1
  | failed _ => exact hd
  | begun hs => exact (serve_cases hs).2.1 ▸ hd
  | awaited _ => exact hd
  | worked hs => exact (serve_cases hs).2.1 ▸ hd

lemma Performs.next_barred {e : ApiEff} {r : Except ApiExn e.Resp} (hdoes : Performs U P F p w e r w')
    (hmay : route.may settings request s e) (hd : Dead h w.sessions)
    (hs : ∀ b, s.bearer = some b → bearerHash b ≠ some h) :
    ∀ b, (s.next (getSessionCookie settings request) e r).bearer = some b → bearerHash b ≠ some h := by
  cases hdoes with
  | @committed call time reply w' ht =>
    cases s with
    | arrived =>
      obtain ⟨rfl, -⟩ := hmay
      obtain ⟨hstep, -, -⟩ := transact_cases ht
      rcases authenticate_step hstep with rfl | ⟨context, rfl⟩
      · exact fun b hb => by cases hb
      · intro b hb hhash
        cases hb
        exact hd.refuses hhash hstep
    | _ => exact hmay.elim
  | lost _ =>
    cases s with
    | arrived => exact fun b hb => by cases hb
    | _ => exact hmay.elim
  | failed _ =>
    cases s with
    | arrived => exact fun b hb => by cases hb
    | _ => exact hmay.elim
  | begun _ =>
    cases s with
    | known b context => exact hs
    | _ => exact hmay.elim
  | awaited _ =>
    cases s with
    | called b context k => exact hs
    | _ => exact hmay.elim
  | worked _ => cases s <;> exact hmay.elim

/-- **Every effect keeps a dead session barred.** -/
theorem barred_kept (late : Pid → Prop) : Typestate.Kept (apiMachine U P F) (ApiCall.stages settings)
    fun G w => Joint U P F users G w ∧ Barred h late G w := by
  intro G p call e c w r w' hJ hmay hexec
  have hdoes := exec_cases hexec
  refine ⟨joint_kept G p call e c w r w' hJ.1 hmay hexec, hdoes.dead hJ.2.1, fun q hlate => ?_⟩
  by_cases hq : q = p
  · subst hq
    rw [Function.update_self]
    by_cases hcall : ∃ route request, call = .endpoint route request
    · obtain ⟨route, request, rfl⟩ := hcall
      exact hdoes.next_barred hmay hJ.2.1 (hJ.2.2 q hlate)
    · rw [(free_stages (r := r) (fun route request he => hcall ⟨_, _, he⟩) hmay).1]
      exact hJ.2.2 q hlate
  · rw [Function.update_of_ne hq]
    exact hJ.2.2 q hlate

/-- **A revoked session is of no use**: once a logout has revoked the session of a cookie, a request that arrives
later with this cookie starts no call of a service, and ends with an error if it ends. -/
theorem revoked_session_useless (hr : ApiReach settings U P F users cfg) {b : Option PyStr} {csrf : Option Bytes}
    {now : Time}
    (hevent : (SessionCall.logout b csrf now, SessionReply.logout .revoked) ∈ cfg.hist.now.events)
    (hsteps : Config.Steps (apiMachine U P F) (ApiCall.body settings) (ApiCall.Known U P) cfg cfg')
    (hlate : cfg.threads p = none) {h₀ : Hist ApiWorld} {prog : Prog ApiEff (fun e => Except ApiExn e.Resp) ApiOutcome}
    (hp : cfg'.threads p = some ⟨.endpoint route request, h₀, prog⟩) (hcookie : getSessionCookie settings request = b) :
    cfg'.hist.now.services.threads p = none ∧ ∀ out, prog = .ret (out, ()) → ∃ x, out = .error x := by
  obtain ⟨G, hG⟩ := reach_joint hr
  obtain ⟨s, -, htoken⟩ := logout_token hG.shared.run hevent
  have hdead := dead_of_logout hG.shared.run hevent htoken
  -- from now on the stages are barred as well
  have hbarred : ApiTracks settings U P
      (fun G w => Joint U P F users G w ∧ Barred s.token_hash (fun p => cfg.threads p = none) G w) G cfg := by
    refine ⟨⟨hG.shared, hdead, fun q hq b hb => ?_⟩, hG.unstarted, hG.state, hG.follows⟩
    rw [hG.unstarted q hq] at hb
    cases hb
  obtain ⟨G', hG'⟩ := hbarred.steps (barred_kept _) calls_obey hsteps
  obtain ⟨hroute, hat⟩ := hG'.state p _ hp
  have hvalid := hG'.shared.1.valid p
  have hbar := hG'.shared.2.2 p hlate
  have hends := hG'.follows p _ hp
  cases hstage : G' p with
  | arrived =>
    rw [hstage] at hvalid hends
    refine ⟨hvalid, fun out hout => ?_⟩
    cases hout
    obtain ⟨x, hx, -⟩ := hends
    exact ⟨x, hx⟩
  | failed x =>
    rw [hstage] at hvalid hends
    refine ⟨hvalid.1, fun out hout => ?_⟩
    cases hout
    exact ⟨x, hends⟩
  | refused b' =>
    rw [hstage] at hvalid hends
    refine ⟨hvalid.1, fun out hout => ?_⟩
    cases hout
    exact ⟨_, hends⟩
  | known b' context =>
    rw [hstage] at hat hbar
    exact (hbar b' rfl (by rw [hat.1, hcookie]; exact htoken)).elim
  | called b' context k =>
    rw [hstage] at hat hbar
    exact (hbar b' rfl (by rw [hat.1, hcookie]; exact htoken)).elim
  | answered b' context k reply =>
    rw [hstage] at hat hbar
    exact (hbar b' rfl (by rw [hat.1, hcookie]; exact htoken)).elim

/-- A session that was used before. -/
theorem revoked_session_useless_sample : ∃ route request h₀ out,
    Sample.afterwards.threads 3 = some ⟨.endpoint route request, h₀, .ret (out, ())⟩ ∧
    getSessionCookie Sample.development request = Identity.Sample.bearer ∧ statusOf out = 401 ∧
      ∃ x, out = .error x := by
  have hrevoked : (Sample.revocation (Sample.config (Sample.created ++ Sample.loggedOut)).hist.now.events).isSome =
      true := by
    decide +kernel
  have hlate : ((Sample.config (Sample.created ++ Sample.loggedOut)).threads 3).isNone = true := by decide +kernel
  have hended : Sample.ended Sample.afterwards 3 = some (Identity.Sample.bearer, 401) := by decide +kernel
  obtain ⟨⟨csrf, now⟩, hrevocation⟩ := Option.isSome_iff_exists.mp hrevoked
  obtain ⟨route, request, h₀, out, hp, hcookie, hstatus⟩ := Sample.ended_eq hended
  exact ⟨route, request, h₀, out, hp, hcookie, hstatus,
    (revoked_session_useless Sample.reach_loggedOut (Sample.mem_of_revocation hrevocation)
      Sample.steps_afterwards (Option.isNone_iff_eq_none.mp hlate) hp hcookie).2 out rfl⟩

end DataCheck.Api
