import DataCheck.Api.Routes
import DataCheck.Identity.SessionRuns
import DataCheck.Lib.Typestate
import DataCheck.Shared.Runs

/-!
# Requests

Any number of requests run at once: each is a program that authenticates with the identity service, starts a
thread of the services and waits for it.  The threads of the services and the other transactions of the
identity service go on in between.
-/

namespace DataCheck.Api

open Lib Shared Datasets Identity

/-! ### Programs -/

/-- What a request does. -/
inductive ApiEff where
  /-- A transaction of the identity service, with its reading of the clock. -/
  | session (call : Time → SessionCall)
  /-- The call of a service starts, on a thread of its own. -/
  | begin (k : Shared.Call)
  /-- The end of that call. -/
  | await
  /-- A thread of the services goes on. -/
  | work

def ApiEff.Resp : ApiEff → Type
  | .session _ => SessionReply
  | .await => Reply
  | _ => Unit

abbrev Endpoint (α : Type) := Op ApiEff ApiEff.Resp ApiExn Unit α

namespace Endpoint

def session (call : Time → SessionCall) : Endpoint SessionReply := Op.perform (E := ApiEff) (.session call)
def begin (k : Shared.Call) : Endpoint Unit := Op.perform (E := ApiEff) (.begin k)
def await : Endpoint Reply := Op.perform (E := ApiEff) .await
def work : Endpoint Unit := Op.perform (E := ApiEff) .work

end Endpoint

/-- The response to a request that succeeded. -/
structure Success where
  status_code : ℕ
  content : Content

variable (settings : ApiSettings)

def requireAuthenticatedContext (request : HttpRequest) : Endpoint ActiveSessionSnapshot := do
  let reply ← Endpoint.session (.authenticate (getSessionCookie settings request))
  match reply with
  | .authenticated context => Op.pure context
  | _ => Op.raise (.api authenticationRequired)

def requireAuthenticatedMutation (request : HttpRequest) : Endpoint ActiveSessionSnapshot := do
  let context ← requireAuthenticatedContext settings request
  if csrfAccepted context.csrf_token request.toRequest then Op.pure context else Op.raise (.api invalidCsrfToken)

/-- The parameter `context` of an endpoint. -/
def Route.context (route : Route) (request : HttpRequest) : Endpoint ActiveSessionSnapshot :=
  if route.mutation then requireAuthenticatedMutation settings request
  else requireAuthenticatedContext settings request

/-- How the framework reads the body, before anything else. -/
def readBody (route : Route) (request : HttpRequest) : Except ApiExn Unit :=
  if route.payload then
    match request.json with
    | .malformed => .error (.requestValidation request.errors)
    | .unreadable => .error (.http 400)
    | _ => .ok ()
  else .ok ()

/-- What the `except` clauses make of an exception. -/
def Route.raised (route : Route) : ApiExn → ApiExn
  | .service x =>
    match route.handler x with
    | some e => .api e
    | none => .service x
  | x => x

/-- What the response model makes of a reply. -/
def Route.respond (route : Route) (reply : Reply) : Except ApiExn Success :=
  match route.content reply with
  | some content => .ok ⟨route.status_code, content⟩
  | none => .error .responseValidation

def Route.handle (route : Route) (request : HttpRequest) : Endpoint Success := do
  Op.ofExcept (readBody route request)
  Op.ofExcept ((enforceAll settings request route.dependencies).mapError fun e => .api e.plain)
  let context ← route.context settings request
  let k ← Op.ofExcept (route.call request context.user_id)
  Endpoint.begin k
  let reply ← Endpoint.await.catching fun x => Op.raise (route.raised x)
  Op.ofExcept (route.respond reply)

/-- `logout` of the authentication routes. -/
def logout (request : HttpRequest) : Endpoint Success := do
  Op.ofExcept ((enforceAll settings request [.trustedOrigin]).mapError fun e => .api e.plain)
  let reply ← Endpoint.session (.logout (getSessionCookie settings request) (parseCsrfHeader request.toRequest))
  match reply with
  | .invalidCsrf => Op.raise (.api invalidCsrfToken)
  | .integrityError _ => Op.raise .database
  | _ => Op.pure ⟨204, .nothing⟩

inductive ApiCall where
  | endpoint (route : Route) (request : HttpRequest)
  | logout (request : HttpRequest)
  /-- Another transaction of the identity service: a registration, a login, a cleanup. -/
  | identity (call : SessionCall)
  /-- One step of a thread of the services. -/
  | work

abbrev ApiOutcome := Except ApiExn Success × Unit

def statusOf : Except ApiExn Success → ℕ
  | .ok success => success.status_code
  | .error x => x.answer.status_code

@[simp] lemma statusOf_requestValidation (items : List ErrorItem) :
    statusOf (.error (.requestValidation items)) = 422 := rfl

@[simp] lemma statusOf_database (d : DbError) : statusOf (.error (.service (.database d))) = 503 := rfl

def ApiCall.body : ApiCall → Prog ApiEff (fun e => Except ApiExn e.Resp) ApiOutcome
  | .endpoint route request => route.handle settings request ()
  | .logout request => Api.logout settings request ()
  | .identity call => Op.bind (Endpoint.session fun _ => call) (fun _ => Op.pure ⟨204, .nothing⟩) ()
  | .work => Op.bind Endpoint.work (fun _ => Op.pure ⟨204, .nothing⟩) ()

/-! ### The shared state -/

/-- The sessions with what happened to them so far, the latest first, and the services. -/
structure ApiWorld where
  sessions : SessionStore
  events : List Event
  services : SysConfig

def ApiWorld.start (users : Table Uuid User User.id) : ApiWorld := ⟨.start users, [], Config.init World.empty⟩

/-- How a transaction of the identity service goes wrong. -/
inductive SessionFault where
  | none | clock | fails
  /-- It is committed and raises all the same. -/
  | lostAcknowledgement

/-- What the environment chooses: for a transaction its time and fault, for a step of the services which. -/
structure ApiChoice where
  time : Time
  fault : SessionFault
  pid : Pid
  choice : Choice

namespace ApiWorld

/-- A transaction of the identity service. -/
def transact (w : ApiWorld) (call : SessionCall) : Option (SessionReply × ApiWorld) :=
  (w.sessions.step call).map fun out => (out.1, { w with sessions := out.2, events := (call, out.1) :: w.events })

variable (U : Unicode) (P : Polars) (F : Faults)

/-- A step of the services. -/
def serve (w : ApiWorld) (l : Label Shared.Call Choice) : Option ApiWorld :=
  (w.services.step (Shared.machine F) (Call.body U P) l).map fun services => { w with services }

/-- The answer to an effect of the thread `p`, whose call of a service runs under the same number. -/
def exec (p : Pid) (c : ApiChoice) (w : ApiWorld) : (e : ApiEff) → Option (Except ApiExn e.Resp × ApiWorld)
  | .session call =>
    match c.fault with
    | .none => (w.transact (call c.time)).map fun out => (.ok out.1, out.2)
    | .clock => some (.error .clock, w)
    | .fails => some (.error .database, w)
    | .lostAcknowledgement => (w.transact (call c.time)).map fun out => (.error .database, out.2)
  | .begin k => (w.serve U P F (.spawn p k)).map fun w' => (.ok (), w')
  | .await =>
    match w.services.threads p with
    | some ⟨_, _, .ret (out, _)⟩ => some (out.mapError .service, w)
    | _ => none
  | .work => (w.serve U P F (.run c.pid c.choice)).map fun w' => (.ok (), w')

end ApiWorld

variable (U : Unicode) (P : Polars) (F : Faults)

/-- The identity service and the other services. -/
def apiMachine : Machine ApiEff (fun e => Except ApiExn e.Resp) ApiChoice ApiWorld where
  exec p e c w := w.exec U P F p c e

/-- Requests are for the endpoints. -/
def ApiCall.Known : ApiCall → Prop
  | .endpoint route _ => route ∈ routes U P
  | _ => True

abbrev ApiConfig := Config ApiCall ApiEff (fun e => Except ApiExn e.Resp) ApiWorld ApiOutcome

abbrev ApiReach (users : Table Uuid User User.id) (cfg : ApiConfig) : Prop :=
  Config.Reachable (apiMachine U P F) (ApiCall.body settings) (ApiCall.Known U P) (ApiWorld.start users) cfg

end DataCheck.Api
