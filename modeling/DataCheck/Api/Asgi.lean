import DataCheck.Lib.Text
import Mathlib.Algebra.GroupWithZero.Nat

/-!
# ASGI applications

An application is a machine that awaits `receive` and `send` of a host, may catch what they raise, and may
run for ever.  A host is the server, or a middleware in front of it.
-/

namespace DataCheck.Api.Asgi

open Lib

/-- A message: its type, its body where it has one, and its other keys. -/
structure Message (δ : Type) where
  type : PyStr
  body : Option Bytes
  keys : δ

/-- `message.get("body", b"")` of a part of the request; any other message has none. -/
def Message.requestBody {δ : Type} (m : Message δ) : Bytes :=
  if m.type = py "http.request" then m.body.getD [] else []

def Message.isStart {δ : Type} (m : Message δ) : Bool := m.type = py "http.response.start"

/-- The exceptions: the one of a middleware, the `RuntimeError` of a bare `raise` outside of a handler, and
those of the application and the server. -/
inductive Exc (ε : Type) where
  | own
  | noActiveException
  | other (e : ε)

/-- What an application does next: it awaits `receive` or `send`, and goes on with what they return or raise;
it returns; it raises an exception; or it raises again what a middleware has raised. -/
inductive Action (δ ε σ : Type) where
  | receive (k : Except (Exc ε) (Message δ) → σ)
  | send (m : Message δ) (k : Except (Exc ε) Unit → σ)
  | return
  | raise (e : ε)
  | reraise

/-- An application, as a machine on states of its own. -/
abbrev Application (δ ε σ : Type) := σ → Action δ ε σ

/-- The two callables that an application is given.  A `receive` that never returns is `none`. -/
structure Host (δ ε τ : Type) where
  receive : τ → Option (Except (Exc ε) (Message δ) × τ)
  send : τ → Message δ → Except (Exc ε) Unit × τ

/-- Where an application is. -/
inductive Phase (ε σ : Type) where
  | running (s : σ)
  | ended (r : Except (Exc ε) Unit)

/-- A run of an application: where it is, the state of the host, whether the exception of the middleware was
raised to it, what it was delivered, and what it sent. -/
structure Run (δ ε σ τ : Type) where
  phase : Phase ε σ
  host : τ
  caught : Bool
  delivered : List (Message δ)
  sent : List (Message δ)

variable {δ ε σ τ : Type}

def Run.start (s : σ) (t : τ) : Run δ ε σ τ := ⟨.running s, t, false, [], []⟩

/-- What a call of `receive` adds to what was delivered. -/
def received : Except (Exc ε) (Message δ) → List (Message δ)
  | .ok m => [m]
  | .error _ => []

/-- A middleware raised its exception. -/
def raisedOwn {α : Type} : Except (Exc ε) α → Bool
  | .error .own => true
  | _ => false

/-- One step of a run.  Where the application has ended, or waits for ever, there is none. -/
def Run.step (app : Application δ ε σ) (host : Host δ ε τ) (run : Run δ ε σ τ) : Run δ ε σ τ :=
  match run.phase with
  | .ended _ => run
  | .running s =>
    match app s with
    | .receive k =>
      match host.receive run.host with
      | none => run
      | some (r, t) =>
        ⟨.running (k r), t, run.caught || raisedOwn r, run.delivered ++ received r, run.sent⟩
    | .send m k =>
      let (r, t) := host.send run.host m
      ⟨.running (k r), t, run.caught || raisedOwn r, run.delivered, run.sent ++ [m]⟩
    | .return => { run with phase := .ended (.ok ()) }
    | .raise e => { run with phase := .ended (.error (.other e)) }
    | .reraise =>
      { run with phase := .ended (.error (if run.caught then .own else .noActiveException)) }

/-! ### Servers -/

/-- The server: its exceptions are not those of a middleware. -/
structure Server (δ ε τ : Type) where
  receive : τ → Option (Except ε (Message δ) × τ)
  send : τ → Message δ → Except ε Unit × τ

/-- The server as a host. -/
def Server.host (server : Server δ ε τ) : Host δ ε τ where
  receive t := (server.receive t).map fun (r, t) => (r.mapError .other, t)
  send t m := ((server.send t m).1.mapError .other, (server.send t m).2)

/-- The size of the body that the server delivers, whatever is asked of it: a call is a `receive`, or the
`send` of a message. -/
def Server.bodyTotal (server : Server δ ε τ) : τ → List (Option (Message δ)) → ℕ
  | _, [] => 0
  | t, none :: calls =>
    match server.receive t with
    | none => 0
    | some (.ok m, t) => m.requestBody.length + server.bodyTotal t calls
    | some (.error _, t) => server.bodyTotal t calls
  | t, some m :: calls => server.bodyTotal (server.send t m).2 calls

/-- The server that delivers a list of messages, and takes everything that is sent. -/
def Server.ofMessages : Server δ ε (List (Message δ)) where
  receive
    | [] => none
    | m :: ms => some (.ok m, ms)
  send ms _ := (.ok (), ms)

/-- The size of the request body in a list of messages. -/
def bodyLength (ms : List (Message δ)) : ℕ := (ms.map fun m => m.requestBody.length).sum

lemma bodyLength_append (ms ns : List (Message δ)) : bodyLength (ms ++ ns) = bodyLength ms + bodyLength ns := by
  simp [bodyLength]

/-- A list of messages delivers no more than its bodies. -/
lemma Server.bodyTotal_ofMessages (calls : List (Option (Message δ))) : ∀ ms : List (Message δ),
    (Server.ofMessages (ε := ε)).bodyTotal ms calls ≤ bodyLength ms := by
  induction calls with
  | nil => exact fun ms => Nat.zero_le _
  | cons call calls ih =>
    intro ms
    cases call with
    | some m => exact ih ms
    | none =>
      cases ms with
      | nil => exact Nat.le_refl _
      | cons m ms =>
        have htail := ih ms
        simp only [bodyTotal, ofMessages, bodyLength, List.map_cons, List.sum_cons] at htail ⊢
        exact Nat.add_le_add_left htail _

end DataCheck.Api.Asgi
