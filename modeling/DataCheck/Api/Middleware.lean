import DataCheck.Api.Asgi
import DataCheck.Lib.Numerals
import DataCheck.Datasets.Csv

/-!
# The upload guard (`api/middleware.py`)
-/

namespace DataCheck.Api

open Lib Asgi

def maxUploadRequestBytes : ℕ := Datasets.maxCsvBytes + 65536

/-- What the guard reads of a scope; `trace_id` is what `ensure_trace_id` finds or makes. -/
structure Scope where
  type : PyStr
  method : Option PyStr
  path : Option PyStr
  headers : List (Bytes × Bytes)
  trace_id : PyStr

/-- `DatasetUploadSizeLimitMiddleware._is_upload` -/
def isUpload (scope : Scope) : Bool :=
  let path := scope.path.getD []
  scope.type == py "http" && scope.method == some (py "POST") &&
    (py "/api/v1/datasets/").isPrefixOf path && (py "/upload").isSuffixOf path

/-- The text of ASCII bytes; `none` is a `UnicodeDecodeError`. -/
def decodeAscii (b : Bytes) : Option PyStr :=
  if b.all fun x => x < 128 then some (b.map fun x => ⟨x.toNat, toNat_lt_codePoints x⟩) else none

/-- `name.lower()` of `bytes`. -/
def lowerBytes (b : Bytes) : Bytes := b.map fun x => if 65 ≤ x ∧ x ≤ 90 then x + 32 else x

/-- The `bytes` of an ASCII literal. -/
def asciiBytes (s : String) : Bytes := (py s).map fun c => UInt8.ofNat c.val

def contentLengths (scope : Scope) : List Bytes :=
  (scope.headers.filter fun header => lowerBytes header.1 = asciiBytes "content-length").map Prod.snd

/-- `DatasetUploadSizeLimitMiddleware._declared_too_large` -/
def declaredTooLarge (scope : Scope) : Bool :=
  match contentLengths scope with
  | [value] =>
    match (decodeAscii value).bind PyStr.int with
    | none => false
    | some length => (maxUploadRequestBytes : ℤ) < length
  | _ => false

/-- `ErrorResponse` of an error without details. -/
structure ErrorResponse where
  status_code : ℕ
  code : PyStr
  message : PyStr
  trace_id : PyStr

/-- The response of `_send_too_large`. -/
def tooLargeResponse (scope : Scope) : ErrorResponse :=
  ⟨413, py "upload_too_large", py "Upload exceeds the accepted size limit.", scope.trace_id⟩

/-- How a `JSONResponse` is sent: the keys of its start, and its body with the other keys. -/
structure Rendering (δ : Type) where
  start : ErrorResponse → δ
  body : ErrorResponse → Bytes
  keys : ErrorResponse → δ

/-- The messages that `await response(scope, receive, send)` sends. -/
def Rendering.messages {δ : Type} (R : Rendering δ) (response : ErrorResponse) : List (Message δ) :=
  [⟨py "http.response.start", none, R.start response⟩,
    ⟨py "http.response.body", some (R.body response), R.keys response⟩]

/-- The variables of `__call__`, and the server. -/
structure Guard (τ : Type) where
  server : τ
  received : ℕ
  response_started : Bool

variable {δ ε σ τ : Type} (server : Server δ ε τ) (app : Application δ ε σ) (R : Rendering δ)

def limitedReceive (g : Guard τ) : Option (Except (Exc ε) (Message δ) × Guard τ) :=
  match server.receive g.server with
  | none => none
  | some (.error e, t) => some (.error (.other e), { g with server := t })
  | some (.ok message, t) =>
    if message.type = py "http.request" then
      let received := g.received + (message.body.getD []).length
      if maxUploadRequestBytes < received then
        some (.error .own, { g with server := t, received := received })
      else some (.ok message, { g with server := t, received := received })
    else some (.ok message, { g with server := t })

def trackedSend (g : Guard τ) (message : Message δ) : Except (Exc ε) Unit × Guard τ :=
  let response_started := if message.type = py "http.response.start" then true else g.response_started
  let (r, t) := server.send g.server message
  (r.mapError .other, { g with server := t, response_started := response_started })

/-- What the guard gives to the application. -/
def guardHost : Host δ ε (Guard τ) := ⟨limitedReceive server, trackedSend server⟩

/-- A call of the middleware: the application runs without the guard; it runs behind it; the guard sends its
response; the call has ended.  `sent` are the messages of the guard itself. -/
inductive Call (δ ε σ τ : Type) where
  | passed (run : Run δ ε σ τ)
  | guarded (run : Run δ ε σ (Guard τ))
  | refusing (run : Run δ ε σ (Guard τ)) (t : τ) (pending sent : List (Message δ))
  | ended (run : Run δ ε σ (Guard τ)) (t : τ) (sent : List (Message δ)) (r : Except (Exc ε) Unit)

/-- `__call__`, up to its first `await`. -/
def Call.start (scope : Scope) (s : σ) (t : τ) : Call δ ε σ τ :=
  if !isUpload scope then .passed (.start s t)
  else if declaredTooLarge scope then
    .refusing (.start s ⟨t, 0, false⟩) t (R.messages (tooLargeResponse scope)) []
  else .guarded (.start s ⟨t, 0, false⟩)

def Call.step (scope : Scope) : Call δ ε σ τ → Call δ ε σ τ
  | .passed run => .passed (run.step app server.host)
  | .guarded run =>
    match run.phase with
    | .running _ => .guarded (run.step app (guardHost server))
    -- `except _RequestBodyTooLarge`
    | .ended (.error .own) =>
      if run.host.response_started then .ended run run.host.server [] (.error .own)
      else .refusing run run.host.server (R.messages (tooLargeResponse scope)) []
    | .ended r => .ended run run.host.server [] r
  | .refusing run t [] sent => .ended run t sent (.ok ())
  | .refusing run t (message :: pending) sent =>
    match server.send t message with
    | (.ok (), t) => .refusing run t pending (sent ++ [message])
    | (.error e, t) => .ended run t (sent ++ [message]) (.error (.other e))
  | .ended run t sent r => .ended run t sent r

/-- What the application was delivered. -/
def Call.delivered : Call δ ε σ τ → List (Message δ)
  | .passed run => run.delivered
  | .guarded run => run.delivered
  | .refusing run _ _ _ => run.delivered
  | .ended run _ _ _ => run.delivered

def Call.byApplication : Call δ ε σ τ → List (Message δ)
  | .passed run => run.sent
  | .guarded run => run.sent
  | .refusing run _ _ _ => run.sent
  | .ended run _ _ _ => run.sent

/-- What the guard itself sent. -/
def Call.byGuard : Call δ ε σ τ → List (Message δ)
  | .passed _ => []
  | .guarded _ => []
  | .refusing _ _ _ sent => sent
  | .ended _ _ sent _ => sent

/-- What the client receives: the guard sends nothing before the application has ended. -/
def Call.client (c : Call δ ε σ τ) : List (Message δ) := c.byApplication ++ c.byGuard

/-- How the call ended, once it has. -/
def Call.result : Call δ ε σ τ → Option (Except (Exc ε) Unit)
  | .passed run =>
    match run.phase with
    | .running _ => none
    | .ended r => some r
  | .guarded _ => none
  | .refusing .. => none
  | .ended _ _ _ r => some r

variable {server app R} {scope : Scope} {s : σ} {t : τ} {run : Run δ ε σ (Guard τ)} {direct : Run δ ε σ τ}

/-! ### One step of the guard -/

/-- The state after a message has been counted. -/
def Guard.count (g : Guard τ) (m : Message δ) (t : τ) : Guard τ :=
  { g with server := t, received := g.received + m.requestBody.length }

/-- What `limited_receive` makes of what the server's `receive` does. -/
lemma limitedReceive_cases (server : Server δ ε τ) (g : Guard τ) :
    (server.receive g.server = none ∧ limitedReceive server g = none) ∨
    (∃ e t, server.receive g.server = some (.error e, t) ∧
      limitedReceive server g = some (.error (.other e), { g with server := t })) ∨
    ∃ m t, server.receive g.server = some (.ok m, t) ∧
      (limitedReceive server g = some (.ok m, g.count m t) ∧
          (m.requestBody = [] ∨ (g.count m t).received ≤ maxUploadRequestBytes) ∨
        limitedReceive server g = some (.error .own, g.count m t) ∧
          maxUploadRequestBytes < (g.count m t).received) := by
  unfold limitedReceive
  split
  · next hs => exact Or.inl ⟨hs, rfl⟩
  · next e t hs => exact Or.inr (Or.inl ⟨e, t, hs, rfl⟩)
  · next m t hs =>
    refine Or.inr (Or.inr ⟨m, t, hs, ?_⟩)
    split
    · next ht =>
      have hbody : m.requestBody = m.body.getD [] := if_pos ht
      by_cases hlt : maxUploadRequestBytes < g.received + (m.body.getD []).length
      · refine Or.inr ⟨?_, ?_⟩
        · simp only [if_pos hlt, Guard.count, hbody]
        · simpa only [Guard.count, hbody] using hlt
      · refine Or.inl ⟨?_, Or.inr ?_⟩
        · simp only [if_neg hlt, Guard.count, hbody]
        · simpa only [Guard.count, hbody, not_lt] using hlt
    · next ht =>
      have hbody : m.requestBody = [] := if_neg ht
      refine Or.inl ⟨?_, Or.inl hbody⟩
      simp only [Guard.count, hbody, List.length_nil, Nat.add_zero]

/-- `tracked_send` asks the server and notes a start. -/
lemma trackedSend_eq (g : Guard τ) (m : Message δ) : trackedSend server g m =
    ((server.send g.server m).1.mapError .other,
      { g with server := (server.send g.server m).2, response_started := g.response_started || m.isStart }) := by
  have hstart : (if m.type = py "http.response.start" then true else g.response_started) =
      (g.response_started || m.isStart) := by
    unfold Message.isStart
    split
    · next h => simp [h]
    · next h => simp [h]
  simp only [trackedSend, hstart]

/-! ### The guard is bounded -/

/-- What holds of a run behind the guard. -/
structure Bounded (run : Run δ ε σ (Guard τ)) : Prop where
  delivered_le : bodyLength run.delivered ≤ maxUploadRequestBytes
  delivered_le_received : bodyLength run.delivered ≤ run.host.received
  response_started : run.host.response_started = run.sent.any Message.isStart

lemma Bounded.start : Bounded (.start s ⟨t, 0, false⟩ : Run δ ε σ (Guard τ)) :=
  ⟨Nat.zero_le _, Nat.zero_le _, rfl⟩

/-- **A step of the application keeps the bound.** -/
lemma Bounded.step (h : Bounded run) : Bounded (run.step app (guardHost server)) := by
  unfold Run.step
  split
  · exact h
  · split
    · -- `receive`
      rcases limitedReceive_cases server run.host with
        ⟨-, hr⟩ | ⟨e, t, -, hr⟩ | ⟨m, t, -, ⟨hr, hm⟩ | ⟨hr, -⟩⟩
      · simp only [guardHost, hr]
        exact h
      · simp only [guardHost, hr]
        exact ⟨by simpa [received] using h.delivered_le, by simpa [received] using h.delivered_le_received,
          h.response_started⟩
      · simp only [guardHost, hr]
        have hone : bodyLength (run.delivered ++ [m]) = bodyLength run.delivered + m.requestBody.length := by
          rw [bodyLength_append]
          simp [bodyLength]
        have hcount : (run.host.count m t).received = run.host.received + m.requestBody.length := rfl
        have hle := h.delivered_le
        have hreceived := h.delivered_le_received
        refine ⟨?_, ?_, h.response_started⟩
        · rw [received, hone]
          rcases hm with hm | hm
          · rw [hm]
            exact hle
          · omega
        · rw [received, hone, hcount]
          omega
      · simp only [guardHost, hr]
        have hcount : (run.host.count m t).received = run.host.received + m.requestBody.length := rfl
        have hgrown := Nat.le_trans h.delivered_le_received (Nat.le_add_right _ m.requestBody.length)
        exact ⟨by simpa [received] using h.delivered_le, by simpa [received, hcount] using hgrown, h.response_started⟩
    · -- `send`
      simp only [guardHost, trackedSend_eq]
      refine ⟨h.delivered_le, h.delivered_le_received, ?_⟩
      rw [List.any_append, ← h.response_started]
      simp
    · exact ⟨h.delivered_le, h.delivered_le_received, h.response_started⟩
    · exact ⟨h.delivered_le, h.delivered_le_received, h.response_started⟩
    · exact ⟨h.delivered_le, h.delivered_le_received, h.response_started⟩

/-- What holds of a call: the application is delivered no more than the limit, and the guard sends its
response, or the beginning of it, only where the application has started none. -/
def Call.Safe (R : Rendering δ) (scope : Scope) : Call δ ε σ τ → Prop
  | .passed _ => isUpload scope = false
  | .guarded run => Bounded run
  | .refusing run _ pending sent => Bounded run ∧ run.sent.any Message.isStart = false ∧
      sent ++ pending = R.messages (tooLargeResponse scope)
  | .ended run _ sent _ => Bounded run ∧ sent <+: R.messages (tooLargeResponse scope) ∧
      (sent = [] ∨ run.sent.any Message.isStart = false)

lemma Call.safe_start : (Call.start R scope s t : Call δ ε σ τ).Safe R scope := by
  unfold Call.start
  split
  · next hno => exact (Bool.not_eq_eq_eq_not).mp hno
  · split
    · exact ⟨.start, rfl, rfl⟩
    · exact .start

/-- **A step of a call is safe.** -/
lemma Call.Safe.step {c : Call δ ε σ τ} (h : c.Safe R scope) : (c.step server app R scope).Safe R scope := by
  cases c with
  | passed run => exact h
  | guarded run =>
    simp only [Call.step]
    split
    · exact Bounded.step h
    · split
      · exact ⟨h, List.nil_prefix, Or.inl rfl⟩
      · next hstarted =>
        refine ⟨h, ?_, rfl⟩
        rw [← h.response_started]
        simpa using hstarted
    · exact ⟨h, List.nil_prefix, Or.inl rfl⟩
  | refusing run t pending sent =>
    obtain ⟨hb, hno, happ⟩ := h
    cases pending with
    | nil =>
      rw [List.append_nil] at happ
      exact ⟨hb, happ ▸ List.prefix_rfl, Or.inr hno⟩
    | cons message pending =>
      simp only [Call.step]
      split
      · refine ⟨hb, hno, ?_⟩
        rw [List.append_assoc]
        exact happ
      · refine ⟨hb, ⟨pending, ?_⟩, Or.inr hno⟩
        rw [List.append_assoc]
        exact happ
  | ended run t sent r => exact h

/-- Every call of the middleware is safe, after any number of steps. -/
theorem Call.safe (n : ℕ) : ((Call.step server app R scope)^[n] (Call.start R scope s t)).Safe R scope := by
  induction n with
  | zero => exact Call.safe_start
  | succ n ih =>
    rw [Function.iterate_succ_apply']
    exact ih.step

/-! ### The guard is transparent -/

/-- A run behind the guard and the run without it, as long as the body is within the limit. -/
structure Same (server : Server δ ε τ) (run : Run δ ε σ (Guard τ)) (direct : Run δ ε σ τ) : Prop where
  phase : run.phase = direct.phase
  not_own : run.phase ≠ .ended (.error .own)
  caught : run.caught = false ∧ direct.caught = false
  delivered : run.delivered = direct.delivered
  sent : run.sent = direct.sent
  host : run.host.server = direct.host
  budget : ∀ calls, run.host.received + server.bodyTotal direct.host calls ≤ maxUploadRequestBytes

lemma Same.start (ht : ∀ calls, server.bodyTotal t calls ≤ maxUploadRequestBytes) :
    Same server (.start s ⟨t, 0, false⟩ : Run δ ε σ (Guard τ)) (.start s t) :=
  ⟨rfl, by simp [Run.start], ⟨rfl, rfl⟩, rfl, rfl, rfl, fun calls => by simpa [Run.start] using ht calls⟩

/-- **A step with the guard is a step without it.** -/
lemma Same.step (h : Same server run direct) :
    Same server (run.step app (guardHost server)) (direct.step app server.host) := by
  obtain ⟨phase, g, caught, delivered, sent⟩ := run
  obtain ⟨phase', t, caught', delivered', sent'⟩ := direct
  obtain ⟨hphase, hown, ⟨hcaught, hcaught'⟩, hdelivered, hsent, hhost, hbudget⟩ := h
  simp only at hphase hcaught hcaught' hdelivered hsent hhost
  subst hphase hcaught hcaught' hdelivered hsent hhost
  cases phase with
  | ended r => exact ⟨rfl, hown, ⟨rfl, rfl⟩, rfl, rfl, rfl, hbudget⟩
  | running s =>
    simp only [Run.step]
    cases app s with
    | receive k =>
      rcases limitedReceive_cases server g with
        ⟨hs, hr⟩ | ⟨e, t, hs, hr⟩ | ⟨m, t, hs, hm⟩
      · simp only [guardHost, Server.host, hs, hr, Option.map_none]
        exact ⟨rfl, by simp, ⟨rfl, rfl⟩, rfl, rfl, rfl, hbudget⟩
      · simp only [guardHost, Server.host, hs, hr, Option.map_some]
        refine ⟨rfl, by simp, ⟨rfl, rfl⟩, rfl, rfl, rfl, fun calls => ?_⟩
        have hcall := hbudget (none :: calls)
        simpa only [Server.bodyTotal, hs] using hcall
      · have hnext : ∀ calls, (g.count m t).received + server.bodyTotal t calls ≤ maxUploadRequestBytes := by
          intro calls
          have hcall := hbudget (none :: calls)
          simp only [Server.bodyTotal, hs] at hcall
          rwa [Guard.count, Nat.add_assoc]
        -- the message cannot exceed the limit
        obtain ⟨hr, -⟩ := hm.resolve_right fun hbad => absurd (hnext []) (Nat.not_le.mpr hbad.2)
        simp only [guardHost, Server.host, hs, hr, Option.map_some]
        exact ⟨rfl, by simp, ⟨rfl, rfl⟩, rfl, rfl, rfl, hnext⟩
    | send m k =>
      simp only [guardHost, Server.host, trackedSend_eq]
      have hraised : raisedOwn ((server.send g.server m).1.mapError Exc.other) = false := by
        cases (server.send g.server m).1 <;> rfl
      refine ⟨rfl, by simp, ⟨?_, ?_⟩, rfl, rfl, rfl, fun calls => hbudget (some m :: calls)⟩
      · simpa using hraised
      · simpa using hraised
    | «return» => exact ⟨rfl, by simp, ⟨rfl, rfl⟩, rfl, rfl, rfl, hbudget⟩
    | raise e => exact ⟨rfl, by simp, ⟨rfl, rfl⟩, rfl, rfl, rfl, hbudget⟩
    | reraise => exact ⟨rfl, by simp, ⟨rfl, rfl⟩, rfl, rfl, rfl, hbudget⟩

/-- A call within the limit, and the run without the guard: the guard still waits for the application, or it
has ended as the application did. -/
def Call.Mirrors (server : Server δ ε τ) (direct : Run δ ε σ τ) : Call δ ε σ τ → Prop
  | .guarded run => Same server run direct
  | .ended run _ sent r => Same server run direct ∧ sent = [] ∧ direct.phase = .ended r
  | _ => False

lemma Run.step_ended {r : Except (Exc ε) Unit} (h : direct.phase = .ended r) (host : Host δ ε τ) :
    direct.step app host = direct := by
  unfold Run.step
  rw [h]

lemma Call.Mirrors.step {c : Call δ ε σ τ} (h : c.Mirrors server direct) :
    (c.step server app R scope).Mirrors server (direct.step app server.host) := by
  cases c with
  | passed run => exact h.elim
  | guarded run =>
    have hsame : Same server run direct := h
    cases hphase : run.phase with
    | running s =>
      simp only [Call.step, hphase]
      exact hsame.step
    | ended r =>
      have hdirect : direct.phase = .ended r := hsame.phase.symm.trans hphase
      have hown : r ≠ .error .own := by
        rintro rfl
        exact hsame.not_own hphase
      rw [Run.step_ended hdirect]
      simp only [Call.step, hphase]
      exact ⟨hsame, rfl, hdirect⟩
  | refusing run t pending sent => exact h.elim
  | ended run t sent r =>
    obtain ⟨hsame, hsent, hdirect⟩ := h
    rw [Run.step_ended hdirect]
    exact ⟨hsame, hsent, hdirect⟩

/-! ### The guard -/

/-- The length of the request is declared, once, and beyond the limit. -/
def Scope.DeclaresTooLarge (scope : Scope) : Prop :=
  ∃ value text length, contentLengths scope = [value] ∧ decodeAscii value = some text ∧
    PyStr.int text = some length ∧ (maxUploadRequestBytes : ℤ) < length

lemma declaredTooLarge_iff : declaredTooLarge scope = true ↔ scope.DeclaresTooLarge := by
  unfold declaredTooLarge Scope.DeclaresTooLarge
  constructor
  · intro h
    split at h
    · next value hvalue =>
      split at h
      · cases h
      · next length hlength =>
        obtain ⟨text, htext, hint⟩ := Option.bind_eq_some_iff.mp hlength
        exact ⟨value, text, length, hvalue, htext, hint, by simpa using h⟩
    · cases h
  · rintro ⟨value, text, length, hvalue, htext, hint, hlt⟩
    simp only [hvalue, htext, Option.bind_some, hint, decide_eq_true_eq]
    exact hlt

/-- A call of the middleware after some steps. -/
def Call.after (server : Server δ ε τ) (app : Application δ ε σ) (R : Rendering δ) (scope : Scope) (s : σ) (t : τ)
    (n : ℕ) : Call δ ε σ τ :=
  (Call.step server app R scope)^[n] (Call.start R scope s t)

/-- The application without the middleware, after some steps. -/
def directAfter (server : Server δ ε τ) (app : Application δ ε σ) (s : σ) (t : τ) (n : ℕ) : Run δ ε σ τ :=
  (Run.step app server.host)^[n] (.start s t)

lemma Call.mirrors (hupload : isUpload scope = true) (hdeclared : ¬ scope.DeclaresTooLarge)
    (ht : ∀ calls, server.bodyTotal t calls ≤ maxUploadRequestBytes) (n : ℕ) :
    (Call.after server app R scope s t n).Mirrors server (directAfter server app s t n) := by
  induction n with
  | zero =>
    have hstart : Call.start R scope s t = (.guarded (.start s ⟨t, 0, false⟩) : Call δ ε σ τ) := by
      simp [Call.start, hupload, mt declaredTooLarge_iff.mp hdeclared]
    rw [Call.after, Function.iterate_zero_apply, hstart]
    exact Same.start ht
  | succ n ih =>
    rw [Call.after, directAfter, Function.iterate_succ_apply', Function.iterate_succ_apply']
    exact ih.step

lemma Call.Safe.bodyLength_le {c : Call δ ε σ τ} (h : c.Safe R scope) (hupload : isUpload scope = true) :
    bodyLength c.delivered ≤ maxUploadRequestBytes := by
  cases c with
  | passed run =>
    have hno : isUpload scope = false := h
    rw [hupload] at hno
    cases hno
  | guarded run => exact Bounded.delivered_le h
  | refusing run t pending sent => exact h.1.delivered_le
  | ended run t sent r => exact h.1.delivered_le

/-- The guard sends the beginning of its response, and only if the application has started none. -/
lemma Call.Safe.byGuard {c : Call δ ε σ τ} (h : c.Safe R scope) :
    c.byGuard <+: R.messages (tooLargeResponse scope) ∧
      (c.byGuard = [] ∨ c.byApplication.any Message.isStart = false) := by
  cases c with
  | passed run => exact ⟨List.nil_prefix, Or.inl rfl⟩
  | guarded run => exact ⟨List.nil_prefix, Or.inl rfl⟩
  | refusing run t pending sent => exact ⟨⟨pending, h.2.2⟩, Or.inr h.2.1⟩
  | ended run t sent r => exact h.2

lemma countP_isStart_messages (response : ErrorResponse) : (R.messages response).countP Message.isStart = 1 := by
  have hbody : py "http.response.body" ≠ py "http.response.start" := by decide
  simp [Rendering.messages, Message.isStart, hbody]

lemma Call.Safe.starts_le {c : Call δ ε σ τ} (h : c.Safe R scope) :
    c.client.countP Message.isStart ≤ max 1 (c.byApplication.countP Message.isStart) := by
  obtain ⟨hbegin, hguard⟩ := h.byGuard
  rw [Call.client, List.countP_append]
  rcases hguard with hnone | hstart
  · rw [hnone]
    exact le_max_right _ _
  · have hone := hbegin.sublist.countP_le (p := Message.isStart)
    rw [countP_isStart_messages] at hone
    have hzero : c.byApplication.countP Message.isStart = 0 := by
      rw [List.countP_eq_zero]
      intro m hm
      simpa using List.any_eq_false.mp hstart m hm
    omega

/-- What was delivered and sent before the last step of a mirrored call. -/
lemma Call.Mirrors.traces {c : Call δ ε σ τ} (h : c.Mirrors server direct) :
    c.delivered = direct.delivered ∧ c.client = direct.sent := by
  cases c with
  | passed run => exact h.elim
  | guarded run =>
    have hsame : Same server run direct := h
    exact ⟨hsame.delivered, (List.append_nil _).trans hsame.sent⟩
  | refusing run t pending sent => exact h.elim
  | ended run t sent r =>
    obtain ⟨hsame, rfl, -⟩ := h
    exact ⟨hsame.delivered, (List.append_nil _).trans hsame.sent⟩

lemma Call.Mirrors.ended_of_result {c : Call δ ε σ τ} (h : c.Mirrors server direct) {r : Except (Exc ε) Unit}
    (hr : c.result = some r) : direct.phase = .ended r := by
  cases c with
  | passed run => exact h.elim
  | guarded run => cases hr
  | refusing run t pending sent => exact h.elim
  | ended run t sent r' =>
    cases hr
    exact h.2.2

lemma Call.Mirrors.result_of_ended {c : Call δ ε σ τ} (h : c.Mirrors server direct) {r : Except (Exc ε) Unit}
    (hr : direct.phase = .ended r) : (c.step server app R scope).result = some r := by
  cases c with
  | passed run => exact h.elim
  | guarded run =>
    have hsame : Same server run direct := h
    have hphase : run.phase = .ended r := hsame.phase.trans hr
    have hown : r ≠ .error .own := by
      rintro rfl
      exact hsame.not_own hphase
    simp only [Call.step, hphase, Call.result]
  | refusing run t pending sent => exact h.elim
  | ended run t sent r' =>
    have hdirect : direct.phase = .ended r' := h.2.2
    rw [hr] at hdirect
    cases hdirect
    rfl

/-- **The guard is bounded and otherwise transparent.**  For every application and every server, the bodies
of the messages that the application is delivered total at most the limit at any time; the guard sends its
response only if the application has started none, so that there is one start where the guard sends it, and
no other than those of the application where it does not.  Where the server's body is within the limit, and
no larger length is declared, the call goes step by step as without the guard. -/
theorem upload_guard (server : Server δ ε τ) (app : Application δ ε σ) (R : Rendering δ) (scope : Scope)
    (hupload : isUpload scope = true) (s : σ) (t : τ) :
    (∀ n, bodyLength (Call.after server app R scope s t n).delivered ≤ maxUploadRequestBytes ∧
      (Call.after server app R scope s t n).byGuard <+: R.messages (tooLargeResponse scope) ∧
      ((Call.after server app R scope s t n).byGuard ≠ [] →
        ∀ m ∈ (Call.after server app R scope s t n).byApplication, m.isStart = false) ∧
      (Call.after server app R scope s t n).client.countP Message.isStart ≤
        max 1 ((Call.after server app R scope s t n).byApplication.countP Message.isStart)) ∧
    ((∀ calls, server.bodyTotal t calls ≤ maxUploadRequestBytes) → ¬ scope.DeclaresTooLarge →
      ∀ n, (Call.after server app R scope s t n).delivered = (directAfter server app s t n).delivered ∧
        (Call.after server app R scope s t n).client = (directAfter server app s t n).sent ∧
        ∀ r, ((Call.after server app R scope s t n).result = some r →
            (directAfter server app s t n).phase = .ended r) ∧
          ((directAfter server app s t n).phase = .ended r →
            (Call.after server app R scope s t (n + 1)).result = some r)) := by
  constructor
  · intro n
    have hsafe : (Call.after server app R scope s t n).Safe R scope := Call.safe n
    obtain ⟨hbegin, hguard⟩ := hsafe.byGuard
    refine ⟨hsafe.bodyLength_le hupload, hbegin, fun hne m hm => ?_, hsafe.starts_le⟩
    simpa using List.any_eq_false.mp (hguard.resolve_left hne) m hm
  · intro ht hdeclared n
    have hmirrors : (Call.after server app R scope s t n).Mirrors server (directAfter server app s t n) :=
      Call.mirrors hupload hdeclared ht n
    refine ⟨hmirrors.traces.1, hmirrors.traces.2, fun r => ⟨hmirrors.ended_of_result, fun hr => ?_⟩⟩
    rw [Call.after, Function.iterate_succ_apply']
    exact hmirrors.result_of_ended hr

namespace Sample

def uploadScope : Scope :=
  ⟨py "http", some (py "POST"), some (py "/api/v1/datasets/00000000-0000-0000-0000-000000000001/upload"), [], py "t"⟩

/-- Reads a message, starts a response and sends its body. -/
inductive Reader where
  | reading | starting | sending | done

def reader : Application ℕ Empty Reader
  | .reading => .receive fun _ => .starting
  | .starting => .send ⟨py "http.response.start", none, 204⟩ fun _ => .sending
  | .sending => .send ⟨py "http.response.body", some [], 0⟩ fun _ => .done
  | .done => .return

/-- Sends the status and no body. -/
def statusOnly : Rendering ℕ := ⟨ErrorResponse.status_code, fun _ => [], fun _ => 0⟩

def onePart : List (Message ℕ) := [⟨py "http.request", some [97, 98], 0⟩]

end Sample

/-- A small upload is answered by the application, as without the guard. -/
theorem upload_guard_sample :
    (Call.after .ofMessages Sample.reader Sample.statusOnly Sample.uploadScope .reading Sample.onePart 5).result =
      some (.ok ()) := by
  refine ((upload_guard .ofMessages Sample.reader Sample.statusOnly Sample.uploadScope (by decide) .reading
    Sample.onePart).2 (fun calls => ?_) ?_ 4).2.2 (.ok ()) |>.2 rfl
  · refine Nat.le_trans (Server.bodyTotal_ofMessages calls _) (by decide)
  · rintro ⟨value, text, length, hvalue, -⟩
    exact absurd hvalue (by simp [contentLengths, Sample.uploadScope])

end DataCheck.Api
