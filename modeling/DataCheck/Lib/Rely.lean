import DataCheck.Lib.Threads

/-!
# Reasoning about one thread at a time

A contract says what always holds of the shared state (`Inv`), what a step of a thread may do to
it (`Guar`), and what holds when a thread is about to perform an effect (`At`).  `Safe` checks one
program against the contract: every assertion it relies on between two effects is stable, that is,
kept by what the contract lets the other threads do.  `reachable_safe` puts the threads together:
when every call is safe by itself, the contract holds of every configuration, whatever the
scheduler and the environment do.

`Triple` is the same for method bodies, with one postcondition for a return and one for an
exception, and one rule for each way of building a body.
-/

namespace DataCheck.Lib

/-- A statement about a history. -/
abbrev Assert (W : Type) := Hist W → Prop

/-- A thread: its identifier, its call, and the moment it started. -/
structure Caller (K W : Type) where
  pid : Pid
  call : K
  start : Hist W

/-- What a system promises. -/
structure Contract (K E W : Type) where
  /-- What holds of every history. -/
  Inv : Assert W
  /-- What a step of the thread `p`, running the call `k`, may do to the history `h`. -/
  Guar : Pid → K → Hist W → W → Prop
  /-- What holds when a thread is about to perform an effect. -/
  At : Caller K W → E → Assert W

variable {K E C W α β : Type} {R : E → Type}

/-- No step of another thread ends `P`. -/
def Stable (S : Contract K E W) (p : Pid) (P : Assert W) : Prop :=
  ∀ q k h w, q ≠ p → S.Inv h → P h → S.Guar q k h w → S.Inv (h.push w) → P (h.push w)

section Stable

variable {S : Contract K E W} {p : Pid}

lemma Stable.const (φ : Prop) : Stable S p fun _ => φ := fun _ _ _ _ _ _ h _ _ => h

lemma Stable.since (h₀ : Hist W) : Stable S p fun h => h₀ ≤ h :=
  fun _ _ _ w _ _ h _ _ => Hist.le_push w h

lemma Stable.and {P P' : Assert W} (hP : Stable S p P) (hP' : Stable S p P') :
    Stable S p fun h => P h ∧ P' h :=
  fun q k h w hq hi h' hg hi' => ⟨hP q k h w hq hi h'.1 hg hi', hP' q k h w hq hi h'.2 hg hi'⟩

lemma Stable.or {P P' : Assert W} (hP : Stable S p P) (hP' : Stable S p P') :
    Stable S p fun h => P h ∨ P' h :=
  fun q k h w hq hi h' hg hi' =>
    h'.imp (fun x => hP q k h w hq hi x hg hi') fun x => hP' q k h w hq hi x hg hi'

lemma Stable.exists {ι : Sort*} {P : ι → Assert W} (hP : ∀ i, Stable S p (P i)) :
    Stable S p fun h => ∃ i, P i h :=
  fun q k h w hq hi ⟨i, h'⟩ hg hi' => ⟨i, hP i q k h w hq hi h' hg hi'⟩

lemma Stable.forall {ι : Sort*} {P : ι → Assert W} (hP : ∀ i, Stable S p (P i)) :
    Stable S p fun h => ∀ i, P i h :=
  fun q k h w hq hi h' hg hi' i => hP i q k h w hq hi (h' i) hg hi'

lemma Stable.imp (φ : Prop) {P : Assert W} (hP : Stable S p P) : Stable S p fun h => φ → P h :=
  Stable.forall fun _ => hP

end Stable

/-! ### Programs -/

/-- From any history with `P`, the program of the thread `t` keeps the contract at every step and
stops only with `Q`. -/
def Safe (M : Machine E R C W) (S : Contract K E W) (t : Caller K W) :
    Prog E R α → Assert W → (α → Assert W) → Prop
  | .ret a, P, Q => ∀ h, S.Inv h → P h → Q a h
  | .vis e f, P, Q =>
    (∀ h, S.Inv h → P h → S.At t e h) ∧
    ∀ h c r w, S.Inv h → P h → M.exec t.pid e c h.now = some (r, w) →
      S.Guar t.pid t.call h w ∧ S.Inv (h.push w) ∧
        ∃ P', Stable S t.pid P' ∧ P' (h.push w) ∧ Safe M S t (f r) P' Q

section Safe

variable {M : Machine E R C W} {S : Contract K E W} {t : Caller K W}

lemma Safe.pre {m : Prog E R α} {P P' : Assert W} {Q : α → Assert W} (hm : Safe M S t m P' Q)
    (hP : ∀ h, S.Inv h → P h → P' h) : Safe M S t m P Q := by
  cases m with
  | ret a => exact fun h hi hp => hm h hi (hP h hi hp)
  | vis e f =>
    exact ⟨fun h hi hp => hm.1 h hi (hP h hi hp), fun h c r w hi hp => hm.2 h c r w hi (hP h hi hp)⟩

lemma Safe.post {m : Prog E R α} {P : Assert W} {Q Q' : α → Assert W} (hm : Safe M S t m P Q')
    (hQ : ∀ a h, S.Inv h → Q' a h → Q a h) : Safe M S t m P Q := by
  induction m generalizing P with
  | ret a => exact fun h hi hp => hQ a h hi (hm h hi hp)
  | vis e f ih =>
    refine ⟨hm.1, fun h c r w hi hp he => ?_⟩
    obtain ⟨hg, hi', P', hs, hp', hf⟩ := hm.2 h c r w hi hp he
    exact ⟨hg, hi', P', hs, hp', ih r hf⟩

lemma Safe.exists_pre {ι : Sort*} {m : Prog E R α} {P : ι → Assert W} {Q : α → Assert W}
    (hm : ∀ i, Safe M S t m (P i) Q) : Safe M S t m (fun h => ∃ i, P i h) Q := by
  cases m with
  | ret a => exact fun h hi ⟨i, hp⟩ => hm i h hi hp
  | vis e f =>
    exact ⟨fun h hi ⟨i, hp⟩ => (hm i).1 h hi hp, fun h c r w hi ⟨i, hp⟩ => (hm i).2 h c r w hi hp⟩

/-- From a precondition that never holds, every program is safe. -/
lemma Safe.absurd {m : Prog E R α} {P : Assert W} {Q : α → Assert W} (hP : ∀ h, S.Inv h → ¬ P h) :
    Safe M S t m P Q := by
  cases m with
  | ret a => exact fun h hi hp => (hP h hi hp).elim
  | vis e f =>
    exact ⟨fun h hi hp => (hP h hi hp).elim, fun h _ _ _ hi hp => (hP h hi hp).elim⟩

lemma Safe.bind {m : Prog E R α} {f : α → Prog E R β} {P : Assert W} {Q' : α → Assert W}
    {Q : β → Assert W} (hm : Safe M S t m P Q') (hf : ∀ a, Safe M S t (f a) (Q' a) Q) :
    Safe M S t (m.bind f) P Q := by
  induction m generalizing P with
  | ret a => exact (hf a).pre hm
  | vis e g ih =>
    refine ⟨hm.1, fun h c r w hi hp he => ?_⟩
    obtain ⟨hg, hi', P', hs, hp', hf'⟩ := hm.2 h c r w hi hp he
    exact ⟨hg, hi', P', hs, hp', ih r hf'⟩

end Safe

/-! ### Configurations -/

section Reachable

variable {M : Machine E R C W} {S : Contract K E W} {body : K → Prog E R α} {calls : K → Prop}
  {w₀ : W} {P₀ : Caller K W → Assert W} {Q : Caller K W → α → Assert W} {cfg : Config K E R W α}

/-- What a thread can rely on: a stable assertion from which the rest of its program is safe. -/
def ThreadOk (M : Machine E R C W) (S : Contract K E W) (Q : Caller K W → α → Assert W)
    (h : Hist W) (p : Pid) (t : Thread K E R W α) : Prop :=
  t.start ≤ h ∧ ∃ P, Stable S p P ∧ P h ∧
    Safe M S ⟨p, t.call, t.start⟩ t.prog P (Q ⟨p, t.call, t.start⟩)

/-- **Threads that are safe one by one are safe together**, when each starts from an assertion that
holds as it is started, and that the others keep.  `G` is what is known of a thread as it starts. -/
theorem reachable_safe_from {G : Caller K W → Prop}
    (hspawn : ∀ (cfg : Config K E R W α) p k, Config.Reachable M body calls w₀ cfg →
      cfg.threads p = none → G ⟨p, k, cfg.hist⟩)
    (hinit : S.Inv ⟨w₀, []⟩) (hstart : ∀ t : Caller K W, G t → Stable S t.pid (P₀ t) ∧ P₀ t t.start)
    (hbody : ∀ t : Caller K W, G t → calls t.call → Safe M S t (body t.call) (P₀ t) (Q t))
    (hr : Config.Reachable M body calls w₀ cfg) :
    S.Inv cfg.hist ∧ ∀ p t, cfg.threads p = some t → calls t.call ∧ ThreadOk M S Q cfg.hist p t := by
  induction hr with
  | init => exact ⟨hinit, fun p t ht => by cases ht⟩
  | @step cfg cfg' l hr hl hs ih =>
    obtain ⟨hi, hth⟩ := ih
    rcases Config.step_cases hs with
      ⟨p, k, rfl, hnone, hhist, hthr⟩ | ⟨p, c, k, h₀, e, f, r, w, rfl, hp, he, hhist, hthr⟩
    · -- a call starts: the state stays
      refine ⟨hhist ▸ hi, fun q t hq => ?_⟩
      rw [hhist]
      rw [hthr] at hq
      by_cases hqp : q = p
      · subst hqp
        rw [Function.update_self] at hq
        cases hq
        have hg := hspawn cfg q k hr hnone
        obtain ⟨hst, hp₀⟩ := hstart ⟨q, k, cfg.hist⟩ hg
        exact ⟨hl q k rfl, Hist.le_rfl, _, hst, hp₀, hbody ⟨q, k, cfg.hist⟩ hg (hl q k rfl)⟩
      · rw [Function.update_of_ne hqp] at hq
        exact hth q t hq
    · -- a thread performs an effect: its own assertion moves on, the others are stable
      obtain ⟨hk, hst, P, -, hpP, hsafe⟩ := hth p _ hp
      obtain ⟨hg, hi', P', hs', hp', hsafe'⟩ := hsafe.2 cfg.hist c r w hi hpP he
      rw [hhist]
      refine ⟨hi', fun q t hq => ?_⟩
      rw [hthr] at hq
      by_cases hqp : q = p
      · subst hqp
        rw [Function.update_self] at hq
        cases hq
        exact ⟨hk, Hist.le_push w hst, P', hs', hp', hsafe'⟩
      · rw [Function.update_of_ne hqp] at hq
        obtain ⟨hkq, hstq, Pq, hsq, hpq, hsafeq⟩ := hth q t hq
        exact ⟨hkq, Hist.le_push w hstq, Pq, hsq,
          hsq p k cfg.hist w (Ne.symm hqp) hi hpq hg hi', hsafeq⟩

/-- The same, when nothing is known of a thread as it starts. -/
theorem reachable_safe (hinit : S.Inv ⟨w₀, []⟩)
    (hstart : ∀ t : Caller K W, Stable S t.pid (P₀ t) ∧ P₀ t t.start)
    (hbody : ∀ t : Caller K W, calls t.call → Safe M S t (body t.call) (P₀ t) (Q t))
    (hr : Config.Reachable M body calls w₀ cfg) :
    S.Inv cfg.hist ∧ ∀ p t, cfg.threads p = some t → calls t.call ∧ ThreadOk M S Q cfg.hist p t :=
  reachable_safe_from (G := fun _ => True) (fun _ _ _ _ _ => trivial) hinit (fun t _ => hstart t)
    (fun t _ => hbody t) hr

variable (hinit : S.Inv ⟨w₀, []⟩)
  (hstart : ∀ t : Caller K W, Stable S t.pid (P₀ t) ∧ P₀ t t.start)
  (hbody : ∀ t : Caller K W, calls t.call → Safe M S t (body t.call) (P₀ t) (Q t))
include hinit hstart hbody

/-- The invariant holds of every configuration reached. -/
theorem reachable_inv (hr : Config.Reachable M body calls w₀ cfg) : S.Inv cfg.hist :=
  (reachable_safe hinit hstart hbody hr).1

/-- A call that has stopped satisfies its postcondition, also long after it stopped. -/
theorem reachable_post (hr : Config.Reachable M body calls w₀ cfg) {p : Pid} {k : K} {h₀ : Hist W}
    {a : α} (hp : cfg.threads p = some ⟨k, h₀, .ret a⟩) : Q ⟨p, k, h₀⟩ a cfg.hist := by
  obtain ⟨hi, hth⟩ := reachable_safe hinit hstart hbody hr
  obtain ⟨-, -, P, -, hP, hs⟩ := hth p _ hp
  exact hs cfg.hist hi hP

/-- A thread about to perform an effect satisfies what the contract asks there. -/
theorem reachable_at (hr : Config.Reachable M body calls w₀ cfg) {p : Pid} {k : K} {h₀ : Hist W}
    {e : E} {f : R e → Prog E R α} (hp : cfg.threads p = some ⟨k, h₀, .vis e f⟩) :
    S.At ⟨p, k, h₀⟩ e cfg.hist := by
  obtain ⟨hi, hth⟩ := reachable_safe hinit hstart hbody hr
  obtain ⟨-, -, P, -, hP, hs⟩ := hth p _ hp
  exact hs.1 cfg.hist hi hP

/-- Every step of a thread is one the contract allows. -/
theorem reachable_guar (hr : Config.Reachable M body calls w₀ cfg) {p : Pid} {k : K} {h₀ : Hist W}
    {e : E} {f : R e → Prog E R α} (hp : cfg.threads p = some ⟨k, h₀, .vis e f⟩) {c : C} {r : R e}
    {w : W} (he : M.exec p e c cfg.hist.now = some (r, w)) : S.Guar p k cfg.hist w := by
  obtain ⟨hi, hth⟩ := reachable_safe hinit hstart hbody hr
  obtain ⟨-, -, P, -, hP, hs⟩ := hth p _ hp
  exact (hs.2 cfg.hist c r w hi hP he).1

/-- The invariant held all along. -/
theorem reachable_past (hr : Config.Reachable M body calls w₀ cfg) :
    ∀ h ≤ cfg.hist, S.Inv h := by
  induction hr with
  | init =>
    intro h hle
    cases hle
    exact hinit
  | @step cfg cfg' l hr hl hs ih =>
    have hi := reachable_inv hinit hstart hbody (.step l hr hl hs)
    rcases Config.step_cases hs with ⟨_, _, _, _, hh, _⟩ | ⟨_, _, _, _, _, _, _, w, _, _, _, hh, _⟩
    · rw [hh]
      exact ih
    · intro h hle
      rw [hh] at hle hi
      rcases Hist.le_push_iff.mp hle with rfl | hle
      · exact hi
      · exact ih h hle

/-- What no allowed step ends stays. -/
theorem reachable_mono {φ : W → Prop} (hφ : ∀ p k h w, S.Inv h → S.Guar p k h w → φ h.now → φ w)
    (hr : Config.Reachable M body calls w₀ cfg) : ∀ h ≤ cfg.hist, φ h.now → φ cfg.hist.now := by
  induction hr with
  | init =>
    intro h hle hp
    cases hle
    exact hp
  | @step cfg cfg' l hr hl hs ih =>
    rcases Config.step_cases hs with
      ⟨_, _, _, _, hh, _⟩ | ⟨p, c, k, h₀, e, f, r, w, _, hp, he, hh, _⟩
    · rw [hh]
      exact ih
    · have hi := reachable_inv hinit hstart hbody hr
      have hg := reachable_guar hinit hstart hbody hr hp he
      intro h hle hφh
      rw [hh] at hle ⊢
      rcases Hist.le_push_iff.mp hle with rfl | hle
      · exact hφh
      · exact hφ p k cfg.hist w hi hg (ih h hle hφh)

end Reachable

/-! ### Method bodies -/

variable {A : E → Type} {X σ τ : Type}

/-- `Q` for a return and `Z` for an exception, as one postcondition. -/
def post (Q : α → σ → Assert W) (Z : X → σ → Assert W) : Except X α × σ → Assert W
  | (.ok a, s) => Q a s
  | (.error x, s) => Z x s

/-- From `P` the body keeps the contract, returns only with `Q` and raises only with `Z`. -/
def Triple (M : Machine E (fun e => Except X (A e)) C W) (S : Contract K E W) (t : Caller K W)
    (P : σ → Assert W) (m : Op E A X σ α) (Q : α → σ → Assert W) (Z : X → σ → Assert W) : Prop :=
  ∀ s, Safe M S t (m s) (P s) (post Q Z)

section Triple

variable {M : Machine E (fun e => Except X (A e)) C W} {S : Contract K E W} {t : Caller K W}
  {P P' : σ → Assert W} {Z Y : X → σ → Assert W}

theorem Triple.pure {a : α} {Q : α → σ → Assert W} (hQ : ∀ s h, S.Inv h → P s h → Q a s h) :
    Triple M S t P (Op.pure a) Q Z := fun s h hi hp => hQ s h hi hp

theorem Triple.raise {x : X} {Q : α → σ → Assert W} (hZ : ∀ s h, S.Inv h → P s h → Z x s h) :
    Triple M S t P (Op.raise x) Q Z := fun s h hi hp => hZ s h hi hp

theorem Triple.assign {f : σ → σ} {Q : Unit → σ → Assert W}
    (hQ : ∀ s h, S.Inv h → P s h → Q () (f s) h) : Triple M S t P (Op.assign f) Q Z :=
  fun s h hi hp => hQ s h hi hp

theorem Triple.ofExcept {r : Except X α} {Q : α → σ → Assert W}
    (hQ : ∀ a s h, r = .ok a → S.Inv h → P s h → Q a s h)
    (hZ : ∀ x s h, r = .error x → S.Inv h → P s h → Z x s h) :
    Triple M S t P (Op.ofExcept r) Q Z := by
  cases r with
  | ok a => exact Triple.pure fun s h hi hp => hQ a s h rfl hi hp
  | error x => exact Triple.raise fun s h hi hp => hZ x s h rfl hi hp

theorem Triple.pre {m : Op E A X σ α} {Q : α → σ → Assert W} (hm : Triple M S t P' m Q Z)
    (hP : ∀ s h, S.Inv h → P s h → P' s h) : Triple M S t P m Q Z := fun s => (hm s).pre (hP s)

theorem Triple.post {m : Op E A X σ α} {Q Q' : α → σ → Assert W} (hm : Triple M S t P m Q' Y)
    (hQ : ∀ a s h, S.Inv h → Q' a s h → Q a s h) (hZ : ∀ x s h, S.Inv h → Y x s h → Z x s h) :
    Triple M S t P m Q Z := fun s => (hm s).post fun out h hi hq => by
  obtain ⟨r, s'⟩ := out
  cases r with
  | ok a => exact hQ a s' h hi hq
  | error x => exact hZ x s' h hi hq

theorem Triple.exists_pre {ι : Sort*} {P : ι → σ → Assert W} {m : Op E A X σ α}
    {Q : α → σ → Assert W} (hm : ∀ i, Triple M S t (P i) m Q Z) :
    Triple M S t (fun s h => ∃ i, P i s h) m Q Z := fun s => Safe.exists_pre fun i => hm i s

theorem Triple.or_pre {m : Op E A X σ α} {Q : α → σ → Assert W} (hm : Triple M S t P m Q Z)
    (hm' : Triple M S t P' m Q Z) : Triple M S t (fun s h => P s h ∨ P' s h) m Q Z :=
  (Triple.exists_pre fun b : Bool => (match b with | true => hm | false => hm' :
    Triple M S t (bif b then P else P') m Q Z)).pre fun _ _ _ hp => hp.elim (⟨true, ·⟩) (⟨false, ·⟩)

/-- A fact that the precondition contains may be used in the proof of the body. -/
theorem Triple.assume {φ : Prop} {m : Op E A X σ α} {Q : α → σ → Assert W}
    (hφ : ∀ s h, S.Inv h → P s h → φ) (hm : φ → Triple M S t P m Q Z) : Triple M S t P m Q Z :=
  fun s => (Safe.exists_pre fun i : φ => hm i s).pre fun h hi hp => ⟨hφ s h hi hp, hp⟩

theorem Triple.bind {m : Op E A X σ α} {f : α → Op E A X σ β} {B : α → σ → Assert W}
    {Q : β → σ → Assert W} (hm : Triple M S t P m B Z)
    (hf : ∀ a, Triple M S t (B a) (f a) Q Z) : Triple M S t P (m >>= f) Q Z := fun s => by
  refine (hm s).bind fun out => ?_
  obtain ⟨r, s'⟩ := out
  cases r with
  | ok a => exact hf a s'
  | error x => exact fun h _ hz => hz

theorem Triple.catching {m : Op E A X σ α} {g : X → Op E A X σ α} {Q : α → σ → Assert W}
    (hm : Triple M S t P m Q Y) (hg : ∀ x, Triple M S t (Y x) (g x) Q Z) :
    Triple M S t P (Op.catching m g) Q Z := fun s => by
  refine (hm s).bind fun out => ?_
  obtain ⟨r, s'⟩ := out
  cases r with
  | ok a => exact fun h _ hq => hq
  | error x => exact hg x s'

theorem Triple.withLocals {init : τ} {m : Op E A X τ α}
    {Q : Except X α × τ → σ → Assert W}
    (hm : ∀ s, Triple M S t (fun v h => v = init ∧ P s h) m (fun a v => Q (.ok a, v) s)
      fun x v => Q (.error x, v) s) :
    Triple M S t P (Op.withLocals init m) Q Z := fun s => by
  refine (((hm s) init).pre fun h _ hp => ⟨rfl, hp⟩).bind fun out => ?_
  obtain ⟨r, v⟩ := out
  cases r <;> exact fun h _ hq => hq

/-- One effect: what the step may do, what holds after it, and that the others keep that. -/
theorem Triple.perform {e : E} {Q : A e → σ → Assert W}
    (hat : ∀ s h, S.Inv h → P s h → S.At t e h)
    (hQs : ∀ a s, Stable S t.pid (Q a s)) (hZs : ∀ x s, Stable S t.pid (Z x s))
    (hstep : ∀ s h c r w, S.Inv h → P s h → M.exec t.pid e c h.now = some (r, w) →
      S.Guar t.pid t.call h w ∧ S.Inv (h.push w) ∧
        (∀ a, r = .ok a → Q a s (h.push w)) ∧ ∀ x, r = .error x → Z x s (h.push w)) :
    Triple M S t P (Op.perform e) Q Z := fun s => by
  refine ⟨hat s, fun h c r w hi hp he => ?_⟩
  obtain ⟨hg, hi', hq, hz⟩ := hstep s h c r w hi hp he
  refine ⟨hg, hi', ?_⟩
  cases r with
  | ok a => exact ⟨Q a s, hQs a s, hq a rfl, fun h' _ hq' => hq'⟩
  | error x => exact ⟨Z x s, hZs x s, hz x rfl, fun h' _ hz' => hz'⟩

end Triple

end DataCheck.Lib
