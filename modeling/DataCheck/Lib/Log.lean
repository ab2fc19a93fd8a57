import DataCheck.Lib.Rely
import DataCheck.Lib.Solo

/-!
# Logs

A machine that keeps a log of the effects that were performed.  A statement about a whole run (no
clock reading is before an earlier one, a transaction was not committed) is one about the log of
the state that the run ends in.
-/

namespace DataCheck.Lib

/-- An effect that was performed: by which thread, with which choice of the environment, the answer,
and the states before and after it. -/
structure Event (E : Type) (R : E → Type) (C W : Type) where
  pid : Pid
  eff : E
  choice : C
  answer : R eff
  before : W
  after : W

/-- A state, and what was performed up to it, the latest first. -/
structure Logged (E : Type) (R : E → Type) (C W : Type) where
  state : W
  log : List (Event E R C W)

variable {E C W : Type} {R : E → Type}

def Logged.next (s : Logged E R C W) (p : Pid) (e : E) (c : C) (r : R e) (w : W) : Logged E R C W :=
  ⟨w, ⟨p, e, c, r, s.state, w⟩ :: s.log⟩

/-- The machine that keeps a log. -/
def Machine.logged (M : Machine E R C W) : Machine E R C (Logged E R C W) where
  exec p e c s := (M.exec p e c s.state).map fun out => (out.1, s.next p e c out.1 out.2)

lemma Machine.logged_exec {M : Machine E R C W} {p : Pid} {e : E} {c : C} {s s' : Logged E R C W}
    {r : R e} : M.logged.exec p e c s = some (r, s') ↔
      ∃ w, M.exec p e c s.state = some (r, w) ∧ s' = s.next p e c r w := by
  simp only [Machine.logged, Option.map_eq_some_iff, Prod.exists, Prod.mk.injEq]
  constructor
  · rintro ⟨r', w, he, rfl, rfl⟩
    exact ⟨w, he, rfl⟩
  · rintro ⟨w, he, rfl⟩
    exact ⟨r, w, he, rfl, rfl⟩

/-- Such an effect was performed. -/
def Logged.Did (φ : E → C → Prop) (s : Logged E R C W) : Prop := ∃ e ∈ s.log, φ e.eff e.choice

lemma Logged.did_next {φ : E → C → Prop} {s : Logged E R C W} {p : Pid} {e : E} {c : C} {r : R e} {w : W} :
    (s.next p e c r w).Did φ ↔ φ e c ∨ s.Did φ := by simp [Did, next]

lemma Logged.did_next_of_not {φ : E → C → Prop} {s : Logged E R C W} {p : Pid} {e : E} {c : C} {r : R e} {w : W}
    (h : ¬ φ e c) : (s.next p e c r w).Did φ ↔ s.Did φ := did_next.trans (or_iff_right h)

lemma Logged.not_did_start {φ : E → C → Prop} {w : W} : ¬ (⟨w, []⟩ : Logged E R C W).Did φ := by simp [Did]

/-! ### Runs with a condition on each step -/

/-- Every event of the log was good when it came, after the events before it. -/
def Always (good : Event E R C W → List (Event E R C W) → Prop) : List (Event E R C W) → Prop
  | [] => True
  | e :: log => good e log ∧ Always good log

lemma always_iff {good : Event E R C W → List (Event E R C W) → Prop} {log : List (Event E R C W)} :
    Always good log ↔ ∀ later e earlier, log = later ++ e :: earlier → good e earlier := by
  induction log with
  | nil =>
    refine iff_of_true trivial fun later e earlier h => ?_
    cases later <;> cases h
  | cons e₀ log ih =>
    rw [Always, ih]
    constructor
    · rintro ⟨he, hlog⟩ later e earlier h
      rcases List.cons_eq_append_iff.mp h with ⟨rfl, h'⟩ | ⟨later', rfl, h'⟩
      · cases h'
        exact he
      · exact hlog later' e earlier h'
    · exact fun h => ⟨h [] e₀ log rfl, fun later e earlier hl => h (e₀ :: later) e earlier (by rw [hl]; rfl)⟩

lemma Always.tail {good : Event E R C W → List (Event E R C W) → Prop} {later log : List (Event E R C W)}
    (h : Always good (later ++ log)) : Always good log := by
  induction later with
  | nil => exact h
  | cons e later ih => exact ih h.2

lemma always_true {log : List (Event E R C W)} : Always (fun _ _ => True) log := by
  induction log with
  | nil => exact trivial
  | cons e log ih => exact ⟨trivial, ih⟩

open Classical in
/-- The machine that keeps a log and performs only what is good. -/
noncomputable def Machine.only (M : Machine E R C W) (good : Event E R C W → List (Event E R C W) → Prop) :
    Machine E R C (Logged E R C W) where
  exec p e c s := (M.exec p e c s.state).bind fun out =>
    if good ⟨p, e, c, out.1, s.state, out.2⟩ s.log then some (out.1, s.next p e c out.1 out.2) else none

section Only

variable {K α : Type} {M : Machine E R C W} {good : Event E R C W → List (Event E R C W) → Prop}
  {body : K → Prog E R α} {calls : K → Prop} {w₀ : W} {cfg : Config K E R (Logged E R C W) α}

lemma Machine.only_exec {p : Pid} {e : E} {c : C} {s s' : Logged E R C W} {r : R e} :
    (M.only good).exec p e c s = some (r, s') ↔ ∃ w, M.exec p e c s.state = some (r, w) ∧
      s' = s.next p e c r w ∧ good ⟨p, e, c, r, s.state, w⟩ s.log := by
  simp only [Machine.only, Option.bind_eq_some_iff, Prod.exists]
  constructor
  · rintro ⟨r', w, he, h⟩
    split at h
    · next hg =>
      cases h
      exact ⟨w, he, rfl, hg⟩
    · cases h
  · rintro ⟨w, he, rfl, hg⟩
    exact ⟨r, w, he, if_pos hg⟩

/-- A run whose steps are all good is a run of the machine that performs only those. -/
theorem reachable_only (hr : Config.Reachable M.logged body calls ⟨w₀, []⟩ cfg) :
    Always good cfg.hist.now.log → Config.Reachable (M.only good) body calls ⟨w₀, []⟩ cfg := by
  induction hr with
  | init => exact fun _ => .init
  | @step cfg cfg' l hr hl hs ih =>
    intro ha
    rcases Config.step_cases hs with ⟨p, k, rfl, -, hh, -⟩ | ⟨p, c, k, h₀, e, f, r, s, rfl, hp, he, hh, hth⟩
    · rw [hh] at ha
      exact .step (.spawn p k) (ih ha) hl hs
    · obtain ⟨w, hw, rfl⟩ := Machine.logged_exec.mp he
      rw [hh] at ha
      have hx : (M.only good).exec p e c cfg.hist.now = some (r, cfg.hist.now.next p e c r w) :=
        Machine.only_exec.mpr ⟨w, hw, rfl, ha.1⟩
      refine .step (.run p c) (ih ha.2) hl ?_
      simp only [Config.step, hp, he] at hs
      simp only [Config.step, hp, hx]
      exact hs

/-- A run of the machine that performs only what is good is a run. -/
theorem reachable_logged (hr : Config.Reachable (M.only good) body calls ⟨w₀, []⟩ cfg) :
    Config.Reachable M.logged body calls ⟨w₀, []⟩ cfg := by
  induction hr with
  | init => exact .init
  | @step cfg cfg' l hr hl hs ih =>
    refine .step l ih hl ?_
    rcases Config.step_cases hs with ⟨p, k, rfl, -, -, -⟩ | ⟨p, c, k, h₀, e, f, r, s, rfl, hp, he, -, -⟩
    · exact hs
    · obtain ⟨w, hw, rfl, -⟩ := Machine.only_exec.mp he
      have hx : M.logged.exec p e c cfg.hist.now = some (r, cfg.hist.now.next p e c r w) :=
        Machine.logged_exec.mpr ⟨w, hw, rfl⟩
      simp only [Config.step, hp, he] at hs
      simp only [Config.step, hp, hx]
      exact hs

/-- What was performed was performed by threads that were started, and nothing of it before. -/
theorem reachable_pids (hr : Config.Reachable M.logged body calls ⟨w₀, []⟩ cfg) :
    (∀ e ∈ cfg.hist.now.log, cfg.threads e.pid ≠ none) ∧
      ∀ p t, cfg.threads p = some t → ∀ e ∈ t.start.now.log, e.pid ≠ p := by
  induction hr with
  | init => exact ⟨fun e he => absurd he List.not_mem_nil, fun p t ht => nomatch ht⟩
  | @step cfg cfg' l hr hl hs ih =>
    obtain ⟨hlog, hstart⟩ := ih
    rcases Config.step_cases hs with ⟨p, k, -, hp, hh, hth⟩ | ⟨p, c, k, h₀, e, f, r, s, -, hp, he, hh, hth⟩
    · rw [hh, hth]
      refine ⟨fun e he => ?_, fun q t ht => ?_⟩
      · have hne : e.pid ≠ p := fun hep => hlog e he (hep ▸ hp)
        rw [Function.update_of_ne hne]
        exact hlog e he
      · by_cases hqp : q = p
        · subst hqp
          rw [Function.update_self] at ht
          cases ht
          exact fun e he hep => hlog e he (hep ▸ hp)
        · rw [Function.update_of_ne hqp] at ht
          exact hstart q t ht
    · obtain ⟨w, -, rfl⟩ := Machine.logged_exec.mp he
      rw [hh, hth]
      refine ⟨fun e' he' => ?_, fun q t ht => ?_⟩
      · by_cases hep : e'.pid = p
        · rw [hep, Function.update_self]
          exact Option.some_ne_none _
        · rw [Function.update_of_ne hep]
          rcases List.mem_cons.mp he' with rfl | he'
          · exact absurd rfl hep
          · exact hlog e' he'
      · by_cases hqp : q = p
        · subst hqp
          rw [Function.update_self] at ht
          cases ht
          exact hstart q ⟨k, h₀, .vis e f⟩ hp
        · rw [Function.update_of_ne hqp] at ht
          exact hstart q t ht

lemma reachable_spawn (hr : Config.Reachable (M.only good) body calls ⟨w₀, []⟩ cfg) {p : Pid}
    (hp : cfg.threads p = none) : ∀ e ∈ cfg.hist.now.log, e.pid ≠ p :=
  fun e he hep => (reachable_pids (reachable_logged hr)).1 e he (hep ▸ hp)

/-- A thread performs no more effects than its program may. -/
theorem reachable_within {n : ℕ} (hbody : ∀ k, calls k → (body k).Within n)
    (hr : Config.Reachable M.logged body calls ⟨w₀, []⟩ cfg) : ∀ p t, cfg.threads p = some t →
      ∃ m, t.prog.Within m ∧ m + (cfg.hist.now.log.countP fun e => e.pid = p) = n := by
  induction hr with
  | init => exact fun p t ht => nomatch ht
  | @step cfg cfg' l hr hl hs ih =>
    intro q t hq
    rcases Config.step_cases hs with ⟨p, k, rfl, hp, hh, hth⟩ | ⟨p, c, k, h₀, e, f, r, s, -, hp, he, hh, hth⟩
    · rw [hth] at hq
      rw [hh]
      by_cases hqp : q = p
      · subst hqp
        rw [Function.update_self] at hq
        cases hq
        have hnone : (cfg.hist.now.log.countP fun e => e.pid = q) = 0 := by
          refine List.countP_eq_zero.mpr fun e he => ?_
          have hne : e.pid ≠ q := fun hep => (reachable_pids hr).1 e he (hep ▸ hp)
          simpa using hne
        exact ⟨n, hbody k (hl q k rfl), by omega⟩
      · rw [Function.update_of_ne hqp] at hq
        exact ih q t hq
    · obtain ⟨w, -, rfl⟩ := Machine.logged_exec.mp he
      rw [hth] at hq
      rw [hh]
      by_cases hqp : q = p
      · subst hqp
        rw [Function.update_self] at hq
        cases hq
        obtain ⟨m, hm, hcount⟩ := ih q _ hp
        cases m with
        | zero => exact hm.elim
        | succ m =>
          refine ⟨m, hm r, ?_⟩
          simp only [Hist.push_now, Logged.next, List.countP_cons, decide_true, if_true]
          omega
      · rw [Function.update_of_ne hqp] at hq
        obtain ⟨m, hm, hcount⟩ := ih q t hq
        refine ⟨m, hm, ?_⟩
        simp only [Hist.push_now, Logged.next, List.countP_cons, Ne.symm hqp, decide_false]
        simpa using hcount

/-- **Threads that are safe one by one are safe together**, in a run whose steps are all good. -/
theorem reachable_safe_only {S : Contract K E (Logged E R C W)}
    {P₀ : Caller K (Logged E R C W) → Assert (Logged E R C W)}
    {Q : Caller K (Logged E R C W) → α → Assert (Logged E R C W)} (hinit : S.Inv ⟨⟨w₀, []⟩, []⟩)
    (hstart : ∀ t : Caller K (Logged E R C W), (∀ e ∈ t.start.now.log, e.pid ≠ t.pid) →
      Stable S t.pid (P₀ t) ∧ P₀ t t.start)
    (hbody : ∀ t : Caller K (Logged E R C W), calls t.call →
      Safe (M.only good) S t (body t.call) (P₀ t) (Q t))
    (hr : Config.Reachable M.logged body calls ⟨w₀, []⟩ cfg) (hgood : Always good cfg.hist.now.log) :
    S.Inv cfg.hist ∧ ∀ p t, cfg.threads p = some t →
      calls t.call ∧ ThreadOk (M.only good) S Q cfg.hist p t :=
  reachable_safe_from (G := fun t => ∀ e ∈ t.start.now.log, e.pid ≠ t.pid)
    (fun _ _ _ hr hp => reachable_spawn hr hp) hinit hstart (fun t _ => hbody t) (reachable_only hr hgood)

end Only

end DataCheck.Lib
