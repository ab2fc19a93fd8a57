import DataCheck.Lib.Prog
import Mathlib.Data.Nat.Notation

/-!
# Threads

Any number of programs run at once on one shared state.  A scheduler picks a thread, the thread
performs its next effect, and a machine says how the shared state answers; between two effects of
a thread every other thread may run.  A configuration keeps the whole history of shared states,
so that what a thread saw at some moment can be stated after that moment.
-/

namespace DataCheck.Lib

abbrev Pid := ℕ

/-- What effects do.  `exec p e c w` is the answer to the effect `e` of the thread `p` and the next
state, when the environment makes the choices `c` (a clock reading, a fault); `none` where the
thread has to wait or the environment cannot choose so. -/
structure Machine (E : Type) (R : E → Type) (C W : Type) where
  exec : Pid → (e : E) → C → W → Option (R e × W)

/-! ### Histories -/

/-- The present state and the states before it, the latest first. -/
structure Hist (W : Type) where
  now : W
  past : List W

namespace Hist

variable {W : Type}

def push (h : Hist W) (w : W) : Hist W := ⟨w, h.now :: h.past⟩

@[simp] lemma push_now (h : Hist W) (w : W) : (h.push w).now = w := rfl

lemma push_inj {h h' : Hist W} {w w' : W} (he : h.push w = h'.push w') : h = h' ∧ w = w' := by
  obtain ⟨n, l⟩ := h
  obtain ⟨n', l'⟩ := h'
  simp only [push, mk.injEq, List.cons.injEq] at he
  obtain ⟨rfl, rfl, rfl⟩ := he
  exact ⟨rfl, rfl⟩

/-- `h₀` is an earlier moment of the history `h`, or `h` itself. -/
inductive Le (h₀ : Hist W) : Hist W → Prop
  | refl : Le h₀ h₀
  | push {h : Hist W} (w : W) : Le h₀ h → Le h₀ (h.push w)

instance : LE (Hist W) := ⟨Le⟩

lemma le_rfl {h : Hist W} : h ≤ h := Le.refl

lemma le_push {h₀ h : Hist W} (w : W) (hl : h₀ ≤ h) : h₀ ≤ h.push w := Le.push w hl

lemma le_trans {h₁ h₂ h₃ : Hist W} (h12 : h₁ ≤ h₂) (h23 : h₂ ≤ h₃) : h₁ ≤ h₃ := by
  induction h23 with
  | refl => exact h12
  | push w _ ih => exact le_push w ih

/-- An earlier moment of a history with one more state. -/
lemma le_push_iff {h₀ h : Hist W} {w : W} : h₀ ≤ h.push w ↔ h₀ = h.push w ∨ h₀ ≤ h := by
  constructor
  · intro hl
    generalize hx : h.push w = x at hl
    cases hl with
    | refl => exact Or.inl rfl
    | @push h' w' hl' => exact Or.inr ((push_inj hx).1 ▸ hl')
  · rintro (rfl | hl)
    · exact le_rfl
    · exact le_push w hl

/-- `P` held at some moment of the history. -/
def Ever (P : W → Prop) (h : Hist W) : Prop := ∃ w ∈ h.now :: h.past, P w

lemma ever_now {P : W → Prop} {h : Hist W} (hp : P h.now) : h.Ever P := ⟨_, List.mem_cons_self, hp⟩

lemma ever_push {P : W → Prop} {h : Hist W} {w : W} : (h.push w).Ever P ↔ P w ∨ h.Ever P := by
  simp [Ever, push]

lemma Ever.mono {P : W → Prop} {h₁ h₂ : Hist W} (hp : h₁.Ever P) (hle : h₁ ≤ h₂) : h₂.Ever P := by
  induction hle with
  | refl => exact hp
  | push w _ ih => exact ever_push.mpr (Or.inr ih)

end Hist

/-! ### Configurations -/

/-- A call that was started: what was called, the moment it started, and what is left to run. -/
structure Thread (K E : Type) (R : E → Type) (W α : Type) where
  call : K
  start : Hist W
  prog : Prog E R α

/-- The shared state with its history, and the threads started so far. -/
structure Config (K E : Type) (R : E → Type) (W α : Type) where
  hist : Hist W
  threads : Pid → Option (Thread K E R W α)

/-- A thread that is there after one thread was put in its place. -/
lemma update_some {γ : Type} {threads : Pid → Option γ} {p q : Pid} {t t' : γ}
    (h : Function.update threads p (some t) q = some t') : q = p ∧ t' = t ∨ q ≠ p ∧ threads q = some t' := by
  by_cases hqp : q = p
  · subst hqp
    rw [Function.update_self] at h
    exact Or.inl ⟨rfl, (Option.some.inj h).symm⟩
  · rw [Function.update_of_ne hqp] at h
    exact Or.inr ⟨hqp, h⟩

lemma update_none {γ : Type} {threads : Pid → Option γ} {p q : Pid} {t : γ}
    (h : Function.update threads p (some t) q = none) : q ≠ p ∧ threads q = none := by
  by_cases hqp : q = p
  · subst hqp
    rw [Function.update_self] at h
    cases h
  · rw [Function.update_of_ne hqp] at h
    exact ⟨hqp, h⟩

/-- One choice of the scheduler: start a call as the thread `p`, or let the thread `p` perform its
next effect while the environment chooses `c`. -/
inductive Label (K C : Type) where
  | spawn (p : Pid) (k : K)
  | run (p : Pid) (c : C)

namespace Config

variable {K E C W α : Type} {R : E → Type}

/-- No thread, in the state `w`. -/
def init (w : W) : Config K E R W α := ⟨⟨w, []⟩, fun _ => none⟩

/-- The configuration after one choice of the scheduler, where that choice is possible.  `body k`
is the program of the call `k`. -/
def step (M : Machine E R C W) (body : K → Prog E R α) (cfg : Config K E R W α) :
    Label K C → Option (Config K E R W α)
  | .spawn p k =>
    match cfg.threads p with
    | some _ => none
    | none => some { cfg with
        threads := Function.update cfg.threads p (some ⟨k, cfg.hist, body k⟩) }
  | .run p c =>
    match cfg.threads p with
    | some ⟨k, h₀, .vis e f⟩ =>
      match M.exec p e c cfg.hist.now with
      | some (r, w) => some
          { hist := cfg.hist.push w
            threads := Function.update cfg.threads p (some ⟨k, h₀, f r⟩) }
      | none => none
    | _ => none

/-- The configurations that calls in `calls` reach from the state `w₀`, in any order. -/
inductive Reachable (M : Machine E R C W) (body : K → Prog E R α) (calls : K → Prop) (w₀ : W) :
    Config K E R W α → Prop
  | init : Reachable M body calls w₀ (init w₀)
  | step {cfg cfg' : Config K E R W α} (l : Label K C) (hr : Reachable M body calls w₀ cfg)
      (hl : ∀ p k, l = .spawn p k → calls k) (hs : cfg.step M body l = some cfg') :
      Reachable M body calls w₀ cfg'

/-- Follow the scheduler, and leave out the choices that are not possible. -/
def follow (M : Machine E R C W) (body : K → Prog E R α) :
    List (Label K C) → Config K E R W α → Config K E R W α
  | [], cfg => cfg
  | l :: ls, cfg =>
    match cfg.step M body l with
    | some cfg' => follow M body ls cfg'
    | none => follow M body ls cfg

lemma Reachable.follow {M : Machine E R C W} {body : K → Prog E R α} {calls : K → Prop} {w₀ : W}
    {ls : List (Label K C)} : ∀ {cfg : Config K E R W α}, Reachable M body calls w₀ cfg →
      (∀ p k, Label.spawn p k ∈ ls → calls k) → Reachable M body calls w₀ (cfg.follow M body ls) := by
  induction ls with
  | nil => exact fun hr _ => hr
  | cons l ls ih =>
    intro cfg hr hl
    have hls : ∀ p k, Label.spawn p k ∈ ls → calls k := fun p k hm =>
      hl p k (List.mem_cons_of_mem _ hm)
    rw [Config.follow]
    split
    · next cfg' hs =>
      exact ih (.step l hr (fun p k he => hl p k (he ▸ List.mem_cons_self)) hs) hls
    · exact ih hr hls

/-- What one step does: it starts a call, or a thread performs one effect. -/
theorem step_cases {M : Machine E R C W} {body : K → Prog E R α} {cfg cfg' : Config K E R W α}
    {l : Label K C} (hs : cfg.step M body l = some cfg') :
    (∃ p k, l = .spawn p k ∧ cfg.threads p = none ∧ cfg'.hist = cfg.hist ∧
      cfg'.threads = Function.update cfg.threads p (some ⟨k, cfg.hist, body k⟩)) ∨
    (∃ p c k h₀ e f r w, l = .run p c ∧ cfg.threads p = some ⟨k, h₀, .vis e f⟩ ∧
      M.exec p e c cfg.hist.now = some (r, w) ∧ cfg'.hist = cfg.hist.push w ∧
      cfg'.threads = Function.update cfg.threads p (some ⟨k, h₀, f r⟩)) := by
  cases l with
  | spawn p k =>
    simp only [step] at hs
    split at hs
    · cases hs
    · next hp =>
      cases hs
      exact Or.inl ⟨p, k, rfl, hp, rfl, rfl⟩
  | run p c =>
    simp only [step] at hs
    split at hs
    · next k h₀ e f hp =>
      split at hs
      · next r w he =>
        cases hs
        exact Or.inr ⟨p, c, k, h₀, e, f, r, w, rfl, hp, he, rfl, rfl⟩
      · cases hs
    · cases hs

/-- A thread that the scheduler does not start is not there. -/
lemma follow_threads_none {M : Machine E R C W} {body : K → Prog E R α} {p : Pid}
    {ls : List (Label K C)} : ∀ {cfg : Config K E R W α}, cfg.threads p = none →
      (∀ k, Label.spawn p k ∉ ls) → (cfg.follow M body ls).threads p = none := by
  induction ls with
  | nil => exact fun hp _ => hp
  | cons l ls ih =>
    intro cfg hp hl
    have hls : ∀ k, Label.spawn p k ∉ ls := fun k hm => hl k (List.mem_cons_of_mem _ hm)
    rw [Config.follow]
    split
    · next cfg' hs =>
      refine ih ?_ hls
      rcases step_cases hs with ⟨q, k, rfl, -, -, ht⟩ | ⟨q, c, k, h₀, e, f, r, w, -, hq, -, -, ht⟩
      · have hne : p ≠ q := fun he => hl k (he ▸ List.mem_cons_self)
        rw [ht, Function.update_of_ne hne, hp]
      · have hne : p ≠ q := by
          rintro rfl
          rw [hp] at hq
          cases hq
        rw [ht, Function.update_of_ne hne, hp]
    · exact ih hp hls

/-- `cfg'` is a later configuration of a run, or `cfg` itself. -/
inductive Steps (M : Machine E R C W) (body : K → Prog E R α) (calls : K → Prop)
    (cfg : Config K E R W α) : Config K E R W α → Prop
  | refl : Steps M body calls cfg cfg
  | step {cfg' cfg'' : Config K E R W α} (l : Label K C) (hs : Steps M body calls cfg cfg')
      (hl : ∀ p k, l = .spawn p k → calls k) (hs' : cfg'.step M body l = some cfg'') :
      Steps M body calls cfg cfg''

section Steps

variable {M : Machine E R C W} {body : K → Prog E R α} {calls : K → Prop} {w₀ : W}
  {cfg cfg' : Config K E R W α}

lemma Steps.reachable (hs : Steps M body calls cfg cfg') (hr : Reachable M body calls w₀ cfg) :
    Reachable M body calls w₀ cfg' := by
  induction hs with
  | refl => exact hr
  | step l _ hl hs' ih => exact .step l ih hl hs'

lemma step_hist_le {l : Label K C} (hs : cfg.step M body l = some cfg') : cfg.hist ≤ cfg'.hist := by
  rcases step_cases hs with ⟨_, _, _, _, hh, _⟩ | ⟨_, _, _, _, _, _, _, w, _, _, _, hh, _⟩
  · rw [hh]
    exact Hist.le_rfl
  · rw [hh]
    exact Hist.le_push w Hist.le_rfl

lemma Steps.hist_le (hs : Steps M body calls cfg cfg') : cfg.hist ≤ cfg'.hist := by
  induction hs with
  | refl => exact Hist.le_rfl
  | step l _ _ hs' ih => exact Hist.le_trans ih (step_hist_le hs')

lemma Steps.thread (hs : Steps M body calls cfg cfg') {p : Pid} {t : Thread K E R W α}
    (hp : cfg.threads p = some t) : ∃ m, cfg'.threads p = some ⟨t.call, t.start, m⟩ := by
  induction hs with
  | refl => exact ⟨t.prog, hp⟩
  | step l _ _ hs' ih =>
    obtain ⟨m, hm⟩ := ih
    rcases step_cases hs' with ⟨q, k, -, hq, -, ht⟩ | ⟨q, c, k, h₀, e, f, r, w, -, hq, -, -, ht⟩
    · have hpq : p ≠ q := by
        rintro rfl
        rw [hm] at hq
        cases hq
      exact ⟨m, by rw [ht, Function.update_of_ne hpq, hm]⟩
    · by_cases hpq : p = q
      · subst hpq
        rw [hm] at hq
        cases hq
        exact ⟨f r, by rw [ht, Function.update_self]⟩
      · exact ⟨m, by rw [ht, Function.update_of_ne hpq, hm]⟩

lemma steps_follow {ls : List (Label K C)} (hl : ∀ p k, Label.spawn p k ∈ ls → calls k) {cfg₀ : Config K E R W α}
    (hs : Steps M body calls cfg₀ cfg) : Steps M body calls cfg₀ (cfg.follow M body ls) := by
  induction ls generalizing cfg with
  | nil => exact hs
  | cons l ls ih =>
    have hls : ∀ p k, Label.spawn p k ∈ ls → calls k := fun p k hm => hl p k (List.mem_cons_of_mem _ hm)
    rw [Config.follow]
    split
    · next cfg' hs' =>
      exact ih hls (.step l hs (fun p k he => hl p k (he ▸ List.mem_cons_self)) hs')
    · exact ih hls hs

lemma Steps.start_of_none (hs : Steps M body calls cfg cfg') {p : Pid} (hp : cfg.threads p = none) :
    ∀ {t : Thread K E R W α}, cfg'.threads p = some t → cfg.hist ≤ t.start := by
  induction hs with
  | refl =>
    intro t ht
    rw [hp] at ht
    cases ht
  | step l hs _ hs' ih =>
    intro t ht
    rcases step_cases hs' with ⟨q, k, -, -, -, hth⟩ | ⟨q, c, k, h₀, e, f, r, w, -, hq, -, -, hth⟩
    · rw [hth] at ht
      rcases update_some ht with ⟨rfl, rfl⟩ | ⟨-, ht⟩
      · exact hs.hist_le
      · exact ih ht
    · rw [hth] at ht
      rcases update_some ht with ⟨rfl, rfl⟩ | ⟨-, ht⟩
      · have hle : cfg.hist ≤ h₀ := ih hq
        exact hle
      · exact ih ht

end Steps

/-- Every configuration reached with fewer kinds of calls is reached with more. -/
theorem Reachable.mono {M : Machine E R C W} {body : K → Prog E R α} {calls calls' : K → Prop}
    {w₀ : W} {cfg : Config K E R W α} (hc : ∀ k, calls k → calls' k)
    (hr : Reachable M body calls w₀ cfg) : Reachable M body calls' w₀ cfg := by
  induction hr with
  | init => exact .init
  | step l _ hl hs ih => exact .step l ih (fun p k e => hc k (hl p k e)) hs

end Config

end DataCheck.Lib
