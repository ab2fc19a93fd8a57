import DataCheck.Lib.Threads
import Mathlib.Algebra.BigOperators.Group.Finset.Basic
import Mathlib.Logic.Hydra
import Mathlib.Logic.Relation
import Mathlib.Order.WellFounded

/-!
# Runs that end

A program performs finitely many effects, whatever they answer, so that finitely many threads run for
finitely many steps.  Where in addition some thread can always go on, every run can be continued until all
of them have stopped.
-/

namespace DataCheck.Lib

open Relation

variable {E C W K α : Type} {R : E → Type}

/-- What is left of a program after its next effect. -/
def Prog.After (m' m : Prog E R α) : Prop := ∃ e k r, m = .vis e k ∧ m' = k r

lemma Prog.after_vis {m : Prog E R α} {e : E} {k : R e → Prog E R α} : m.After (.vis e k) ↔ ∃ r, m = k r := by
  constructor
  · rintro ⟨e', k', r, he, rfl⟩
    cases he
    exact ⟨r, rfl⟩
  · rintro ⟨r, rfl⟩
    exact ⟨e, k, r, rfl, rfl⟩

lemma Prog.wellFounded_after : WellFounded (Prog.After : Prog E R α → Prog E R α → Prop) := by
  refine ⟨fun m => ?_⟩
  induction m with
  | ret a => exact ⟨_, fun m' ⟨e, k, r, h, _⟩ => by cases h⟩
  | vis e k ih =>
    refine ⟨_, fun m' h => ?_⟩
    obtain ⟨r, rfl⟩ := Prog.after_vis.mp h
    exact ih r

namespace Config

variable {M : Machine E R C W} {body : K → Prog E R α} {calls : K → Prop} {w₀ : W} {good : C → Prop}
  {cfg cfg' : Config K E R W α} {s : Finset Pid}

/-- A thread performs an effect, and the environment makes a good choice. -/
def Runs (M : Machine E R C W) (body : K → Prog E R α) (good : C → Prop) (cfg cfg' : Config K E R W α) : Prop :=
  ∃ p c, good c ∧ cfg.step M body (.run p c) = some cfg'

lemma Runs.mono {good' : C → Prop} (h : Runs M body good cfg cfg') (hg : ∀ c, good c → good' c) :
    Runs M body good' cfg cfg' := by
  obtain ⟨p, c, hc, hs⟩ := h
  exact ⟨p, c, hg c hc, hs⟩

/-- What one step of a thread leaves of the threads. -/
lemma Runs.cases (h : Runs M body good cfg cfg') : ∃ p k h₀ e f r, cfg.threads p = some ⟨k, h₀, .vis e f⟩ ∧
    cfg'.threads = Function.update cfg.threads p (some ⟨k, h₀, f r⟩) := by
  obtain ⟨p, c, -, hs⟩ := h
  rcases step_cases hs with ⟨_, _, hl, _⟩ | ⟨q, _, k, h₀, e, f, r, _, _, hq, _, _, ht⟩
  · cases hl
  · exact ⟨q, k, h₀, e, f, r, hq, ht⟩

lemma Reachable.runs (hr : Reachable M body calls w₀ cfg) (h : Runs M body good cfg cfg') :
    Reachable M body calls w₀ cfg' := by
  obtain ⟨p, c, -, hs⟩ := h
  exact .step _ hr (fun _ _ he => by cases he) hs

def Among (s : Finset Pid) (cfg : Config K E R W α) : Prop := ∀ p t, cfg.threads p = some t → p ∈ s

lemma Among.runs (hs : cfg.Among s) (h : Runs M body good cfg cfg') : cfg'.Among s := by
  obtain ⟨p, k, h₀, e, f, r, hp, ht⟩ := h.cases
  intro q t hq
  rw [ht] at hq
  rcases update_some hq with ⟨rfl, -⟩ | ⟨-, hq⟩
  · exact hs q _ hp
  · exact hs q t hq

lemma Reachable.exists_among (hr : Reachable M body calls w₀ cfg) : ∃ s, cfg.Among s := by
  induction hr with
  | init => exact ⟨∅, fun p t ht => by cases ht⟩
  | @step cfg cfg' l hr hl hs ih =>
    obtain ⟨s, hm⟩ := ih
    rcases step_cases hs with ⟨p, k, -, -, -, ht⟩ | ⟨p, _, k, h₀, e, f, r, w, -, hp, -, -, ht⟩
    · refine ⟨insert p s, fun q t hq => ?_⟩
      rw [ht] at hq
      rcases update_some hq with ⟨rfl, -⟩ | ⟨-, hq⟩
      · exact Finset.mem_insert_self q s
      · exact Finset.mem_insert_of_mem (hm q t hq)
    · refine ⟨s, fun q t hq => ?_⟩
      rw [ht] at hq
      rcases update_some hq with ⟨rfl, -⟩ | ⟨-, hq⟩
      · exact hm q _ hp
      · exact hm q t hq

/-- What a thread has left to run, as a multiset of at most one program. -/
def rest : Option (Thread K E R W α) → Multiset (Prog E R α)
  | none => 0
  | some t => {t.prog}

/-- What these threads have left to run. -/
def left (s : Finset Pid) (cfg : Config K E R W α) : Multiset (Prog E R α) := ∑ p ∈ s, rest (cfg.threads p)

/-- **A step replaces one program by what is left of it.** -/
lemma Runs.cutExpand (h : Runs M body good cfg cfg') (hs : cfg.Among s) :
    CutExpand Prog.After (cfg'.left s) (cfg.left s) := by
  obtain ⟨p, k, h₀, e, f, r, hp, ht⟩ := h.cases
  have hmem : p ∈ s := hs p _ hp
  have hbefore : cfg.left s = {Prog.vis e f} + ∑ q ∈ s \ {p}, rest (cfg.threads q) := by
    rw [left, Finset.sum_eq_add_sum_sdiff_singleton_of_mem hmem, hp]
    rfl
  have hafter : cfg'.left s = {f r} + ∑ q ∈ s \ {p}, rest (cfg.threads q) := by
    rw [left, Finset.sum_eq_add_sum_sdiff_singleton_of_mem hmem, ht, Function.update_self]
    refine congrArg₂ _ rfl (Finset.sum_congr rfl fun q hq => ?_)
    rw [Finset.mem_sdiff, Finset.mem_singleton] at hq
    rw [Function.update_of_ne hq.2]
  rw [hbefore, hafter]
  exact cutExpand_single_add (Prog.after_vis.mpr ⟨r, rfl⟩) _

/-- **The threads started so far run for finitely many steps.** -/
theorem acc_runs (hs : cfg.Among s) : Acc (Function.swap (Runs M body good)) cfg := by
  have hacc : Acc (CutExpand Prog.After) (cfg.left s) := Prog.wellFounded_after.cutExpand.apply _
  generalize hm : cfg.left s = m at hacc
  induction hacc generalizing cfg with
  | intro m _ ih =>
    refine ⟨_, fun cfg' h => ih _ ?_ (hs.runs h) rfl⟩
    rw [← hm]
    exact Runs.cutExpand h hs

/-- There is no run without end, unless calls are started without end. -/
theorem no_endless_run (hr : Reachable M body calls w₀ cfg) (run : ℕ → Config K E R W α) (h₀ : run 0 = cfg) :
    ¬ ∀ n, Runs M body good (run n) (run (n + 1)) := by
  intro hrun
  obtain ⟨s, hs⟩ := hr.exists_among
  exact (acc_iff_isEmpty_descending_chain.mp (acc_runs hs)).false ⟨run, h₀, hrun⟩

def Stopped (cfg : Config K E R W α) : Prop := ∀ p t, cfg.threads p = some t → ∃ a, t.prog = .ret a

lemma exists_unstopped (h : ¬ cfg.Stopped) : ∃ p k h₀ e f, cfg.threads p = some ⟨k, h₀, .vis e f⟩ := by
  simp only [Stopped, not_forall] at h
  obtain ⟨p, ⟨k, h₀, m⟩, hp, hm⟩ := h
  cases m with
  | ret a => exact absurd ⟨a, rfl⟩ hm
  | vis e f => exact ⟨p, k, h₀, e, f, hp⟩

/-- **Where some thread can always go on, all threads can be brought to their ends.** -/
theorem exists_stopped (hprogress : ∀ cfg : Config K E R W α, Reachable M body calls w₀ cfg → ¬ cfg.Stopped →
      ∃ cfg', Runs M body good cfg cfg')
    (hr : Reachable M body calls w₀ cfg) : ∃ cfg', ReflTransGen (Runs M body good) cfg cfg' ∧ cfg'.Stopped := by
  obtain ⟨s, hs⟩ := hr.exists_among
  have hacc : Acc (Function.swap (Runs M body good)) cfg := acc_runs hs
  induction hacc with
  | intro cfg _ ih =>
    by_cases hstop : cfg.Stopped
    · exact ⟨cfg, .refl, hstop⟩
    · obtain ⟨cfg₁, h₁⟩ := hprogress cfg hr hstop
      obtain ⟨cfg', hsteps, hend⟩ := ih cfg₁ h₁ (hr.runs h₁) (hs.runs h₁)
      exact ⟨cfg', .head h₁ hsteps, hend⟩

end Config

end DataCheck.Lib
