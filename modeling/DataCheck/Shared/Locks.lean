import DataCheck.Datasets.Guarantees
import DataCheck.Lib.Termination
import DataCheck.Shared.Transactions

/-!
# Row locks

A transaction locks one dataset at most, and gives the lock back however it ends.  So no call keeps a
lock when it has ended, no call waits for one that waits, and all calls can be brought to their ends.
-/

namespace DataCheck.Shared

open Lib Datasets Analyses Relation

variable {U : Unicode} {P : Polars} {F : Faults} {calls : Call → Prop} {cfg : SysConfig} {p q : Pid} {σ α : Type}

/-! ### One step -/

/-- The locks of the world are those of the threads. -/
def LocksAre (held : Pid → Option Uuid) (w : World) : Prop := ∀ d p, w.locks d = some p ↔ held p = some d

section Step

variable {held : Pid → Option Uuid} {w w' : World}

lemma LocksAre.same (h : LocksAre held w) (hw : w'.locks = w.locks) : LocksAre (Function.update held p (held p)) w' := by
  intro d q
  rw [Function.update_eq_self, hw]
  exact h d q

lemma LocksAre.unlock (h : LocksAre held w) (hw : w'.locks = (w.unlock p).locks) :
    LocksAre (Function.update held p none) w' := by
  intro d q
  rw [hw]
  show (if w.locks d = some p then none else w.locks d) = some q ↔ _
  by_cases hqp : q = p
  · subst hqp
    rw [Function.update_self]
    split <;> simp_all
  · rw [Function.update_of_ne hqp, ← h d q]
    split
    · next hd => simp [hd, Ne.symm hqp]
    · rfl

lemma LocksAre.lock {d : Uuid} (h : LocksAre held w) (hnone : held p = none)
    (hd : w.locks d = none ∨ w.locks d = some p) (hw : w'.locks = Function.update w.locks d (some p)) :
    LocksAre (Function.update held p (some d)) w' := by
  intro d' q
  rw [hw]
  by_cases hqp : q = p
  · subst hqp
    rw [Function.update_self]
    by_cases hdd : d' = d
    · simp [hdd]
    · have hno : w.locks d' ≠ some q := fun hl => by simp [(h d' q).mp hl] at hnone
      simp [Function.update_of_ne hdd, hno, Ne.symm hdd]
  · rw [Function.update_of_ne hqp, ← h d' q]
    by_cases hdd : d' = d
    · subst hdd
      have hno : w.locks d' ≠ some q := by
        rintro hl
        rw [hl] at hd
        rcases hd with hd | hd <;> simp_all
      simp [hno, Ne.symm hqp]
    · rw [Function.update_of_ne hdd]

/-- **An effect keeps the protocol.** -/
lemma LocksAre.step {e : Eff} {c : Choice} {r : Except Exn e.Resp} (h : LocksAre held w)
    (hmay : lockProtocol.may (held p) e) (hx : (machine F).exec p e c w = some (r, w')) :
    LocksAre (Function.update held p (e.holds r (held p))) w' := by
  cases hl : (e.isLock || e.ends) with
  | false =>
    have hsame : e.holds r (held p) = held p := by cases e <;> first | rfl | cases hl
    rw [hsame]
    exact h.same (exec_locks hl hx)
  | true =>
    cases e with
    | getForOwnerForUpdate d o =>
      rcases exec_cases (fun _ hc => by cases hc) hx with ⟨-, rfl, rfl⟩ | hx
      · exact h.same rfl
      simp only [World.perform] at hx
      split at hx
      · cases hx
        exact h.same rfl
      · split at hx
        · next hd =>
          cases hx
          exact h.lock (hmay rfl) hd rfl
        · cases hx
    | commit ws =>
      rcases exec_commit_cases hx with ⟨-, rfl⟩ | ⟨rfl, -⟩
      · exact h.unlock rfl
      · exact h.unlock rfl
    | rollback | close =>
      rcases exec_cases (fun _ hc => by cases hc) hx with ⟨-, -, rfl⟩ | hx
      · exact h.unlock rfl
      · cases hx
        exact h.unlock rfl
    | _ => cases hl

end Step

/-! ### Runs -/

/-- The locks that the threads of a run hold, and what they go on to do. -/
lemma reach_held (hr : Reach U P F calls cfg) : ∃ held, LocksAre held cfg.hist.now ∧
    (∀ p, cfg.threads p = none → held p = none) ∧ ∀ p t, cfg.threads p = some t →
      t.prog.Follows lockProtocol (fun _ held => held = none) (held p) := by
  have hJ : Typestate.Kept (machine F) (fun _ : Call => lockProtocol) LocksAre :=
    fun held p _ e c w r w' h hmay hx => h.step hmay hx
  have hbody : Typestate.Obeyed (fun _ => lockProtocol) none (fun _ _ => True)
      (fun _ _ held => held = none) (Call.body U P) calls :=
    ⟨fun _ _ => trivial, fun _ _ _ _ _ _ => trivial, fun k _ => locking_body k⟩
  have hinit : LocksAre (fun _ => none) World.empty := by
    intro d p
    simp [World.empty]
  obtain ⟨held, hG⟩ := reachable_tracks hJ hbody hinit hr
  exact ⟨held, hG.shared, hG.unstarted, hG.follows⟩

/-- What the lock of a dataset says of the thread that holds it. -/
lemma reach_holder (hr : Reach U P F calls cfg) {d : Uuid} (hl : cfg.hist.now.locks d = some p) :
    ∃ k h₀ e f, cfg.threads p = some ⟨k, h₀, .vis e f⟩ ∧ e.isLock = false := by
  obtain ⟨held, hlocks, hnone, hth⟩ := reach_held hr
  have hp : held p = some d := (hlocks d p).mp hl
  cases ht : cfg.threads p with
  | none =>
    rw [hnone p ht] at hp
    cases hp
  | some t =>
    obtain ⟨k, h₀, m⟩ := t
    have hm := hth p _ ht
    rw [hp] at hm
    cases m with
    | ret out =>
      -- a call that has ended holds no lock
      cases (show some d = none from hm)
    | vis e f =>
      refine ⟨k, h₀, e, f, rfl, ?_⟩
      by_contra he
      cases (show some d = none from hm.1 (by simpa using he))

/-- **Locks are held by calls that go on.**  In every state, whatever fails, a dataset is locked only by a
call that has not ended and does not itself wait for a lock, and a call locks one dataset at most. -/
theorem locks_held (hr : Reach U P F calls cfg) :
    (∀ d p, cfg.hist.now.locks d = some p →
      ∃ k h₀ e f, cfg.threads p = some ⟨k, h₀, .vis e f⟩ ∧ e.isLock = false) ∧
    ∀ d d' p, cfg.hist.now.locks d = some p → cfg.hist.now.locks d' = some p → d = d' := by
  refine ⟨fun d p hl => reach_holder hr hl, fun d d' p hd hd' => ?_⟩
  obtain ⟨held, hlocks, -, -⟩ := reach_held hr
  exact Option.some.inj (((hlocks d p).mp hd).symm.trans ((hlocks d' p).mp hd'))

def Faultless (c : Choice) : Prop := c.fault = .none

/-- An effect that waits for no lock can be performed. -/
lemma exists_exec {e : Eff} (he : e.isLock = false) (p : Pid) (w : World) :
    ∃ c r w', Faultless c ∧ (machine F).exec p e c w = some (r, w') := by
  obtain ⟨u, hu⟩ := Infinite.exists_notMem_finset (w.issued.map Prod.snd).toFinset
  rw [List.mem_toFinset] at hu
  suffices h : ∃ r w', w.perform p ⟨.none, 0, u⟩ e = some (r, w') by
    obtain ⟨r, w', h⟩ := h
    exact ⟨⟨.none, 0, u⟩, r, w', rfl, h⟩
  cases e with
  | getForOwnerForUpdate => cases he
  | uuid4 => exact ⟨_, _, if_neg hu⟩
  | _ =>
    simp only [World.perform]
    first
      | exact ⟨_, _, rfl⟩
      | split <;> exact ⟨_, _, rfl⟩

/-- A thread that waits for no lock can go on. -/
lemma exists_runs {k : Call} {h₀ : Hist World} {e : Eff} {f} (hp : cfg.threads p = some ⟨k, h₀, .vis e f⟩)
    (hx : ∃ c r w', Faultless c ∧ (machine F).exec p e c cfg.hist.now = some (r, w')) :
    ∃ cfg', Config.Runs (machine F) (Call.body U P) Faultless cfg cfg' := by
  obtain ⟨c, r, w', hc, hx⟩ := hx
  refine ⟨⟨cfg.hist.push w', Function.update cfg.threads p (some ⟨k, h₀, f r⟩)⟩, p, c, hc, ?_⟩
  simp only [Config.step, hp, hx]

/-- **Some call can go on**: one that waits does so for a call that does not. -/
lemma reach_progress (hr : Reach U P F calls cfg) (hstop : ¬ cfg.Stopped) :
    ∃ cfg', Config.Runs (machine F) (Call.body U P) Faultless cfg cfg' := by
  obtain ⟨p, k, h₀, e, f, hp⟩ := Config.exists_unstopped hstop
  cases he : e.isLock with
  | false => exact exists_runs hp (exists_exec he p _)
  | true =>
    obtain ⟨d, o, rfl⟩ : ∃ d o, e = .getForOwnerForUpdate d o := by
      cases e <;> first | exact ⟨_, _, rfl⟩ | cases he
    cases hl : cfg.hist.now.locks d with
    | none =>
      refine exists_runs hp ⟨⟨.none, 0, 0⟩, ?_⟩
      simp only [machine, World.perform, hl, true_or, if_true]
      split <;> exact ⟨_, _, rfl, rfl⟩
    | some q =>
      -- the call that holds the lock goes on
      obtain ⟨k', h', e', f', hq', he'⟩ := reach_holder hr hl
      exact exists_runs hq' (exists_exec he' q _)

/-- **No deadlock, and no endless run.**  In every state, whatever has failed so far: without new calls only
finitely many steps are left; as long as a call has not ended, some call can go on without a fault; and so
all calls can be brought to their ends. -/
theorem all_calls_end (hr : Reach U P F calls cfg) :
    (∀ run : ℕ → SysConfig, run 0 = cfg →
      ¬ ∀ n, Config.Runs (machine F) (Call.body U P) (fun _ => True) (run n) (run (n + 1))) ∧
    (¬ cfg.Stopped → ∃ cfg', Config.Runs (machine F) (Call.body U P) Faultless cfg cfg') ∧
    ∃ cfg', ReflTransGen (Config.Runs (machine F) (Call.body U P) Faultless) cfg cfg' ∧ cfg'.Stopped :=
  ⟨Config.no_endless_run hr, reach_progress hr, Config.exists_stopped (fun _ hr' => reach_progress hr') hr⟩

namespace Sample

/-- An analysis holds the lock of its dataset, and a new rule waits for it. -/
def waiting : SysConfig :=
  Datasets.Sample.config (Datasets.Sample.prepared ++ .spawn 3 (.createAnalysis 7 101) :: Datasets.Sample.effects 3 1 400 ++
    .spawn 4 (.createRule 7 101 (py "unique") (py "a") []) :: Datasets.Sample.effects 4 3 500)

end Sample

theorem locks_held_sample : ∃ k h₀ e f, Sample.waiting.threads 3 = some ⟨k, h₀, .vis e f⟩ ∧ e.isLock = false :=
  (locks_held (Datasets.Sample.reach _)).1 101 3 (by decide +kernel)

theorem all_calls_end_sample :
    ∃ cfg', ReflTransGen (Config.Runs (machine Datasets.Sample.noFaults)
      (Call.body Datasets.Sample.unicode Datasets.Sample.polars) Faultless) Sample.waiting cfg' ∧ cfg'.Stopped :=
  (all_calls_end (Datasets.Sample.reach _)).2.2

end DataCheck.Shared
