import DataCheck.Lib.Log
import DataCheck.Lib.Solo
import DataCheck.Shared.Steps

/-!
# A body alone, with faults

What a body does when it runs by itself and every effect may fail.  The log tells apart what the
database and the storage directory were asked to do: a change that was committed, with or without
an acknowledgement, and a stored file that was removed.
-/

namespace DataCheck.Shared

open Lib Datasets

/-- A world with the log of the effects that led to it. -/
abbrev LoggedWorld : Type := Logged Eff (fun e => Except Exn e.Resp) Choice World

/-- The machine that keeps a log. -/
abbrev journal (F : Faults) : Machine Eff (fun e => Except Exn e.Resp) Choice LoggedWorld :=
  (machine F).logged

/-- A change is committed, acknowledged or not. -/
def AppliesChange (e : Eff) (c : Choice) : Prop := c.fault ≠ .fails ∧ ∃ ws, ws ≠ [] ∧ e = .commit ws

/-- A change is committed, and the commit raises. -/
def LosesChange (e : Eff) (c : Choice) : Prop :=
  c.fault = .lostAcknowledgement ∧ ∃ ws, ws ≠ [] ∧ e = .commit ws

def RemovesStored (e : Eff) (c : Choice) : Prop := c.fault = .none ∧ ∃ key, e = .unlink (.stored key)

variable {F : Faults} {p : Pid} {s s' s'' : LoggedWorld} {w w' : World}

lemma LosesChange.applies {e : Eff} {c : Choice} (h : LosesChange e c) : AppliesChange e c := by
  refine ⟨fun hf => ?_, h.2⟩
  rw [h.1] at hf
  cases hf

/-- A lost commit is a commit. -/
lemma not_did_loses (h : ¬ s.Did AppliesChange) : ¬ s.Did LosesChange :=
  fun ⟨e, he, hl⟩ => h ⟨e, he, hl.applies⟩

/-! ### Effects that change neither rows nor files -/

/-- The effects that change neither rows nor files. -/
def Eff.still : Eff → Bool
  | .commit ws => ws.isEmpty
  | .create _ | .write .. | .replace .. | .unlink _ => false
  | _ => true

/-- Rows and files are as they were, and nothing was committed or removed. -/
structure Unmoved (s s' : LoggedWorld) : Prop where
  db : s'.state.db = s.state.db
  files : s'.state.files = s.state.files
  issued : ∀ u ∈ s.state.issued.map Prod.snd, u ∈ s'.state.issued.map Prod.snd
  applies : s'.Did AppliesChange ↔ s.Did AppliesChange
  loses : s'.Did LosesChange ↔ s.Did LosesChange
  removes : s'.Did RemovesStored ↔ s.Did RemovesStored

/-- What stays when nothing moves. -/
def Settled (P : LoggedWorld → Prop) : Prop := ∀ s s', P s → Unmoved s s' → P s'

lemma Settled.and {P Q : LoggedWorld → Prop} (hP : Settled P) (hQ : Settled Q) :
    Settled fun s => P s ∧ Q s := fun s s' h hs => ⟨hP s s' h.1 hs, hQ s s' h.2 hs⟩

lemma Settled.or {P Q : LoggedWorld → Prop} (hP : Settled P) (hQ : Settled Q) :
    Settled fun s => P s ∨ Q s := fun s s' h hs => h.imp (hP s s' · hs) (hQ s s' · hs)

lemma Settled.const (φ : Prop) : Settled fun _ => φ := fun _ _ h _ => h

lemma Settled.exists {ι : Sort*} {P : ι → LoggedWorld → Prop} (hP : ∀ i, Settled (P i)) :
    Settled fun s => ∃ i, P i s := fun s s' ⟨i, h⟩ hs => ⟨i, hP i s s' h hs⟩

/-- An event that neither commits a change nor removes a stored file. -/
lemma unmoved_next {e : Eff} {c : Choice} {r : Except Exn e.Resp} (hdb : w.db = s.state.db)
    (hfiles : w.files = s.state.files)
    (hissued : ∀ u ∈ s.state.issued.map Prod.snd, u ∈ w.issued.map Prod.snd) (ha : ¬ AppliesChange e c)
    (hr : ¬ RemovesStored e c) : Unmoved s (s.next p e c r w) where
  db := hdb
  files := hfiles
  issued := hissued
  applies := Logged.did_next_of_not ha
  loses := Logged.did_next_of_not fun h => ha h.applies
  removes := Logged.did_next_of_not hr

lemma perform_still {e : Eff} (he : e.still = true) {c : Choice} {r : Except Exn e.Resp}
    (hp : w.perform p c e = some (r, w')) : w'.db = w.db ∧ w'.files = w.files ∧
      ∀ u ∈ w.issued.map Prod.snd, u ∈ w'.issued.map Prod.snd := by
  have hrefl : w.db = w.db ∧ w.files = w.files ∧ ∀ u ∈ w.issued.map Prod.snd, u ∈ w.issued.map Prod.snd :=
    ⟨rfl, rfl, fun _ hu => hu⟩
  cases e with
  | commit ws =>
    obtain rfl : ws = [] := List.isEmpty_iff.mp he
    cases hp
    exact hrefl
  | uuid4 =>
    simp only [World.perform] at hp
    split at hp
    · cases hp
    · cases hp
      exact ⟨rfl, rfl, fun u hu => by simpa using Or.inr (by simpa using hu)⟩
  | getForOwnerForUpdate dataset_id owner_id =>
    simp only [World.perform] at hp
    split at hp
    · cases hp
      exact hrefl
    · split at hp <;> cases hp
      exact hrefl
  | create _ | write _ _ | replace _ _ | unlink _ => cases he
  | rollback | close =>
    cases hp
    exact hrefl
  | now | utcNow | query _ | flush _ | readCandidate _ | chmod _ | openBinary _ | read | captured _ _ _ =>
    obtain rfl := perform_quiet rfl hp
    exact hrefl

lemma exec_still {e : Eff} (he : e.still = true) {c : Choice} {r : Except Exn e.Resp}
    (hx : (machine F).exec p e c s.state = some (r, w)) : Unmoved s (s.next p e c r w) := by
  have ha : ¬ AppliesChange e c := by
    rintro ⟨-, ws, hne, rfl⟩
    exact hne (List.isEmpty_iff.mp he)
  have hr : ¬ RemovesStored e c := by
    rintro ⟨-, key, rfl⟩
    cases he
  have hfailed : Unmoved s (s.next p e c r (s.state.failed p e)) := by
    have hl := locksOnly_failed s.state p e
    exact unmoved_next hl.db hl.files (fun u hu => hl.issued ▸ hu) ha hr
  simp only [machine] at hx
  split at hx
  · obtain ⟨hdb, hfiles, hissued⟩ := perform_still he hx
    exact unmoved_next hdb hfiles hissued ha hr
  · split at hx <;> cases hx
    exact hfailed
  · split at hx
    · obtain rfl := List.isEmpty_iff.mp he
      split at hx <;> cases hx
      exact unmoved_next rfl rfl (fun _ hu => hu) ha hr
    · cases hx

section Rules

variable {σ α : Type} {P : σ → LoggedWorld → Prop} {Z : σ → LoggedWorld → Prop}

/-- A body alone, with one postcondition for all exceptions. -/
abbrev Ends (F : Faults) (p : Pid) (P : σ → LoggedWorld → Prop) (m : Body σ α)
    (Q : α → σ → LoggedWorld → Prop) (Z : σ → LoggedWorld → Prop) : Prop :=
  Op.Alone (journal F) p P m Q fun _ => Z

theorem ends_perform {e : Eff} {Q : e.Resp → σ → LoggedWorld → Prop}
    (h : ∀ v s c r w, P v s → (machine F).exec p e c s.state = some (r, w) →
      (∀ a, r = .ok a → Q a v (s.next p e c r w)) ∧ ∀ x, r = .error x → Z v (s.next p e c r w)) :
    Ends F p P (Body.perform e) Q Z := by
  refine Op.Alone.perform fun v s c r s' hp hx => ?_
  obtain ⟨w, hw, rfl⟩ := Machine.logged_exec.mp hx
  exact h v s c r w hp hw

/-- An effect that changes neither rows nor files. -/
theorem ends_still {e : Eff} (he : e.still = true) {Q : e.Resp → σ → LoggedWorld → Prop}
    (hQ : ∀ a v s s' c, P v s → Unmoved s s' → s.state.perform p c e = some (.ok a, s'.state) → Q a v s')
    (hZ : ∀ v s s', P v s → Unmoved s s' → Z v s') : Ends F p P (Body.perform e) Q Z := by
  refine ends_perform fun v s c r w hp hx => ⟨?_, fun x _ => hZ v s _ hp (exec_still he hx)⟩
  rintro a rfl
  exact hQ a v s _ c hp (exec_still he hx) (exec_ok hx).2

/-- An effect that changes neither rows nor files, and whose answer does not matter. -/
theorem ends_skip {e : Eff} (he : e.still = true) (hP : ∀ v, Settled (P v)) (hZ : ∀ v s, P v s → Z v s) :
    Ends F p P (Body.perform e) (fun _ => P) Z :=
  ends_still he (fun _ v s s' _ hp hs _ => hP v s s' hp hs)
    fun v s s' hp hs => hZ v s' (hP v s s' hp hs)

/-- The value of a column with an `onupdate`. -/
theorem ends_onupdate {stored assigned : Time} (hP : ∀ v, Settled (P v)) (hZ : ∀ v s, P v s → Z v s) :
    Ends F p P (Body.onupdate stored assigned) (fun _ => P) Z := by
  unfold Body.onupdate
  split
  · exact ends_skip rfl hP hZ
  · exact Op.Alone.pure fun _ _ hp => hp

/-- `with self._session_factory() as database_session` around a body. -/
theorem ends_session {m : Body σ α} {Q : α → σ → LoggedWorld → Prop} (hm : Ends F p P m Q Z)
    (hQ : ∀ a v, Settled (Q a v)) (hZ : ∀ v, Settled (Z v)) (hclose : ∀ a v s, Q a v s → Z v s) :
    Ends F p P (Body.session m) Q Z := by
  unfold Body.session
  refine Op.Alone.bind (B := Q) (hm.catching fun x => ?_) fun a => ?_
  · exact (ends_skip rfl hZ fun _ _ hz => hz).bind fun _ => Op.Alone.raise fun _ _ hz => hz
  · exact (ends_skip rfl (hQ a) (hclose a)).bind fun _ => Op.Alone.pure fun _ _ hq => hq

/-- `with database_session.begin()` around a body that leaves its changes to commit. -/
theorem ends_begin {m : Body σ (α × List Write)} {B : α × List Write → σ → LoggedWorld → Prop}
    {Q : α → σ → LoggedWorld → Prop} (hm : Ends F p P m B Z) (hZ : ∀ v, Settled (Z v))
    (hfail : ∀ a ws v s, B (a, ws) v s → Z v s)
    (hcommit : ∀ a ws v s c, B (a, ws) v s → c.fault = .none →
      Q a v (s.next p (.commit ws) c (.ok ()) ((s.state.apply ws).unlock p)))
    (hlost : ∀ a ws v s c, B (a, ws) v s → c.fault = .lostAcknowledgement →
      Z v (s.next p (.commit ws) c (.error (.database .operational)) ((s.state.apply ws).unlock p))) :
    Ends F p P (Body.begin m) Q Z := by
  unfold Body.begin
  refine Op.Alone.bind (B := B) (hm.catching fun x => ?_) fun out => ?_
  · exact (ends_skip rfl hZ fun _ _ hz => hz).bind fun _ => Op.Alone.raise fun _ _ hz => hz
  · obtain ⟨a, ws⟩ := out
    refine Op.Alone.bind (B := fun _ => Q a) (ends_perform fun v s c r w hb hx => ?_)
      fun _ => Op.Alone.pure fun _ _ hq => hq
    simp only [machine] at hx
    split at hx
    · next hc =>
      cases hx
      exact ⟨fun _ _ => hcommit a ws v s c hb hc, fun x hx => by cases hx⟩
    · next hc =>
      split at hx <;> cases hx
      refine ⟨fun _ hx => (by cases hx), fun _ _ => hZ v s _ (hfail a ws v s hb) ?_⟩
      exact unmoved_next rfl rfl (fun _ hu => hu) (fun h => h.1 hc) fun h => by obtain ⟨-, _, h⟩ := h; cases h
    · next hc =>
      split at hx <;> cases hx
      exact ⟨fun _ hx => (by cases hx), fun _ _ => hlost a ws v s c hb hc⟩

theorem ends_reading {m : Body σ (α × List Write)} {Q : α → σ → LoggedWorld → Prop}
    (hm : Ends F p P m (fun out v s => out.2 = [] ∧ Q out.1 v s) Z) (hQ : ∀ a v, Settled (Q a v))
    (hZ : ∀ v, Settled (Z v)) (hQZ : ∀ a v s, Q a v s → Z v s) :
    Ends F p P (Body.transaction m) Q Z := by
  have hmoved : ∀ (s : LoggedWorld) (c : Choice) (r : Except Exn Unit),
      Unmoved s (s.next p (.commit []) c r ((s.state.apply []).unlock p)) := fun s c r =>
    unmoved_next rfl rfl (fun _ hu => hu) (by rintro ⟨-, ws, hne, h⟩; cases h; exact hne rfl)
      (by rintro ⟨-, _, h⟩; cases h)
  refine ends_session (ends_begin hm hZ (fun a ws v s hb => hQZ a v s hb.2)
    (fun a ws v s c hb _ => ?_) fun a ws v s c hb _ => ?_) hQ hZ hQZ
  · obtain ⟨rfl, hq⟩ := hb
    exact hQ a v s _ hq (hmoved s c _)
  · obtain ⟨rfl, hq⟩ := hb
    exact hZ v s _ (hQZ a v s hq) (hmoved s c _)

end Rules

end DataCheck.Shared
