import DataCheck.Shared.Invariant

/-!
# One effect at a time

For each effect the rule that a proof about a service method uses: what the method has to know
before the effect, and what it knows afterwards.  A thread may rely on an assertion between two
effects when it is stable; a steady assertion says nothing about locks either, so that it survives
the beginning and the end of a transaction.
-/

namespace DataCheck.Shared

open Lib Datasets Analyses

variable {ok : ValidationRule → Prop} {F : Faults} {p : Pid} {h : Hist World} {w : World}

/-! ### Steps that are allowed -/

/-- The step keeps the contract. -/
def Allowed (ok : ValidationRule → Prop) (F : Faults) (p : Pid) (h : Hist World) (w : World) : Prop :=
  SysGuar F p h w ∧ SysInv ok F (h.push w)

/-- The world changed in nothing but its locks. -/
structure LocksOnly (w w' : World) : Prop where
  db : w'.db = w.db
  files : w'.files = w.files
  issued : w'.issued = w.issued

/-- A step that touches only its own locks. -/
theorem allowed_locks (hi : SysInv ok F h) (hw : LocksOnly h.now w)
    (hl : ∀ d q, q ≠ p → h.now.locks d = some q → w.locks d = some q) : Allowed ok F p h w := by
  have hg : SysGuar F p h w :=
    { issued_mono := fun x hx => hw.issued ▸ hx
      issued_mine := fun x hx => Or.inl (hw.issued ▸ hx)
      locks := hl
      datasets := fun d hd => Or.inl (hw.db ▸ hd)
      new_datasets := fun d hd => Or.inl ⟨d, hw.db ▸ hd, rfl⟩
      names := fun key hn => Or.inl (hw.db ▸ hn)
      candidates := fun u => Or.inl (by rw [hw.files])
      stored := fun key => Or.inl (by rw [hw.files])
      rules := fun r hr => Or.inl (hw.db ▸ hr)
      analyses := fun a ha => hw.db ▸ ha
      new_analyses := fun a ha => Or.inl (hw.db ▸ ha)
      results := fun r hr => hw.db ▸ hr
      new_results := fun r hr => Or.inl (hw.db ▸ hr) }
  refine ⟨hg, hi.push hg (by rw [hw.issued]; exact hi.issued_once) (by rw [hw.db]) ?_ ?_ ?_⟩
  · exact fun r hr => Or.inl (hw.db ▸ hr)
  · exact fun a ha => Or.inl (hw.db ▸ ha)
  · exact fun r hr => Or.inl (hw.db ▸ hr)

theorem allowed_stutter (hi : SysInv ok F h) : Allowed ok F p h h.now :=
  allowed_locks hi ⟨rfl, rfl, rfl⟩ fun _ _ _ hq => hq

lemma locksOnly_unlock (w : World) (p : Pid) : LocksOnly w (w.unlock p) := ⟨rfl, rfl, rfl⟩

theorem allowed_unlock (hi : SysInv ok F h) : Allowed ok F p h (h.now.unlock p) :=
  allowed_locks hi (locksOnly_unlock _ _) fun d q hqp hq => by
    simp [World.unlock, hq, hqp]

theorem allowed_failed (hi : SysInv ok F h) (e : Eff) : Allowed ok F p h (h.now.failed p e) := by
  unfold World.failed
  split
  · exact allowed_unlock hi
  · exact allowed_unlock hi
  · exact allowed_unlock hi
  · exact allowed_stutter hi

lemma locksOnly_failed (w : World) (p : Pid) (e : Eff) : LocksOnly w (w.failed p e) := by
  unfold World.failed
  split <;> exact ⟨rfl, rfl, rfl⟩

/-! ### Assertions -/

/-- Stable, and silent about locks. -/
structure Steady (ok : ValidationRule → Prop) (F : Faults) (p : Pid) (P : Assert World) : Prop where
  stable : Stable (contract ok F) p P
  locks : ∀ h w, SysInv ok F h → P h → LocksOnly h.now w → P (h.push w)

lemma stutter {P : Assert World} (hP : Stable (contract ok F) p P) (hi : SysInv ok F h) (hp : P h) :
    P (h.push h.now) :=
  hP (p + 1) (.listDatasets 0 0 0) h h.now (Nat.succ_ne_self p) hi hp (allowed_stutter hi).1
    (allowed_stutter (p := p) hi).2

namespace Steady

lemma const (φ : Prop) : Steady ok F p fun _ => φ := ⟨.const φ, fun _ _ _ h _ => h⟩

lemma since (h₀ : Hist World) : Steady ok F p fun h => h₀ ≤ h :=
  ⟨.since h₀, fun _ w _ h _ => Hist.le_push w h⟩

lemma and {P Q : Assert World} (hP : Steady ok F p P) (hQ : Steady ok F p Q) :
    Steady ok F p fun h => P h ∧ Q h :=
  ⟨hP.stable.and hQ.stable, fun h w hi hpq hw => ⟨hP.locks h w hi hpq.1 hw, hQ.locks h w hi hpq.2 hw⟩⟩

lemma or {P Q : Assert World} (hP : Steady ok F p P) (hQ : Steady ok F p Q) :
    Steady ok F p fun h => P h ∨ Q h :=
  ⟨hP.stable.or hQ.stable, fun h w hi hpq hw =>
    hpq.imp (fun x => hP.locks h w hi x hw) fun x => hQ.locks h w hi x hw⟩

lemma imp (φ : Prop) {P : Assert World} (hP : Steady ok F p P) : Steady ok F p fun h => φ → P h :=
  ⟨Stable.imp φ hP.stable, fun h w hi hp hw hφ => hP.locks h w hi (hp hφ) hw⟩

end Steady

lemma Steady.exists {ι : Sort*} {P : ι → Assert World} (hP : ∀ i, Steady ok F p (P i)) :
    Steady ok F p fun h => ∃ i, P i h :=
  ⟨Stable.exists fun i => (hP i).stable, fun h w hi ⟨i, hp⟩ hw => ⟨i, (hP i).locks h w hi hp hw⟩⟩

def Drew (p : Pid) (u : Uuid) : Assert World := fun h => (p, u) ∈ h.now.issued

/-- The thread holds the lock of the dataset, and this is its row. -/
def Holds (p : Pid) (d : Dataset) : Assert World := fun h =>
  h.now.locks d.id = some p ∧ d ∈ h.now.db.datasets

/-- The thread's candidate file has these bytes. -/
def CandidateHas (p : Pid) (u : Uuid) (content : Bytes) : Assert World := fun h =>
  (p, u) ∈ h.now.issued ∧ h.now.files (.candidate u) = some content

/-- The thread drew the storage key, and no committed row has ever named it. -/
def Unpublished (p : Pid) (key : StorageKey) : Assert World := fun h =>
  (p, key.uuid) ∈ h.now.issued ∧ ¬ Published h key

/-- The thread's unpublished file has these bytes. -/
def Installed (p : Pid) (key : StorageKey) (content : Bytes) : Assert World := fun h =>
  Unpublished p key h ∧ h.now.files (.stored key) = some content

/-- A committed row named the file, and none does any more. -/
def Superseded (key : StorageKey) : Assert World := fun h =>
  Published h key ∧ ¬ h.now.db.Names key

/-- The thread drew the UUID, and no dataset has it. -/
def FreshDataset (p : Pid) (u : Uuid) : Assert World := fun h =>
  (p, u) ∈ h.now.issued ∧ ∀ d ∈ h.now.db.datasets, d.id ≠ u

/-- The thread drew the UUID, and no analysis has it. -/
def FreshAnalysis (p : Pid) (u : Uuid) : Assert World := fun h =>
  (p, u) ∈ h.now.issued ∧ ∀ a ∈ h.now.db.analyses, a.id ≠ u

/-- The analysis is stored, with these results. -/
def Stored (a : Analysis) (results : List ValidationResult) : Assert World := fun h =>
  a ∈ h.now.db.analyses ∧ h.now.db.resultsOf a.id = results

def OwnedBy (dataset_id owner_id : Uuid) : Assert World := fun h =>
  ∃ d ∈ h.now.db.datasets, d.id = dataset_id ∧ d.owner_id = owner_id

/-- At some moment since `h₀` it was so. -/
def Once (h₀ : Hist World) (φ : World → Prop) : Assert World := fun h =>
  ∃ h₁, h₀ ≤ h₁ ∧ h₁ ≤ h ∧ φ h₁.now

lemma steady_drew (u : Uuid) : Steady ok F p (Drew p u) where
  stable _ _ _ _ _ _ hd hg _ := hg.issued_mono _ hd
  locks _ _ _ hd hw := by
    rw [Drew, Hist.push_now, hw.issued]
    exact hd

/-- No other thread publishes a key that this thread drew. -/
lemma not_published_push {q : Pid} {key : StorageKey} (hqp : q ≠ p) (hi : SysInv ok F h)
    (hd : Unpublished p key h) (hg : SysGuar F q h w) : ¬ Published (h.push w) key := by
  rw [published_push]
  rintro (hn | hp)
  · rcases hg.names key hn with hn' | ⟨hm, -⟩
    · exact hd.2 (published_of_names hn')
    · exact hqp (hi.issued_once _ _ _ hm hd.1)
  · exact hd.2 hp

lemma published_locks {key : StorageKey} (hw : LocksOnly h.now w) :
    Published (h.push w) key ↔ Published h key := by
  rw [published_push, hw.db]
  exact ⟨fun hx => hx.elim published_of_names id, Or.inr⟩

lemma steady_unpublished (key : StorageKey) : Steady ok F p (Unpublished p key) where
  stable _ _ _ _ hqp hi hd hg _ := ⟨hg.issued_mono _ hd.1, not_published_push hqp hi hd hg⟩
  locks h w _ hd hw := by
    refine ⟨?_, fun hp => hd.2 ((published_locks hw).mp hp)⟩
    rw [Hist.push_now, hw.issued]
    exact hd.1

lemma stable_holds (d : Dataset) : Stable (contract ok F) p (Holds p d) := by
  rintro q _ h w hqp _ ⟨hl, hd⟩ hg _
  refine ⟨hg.locks _ _ (Ne.symm hqp) hl, ?_⟩
  rcases hg.datasets d hd with hd' | ⟨hl', -⟩
  · exact hd'
  · rw [hl] at hl'
    exact absurd (Option.some.inj hl').symm hqp

lemma steady_candidateHas (u : Uuid) (content : Bytes) : Steady ok F p (CandidateHas p u content) where
  stable _ _ _ _ hqp hi hd hg _ := by
    refine ⟨hg.issued_mono _ hd.1, ?_⟩
    rcases hg.candidates u with he | hm
    · exact he.trans hd.2
    · exact absurd (hi.issued_once _ _ _ hm hd.1) hqp
  locks h w _ hd hw := by
    rw [CandidateHas, Hist.push_now, hw.issued, hw.files]
    exact hd

lemma steady_installed (key : StorageKey) (content : Bytes) : Steady ok F p (Installed p key content) where
  stable q k h w hqp hi hd hg hi' := by
    refine ⟨(steady_unpublished key).stable q k h w hqp hi hd.1 hg hi', ?_⟩
    rcases hg.stored key with he | ⟨hm, -⟩ | ⟨hp, -⟩ | ⟨-, hm, -⟩
    · exact he.trans hd.2
    · exact absurd (hi.issued_once _ _ _ hm hd.1.1) hqp
    · exact absurd hp hd.1.2
    · exact absurd (hi.issued_once _ _ _ hm hd.1.1) hqp
  locks h w hi hd hw := by
    refine ⟨(steady_unpublished key).locks h w hi hd.1 hw, ?_⟩
    rw [Hist.push_now, hw.files]
    exact hd.2

lemma steady_superseded (key : StorageKey) : Steady ok F p (Superseded key) where
  stable _ _ _ _ _ _ hd hg _ := by
    refine ⟨published_push.mpr (Or.inr hd.1), fun hn => ?_⟩
    rcases hg.names key hn with hn' | ⟨-, hp⟩
    · exact hd.2 hn'
    · exact hp hd.1
  locks h w _ hd hw := by
    refine ⟨(published_locks hw).mpr hd.1, ?_⟩
    rw [Hist.push_now, hw.db]
    exact hd.2

lemma steady_freshDataset (u : Uuid) : Steady ok F p (FreshDataset p u) where
  stable _ _ _ _ hqp hi hd hg _ := by
    refine ⟨hg.issued_mono _ hd.1, fun d hm he => ?_⟩
    rcases hg.new_datasets d hm with ⟨d', hd', he'⟩ | hm'
    · exact hd.2 d' hd' (he'.trans he)
    · exact hqp (hi.issued_once _ _ _ (he ▸ hm') hd.1)
  locks h w _ hd hw := by
    rw [FreshDataset, Hist.push_now, hw.issued, hw.db]
    exact hd

lemma steady_freshAnalysis (u : Uuid) : Steady ok F p (FreshAnalysis p u) where
  stable _ _ _ _ hqp hi hd hg _ := by
    refine ⟨hg.issued_mono _ hd.1, fun a hm he => ?_⟩
    rcases hg.new_analyses a hm with ha | hm'
    · exact hd.2 a ha he
    · exact hqp (hi.issued_once _ _ _ (he ▸ hm') hd.1)
  locks h w _ hd hw := by
    rw [FreshAnalysis, Hist.push_now, hw.issued, hw.db]
    exact hd

lemma steady_stored (a : Analysis) (results : List ValidationResult) :
    Steady ok F p (Stored a results) where
  stable _ _ _ _ _ _ hd hg _ := ⟨hg.analyses a hd.1, (hg.resultsOf_eq hd.1).trans hd.2⟩
  locks h w _ hd hw := by
    rw [Stored, Hist.push_now, hw.db]
    exact hd

lemma steady_ownedBy (dataset_id owner_id : Uuid) : Steady ok F p (OwnedBy dataset_id owner_id) where
  stable _ _ _ _ _ _ := by
    rintro ⟨d, hd, hid, ho⟩ hg -
    rcases hg.datasets d hd with hd' | ⟨-, d', hd', hid', ho'⟩
    · exact ⟨d, hd', hid, ho⟩
    · exact ⟨d', hd', hid'.trans hid, ho'.trans ho⟩
  locks h w _ hd hw := by
    rw [OwnedBy, Hist.push_now, hw.db]
    exact hd

lemma steady_once (h₀ : Hist World) (φ : World → Prop) : Steady ok F p (Once h₀ φ) where
  stable _ _ _ w _ _ := fun ⟨h₁, hle, hle', hφ⟩ _ _ => ⟨h₁, hle, Hist.le_push w hle', hφ⟩
  locks _ w _ := fun ⟨h₁, hle, hle', hφ⟩ _ => ⟨h₁, hle, Hist.le_push w hle', hφ⟩

/-! ### The rules -/

/-- A body keeps the contract of the system. -/
abbrev Does {σ α : Type} (ok : ValidationRule → Prop) (F : Faults) (t : Caller Call World)
    (P : σ → Assert World) (m : Body σ α) (Q : α → σ → Assert World) (Z : Exn → σ → Assert World) :
    Prop := Triple (machine F) (contract ok F) t P m Q Z

/-- What an effect does, unless it is a commit: it fails and changes nothing but locks, or it is
performed. -/
theorem exec_cases {e : Eff} (hne : ∀ ws, e ≠ .commit ws) {c : Choice} {r : Except Exn e.Resp}
    {w' : World} (he : (machine F).exec p e c w = some (r, w')) :
    F.fails e = true ∧ r = .error e.failure ∧ w' = w.failed p e ∨ w.perform p c e = some (r, w') := by
  simp only [machine] at he
  split at he
  · exact Or.inr he
  · split at he
    · next hf =>
      cases he
      exact Or.inl ⟨hf, rfl, rfl⟩
    · cases he
  · cases e with
    | commit ws => exact absurd rfl (hne ws)
    | _ => cases he

/-- Only a commit changes the database. -/
lemma perform_db {e : Eff} (hne : ∀ ws, e ≠ .commit ws) {c : Choice} {r : Except Exn e.Resp}
    (hp : w.perform p c e = some (r, w')) : w'.db = w.db := by
  cases e with
  | commit ws => exact absurd rfl (hne ws)
  | getForOwnerForUpdate dataset_id owner_id =>
    simp only [World.perform] at hp
    split at hp
    · cases hp
      rfl
    · split at hp <;> cases hp
      rfl
  | _ =>
    simp only [World.perform] at hp
    first
      | (split at hp <;> cases hp <;> rfl)
      | (cases hp; rfl)

/-- What a commit does: it fails, or it is applied, and then it may raise all the same. -/
theorem exec_commit_cases {ws : List Write} {c : Choice} {r : Except Exn Unit} {w' : World}
    (he : (machine F).exec p (.commit ws) c w = some (r, w')) :
    r = .error (.database .operational) ∧ w' = w.unlock p ∨
      w' = (w.apply ws).unlock p ∧ (r = .ok () ∨
        F.lostAcknowledgement = true ∧ r = .error (.database .operational)) := by
  simp only [machine] at he
  split at he
  · cases he
    exact Or.inr ⟨rfl, Or.inl rfl⟩
  · split at he
    · cases he
      exact Or.inl ⟨rfl, rfl⟩
    · cases he
  · split at he
    · next hF =>
      cases he
      exact Or.inr ⟨rfl, Or.inr ⟨hF, rfl⟩⟩
    · cases he

/-- An effect that answers with a value was performed, without a fault. -/
lemma exec_ok {e : Eff} {c : Choice} {a : e.Resp} {w' : World}
    (he : (machine F).exec p e c w = some (.ok a, w')) : c.fault = .none ∧ w.perform p c e = some (.ok a, w') := by
  simp only [machine] at he
  split at he
  · next hc => exact ⟨hc, he⟩
  · split at he <;> cases he
  · split at he
    · split at he <;> cases he
    · cases he

section Rules

variable {σ α : Type} {t : Caller Call World} {P : σ → Assert World} {Z : Exn → σ → Assert World}

/-- One effect, by what it does when it is performed. -/
theorem does_perform {e : Eff} (hne : ∀ ws, e ≠ .commit ws) {Q : e.Resp → σ → Assert World}
    (hat : ∀ s h, SysInv ok F h → P s h → (contract ok F).At t e h)
    (hQs : ∀ a s, Stable (contract ok F) t.pid (Q a s)) (hZs : ∀ x s, Stable (contract ok F) t.pid (Z x s))
    (hfail : F.fails e = true → ∀ s h, SysInv ok F h → P s h →
      Z e.failure s (h.push (h.now.failed t.pid e)))
    (hstep : ∀ s h c r w, SysInv ok F h → P s h → h.now.perform t.pid c e = some (r, w) →
      Allowed ok F t.pid h w ∧ (∀ a, r = .ok a → Q a s (h.push w)) ∧
        ∀ x, r = .error x → Z x s (h.push w)) :
    Does ok F t P (Body.perform e) Q Z := by
  refine Triple.perform hat hQs hZs fun s h c r w hi hp he => ?_
  rcases exec_cases hne he with ⟨hf, rfl, rfl⟩ | he'
  · have ha := allowed_failed (p := t.pid) hi e
    refine ⟨ha.1, ha.2, fun a hx => (nomatch hx), fun x hx => ?_⟩
    cases hx
    exact hfail hf s h hi hp
  · obtain ⟨ha, hq, hz⟩ := hstep s h c r w hi hp he'
    exact ⟨ha.1, ha.2, hq, hz⟩

/-- The effects that never change the world, also when they fail. -/
def Eff.quiet : Eff → Bool
  | .now | .utcNow | .query _ | .flush _ | .readCandidate _ | .chmod _ | .openBinary _ | .read
  | .captured .. => true
  | _ => false

lemma perform_quiet {e : Eff} (he : e.quiet = true) {c : Choice} {r : Except Exn e.Resp} {w' : World}
    (hp : w.perform p c e = some (r, w')) : w' = w := by
  cases e <;> simp only [Eff.quiet, Bool.false_eq_true] at he <;> simp only [World.perform] at hp
  all_goals first
    | (split at hp <;> cases hp <;> rfl)
    | (cases hp; rfl)

lemma failed_quiet {e : Eff} (he : e.quiet = true) : w.failed p e = w := by
  cases e <;> simp only [Eff.quiet, Bool.false_eq_true] at he <;> rfl

/-- An effect that never changes the world. -/
theorem does_quiet {e : Eff} (he : e.quiet = true) {Q : e.Resp → σ → Assert World}
    (hat : ∀ s h, SysInv ok F h → P s h → (contract ok F).At t e h)
    (hQs : ∀ a s, Stable (contract ok F) t.pid (Q a s)) (hZs : ∀ x s, Stable (contract ok F) t.pid (Z x s))
    (hfail : F.fails e = true → ∀ s h, SysInv ok F h → P s h → Z e.failure s h)
    (hstep : ∀ s h c r, SysInv ok F h → P s h → h.now.perform t.pid c e = some (r, h.now) →
      (∀ a, r = .ok a → Q a s h) ∧ ∀ x, r = .error x → Z x s h) :
    Does ok F t P (Body.perform e) Q Z := by
  refine does_perform (fun ws hc => by rw [hc] at he; cases he) hat hQs hZs (fun hf s h hi hp => ?_)
    fun s h c r w hi hp hr => ?_
  · rw [failed_quiet he]
    exact stutter (hZs _ s) hi (hfail hf s h hi hp)
  · obtain rfl := perform_quiet he hr
    obtain ⟨hq, hz⟩ := hstep s h c r hi hp hr
    exact ⟨allowed_stutter hi, fun a ha => stutter (hQs a s) hi (hq a ha),
      fun x hx => stutter (hZs x s) hi (hz x hx)⟩

/-- A query sees the committed state. -/
theorem does_query {q : Query} {Q : q.Rows → σ → Assert World}
    (hQs : ∀ a s, Stable (contract ok F) t.pid (Q a s)) (hZs : ∀ x s, Stable (contract ok F) t.pid (Z x s))
    (hQ : ∀ s h, SysInv ok F h → P s h → Q (h.now.db.eval q) s h)
    (hZ : ∀ s h, SysInv ok F h → P s h → Z (.database .operational) s h) :
    Does ok F t P (Body.perform (.query q)) Q Z :=
  does_quiet rfl (fun _ _ _ _ => trivial) hQs hZs (fun _ s h hi hp => hZ s h hi hp)
    fun s h c r hi hp hr => by
      simp only [World.perform, Option.some.injEq, Prod.mk.injEq, and_true] at hr
      subst hr
      exact ⟨fun a ha => by cases ha; exact hQ s h hi hp, fun x hx => (nomatch hx)⟩

theorem does_now {Q : Time → σ → Assert World}
    (hQs : ∀ a s, Stable (contract ok F) t.pid (Q a s)) (hZs : ∀ x s, Stable (contract ok F) t.pid (Z x s))
    (hQ : ∀ now s h, SysInv ok F h → P s h → Q now s h)
    (hZ : ∀ s h, SysInv ok F h → P s h → Z .clock s h) : Does ok F t P Body.now Q Z :=
  does_quiet rfl (fun _ _ _ _ => trivial) hQs hZs (fun _ s h hi hp => hZ s h hi hp)
    fun s h c r hi hp hr => by
      simp only [World.perform, Option.some.injEq, Prod.mk.injEq, and_true] at hr
      subst hr
      exact ⟨fun a ha => by cases ha; exact hQ _ s h hi hp, fun x hx => (nomatch hx)⟩

/-- The value of a column with an `onupdate`. -/
theorem does_onupdate {stored assigned : Time} {R : σ → Assert World}
    (hRs : ∀ s, Stable (contract ok F) t.pid (R s)) (hZs : ∀ x s, Stable (contract ok F) t.pid (Z x s))
    (hZ : ∀ s h, SysInv ok F h → R s h → Z (.database .operational) s h) :
    Does ok F t R (Body.onupdate stored assigned) (fun _ => R) Z := by
  unfold Body.onupdate
  split
  · refine does_quiet rfl (fun _ _ _ _ => trivial) (fun _ => hRs) hZs (fun _ => hZ) fun s h c r hi hp hr => ?_
    simp only [World.perform, Option.some.injEq, Prod.mk.injEq, and_true] at hr
    subst hr
    exact ⟨fun _ _ => hp, fun x hx => (nomatch hx)⟩
  · exact Triple.pure fun _ _ _ hp => hp

/-- A flush writes nothing that others see; it may find that a constraint is violated. -/
theorem does_flush {ws : List Write} {Q : Unit → σ → Assert World}
    (hQs : ∀ a s, Stable (contract ok F) t.pid (Q a s)) (hZs : ∀ x s, Stable (contract ok F) t.pid (Z x s))
    (hQ : ∀ s h, SysInv ok F h → P s h → Q () s h)
    (hZ : ∀ x s h, SysInv ok F h → P s h → Z (.database x) s h) : Does ok F t P (Body.flush ws) Q Z :=
  does_quiet rfl (fun _ _ _ _ => trivial) hQs hZs (fun _ s h hi hp => hZ _ s h hi hp)
    fun s h c r hi hp hr => by
      simp only [World.perform] at hr
      split at hr
      · next x _ =>
        cases hr
        exact ⟨fun a ha => (nomatch ha), fun y hy => by cases hy; exact hZ x s h hi hp⟩
      · cases hr
        exact ⟨fun a _ => hQ s h hi hp, fun x hx => (nomatch hx)⟩

/-- The world after a UUID was drawn. -/
def World.draw (w : World) (p : Pid) (u : Uuid) : World := { w with issued := (p, u) :: w.issued }

theorem allowed_draw (hi : SysInv ok F h) {u : Uuid} (hu : ∀ q, (q, u) ∉ h.now.issued) :
    Allowed ok F p h (h.now.draw p u) := by
  have hg : SysGuar F p h (h.now.draw p u) :=
    { issued_mono := fun x hx => List.mem_cons_of_mem _ hx
      issued_mine := by
        intro x hx
        rcases List.mem_cons.mp hx with rfl | hx
        · exact Or.inr rfl
        · exact Or.inl hx
      locks := fun _ _ _ hq => hq
      datasets := fun d hd => Or.inl hd
      new_datasets := fun d hd => Or.inl ⟨d, hd, rfl⟩
      names := fun key hn => Or.inl hn
      candidates := fun u => Or.inl rfl
      stored := fun key => Or.inl rfl
      rules := fun r hr => Or.inl hr
      analyses := fun a ha => ha
      new_analyses := fun a ha => Or.inl ha
      results := fun r hr => hr
      new_results := fun r hr => Or.inl hr }
  refine ⟨hg, hi.push hg ?_ rfl (fun _ => Or.inl) (fun _ => Or.inl) fun _ => Or.inl⟩
  intro q q' v hq hq'
  rcases List.mem_cons.mp hq with hq | hq <;> rcases List.mem_cons.mp hq' with hq' | hq'
  · cases hq; cases hq'; rfl
  · cases hq; exact absurd hq' (hu _)
  · cases hq'; exact absurd hq (hu _)
  · exact hi.issued_once _ _ _ hq hq'

theorem does_uuid4 {Q : Uuid → σ → Assert World}
    (hQs : ∀ a s, Stable (contract ok F) t.pid (Q a s)) (hZs : ∀ x s, Stable (contract ok F) t.pid (Z x s))
    (hQ : ∀ u s h, SysInv ok F h → P s h → (∀ q, (q, u) ∉ h.now.issued) →
      Q u s (h.push (h.now.draw t.pid u)))
    (hZ : ∀ s h, SysInv ok F h → P s h → Z .os s h) : Does ok F t P Body.uuid4 Q Z := by
  refine does_perform (by simp) (fun _ _ _ _ => trivial) hQs hZs (fun _ s h hi hp => ?_)
    fun s h c r w hi hp hr => ?_
  · exact stutter (hZs _ s) hi (hZ s h hi hp)
  · simp only [World.perform] at hr
    split at hr
    · cases hr
    · next hu =>
      cases hr
      have hu' : ∀ q, (q, c.uuid) ∉ h.now.issued := fun q hq =>
        hu (List.mem_map.mpr ⟨_, hq, rfl⟩)
      exact ⟨allowed_draw hi hu', fun a ha => by cases ha; exact hQ _ s h hi hp hu',
        fun x hx => (nomatch hx)⟩

/-- `SELECT … FOR UPDATE`: the row is locked until the transaction ends. -/
theorem does_getForOwnerForUpdate {dataset_id owner_id : Uuid}
    {Q : Option Dataset → σ → Assert World}
    (hQs : ∀ a s, Stable (contract ok F) t.pid (Q a s)) (hZs : ∀ x s, Stable (contract ok F) t.pid (Z x s))
    (hnone : ∀ s h, SysInv ok F h → P s h → h.now.db.ownedDataset dataset_id owner_id = none → Q none s h)
    (hsome : ∀ d s h w, SysInv ok F h → P s h → h.now.db.ownedDataset dataset_id owner_id = some d →
      LocksOnly h.now w → Holds t.pid d (h.push w) → Q (some d) s (h.push w))
    (hZ : ∀ s h, SysInv ok F h → P s h → Z (.database .operational) s h) :
    Does ok F t P (getForOwnerForUpdate dataset_id owner_id) Q Z := by
  refine does_perform (by simp) (fun _ _ _ _ => trivial) hQs hZs (fun _ s h hi hp => ?_)
    fun s h c r w hi hp hr => ?_
  · exact stutter (hZs _ s) hi (hZ s h hi hp)
  · simp only [World.perform] at hr
    split at hr
    · next hd =>
      cases hr
      refine ⟨allowed_stutter hi, fun a ha => ?_, fun x hx => (nomatch hx)⟩
      cases ha
      exact stutter (hQs _ s) hi (hnone s h hi hp hd)
    · next d hd =>
      split at hr
      · next hl =>
        cases hr
        have hw : LocksOnly h.now
            { h.now with locks := Function.update h.now.locks dataset_id (some t.pid) } := ⟨rfl, rfl, rfl⟩
        obtain ⟨hmem, hid, -⟩ := ownedDataset_eq_some.mp hd
        refine ⟨allowed_locks hi hw fun d' q hqp hq => ?_, fun a ha => ?_, fun x hx => (nomatch hx)⟩
        · by_cases hdd : d' = dataset_id
          · subst hdd
            rcases hl with hl | hl <;> rw [hl] at hq
            · cases hq
            · exact absurd (Option.some.inj hq).symm hqp
          · simpa [Function.update_of_ne hdd] using hq
        · cases ha
          refine hsome d s h _ hi hp hd hw ⟨?_, hmem⟩
          simp [hid]
      · cases hr

/-- The end of a session, and a rollback: a steady assertion survives. -/
theorem does_unlock {e : Eff} (he : e = .rollback ∨ e = .close) {R : σ → Assert World}
    (hR : ∀ s, Steady ok F t.pid (R s)) (hZs : ∀ x s, Steady ok F t.pid (Z x s))
    (hP : ∀ s h, SysInv ok F h → P s h → R s h)
    (hZ : F.fails e = true → ∀ s h, SysInv ok F h → P s h → Z (.database .operational) s h) :
    Does ok F t P (Body.perform e) (fun _ => R) Z := by
  have hfail : e.failure = .database .operational := by rcases he with rfl | rfl <;> rfl
  refine does_perform (fun ws hc => by rcases he with rfl | rfl <;> cases hc)
    (fun _ _ _ _ => by rcases he with rfl | rfl <;> trivial)
    (fun _ s => (hR s).stable) (fun x s => (hZs x s).stable) (fun hf s h hi hp => ?_)
    fun s h c r w hi hp hr => ?_
  · rw [hfail]
    exact (hZs _ s).locks h _ hi (hZ hf s h hi hp) (locksOnly_failed _ _ _)
  · have hw : (∀ x, r ≠ .error x) ∧ w = h.now.unlock t.pid := by
      rcases he with rfl | rfl <;> cases hr <;> exact ⟨fun x hx => (nomatch hx), rfl⟩
    obtain ⟨hr', rfl⟩ := hw
    exact ⟨allowed_unlock hi, fun a _ => (hR s).locks h _ hi (hP s h hi hp) (locksOnly_unlock _ _),
      fun x hx => absurd hx (hr' x)⟩

/-- A commit: its changes are applied and the locks are gone. -/
theorem does_commit {ws : List Write} {R : σ → Assert World}
    (hRs : ∀ s, Steady ok F t.pid (R s)) (hZs : ∀ x s, Steady ok F t.pid (Z x s))
    (hcommit : ∀ s h, SysInv ok F h → P s h → Allowed ok F t.pid h ((h.now.apply ws).unlock t.pid) ∧
      R s (h.push ((h.now.apply ws).unlock t.pid)))
    (hlost : F.lostAcknowledgement = true → ∀ s h, SysInv ok F h → R s h →
      Z (.database .operational) s h)
    (hZ : ∀ s h, SysInv ok F h → P s h → Z (.database .operational) s h) :
    Does ok F t P (Body.perform (.commit ws)) (fun _ => R) Z := by
  refine Triple.perform (fun _ _ _ _ => trivial) (fun _ s => (hRs s).stable)
    (fun x s => (hZs x s).stable) fun s h c r w hi hp he => ?_
  rcases exec_commit_cases he with ⟨rfl, rfl⟩ | ⟨rfl, hr⟩
  · have ha := allowed_unlock (p := t.pid) hi
    refine ⟨ha.1, ha.2, fun _ hx => (nomatch hx), fun x hx => ?_⟩
    cases hx
    exact (hZs _ s).locks h _ hi (hZ s h hi hp) (locksOnly_unlock _ _)
  · obtain ⟨ha, hR⟩ := hcommit s h hi hp
    refine ⟨ha.1, ha.2, fun _ _ => hR, fun x hx => ?_⟩
    rcases hr with rfl | ⟨hF, rfl⟩
    · cases hx
    · cases hx
      exact hlost hF s _ ha.2 hR

/-! ### Transactions -/

/-- `with self._session_factory() as database_session` around a body. -/
theorem does_session {m : Body σ α} {Q : α → σ → Assert World} (hQs : ∀ a s, Steady ok F t.pid (Q a s))
    (hZs : ∀ x s, Steady ok F t.pid (Z x s)) (hm : Does ok F t P m Q Z)
    (hclose : F.fails .close = true → ∀ a s h, SysInv ok F h → Q a s h → Z (.database .operational) s h)
    (hraise : ∀ x s h, SysInv ok F h → Z x s h → Z (.database .operational) s h) :
    Does ok F t P (Body.session m) Q Z := by
  unfold Body.session
  refine (hm.catching fun x => ?_).bind fun a => ?_
  · exact (does_unlock (Or.inr rfl) (hZs x) hZs (fun _ _ _ hz => hz)
      fun _ s h hi hz => hraise x s h hi hz).bind fun _ => Triple.raise fun _ _ _ hz => hz
  · exact (does_unlock (Or.inr rfl) (hQs a) hZs (fun _ _ _ hq => hq) fun hf => hclose hf a).bind
      fun _ => Triple.pure fun _ _ _ hq => hq

/-- `with database_session.begin()` around a body that leaves its changes to commit. -/
theorem does_begin {m : Body σ (α × List Write)} {C : α × List Write → σ → Assert World}
    {Q : α → σ → Assert World} (hQs : ∀ a s, Steady ok F t.pid (Q a s))
    (hZs : ∀ x s, Steady ok F t.pid (Z x s)) (hm : Does ok F t P m C Z)
    (hcommit : ∀ a ws s h, SysInv ok F h → C (a, ws) s h →
      Allowed ok F t.pid h ((h.now.apply ws).unlock t.pid) ∧
        Q a s (h.push ((h.now.apply ws).unlock t.pid)))
    (hfail : ∀ a ws s h, SysInv ok F h → C (a, ws) s h → Z (.database .operational) s h)
    (hlost : F.lostAcknowledgement = true → ∀ a s h, SysInv ok F h → Q a s h →
      Z (.database .operational) s h)
    (hraise : ∀ x s h, SysInv ok F h → Z x s h → Z (.database .operational) s h) :
    Does ok F t P (Body.begin m) Q Z := by
  unfold Body.begin
  refine (hm.catching fun x => ?_).bind fun out => ?_
  · exact (does_unlock (Or.inl rfl) (hZs x) hZs (fun _ _ _ hz => hz)
      fun _ s h hi hz => hraise x s h hi hz).bind fun _ => Triple.raise fun _ _ _ hz => hz
  · obtain ⟨a, ws⟩ := out
    exact (does_commit (hQs a) hZs (hcommit a ws) (fun hF => hlost hF a) (hfail a ws)).bind
      fun _ => Triple.pure fun _ _ _ hq => hq

theorem does_transaction {m : Body σ (α × List Write)} {C : α × List Write → σ → Assert World}
    {Q : α → σ → Assert World} (hQs : ∀ a s, Steady ok F t.pid (Q a s))
    (hZs : ∀ x s, Steady ok F t.pid (Z x s)) (hm : Does ok F t P m C Z)
    (hcommit : ∀ a ws s h, SysInv ok F h → C (a, ws) s h →
      Allowed ok F t.pid h ((h.now.apply ws).unlock t.pid) ∧
        Q a s (h.push ((h.now.apply ws).unlock t.pid)))
    (hfail : ∀ a ws s h, SysInv ok F h → C (a, ws) s h → Z (.database .operational) s h)
    (hafter : F.fails .close = true ∨ F.lostAcknowledgement = true → ∀ a s h, SysInv ok F h → Q a s h →
      Z (.database .operational) s h)
    (hraise : ∀ x s h, SysInv ok F h → Z x s h → Z (.database .operational) s h) :
    Does ok F t P (Body.transaction m) Q Z :=
  does_session hQs hZs
    (does_begin hQs hZs hm hcommit hfail (fun hF => hafter (Or.inr hF)) hraise)
    (fun hF => hafter (Or.inl hF)) hraise

lemma commit_nil {P : Assert World} (hP : Steady ok F p P) (hi : SysInv ok F h) (hp : P h) :
    Allowed ok F p h ((h.now.apply []).unlock p) ∧ P (h.push ((h.now.apply []).unlock p)) :=
  ⟨allowed_unlock hi, hP.locks h _ hi hp (locksOnly_unlock _ _)⟩

end Rules

end DataCheck.Shared
