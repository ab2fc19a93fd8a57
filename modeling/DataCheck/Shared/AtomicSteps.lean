import DataCheck.Shared.Atomic

/-!
# One effect of an atomic operation

For each effect the rule that a proof about an atomic operation uses.  The contract of the system is
given at every step; what is left to say is what the method learns from the effect, and, at a commit,
which operation it is.
-/

namespace DataCheck.Shared

open Lib Datasets Analyses

/-- A failure of the machine that the services run on, which may happen at any effect. -/
def Exn.isFault : Exn → Bool
  | .database .operational | .os | .clock => true
  | _ => false

lemma isFault_failure (e : Eff) : e.failure.isFault = true := by
  cases e <;> rfl

variable {ok : ValidationRule → Prop} {F : Faults} {U : Unicode} {p : Pid} {h : Hist World} {w w' : World}

/-- A body keeps the contract of the atomic operations. -/
abbrev Shows {σ α : Type} (ok : ValidationRule → Prop) (F : Faults) (U : Unicode) (t : Caller Call World)
    (P : σ → Assert World) (m : Body σ α) (Q : α → σ → Assert World) (Z : Exn → σ → Assert World) :
    Prop := AlsoTriple (machine F) (contract ok F) (atomically U) t P m Q Z

/-- What holds after an exception, when the effects of the body may fail. -/
structure Tolerant {σ : Type} (ok : ValidationRule → Prop) (F : Faults) (U : Unicode) (t : Caller Call World)
    (Z : Exn → σ → Assert World) : Prop where
  persists : ∀ x s, Persists ok F U t.pid (Z x s)
  faults : ∀ x s h, x.isFault = true → t.start ≤ h → Z x s h
  since : ∀ x s h, Z x s h → t.start ≤ h

lemma refused_fault {t : Caller Call World} {x : Exn} (hx : x.isFault = true) (hle : t.start ≤ h) :
    Refused U t x h := by
  refine ⟨h, hle, Hist.le_rfl, ?_⟩
  cases x with
  | database x =>
    cases x with
    | operational => trivial
    | integrity c => cases hx
    | data => cases hx
  | os => trivial
  | clock => trivial
  | _ => cases hx

lemma tolerant_refused {σ : Type} {t : Caller Call World} :
    Tolerant ok F U t fun x (_ : σ) => Refused U t x :=
  ⟨fun x _ => persists_refused x, fun _ _ _ => refused_fault,
    fun _ _ _ ⟨_, hle, hle', _⟩ => Hist.le_trans hle hle'⟩

lemma tolerant_since {σ : Type} {t : Caller Call World} :
    Tolerant ok F U t fun _ (_ : σ) h => t.start ≤ h :=
  ⟨fun _ _ => (Steady.since _).persists, fun _ _ _ _ => id, fun _ _ _ => id⟩

/-- Every stable assertion outlives a step that does nothing. -/
lemma stutters {P : Assert World} (hP : Stable (services ok F U) p P) (hi : (services ok F U).Inv h)
    (hp : P h) : P (h.push h.now) := by
  have ha := allowed_stutter (p := p + 1) hi.1
  have hs : (atomically U).Guar (p + 1) (.listDatasets 0 0 0) h h.now := atomically_same rfl
  exact hP (p + 1) (.listDatasets 0 0 0) h h.now (Nat.succ_ne_self p) hi hp ⟨ha.1, hs⟩
    ⟨ha.2, atomically_push hi ha.1 hs⟩

section Rules

variable {σ α : Type} {t : Caller Call World} {P : σ → Assert World} {Z : Exn → σ → Assert World}

/-- One effect that is not a commit, by what it does when it fails and when it is performed. -/
theorem shows_effect {e : Eff} (hne : ∀ ws, e ≠ .commit ws) {Q : e.Resp → σ → Assert World}
    (hQs : ∀ a s, Stable (services ok F U) t.pid (Q a s)) (hZs : ∀ x s, Stable (services ok F U) t.pid (Z x s))
    (hfail : ∀ s h, P s h → Z e.failure s (h.push (h.now.failed t.pid e)))
    (hstep : ∀ s h c r w, (services ok F U).Inv h → P s h → h.now.perform t.pid c e = some (r, w) →
      (∀ a, r = .ok a → Q a s (h.push w)) ∧ ∀ x, r = .error x → Z x s (h.push w)) :
    Shows ok F U t P (Body.perform e) Q Z := by
  refine AlsoTriple.perform (fun _ _ _ _ => trivial) hQs hZs fun s h c r w hi hp he hg hi' => ?_
  rcases exec_cases hne he with ⟨-, rfl, rfl⟩ | he'
  · have hs : (atomically U).Guar t.pid t.call h (h.now.failed t.pid e) :=
      atomically_same (locksOnly_failed _ _ _).db
    refine ⟨hs, atomically_push hi hg hs, fun a hx => (by cases hx), fun x hx => ?_⟩
    cases hx
    exact hfail s h hp
  · have hs : (atomically U).Guar t.pid t.call h w := atomically_same (perform_db hne he')
    exact ⟨hs, atomically_push hi hg hs, hstep s h c r w hi hp he'⟩

theorem shows_perform {e : Eff} (hne : ∀ ws, e ≠ .commit ws) (hZ : Tolerant ok F U t Z)
    (hP : ∀ s h, P s h → t.start ≤ h) {Q : e.Resp → σ → Assert World}
    (hQs : ∀ a s, Stable (services ok F U) t.pid (Q a s))
    (hstep : ∀ s h c r w, (services ok F U).Inv h → P s h → h.now.perform t.pid c e = some (r, w) →
      (∀ a, r = .ok a → Q a s (h.push w)) ∧ ∀ x, r = .error x → Z x s (h.push w)) :
    Shows ok F U t P (Body.perform e) Q Z :=
  shows_effect hne hQs (fun x s => (hZ.persists x s).stable)
    (fun s h hp => hZ.faults _ s _ (isFault_failure e) (Hist.le_push _ (hP s h hp))) hstep

theorem shows_quiet {e : Eff} (he : e.quiet = true) (hZ : Tolerant ok F U t Z)
    (hP : ∀ s h, P s h → t.start ≤ h) {Q : e.Resp → σ → Assert World}
    (hQs : ∀ a s, Stable (services ok F U) t.pid (Q a s))
    (hstep : ∀ s h c r, (services ok F U).Inv h → P s h → h.now.perform t.pid c e = some (r, h.now) →
      (∀ a, r = .ok a → Q a s h) ∧ ∀ x, r = .error x → Z x s h) :
    Shows ok F U t P (Body.perform e) Q Z := by
  refine shows_perform (fun ws hc => by rw [hc] at he; cases he) hZ hP hQs fun s h c r w hi hp hr => ?_
  obtain rfl := perform_quiet he hr
  obtain ⟨hq, hz⟩ := hstep s h c r hi hp hr
  exact ⟨fun a ha => stutters (hQs a s) hi (hq a ha),
    fun x hx => stutters (hZ.persists x s).stable hi (hz x hx)⟩

theorem shows_query {q : Query} (hZ : Tolerant ok F U t Z) (hP : ∀ s h, P s h → t.start ≤ h)
    {Q : q.Rows → σ → Assert World} (hQs : ∀ a s, Stable (services ok F U) t.pid (Q a s))
    (hQ : ∀ s h, (services ok F U).Inv h → P s h → Q (h.now.db.eval q) s h) :
    Shows ok F U t P (Body.perform (.query q)) Q Z :=
  shows_quiet rfl hZ hP hQs fun s h c r hi hp hr => by
    cases hr
    refine ⟨fun a ha => ?_, fun x hx => by cases hx⟩
    cases ha
    exact hQ s h hi hp

theorem shows_now (hZ : Tolerant ok F U t Z) (hP : ∀ s h, P s h → t.start ≤ h)
    (hPs : ∀ s, Stable (services ok F U) t.pid (P s)) : Shows ok F U t P Body.now (fun _ => P) Z :=
  shows_quiet rfl hZ hP (fun _ => hPs) fun s h c r _ hp hr => by
    cases hr
    exact ⟨fun _ _ => hp, fun x hx => by cases hx⟩

/-- The value of a column with an `onupdate`: the assigned one, unless that is stored. -/
theorem shows_onupdate {stored assigned : Time} (hZ : Tolerant ok F U t Z) (hP : ∀ s h, P s h → t.start ≤ h)
    (hPs : ∀ s, Stable (services ok F U) t.pid (P s)) :
    Shows ok F U t P (Body.onupdate stored assigned)
      (fun updated_at s h => P s h ∧ (stored ≠ assigned → updated_at = assigned)) Z := by
  unfold Body.onupdate
  split
  · next he =>
    refine shows_quiet rfl hZ hP (fun _ s => (hPs s).and (Stable.const _)) fun s h c r _ hp hr => ?_
    cases hr
    exact ⟨fun _ _ => ⟨hp, fun hne => absurd he.symm hne⟩, fun x hx => by cases hx⟩
  · exact AlsoTriple.pure fun _ _ _ hp => ⟨hp, fun _ => rfl⟩

/-- A flush finds the first constraint that is violated. -/
theorem shows_flush {ws : List Write} (hZ : Tolerant ok F U t Z) (hP : ∀ s h, P s h → t.start ≤ h)
    {Q : Unit → σ → Assert World} (hQs : ∀ a s, Stable (services ok F U) t.pid (Q a s))
    (hQ : ∀ s h, (services ok F U).Inv h → P s h → h.now.db.firstError ws = none → Q () s h)
    (herror : ∀ x s h, (services ok F U).Inv h → P s h → h.now.db.firstError ws = some x → Z (.database x) s h) :
    Shows ok F U t P (Body.flush ws) Q Z :=
  shows_quiet rfl hZ hP hQs fun s h c r hi hp hr => by
    simp only [World.perform] at hr
    split at hr
    · next x hx =>
      cases hr
      refine ⟨fun a ha => (by cases ha), fun y hy => ?_⟩
      cases hy
      exact herror x s h hi hp hx
    · next hnone =>
      cases hr
      exact ⟨fun _ _ => hQ s h hi hp hnone, fun x hx => by cases hx⟩

theorem shows_uuid4 (hZ : Tolerant ok F U t Z) (hP : ∀ s h, P s h → t.start ≤ h)
    {Q : Uuid → σ → Assert World} (hQs : ∀ a s, Stable (services ok F U) t.pid (Q a s))
    (hQ : ∀ u s h, (services ok F U).Inv h → P s h → (∀ q, (q, u) ∉ h.now.issued) →
      Q u s (h.push (h.now.draw t.pid u))) : Shows ok F U t P Body.uuid4 Q Z := by
  refine shows_perform (fun ws hc => by cases hc) hZ hP hQs fun s h c r w hi hp hr => ?_
  simp only [World.perform] at hr
  split at hr
  · cases hr
  · next hu =>
    cases hr
    refine ⟨fun a ha => ?_, fun x hx => by cases hx⟩
    cases ha
    exact hQ _ s h hi hp fun q hq => hu (List.mem_map.mpr ⟨_, hq, rfl⟩)

/-- `SELECT … FOR UPDATE`: the row is locked until the transaction ends. -/
theorem shows_getForOwnerForUpdate {dataset_id owner_id : Uuid} (hZ : Tolerant ok F U t Z)
    (hP : ∀ s h, P s h → t.start ≤ h) {Q : Option Dataset → σ → Assert World}
    (hQs : ∀ a s, Stable (services ok F U) t.pid (Q a s))
    (hnone : ∀ s h, (services ok F U).Inv h → P s h → h.now.db.ownedDataset dataset_id owner_id = none →
      Q none s h)
    (hsome : ∀ d s h w, (services ok F U).Inv h → P s h → h.now.db.ownedDataset dataset_id owner_id = some d →
      LocksOnly h.now w → Holds t.pid d (h.push w) → Q (some d) s (h.push w)) :
    Shows ok F U t P (getForOwnerForUpdate dataset_id owner_id) Q Z := by
  refine shows_perform (fun ws hc => by cases hc) hZ hP hQs fun s h c r w hi hp hr => ?_
  simp only [World.perform] at hr
  split at hr
  · next hd =>
    cases hr
    refine ⟨fun a ha => ?_, fun x hx => by cases hx⟩
    cases ha
    exact stutters (hQs _ s) hi (hnone s h hi hp hd)
  · next d hd =>
    split at hr
    · cases hr
      obtain ⟨hmem, hid, -⟩ := ownedDataset_eq_some.mp hd
      refine ⟨fun a ha => ?_, fun x hx => by cases hx⟩
      cases ha
      refine hsome d s h _ hi hp hd ⟨rfl, rfl, rfl⟩ ⟨?_, hmem⟩
      simp [hid]
    · cases hr

/-- `unlink`, after which only what outlives every step is known. -/
theorem shows_unlink {name : FileName} (hZ : Tolerant ok F U t Z) (hP : ∀ s h, P s h → t.start ≤ h)
    (hPs : ∀ s, Persists ok F U t.pid (P s)) (hpush : ∀ s h w, P s h → P s (h.push w)) :
    Shows ok F U t P (Body.perform (.unlink name)) (fun _ => P) Z :=
  shows_perform (fun ws hc => by cases hc) hZ hP (fun _ s => (hPs s).stable) fun s h c r w _ hp hr => by
    cases hr
    exact ⟨fun _ _ => hpush s h _ hp, fun x hx => by cases hx⟩

/-- The end of a session, and a rollback. -/
theorem shows_unlock {e : Eff} (he : e = .rollback ∨ e = .close) (hZ : Tolerant ok F U t Z)
    (hP : ∀ s h, P s h → t.start ≤ h) (hPs : ∀ s, Persists ok F U t.pid (P s)) :
    Shows ok F U t P (Body.perform e) (fun _ => P) Z := by
  refine shows_perform (fun ws hc => by rcases he with rfl | rfl <;> cases hc) hZ hP
    (fun _ s => (hPs s).stable) fun s h c r w hi hp hr => ?_
  have hw : (∀ x, r ≠ .error x) ∧ w = h.now.unlock t.pid := by
    rcases he with rfl | rfl <;> cases hr <;> exact ⟨fun x hx => (by cases hx), rfl⟩
  obtain ⟨hr', rfl⟩ := hw
  exact ⟨fun _ _ => (hPs s).locks h _ hi.1 hp (locksOnly_unlock _ _), fun x hx => absurd hx (hr' x)⟩

theorem shows_commit {ws : List Write} (hZ : Tolerant ok F U t Z) (hP : ∀ s h, P s h → t.start ≤ h)
    {R : σ → Assert World} (hRs : ∀ s, Persists ok F U t.pid (R s))
    (hcommit : ∀ s h, (services ok F U).Inv h → P s h → SysInv ok F (h.push ((h.now.apply ws).unlock t.pid)) →
      (atomically U).Guar t.pid t.call h ((h.now.apply ws).unlock t.pid) ∧
        R s (h.push ((h.now.apply ws).unlock t.pid))) :
    Shows ok F U t P (Body.perform (.commit ws)) (fun _ => R) Z := by
  refine AlsoTriple.perform (fun _ _ _ _ => trivial) (fun _ s => (hRs s).stable)
    (fun x s => (hZ.persists x s).stable) fun s h c r w hi hp he hg hi' => ?_
  have hlost : r = .error (.database .operational) → ∀ x, r = .error x → Z x s (h.push w) := by
    rintro rfl x hx
    cases hx
    exact hZ.faults _ s _ rfl (Hist.le_push _ (hP s h hp))
  rcases exec_commit_cases he with ⟨rfl, rfl⟩ | ⟨rfl, hr⟩
  · have hs : (atomically U).Guar t.pid t.call h (h.now.unlock t.pid) := atomically_same rfl
    exact ⟨hs, atomically_push hi hg hs, fun _ hx => (by cases hx), hlost rfl⟩
  · obtain ⟨hs, hR⟩ := hcommit s h hi hp hi'
    refine ⟨hs, atomically_push hi hg hs, fun _ _ => hR, fun x hx => ?_⟩
    rcases hr with rfl | ⟨-, rfl⟩
    · cases hx
    · exact hlost rfl x hx

/-! ### Transactions -/

/-- `with self._session_factory() as database_session` around a body. -/
theorem shows_session {m : Body σ α} {Q : α → σ → Assert World} (hZ : Tolerant ok F U t Z)
    (hQs : ∀ a s, Persists ok F U t.pid (Q a s)) (hQ : ∀ a s h, Q a s h → t.start ≤ h)
    (hm : Shows ok F U t P m Q Z) : Shows ok F U t P (Body.session m) Q Z := by
  unfold Body.session
  refine (hm.catching fun x => ?_).bind fun a => ?_
  · exact (shows_unlock (Or.inr rfl) hZ (hZ.since x) (hZ.persists x)).bind
      fun _ => AlsoTriple.raise fun _ _ _ hz => hz
  · exact (shows_unlock (Or.inr rfl) hZ (hQ a) (hQs a)).bind fun _ => AlsoTriple.pure fun _ _ _ hq => hq

/-- `with database_session.begin()` around a body that leaves its changes to commit. -/
theorem shows_begin {m : Body σ (α × List Write)} {B : α × List Write → σ → Assert World}
    {Q : α → σ → Assert World} (hZ : Tolerant ok F U t Z) (hQs : ∀ a s, Persists ok F U t.pid (Q a s))
    (hB : ∀ out s h, B out s h → t.start ≤ h) (hm : Shows ok F U t P m B Z)
    (hcommit : ∀ a ws s h, (services ok F U).Inv h → B (a, ws) s h →
      SysInv ok F (h.push ((h.now.apply ws).unlock t.pid)) →
        (atomically U).Guar t.pid t.call h ((h.now.apply ws).unlock t.pid) ∧
          Q a s (h.push ((h.now.apply ws).unlock t.pid))) :
    Shows ok F U t P (Body.begin m) Q Z := by
  unfold Body.begin
  refine (hm.catching fun x => ?_).bind fun out => ?_
  · exact (shows_unlock (Or.inl rfl) hZ (hZ.since x) (hZ.persists x)).bind
      fun _ => AlsoTriple.raise fun _ _ _ hz => hz
  · obtain ⟨a, ws⟩ := out
    exact (shows_commit hZ (hB (a, ws)) (hQs a) (hcommit a ws)).bind
      fun _ => AlsoTriple.pure fun _ _ _ hq => hq

theorem shows_transaction {m : Body σ (α × List Write)} {B : α × List Write → σ → Assert World}
    {Q : α → σ → Assert World} (hZ : Tolerant ok F U t Z) (hQs : ∀ a s, Persists ok F U t.pid (Q a s))
    (hQ : ∀ a s h, Q a s h → t.start ≤ h) (hB : ∀ out s h, B out s h → t.start ≤ h)
    (hm : Shows ok F U t P m B Z)
    (hcommit : ∀ a ws s h, (services ok F U).Inv h → B (a, ws) s h →
      SysInv ok F (h.push ((h.now.apply ws).unlock t.pid)) →
        (atomically U).Guar t.pid t.call h ((h.now.apply ws).unlock t.pid) ∧
          Q a s (h.push ((h.now.apply ws).unlock t.pid))) :
    Shows ok F U t P (Body.transaction m) Q Z :=
  shows_session hZ hQs hQ (shows_begin hZ hQs hB hm hcommit)

lemma shows_commit_nil {k : Call} {P : Assert World} (hP : Persists ok F U p P) (hi : (services ok F U).Inv h)
    (hp : P h) : (atomically U).Guar p k h ((h.now.apply []).unlock p) ∧
      P (h.push ((h.now.apply []).unlock p)) :=
  ⟨atomically_same rfl, hP.locks h _ hi.1 hp (locksOnly_unlock _ _)⟩

theorem shows_reading {m : Body σ (α × List Write)} {Q : α → σ → Assert World} (hZ : Tolerant ok F U t Z)
    (hQs : ∀ a s, Persists ok F U t.pid (Q a s)) (hQ : ∀ a s h, Q a s h → t.start ≤ h)
    (hm : Shows ok F U t P m (fun out s h => out.2 = [] ∧ Q out.1 s h) Z) :
    Shows ok F U t P (Body.transaction m) Q Z := by
  refine shows_transaction hZ hQs hQ (fun out s h hb => hQ out.1 s h hb.2) hm fun a ws s h hi hb _ => ?_
  obtain ⟨rfl, hq⟩ := hb
  exact shows_commit_nil (hQs a s) hi hq

end Rules

end DataCheck.Shared
