import DataCheck.Datasets.Ledger

/-!
# No orphan files

An upload keeps the contract of the ledger, and when it ends it answers for no file that is still
there.  So when no upload is in progress the files are exactly those that the rows name.
-/

namespace DataCheck.Datasets

open Lib Shared

/-- No session raises as it is closed after its upload was committed over an earlier one. -/
def ClosesAfterReplacing (ev : UploadEvent) (log : List UploadEvent) : Prop :=
  ev.eff = .close → ev.choice.fault = .fails → ¬ HasSuperseded ev.pid log

section Rules

variable {F : Faults} {σ α : Type} {t : Caller Call LoggedWorld} {A Z : σ → LoggedWorld → Prop}

/-- A body keeps the contract of the ledger. -/
abbrev Tidies (F : Faults) (t : Caller Call LoggedWorld) (A : σ → LoggedWorld → Prop) (m : Body σ α)
    (Q : α → σ → LoggedWorld → Prop) (Z : σ → LoggedWorld → Prop) : Prop :=
  Triple ((machine F).only ClosesAfterReplacing) ledger t (fun v h => A v h.now) m
    (fun a v h => Q a v h.now) fun _ v h => Z v h.now

section Body

variable {β : Type} {m : Body σ α} {f : α → Body σ β} {B : α → σ → LoggedWorld → Prop} {Y : σ → LoggedWorld → Prop}

lemma Tidies.bind {Q : β → σ → LoggedWorld → Prop} (hm : Tidies F t A m B Z)
    (hf : ∀ a, Tidies F t (B a) (f a) Q Z) : Tidies F t A (m >>= f) Q Z := Triple.bind hm hf

lemma Tidies.catching {g : Exn → Body σ α} (hm : Tidies F t A m B Y) (hg : ∀ x, Tidies F t Y (g x) B Z) :
    Tidies F t A (Op.catching m g) B Z := Triple.catching hm hg

lemma Tidies.pre {A' : σ → LoggedWorld → Prop} (hm : Tidies F t A' m B Z)
    (hA : ∀ v s, LedgerInv s → A v s → A' v s) : Tidies F t A m B Z :=
  Triple.pre hm fun v h hi ha => hA v h.now hi ha

lemma Tidies.pure {a : α} (h : ∀ v s, LedgerInv s → A v s → B a v s) : Tidies F t A (Op.pure a) B Z :=
  Triple.pure fun v hist hi ha => h v hist.now hi ha

lemma Tidies.raise {x : Exn} (h : ∀ v s, LedgerInv s → A v s → Z v s) :
    Tidies F t A (Op.raise x : Body σ α) B Z :=
  Triple.raise fun v hist hi ha => h v hist.now hi ha

end Body

theorem tidies_perform {e : Eff} {Q : e.Resp → σ → LoggedWorld → Prop}
    (hQs : ∀ a v, Lasting t.pid (Q a v)) (hZs : ∀ v, Lasting t.pid (Z v))
    (h : ∀ v s c r w, LedgerInv s → A v s → (machine F).exec t.pid e c s.state = some (r, w) →
      ClosesAfterReplacing ⟨t.pid, e, c, r, s.state, w⟩ s.log →
      Keeps t.pid s (s.next t.pid e c r w) ∧ (∀ a, r = .ok a → Q a v (s.next t.pid e c r w)) ∧
        ∀ x, r = .error x → Z v (s.next t.pid e c r w)) :
    Tidies F t A (Body.perform e) Q Z := by
  refine Triple.perform (fun _ _ _ _ => trivial) hQs (fun _ => hZs) fun v hist c r s' hi ha hx => ?_
  obtain ⟨w, hw, rfl, hg⟩ := Machine.only_exec.mp hx
  obtain ⟨hk, hq, hz⟩ := h v hist.now c r w hi ha hw hg
  exact ⟨hk.1, hk.2, hq, hz⟩

/-- An effect that changes neither rows nor files and draws nothing. -/
theorem tidies_idle {e : Eff} (he : e.still = true) (hu : e ≠ .uuid4) {Q : e.Resp → σ → LoggedWorld → Prop}
    (hQs : ∀ a v, Lasting t.pid (Q a v)) (hZs : ∀ v, Lasting t.pid (Z v))
    (hQ : ∀ a v s c s', LedgerInv s → A v s → Idle t.pid s s' →
      s.state.perform t.pid c e = some (.ok a, s'.state) → Q a v s')
    (hZ : ∀ v s s', LedgerInv s → A v s → Idle t.pid s s' → Z v s') :
    Tidies F t A (Body.perform e) Q Z := by
  refine tidies_perform hQs hZs fun v s c r w hi ha hx _ => ?_
  have hs := exec_idle he (fun hn => absurd hn hu) hx
  refine ⟨hs.keeps hi, ?_, fun x _ => hZ v s _ hi ha hs⟩
  rintro a rfl
  exact hQ a v s c _ hi ha hs (exec_ok hx).2

/-- An effect of that kind whose answer does not matter. -/
theorem tidies_skip {e : Eff} (he : e.still = true) (hu : e ≠ .uuid4) (hA : ∀ v, Firm t.pid (A v))
    (hZ : ∀ v, Firm t.pid (Z v)) (hAZ : ∀ v s, LedgerInv s → A v s → Z v s) :
    Tidies F t A (Body.perform e) (fun _ => A) Z :=
  tidies_idle he hu (fun _ v => (hA v).lasting) (fun v => (hZ v).lasting)
    (fun _ v s _ s' hi ha hs _ => (hA v).idle s s' hi ha hs)
    fun v s s' hi ha hs => (hZ v).idle s s' hi (hAZ v s hi ha) hs

theorem tidies_uuid4 {Q : Uuid → σ → LoggedWorld → Prop} (hQs : ∀ a v, Lasting t.pid (Q a v))
    (hZ : ∀ v, Firm t.pid (Z v)) (hAZ : ∀ v s, LedgerInv s → A v s → Z v s)
    (hQ : ∀ u v s s', A v s → s'.state.files = s.state.files →
      (∀ name, uuidOf name = u → s.state.files name = none) →
      (∀ name, owes s'.log name = if uuidOf name = u then some t.pid else owes s.log name) → Q u v s') :
    Tidies F t A Body.uuid4 Q Z := by
  refine tidies_perform hQs (fun v => (hZ v).lasting) fun v s c r w hi ha hx _ => ?_
  by_cases hc : c.fault = .none
  · simp only [machine, hc, World.perform] at hx
    split at hx
    · cases hx
    · next hu =>
      cases hx
      have hk := keeps_draw (p := t.pid) (r := .ok c.uuid) hi hc hu
      refine ⟨hk, fun a hr => ?_, fun x hr => by cases hr⟩
      obtain rfl : c.uuid = a := Except.ok.inj hr
      refine hQ c.uuid v s _ ha rfl (fun name hn => ?_) fun name => ?_
      · exact not_not.mp fun hf => hu (hn ▸ hi.drawn name hf)
      split
      · next hn => exact owes_taken (Or.inl ⟨rfl, hc, hn.symm⟩)
      · next hn => exact owes_same (fun hd => hn hd.2.2.symm) Iff.rfl
  · have hs := exec_idle rfl (fun _ => hc) hx
    refine ⟨hs.keeps hi, ?_, fun x _ => (hZ v).idle s _ hi (hAZ v s hi ha) hs⟩
    rintro a rfl
    exact absurd (exec_ok hx).1 hc

/-- An effect on files that the thread answers for; it may fail, and then nothing happens. -/
theorem tidies_files {e : Eff} (hne : ∀ ws, e ≠ .commit ws) (hu : e ≠ .uuid4)
    (hfail : ∀ (w : World), w.failed t.pid e = w) {Q : e.Resp → σ → LoggedWorld → Prop}
    (hQs : ∀ a v, Lasting t.pid (Q a v)) (hZ : ∀ v, Firm t.pid (Z v))
    (hAZ : F.fails e = true → ∀ v s, LedgerInv s → A v s → Z v s)
    (hstep : ∀ v s c r w, LedgerInv s → A v s → s.state.perform t.pid c e = some (r, w) →
      w = s.state ∧ (∀ a, r ≠ .ok a) ∧ Z v s ∨
      (w.db = s.state.db ∧ w.issued = s.state.issued ∧ w.locks = s.state.locks ∧
        (∀ name, w.files name = s.state.files name ∨ Mine t.pid name s) ∧ (∀ x, r ≠ .error x) ∧
        ∀ s' a, (∀ name, owes s'.log name = owes s.log name) → s'.state = w → Q a v s')) :
    Tidies F t A (Body.perform e) Q Z := by
  have hstay : ∀ v s c (r : Except Exn e.Resp), LedgerInv s → Z v s →
      Keeps t.pid s (s.next t.pid e c r s.state) ∧ Z v (s.next t.pid e c r s.state) := by
    intro v s c r hi hz
    have hs : Idle t.pid s (s.next t.pid e c r s.state) :=
      ⟨⟨e, c, r, s.state, rfl, fun he => absurd he hu⟩, rfl, rfl, rfl, fun _ _ _ hl => hl⟩
    exact ⟨hs.keeps hi, (hZ v).idle s _ hi hz hs⟩
  refine tidies_perform hQs (fun v => (hZ v).lasting) fun v s c r w hi ha hx _ => ?_
  rcases exec_cases hne hx with ⟨hf, rfl, rfl⟩ | hx
  · rw [hfail]
    obtain ⟨hk, hz⟩ := hstay v s c (.error e.failure) hi (hAZ hf v s hi ha)
    exact ⟨hk, fun _ hr => (nomatch hr), fun _ _ => hz⟩
  · rcases hstep v s c r w hi ha hx with ⟨rfl, hr, hz⟩ | ⟨hdb, hissued, hlocks, hfiles, hr, hq⟩
    · obtain ⟨hk, hz⟩ := hstay v s c r hi hz
      exact ⟨hk, fun a he => absurd he (hr a), fun _ _ => hz⟩
    · obtain ⟨hk, howes⟩ := keeps_files (p := t.pid) (c := c) (r := r) hi hu hdb hissued hlocks hfiles
      exact ⟨hk, fun a _ => hq _ a howes rfl, fun x he => absurd he (hr x)⟩

/-- `unlink` of a file that the thread answers for, where deletions succeed. -/
theorem tidies_unlink (hdel : DeletionsSucceed F) {name : FileName} {L : List FileName} {R : σ → LoggedWorld → Prop}
    (hR : ∀ v, Firm t.pid (R v)) (hZ : ∀ v, Firm t.pid (Z v))
    (hown : ∀ v s, A v s → Mine t.pid name s ∧ Owing t.pid (name :: L) s)
    (hAR : ∀ v s s', A v s → (∀ n, owes s'.log n = owes s.log n) → R v s') :
    Tidies F t A (Body.perform (.unlink name)) (fun _ v s => Owing t.pid L s ∧ R v s) Z := by
  refine tidies_files (by simp) (by simp) (fun _ => rfl)
    (fun _ v => (firm_owing L).lasting.and (hR v).lasting) hZ
    (fun hf => absurd (hdel name) (by simp [hf])) fun v s c r w hi ha hx => Or.inr ?_
  obtain ⟨hm, ho⟩ := hown v s ha
  cases hx
  refine ⟨rfl, rfl, rfl, fun n => ?_, fun x hr => (nomatch hr), fun s' a howes hs => ⟨fun n hn hf => ?_, ?_⟩⟩
  · by_cases hn : n = name
    · exact Or.inr (hn ▸ hm)
    · exact Or.inl (setFile_of_ne hn)
  · rw [hs] at hf
    rw [howes] at hn
    by_cases he : n = name
    · rw [he, setFile_self] at hf
      exact absurd rfl hf
    · rw [setFile_of_ne he] at hf
      exact (List.mem_cons.mp (ho n hn hf)).resolve_left he
  · exact hAR v s s' ha howes

/-- `with self._session_factory() as database_session` around a body. -/
theorem tidies_session {m : Body σ α} {Q : α → σ → LoggedWorld → Prop} (hm : Tidies F t A m Q Z)
    (hQ : ∀ a v, Firm t.pid (Q a v)) (hZ : ∀ v, Firm t.pid (Z v))
    (hclose : ∀ a v s, Q a v s → ¬ HasSuperseded t.pid s.log → Z v s) :
    Tidies F t A (Body.session m) Q Z := by
  unfold Body.session
  refine Tidies.bind (B := Q) (Tidies.catching hm fun x => ?_) fun a => ?_
  · exact Tidies.bind (tidies_skip rfl (by simp) hZ hZ fun _ _ _ hz => hz) fun _ =>
      Tidies.raise fun _ _ _ hz => hz
  · refine Tidies.bind (B := fun _ => Q a) ?_ fun _ => Tidies.pure fun _ _ _ hq => hq
    refine tidies_perform (fun _ v => (hQ a v).lasting) (fun v => (hZ v).lasting)
      fun v s c r w hi hq hx hg => ?_
    have hs : Idle t.pid s (s.next t.pid .close c r w) := exec_idle rfl (fun hu : Eff.close = .uuid4 => nomatch hu) hx
    refine ⟨hs.keeps hi, fun _ _ => (hQ a v).idle s _ hi hq hs, fun x hr => ?_⟩
    -- the session raises: nothing was superseded
    have hc : c.fault = .fails := by
      simp only [machine, World.perform] at hx
      split at hx
      · cases hx
        cases hr
      · next hc => exact hc
      · cases hx
    exact (hZ v).idle s _ hi (hclose a v s hq (hg rfl hc)) hs

/-- `with database_session.begin()` around a body that leaves its changes to commit. -/
theorem tidies_begin (hack : F.lostAcknowledgement = false) {m : Body σ (α × List Write)}
    {B : α × List Write → σ → LoggedWorld → Prop} {Q : α → σ → LoggedWorld → Prop}
    (hm : Tidies F t A m B Z) (hQs : ∀ a v, Lasting t.pid (Q a v)) (hZ : ∀ v, Firm t.pid (Z v))
    (hfail : ∀ a ws v s, B (a, ws) v s → Z v s)
    (hcommit : ∀ a ws v s c (r : Except Exn Unit), LedgerInv s → B (a, ws) v s →
      Keeps t.pid s (s.next t.pid (.commit ws) c r ((s.state.apply ws).unlock t.pid)) ∧
        Q a v (s.next t.pid (.commit ws) c r ((s.state.apply ws).unlock t.pid))) :
    Tidies F t A (Body.begin m) Q Z := by
  unfold Body.begin
  refine Tidies.bind (B := B) (Tidies.catching hm fun x => ?_) fun out => ?_
  · exact Tidies.bind (tidies_skip rfl (by simp) hZ hZ fun _ _ _ hz => hz) fun _ =>
      Tidies.raise fun _ _ _ hz => hz
  · obtain ⟨a, ws⟩ := out
    refine Tidies.bind (B := fun _ => Q a) ?_ fun _ => Tidies.pure fun _ _ _ hq => hq
    refine tidies_perform (fun _ v => hQs a v) (fun v => (hZ v).lasting) fun v s c r w hi hb hx _ => ?_
    rcases exec_commit_cases hx with ⟨rfl, rfl⟩ | ⟨rfl, hr⟩
    · have hs : Idle t.pid s (s.next t.pid (.commit ws) c (.error (.database .operational))
          (s.state.unlock t.pid)) :=
        ⟨⟨_, c, _, _, rfl, fun hu => nomatch hu⟩, rfl, rfl, rfl, keepsLocks_unlock _⟩
      exact ⟨hs.keeps hi, fun _ hr => (nomatch hr), fun _ _ => (hZ v).idle s _ hi (hfail a ws v s hb) hs⟩
    · obtain ⟨hk, hq⟩ := hcommit a ws v s c r hi hb
      refine ⟨hk, fun _ _ => hq, fun x hx => ?_⟩
      rcases hr with rfl | ⟨hl, -⟩
      · cases hx
      · rw [hack] at hl
        cases hl

theorem tidies_reading (hack : F.lostAcknowledgement = false) {m : Body σ (α × List Write)}
    {R : σ → LoggedWorld → Prop} (hR : ∀ v, Firm t.pid (R v))
    (hm : Tidies F t R m (fun out v s => out.2 = [] ∧ R v s) R) :
    Tidies F t R (Body.transaction m) (fun _ => R) R := by
  refine tidies_session (tidies_begin hack hm (fun _ v => (hR v).lasting) hR (fun _ _ _ _ hb => hb.2)
    fun a ws v s c r hi hb => ?_) (fun _ => hR) hR fun _ _ _ hr _ => hr
  obtain ⟨rfl, hr⟩ := hb
  have hs : Idle t.pid s (s.next t.pid (.commit []) c r ((s.state.apply []).unlock t.pid)) :=
    ⟨⟨_, c, _, _, rfl, fun hu => nomatch hu⟩, rfl, rfl, rfl, keepsLocks_unlock _⟩
  exact ⟨hs.keeps hi, (hR v).idle s _ hi hr hs⟩

end Rules

/-! ### An upload -/

section Upload

variable {F : Faults} {σ : Type} {t : Caller Call LoggedWorld} {u : Uuid}

/-- The thread answers for its candidate, and for no other file that is there. -/
def HasCandidate (p : Pid) (u : Uuid) (s : LoggedWorld) : Prop :=
  Owing p [.candidate u] s ∧ Mine p (.candidate u) s

lemma firm_hasCandidate {p : Pid} (u : Uuid) : Firm p (HasCandidate p u) := (firm_owing _).and (firm_mine _)

lemma tidies_copyChunks (source : Source) : ∀ written : Bytes,
    Tidies F t (fun (_ : σ) => HasCandidate t.pid u) (copyChunks u source written)
      (fun _ _ => HasCandidate t.pid u) fun _ => HasCandidate t.pid u := by
  induction source with
  | nil => exact fun _ => Tidies.pure fun _ _ _ hp => hp
  | cons chunk source ih =>
    intro written
    rcases chunk with _ | _ | ⟨byte, chunk⟩
    · exact Tidies.raise fun _ _ _ hp => hp
    · exact Tidies.pure fun _ _ _ hp => hp
    · rw [copyChunks]
      split
      · exact Tidies.raise fun _ _ _ hp => hp
      · refine Tidies.bind (B := fun _ _ => HasCandidate t.pid u) ?_ fun _ => ih _
        refine tidies_files (by simp) (by simp) (fun _ => rfl) (fun _ _ => (firm_hasCandidate u).lasting)
          (fun _ => firm_hasCandidate u) (fun _ _ _ _ ha => ha) fun v s c r w hi ha hx => Or.inr ?_
        cases hx
        refine ⟨rfl, rfl, rfl, fun n => ?_, fun x hr => (by cases hr), fun s' a howes hs => ⟨fun n hn hf => ?_, ?_⟩⟩
        · by_cases hn : n = .candidate u
          · exact Or.inr (hn ▸ ha.2)
          · exact Or.inl (setFile_of_ne hn)
        · rw [howes] at hn
          rw [hs] at hf
          by_cases he : n = .candidate u
          · exact he ▸ List.mem_cons_self
          · rw [setFile_of_ne he] at hf
            exact ha.1 n hn hf
        · exact (howes _).trans ha.2

lemma tidies_writeCandidate (hdel : DeletionsSucceed F) (source : Source) :
    Tidies F t (fun (_ : σ) => Owing t.pid []) (writeCandidate source)
      (fun c _ => HasCandidate t.pid c.uuid) fun _ => Owing t.pid [] := by
  refine Tidies.bind (B := fun u _ s => Owing t.pid [] s ∧ Mine t.pid (.candidate u) s) ?_ fun u => ?_
  · refine tidies_uuid4 (fun u _ => ((firm_owing []).and (firm_mine _)).lasting) (fun _ => firm_owing [])
      (fun _ _ _ ha => ha) fun u v s s' ha hfiles hnone howes => ⟨fun name hn hf => ?_, ?_⟩
    · rw [howes] at hn
      rw [hfiles] at hf
      split at hn
      · next hu => exact absurd (hnone name hu) hf
      · exact ha name hn hf
    · exact (howes _).trans (if_pos rfl)
  refine Tidies.bind (B := fun _ _ => HasCandidate t.pid u) ?_ fun _ => ?_
  · -- the candidate is created empty, or nothing happens
    refine tidies_files (by simp) (by simp) (fun _ => rfl) (fun _ _ => (firm_hasCandidate u).lasting)
      (fun _ => firm_owing []) (fun _ _ _ _ ha => ha.1) fun v s c r w hi ha hx => ?_
    simp only [World.perform] at hx
    split at hx <;> cases hx
    · exact Or.inl ⟨rfl, fun a hr => (by cases hr), ha.1⟩
    · refine Or.inr ⟨rfl, rfl, rfl, fun n => ?_, fun x hr => (by cases hr), fun s' a howes hs => ⟨fun n hn hf => ?_, ?_⟩⟩
      · by_cases hn : n = .candidate u
        · exact Or.inr (hn ▸ ha.2)
        · exact Or.inl (setFile_of_ne hn)
      · rw [howes] at hn
        rw [hs] at hf
        by_cases he : n = .candidate u
        · exact he ▸ List.mem_cons_self
        · rw [setFile_of_ne he] at hf
          exact absurd (ha.1 n hn hf) List.not_mem_nil
      · exact (howes _).trans ha.2
  refine Tidies.bind (B := fun _ _ => HasCandidate t.pid u) ?_ fun out =>
    Tidies.pure fun _ _ _ hp => hp
  refine Tidies.catching (tidies_copyChunks source []) fun x => ?_
  refine Tidies.bind (B := fun _ _ s => Owing t.pid [] s ∧ True) ?_ fun _ =>
    Tidies.raise fun _ _ _ hp => hp.1
  exact tidies_unlink hdel (fun _ => Firm.const True) (fun _ => firm_owing [])
    (fun _ _ ha => ⟨ha.2, ha.1⟩) fun _ _ _ _ _ => trivial

/-- What the `except BaseException` of an upload relies on. -/
def Undoable (p : Pid) (u : Uuid) (v : UploadLocals) (s : LoggedWorld) : Prop :=
  Mine p (.candidate u) s ∧
    (v.committed = false → (∀ key, v.installed_key = some key → Mine p (.stored key) s) ∧
      Owing p (.candidate u :: (v.installed_key.map FileName.stored).toList) s) ∧
    (v.committed = true → Owing p [] s)

lemma firm_undoable {p : Pid} (v : UploadLocals) : Firm p (Undoable p u v) :=
  (firm_mine _).and ((Firm.imp _ (Firm.and (Firm.all fun _ => Firm.imp _ (firm_mine _)) (firm_owing _))).and
    (Firm.imp _ (firm_owing _)))

/-- The candidate is there, and no key is chosen yet. -/
def Unnamed (p : Pid) (u : Uuid) (v : UploadLocals) (s : LoggedWorld) : Prop :=
  v = ⟨none, false⟩ ∧ HasCandidate p u s

lemma firm_unnamed {p : Pid} (v : UploadLocals) : Firm p (Unnamed p u v) :=
  (Firm.const _).and (firm_hasCandidate u)

lemma Unnamed.undoable {p : Pid} {v : UploadLocals} {s : LoggedWorld} (h : Unnamed p u v s) :
    Undoable p u v s := by
  obtain ⟨rfl, ho, hm⟩ := h
  exact ⟨hm, fun _ => ⟨fun key hk => (nomatch hk), ho⟩, fun hv => (nomatch hv)⟩

/-- The key is drawn. -/
def Keyed (p : Pid) (u : Uuid) (key : StorageKey) (v : UploadLocals) (s : LoggedWorld) : Prop :=
  Unnamed p u v s ∧ Mine p (.stored key) s

lemma firm_keyed {p : Pid} {key : StorageKey} (v : UploadLocals) : Firm p (Keyed p u key v) :=
  (firm_unnamed v).and (firm_mine _)

/-- The file is under its key. -/
def Moved (p : Pid) (u : Uuid) (key : StorageKey) (content : Bytes) (v : UploadLocals) (s : LoggedWorld) :
    Prop :=
  v = ⟨some key, false⟩ ∧ Mine p (.candidate u) s ∧ Owing p [.stored key] s ∧ MineWith p (.stored key) content s

lemma firm_moved {p : Pid} {key : StorageKey} {content : Bytes} (v : UploadLocals) :
    Firm p (Moved p u key content v) :=
  (Firm.const _).and ((firm_mine _).and ((firm_owing _).and (firm_mineWith _ _)))

lemma Owing.mono {p : Pid} {L L' : List FileName} {s : LoggedWorld} (h : Owing p L s) (hL : L ⊆ L') :
    Owing p L' s := fun name hn hf => hL (h name hn hf)

lemma Moved.undoable {p : Pid} {key : StorageKey} {content : Bytes} {v : UploadLocals} {s : LoggedWorld}
    (h : Moved p u key content v s) : Undoable p u v s := by
  obtain ⟨rfl, hm, ho, hk⟩ := h
  refine ⟨hm, fun _ => ⟨fun key' he => ?_, ho.mono (by simp)⟩, fun hv => (nomatch hv)⟩
  cases he
  exact hk.1

/-- What the transaction of an upload leaves to commit. -/
def Committable (p : Pid) (u : Uuid) (key : StorageKey)
    (out : (DatasetReference × Option StorageKey) × List Write) (v : UploadLocals) (s : LoggedWorld) : Prop :=
  ∃ d upload now content, out.1.2 = d.upload.map UploadColumns.storage_key ∧
    out.2 = [.updateUpload d.id upload now] ∧ upload.storage_key = key ∧ HoldsRow p d s ∧
    Moved p u key content v s

/-- The upload is committed; the file that it superseded is its to remove. -/
def Removable (p : Pid) (old_key : Option StorageKey) (key : StorageKey) (s : LoggedWorld) : Prop :=
  Owing p (old_key.map FileName.stored).toList s ∧
    ∀ k, old_key = some k → k ≠ key ∧ Mine p (.stored k) s ∧ HasSuperseded p s.log

lemma firm_removable {p : Pid} (old_key : Option StorageKey) (key : StorageKey) :
    Firm p (Removable p old_key key) :=
  (firm_owing _).and (Firm.all fun _ => Firm.imp _ ((Firm.const _).and ((firm_mine _).and firm_hasSuperseded)))

/-- A lock, then statements that leave rows and locks as they are. -/
lemma idle_holdsRow {p : Pid} {d : Dataset} {s s' : LoggedWorld} (h : HoldsRow p d s)
    (hs : s'.state = s.state) : HoldsRow p d s' := by
  rw [HoldsRow, hs]
  exact h

/-- An effect that leaves rows and locks as they are, under the lock of a dataset. -/
lemma tidies_holding {e : Eff} (he : e.quiet = true) {d : Dataset} {A Z : σ → LoggedWorld → Prop}
    (hA : ∀ v, Firm t.pid (A v)) (hZ : ∀ v, Firm t.pid (Z v)) (hAZ : ∀ v s, A v s → Z v s) :
    Tidies F t (fun v s => A v s ∧ HoldsRow t.pid d s) (Body.perform e)
      (fun _ v s => A v s ∧ HoldsRow t.pid d s) Z := by
  have hstill : e.still = true ∧ e ≠ .uuid4 := by cases e <;> simp_all [Eff.quiet, Eff.still]
  refine tidies_idle hstill.1 hstill.2 (fun _ v => (hA v).lasting.and (lasting_holdsRow d))
    (fun v => (hZ v).lasting) (fun _ v s c s' hi ha hs hx => ?_)
    fun v s s' hi ha hs => (hZ v).idle s s' hi (hAZ v s ha.1) hs
  exact ⟨(hA v).idle s s' hi ha.1 hs, idle_holdsRow ha.2 (perform_quiet he hx)⟩

lemma tidies_onupdate {stored assigned : Time} {d : Dataset} {A Z : σ → LoggedWorld → Prop}
    (hA : ∀ v, Firm t.pid (A v)) (hZ : ∀ v, Firm t.pid (Z v)) (hAZ : ∀ v s, A v s → Z v s) :
    Tidies F t (fun v s => A v s ∧ HoldsRow t.pid d s) (Body.onupdate stored assigned)
      (fun _ v s => A v s ∧ HoldsRow t.pid d s) Z := by
  unfold Body.onupdate
  split
  · exact tidies_holding rfl hA hZ hAZ
  · exact Tidies.pure fun _ _ _ ha => ha

lemma tidies_install {candidate : CandidateFile} {key : StorageKey} {d : Dataset}
    (hu : candidate.uuid = u) :
    Tidies F t (fun v s => v = ⟨some key, false⟩ ∧ HasCandidate t.pid u s ∧ Mine t.pid (.stored key) s ∧
        HoldsRow t.pid d s) (install candidate key)
      (fun _ v s => (∃ content, Moved t.pid u key content v s) ∧ HoldsRow t.pid d s) (Undoable t.pid u) := by
  subst hu
  have hmoved : ∀ v, Firm t.pid fun s => ∃ content, Moved t.pid candidate.uuid key content v s :=
    fun v => Firm.exists fun _ => firm_moved v
  refine Tidies.bind (B := fun _ v s => (∃ content, Moved t.pid candidate.uuid key content v s) ∧
    HoldsRow t.pid d s) ?_ fun _ => ?_
  · refine tidies_files (by simp) (by simp) (fun _ => rfl)
      (fun _ v => (hmoved v).lasting.and (lasting_holdsRow d)) (fun v => firm_undoable v) (fun _ v s hi ha => ?_)
      fun v s c r w hi ha hx => ?_
    all_goals
      obtain ⟨rfl, ⟨ho, hm⟩, hk, hd⟩ := ha
      have hz : Undoable t.pid candidate.uuid ⟨some key, false⟩ s :=
        ⟨hm, fun _ => ⟨fun key' he => by cases he; exact hk, ho.mono (by simp)⟩, fun hv => by cases hv⟩
    · exact hz
    · simp only [World.perform] at hx
      split at hx
      · next content hc =>
        cases hx
        have hne : (FileName.stored key) ≠ .candidate candidate.uuid := by simp
        refine Or.inr ⟨rfl, rfl, rfl, fun n => ?_, fun x hr => (by cases hr), fun s' a howes hs =>
          ⟨⟨content, rfl, (howes _).trans hm, fun n hn hf => ?_, (howes _).trans hk, ?_⟩, ?_⟩⟩
        · by_cases h₁ : n = .candidate candidate.uuid
          · exact Or.inr (h₁ ▸ hm)
          · by_cases h₂ : n = .stored key
            · exact Or.inr (h₂ ▸ hk)
            · exact Or.inl ((setFile_of_ne h₁).trans (setFile_of_ne h₂))
        · rw [howes] at hn
          rw [hs] at hf
          by_cases h₁ : n = .candidate candidate.uuid
          · rw [h₁, setFile_self] at hf
            exact absurd rfl hf
          · by_cases h₂ : n = .stored key
            · exact List.mem_singleton.mpr h₂
            · rw [setFile_of_ne h₁, setFile_of_ne h₂] at hf
              exact absurd (List.mem_singleton.mp (ho n hn hf)) h₁
        · rw [hs, setFile_of_ne hne, setFile_self]
        · rw [HoldsRow, hs]
          exact hd
      · cases hx
        exact Or.inl ⟨rfl, fun a hr => (by cases hr), hz⟩
  · exact tidies_holding rfl hmoved (fun v => firm_undoable v) fun v s h => h.elim fun _ hc => hc.undoable

lemma tidies_replaceUpload {owner_id dataset_id : Uuid} {filename : PyStr} {candidate : CandidateFile}
    {structure_ : CsvStructure} {now : Time} {key : StorageKey} (hu : candidate.uuid = u) :
    Tidies F t (Keyed t.pid u key)
      (replaceUpload owner_id dataset_id filename candidate structure_ now key)
      (Committable t.pid u key) (Undoable t.pid u) := by
  have hz : ∀ v s, Keyed t.pid u key v s → Undoable t.pid u v s := fun v s ha => ha.1.undoable
  have hzs : ∀ v, Lasting t.pid (Undoable t.pid u v) := fun v => (firm_undoable v).lasting
  refine Tidies.bind (B := fun d v s => Keyed t.pid u key v s ∧
    ∀ d', d = some d' → HoldsRow t.pid d' s) ?_ fun d => ?_
  · refine tidies_idle rfl (by simp) (fun d v => (firm_keyed v).lasting.and
      (Stable.forall fun d' => Stable.imp _ (lasting_holdsRow d'))) hzs
      (fun d v s c s' hi ha hs hx => ⟨(firm_keyed v).idle s s' hi ha hs, ?_⟩)
      fun v s s' hi ha hs => (firm_undoable v).idle s s' hi (hz v s ha) hs
    rintro d' rfl
    simp only [World.perform] at hx
    split at hx
    · cases hx
    · next d₀ hd =>
      split at hx
      · obtain ⟨hr, hw⟩ := Prod.mk.inj (Option.some.inj hx)
        obtain rfl : d₀ = d' := Option.some.inj (Except.ok.inj hr)
        obtain ⟨hmem, hid, -⟩ := ownedDataset_eq_some.mp hd
        rw [HoldsRow, ← hw]
        refine ⟨?_, hmem⟩
        rw [hid]
        exact Function.update_self _ _ _
      · cases hx
  cases d with
  | none => exact Tidies.raise fun v s _ ha => hz v s ha.1
  | some d =>
    have hkd : ∀ v, Lasting t.pid fun s => Keyed t.pid u key v s ∧ HoldsRow t.pid d s :=
      fun v => (firm_keyed v).lasting.and (lasting_holdsRow d)
    refine Tidies.bind (B := fun _ v s => Keyed t.pid u key v s ∧ HoldsRow t.pid d s) ?_ fun columns => ?_
    · exact Tidies.pre (tidies_holding (e := .query _) rfl firm_keyed firm_undoable hz)
        fun v s _ ha => ⟨ha.1, ha.2 d rfl⟩
    split
    · exact Tidies.raise fun v s _ ha => hz v s ha.1
    refine Tidies.bind (B := fun _ v s => v = ⟨some key, false⟩ ∧ HasCandidate t.pid u s ∧
      Mine t.pid (.stored key) s ∧ HoldsRow t.pid d s) ?_ fun _ => ?_
    · exact Triple.assign fun v h _ ha => ⟨by rw [ha.1.1.1], ha.1.1.2, ha.1.2, ha.2⟩
    have hmoved : ∀ v, Firm t.pid fun s => ∃ content, Moved t.pid u key content v s :=
      fun v => Firm.exists fun _ => firm_moved v
    have hundo : ∀ v s, (∃ content, Moved t.pid u key content v s) → Undoable t.pid u v s :=
      fun v s h => h.elim fun _ hc => hc.undoable
    refine Tidies.bind (tidies_install hu) fun _ => ?_
    refine Tidies.bind (tidies_onupdate hmoved firm_undoable hundo) fun updated_at => ?_
    refine Tidies.bind (tidies_holding rfl hmoved firm_undoable hundo) fun _ => Tidies.pure fun v s _ ha => ?_
    obtain ⟨⟨content, hc⟩, hd⟩ := ha
    exact ⟨d, _, updated_at, content, rfl, rfl, rfl, hd, hc⟩

lemma Committable.undoable {p : Pid} {key : StorageKey}
    {out : (DatasetReference × Option StorageKey) × List Write} {v : UploadLocals} {s : LoggedWorld}
    (h : Committable p u key out v s) : Undoable p u v s := by
  obtain ⟨d, upload, now, content, -, -, -, -, hm⟩ := h
  exact hm.undoable

lemma tidies_installUpload (hack : F.lostAcknowledgement = false) {owner_id dataset_id : Uuid}
    {filename : PyStr} {candidate : CandidateFile} (hu : candidate.uuid = u) :
    Tidies F t (Unnamed t.pid u) (installUpload owner_id dataset_id filename candidate)
      (fun out _ => Removable t.pid out.2.1 out.2.2) (Undoable t.pid u) := by
  have hz : ∀ v s, LedgerInv s → Unnamed t.pid u v s → Undoable t.pid u v s := fun v s _ ha => ha.undoable
  have hzf : ∀ v, Firm t.pid (Undoable t.pid u v) := fun v => firm_undoable v
  refine Tidies.bind (B := fun _ => Unnamed t.pid u) ?_ fun structure_ => ?_
  · refine Tidies.bind (B := fun _ => Unnamed t.pid u) (tidies_skip rfl (by simp) firm_unnamed hzf hz)
      fun content => ?_
    exact Triple.ofExcept (fun _ _ _ _ _ ha => ha) fun _ _ _ _ _ ha => ha.undoable
  refine Tidies.bind (B := fun _ => Unnamed t.pid u) (tidies_skip rfl (by simp) firm_unnamed hzf hz)
    fun now => ?_
  refine Tidies.bind (B := fun key => Keyed t.pid u key) ?_ fun key => ?_
  · refine Tidies.bind (B := fun k => Keyed t.pid u ⟨k⟩) ?_ fun k => Tidies.pure fun _ _ _ ha => ha
    refine tidies_uuid4 (fun k v => (firm_keyed v).lasting) hzf hz fun k v s s' ha hfiles hnone howes => ?_
    obtain ⟨rfl, ho, hm⟩ := ha
    refine ⟨⟨rfl, fun name hn hf => ?_, ?_⟩, (howes _).trans (if_pos rfl)⟩
    · rw [howes] at hn
      rw [hfiles] at hf
      split at hn
      · next hk => exact absurd (hnone name hk) hf
      · exact ho name hn hf
    · refine (howes _).trans ?_
      split
      · rfl
      · exact hm
  have hq : ∀ (out : DatasetReference × Option StorageKey) (v : UploadLocals), Firm t.pid fun s =>
      v.committed = true ∧ Mine t.pid (.candidate u) s ∧ Removable t.pid out.2 key s := fun out v =>
    (Firm.const _).and ((firm_mine _).and (firm_removable _ _))
  refine Tidies.bind (B := fun out v s => v.committed = true ∧ Mine t.pid (.candidate u) s ∧
    Removable t.pid out.2 key s) ?_ fun out => Tidies.pure fun _ _ _ ha => ha.2.2
  refine tidies_session (Tidies.bind (B := fun out v s => Mine t.pid (.candidate u) s ∧
    Removable t.pid out.2 key s) ?_ fun out => ?_) hq hzf fun out v s hq hn => ?_
  · refine tidies_begin hack (tidies_replaceUpload hu) (fun out v =>
      ((firm_mine _).and (firm_removable _ _)).lasting) hzf (fun _ _ _ _ hb => hb.undoable)
      fun out ws v s c r hi hb => ?_
    obtain ⟨d, upload, now', content, hold, hws, rfl, hd, -, hm, ho, hk⟩ := hb
    obtain rfl : ws = _ := hws
    obtain ⟨hkeeps, howing, hsuper⟩ := keeps_commit (r := r) (c := c) now' hi hd hk ho
    refine ⟨hkeeps, ?_, ?_, fun k hkk => hsuper k (hold ▸ hkk)⟩
    · refine (owes_same (fun hdr => by cases hdr.1) ⟨?_, ?_⟩).trans hm
      · rintro ⟨key', he, -⟩
        cases he
      · rintro ⟨key', he, -⟩
        cases he
    · rw [show out.2 = d.upload.map UploadColumns.storage_key from hold]
      exact howing
  · refine Tidies.bind (B := fun _ v s => v.committed = true ∧ Mine t.pid (.candidate u) s ∧
      Removable t.pid out.2 key s) ?_ fun _ => Tidies.pure fun _ _ _ ha => ha
    exact Triple.assign fun v h _ ha => ⟨rfl, ha⟩
  · -- the session raised after the commit, and there was nothing to supersede
    obtain ⟨hv, hm, ho, hsuper⟩ := hq
    refine ⟨hm, fun hc => ?_, fun _ => ?_⟩
    · rw [hv] at hc
      cases hc
    · cases hold : out.2 with
      | none =>
        rw [hold] at ho
        exact ho
      | some k => exact absurd (hsuper k hold).2.2 hn

/-- `storage.remove` of a file that the thread answers for. -/
lemma tidies_removeQuietly (hdel : DeletionsSucceed F) {key : StorageKey} {A : σ → LoggedWorld → Prop}
    (hA : ∀ v s, A v s → Mine t.pid (.stored key) s ∧ Owing t.pid [.stored key] s) :
    Tidies F t A (removeQuietly key) (fun _ _ => Owing t.pid []) fun _ => Owing t.pid [] := by
  refine Tidies.catching (Y := fun _ => Owing t.pid []) ?_ fun x => ?_
  · have h : Tidies F t A (Body.perform (.unlink (.stored key)))
        (fun _ _ s => Owing t.pid [] s ∧ True) fun _ => Owing t.pid [] :=
      tidies_unlink hdel (fun _ => Firm.const True) (fun _ => firm_owing []) hA fun _ _ _ _ _ => trivial
    exact h.post (fun _ _ _ _ hq => hq.1) fun _ _ _ _ hz => hz
  · split
    · exact Tidies.pure fun _ _ _ ha => ha
    · exact Tidies.raise fun _ _ _ ha => ha

lemma tidies_compensate (hdel : DeletionsSucceed F) {candidate : CandidateFile} {v : UploadLocals} {x : Exn}
    (hu : candidate.uuid = u) :
    Tidies F t (fun (_ : σ) => Undoable t.pid u v) (compensate candidate v x)
      (fun _ _ => Owing t.pid []) fun _ => Owing t.pid [] := by
  subst hu
  obtain ⟨installed, committed⟩ := v
  refine Tidies.bind (B := fun _ (_ : σ) s =>
    Owing t.pid (if committed then [] else (installed.map FileName.stored).toList) s ∧
      (committed = false → ∀ key, installed = some key → Mine t.pid (.stored key) s)) ?_ fun _ => ?_
  · refine tidies_unlink hdel (fun _ => Firm.imp _ (Firm.all fun _ => Firm.imp _ (firm_mine _)))
      (fun _ => firm_owing []) (fun _ s ha => ⟨ha.1, ?_⟩) fun _ s s' ha howes hc key hk => ?_
    · cases committed with
      | true => exact (ha.2.2 rfl).mono (List.nil_subset _)
      | false => exact (ha.2.1 rfl).2
    · exact (howes _).trans ((ha.2.1 hc).1 key hk)
  · refine Tidies.bind (B := fun _ _ => Owing t.pid []) ?_ fun _ => Tidies.raise fun _ _ _ ha => ha
    cases installed with
    | none =>
      refine Tidies.pure fun _ s _ ha => ?_
      have ho := ha.1
      split at ho <;> exact ho
    | some key =>
      cases committed with
      | true => exact Tidies.pure fun _ s _ ha => ha.1
      | false => exact tidies_removeQuietly hdel fun _ s ha => ⟨ha.2 rfl key rfl, ha.1⟩

lemma tidies_removeSuperseded (hdel : DeletionsSucceed F) {old_key : Option StorageKey} {new_key : StorageKey} :
    Tidies F t (fun (_ : σ) => Removable t.pid old_key new_key) (removeSuperseded old_key new_key)
      (fun _ _ => Owing t.pid []) fun _ => Owing t.pid [] := by
  cases old_key with
  | none => exact Tidies.pure fun _ _ _ ha => ha.1
  | some key =>
    rw [removeSuperseded]
    split
    · exact tidies_removeQuietly hdel fun _ s ha => ⟨(ha.2 key rfl).2.1, ha.1⟩
    · next he => exact Tidies.pure fun _ s _ ha => absurd (ha.2 key rfl).1 he

/-- **An upload answers for nothing when it ends.** -/
theorem tidies_uploadCsv (U : Unicode) (hdel : DeletionsSucceed F) (hack : F.lostAcknowledgement = false)
    {owner_id dataset_id : Uuid} {filename : Option PyStr} {source : Source} :
    Tidies F t (fun (_ : σ) => Owing t.pid []) (uploadCsv U owner_id dataset_id filename source)
      (fun _ _ => Owing t.pid []) fun _ => Owing t.pid [] := by
  have hf : ∀ _ : σ, Firm t.pid (Owing t.pid []) := fun _ => firm_owing []
  refine Tidies.bind (B := fun _ _ => Owing t.pid []) ?_ fun safe_filename => ?_
  · exact Triple.ofExcept (fun _ _ _ _ _ ha => ha) fun _ _ _ _ _ ha => ha
  refine Tidies.bind (B := fun _ _ => Owing t.pid []) ?_ fun _ => ?_
  · refine tidies_reading hack hf (Tidies.bind (B := fun _ _ => Owing t.pid []) ?_ fun d => ?_)
    · exact tidies_skip rfl (by simp) hf hf fun _ _ _ ha => ha
    · cases d with
      | none => exact Tidies.raise fun _ _ _ ha => ha
      | some d => exact Tidies.pure fun _ _ _ ha => ⟨rfl, ha⟩
  refine Tidies.bind (tidies_writeCandidate hdel source) fun candidate => ?_
  refine Tidies.bind (B := fun out _ s => match out.1 with
    | .ok (_, old_key, new_key) => Removable t.pid old_key new_key s
    | .error _ => Undoable t.pid candidate.uuid out.2 s) ?_ fun out => ?_
  · exact Triple.withLocals fun _ => tidies_installUpload hack rfl
  · obtain ⟨outcome, v⟩ := out
    cases outcome with
    | error x => exact tidies_compensate hdel rfl
    | ok result =>
      obtain ⟨result, old_key, new_key⟩ := result
      exact Tidies.bind (B := fun _ _ => Owing t.pid []) (tidies_removeSuperseded hdel) fun _ =>
        Tidies.pure fun _ _ _ ha => ha

end Upload

/-! ### The guarantee -/

def IsUpload : Call → Prop
  | .uploadCsv .. => True
  | _ => False

instance : DecidablePred IsUpload
  | .uploadCsv .. => .isTrue trivial
  | .createDataset .. | .listDatasets .. | .getDataset .. | .createRule .. | .listRules .. | .deleteRule ..
  | .createAnalysis .. | .listAnalyses .. | .getAnalysis .. => .isFalse id

/-- The files of a store are exactly those that its rows name, each by one row. -/
structure Tidy (w : World) : Prop where
  files : ∀ name, w.files name ≠ none ↔ NamesFile w name
  distinct : KeysDistinct w
  drawn : ∀ key, w.db.Names key → key.uuid ∈ w.issued.map Prod.snd

/-- Every upload that was started has ended. -/
def AtRest (cfg : Config Call Eff (fun e => Except Exn e.Resp) LoggedWorld Outcome) : Prop :=
  ∀ p t, cfg.threads p = some t → ∃ out, t.prog = .ret out

lemma Tidy.ledgerInv {w : World} (hw : Tidy w) : LedgerInv ⟨w, []⟩ where
  drawn name hf := by
    obtain ⟨key, rfl, hk⟩ := (hw.files name).mp hf
    exact hw.drawn key hk
  named_drawn := hw.drawn
  owed_drawn name p hp := nomatch hp
  present key hk := (hw.files _).mpr ⟨key, rfl, hk⟩
  accounted name hf := Or.inl ((hw.files name).mp hf)
  unowed name _ := rfl
  distinct := hw.distinct

lemma owing_start {p : Pid} {s : LoggedWorld} (h : ∀ e ∈ s.log, e.pid ≠ p) : Owing p [] s := by
  intro name hn _
  obtain ⟨e, he, hp⟩ := owes_some_pid hn
  exact absurd hp (h e he)

lemma safe_upload {U : Unicode} {P : Polars} {F : Faults} (hdel : DeletionsSucceed F)
    (hack : F.lostAcknowledgement = false) {t : Caller Call LoggedWorld} (hk : IsUpload t.call) :
    Safe ((machine F).only ClosesAfterReplacing) ledger t (t.call.body U P) (fun h => Owing t.pid [] h.now)
      fun _ h => Owing t.pid [] h.now := by
  obtain ⟨p, k, h₀⟩ := t
  cases k with
  | uploadCsv owner_id dataset_id filename source =>
    refine ((Tidies.bind (tidies_uploadCsv U hdel hack) fun _ => Tidies.pure fun _ _ _ ha => ha :
      Tidies F ⟨p, .uploadCsv owner_id dataset_id filename source, h₀⟩ (fun _ => Owing p [])
        ((Call.uploadCsv owner_id dataset_id filename source).op U P) (fun _ _ => Owing p [])
        fun _ => Owing p []) ()).post fun out h _ hq => ?_
    obtain ⟨r, v⟩ := out
    cases r <;> exact hq
  | _ => exact hk.elim

/-- **No orphan files at quiescence**: any number of uploads, each of them failing anywhere but in
the session of an upload that was committed over an earlier one.  When none is in progress the files
are exactly those that the committed rows name. -/
theorem no_orphan_files {U : Unicode} {P : Polars} {F : Faults} (hdel : DeletionsSucceed F)
    (hack : F.lostAcknowledgement = false) {w : World} (hw : Tidy w)
    {cfg : Config Call Eff (fun e => Except Exn e.Resp) LoggedWorld Outcome}
    (hr : Config.Reachable (journal F) (Call.body U P) IsUpload ⟨w, []⟩ cfg)
    (hgood : Always ClosesAfterReplacing cfg.hist.now.log) (hrest : AtRest cfg) :
    ∀ name, cfg.hist.now.state.files name ≠ none ↔ NamesFile cfg.hist.now.state name := by
  obtain ⟨hi, hthreads⟩ := reachable_safe_only (Q := fun t _ h => Owing t.pid [] h.now) hw.ledgerInv
    (fun t ht => ⟨(firm_owing []).lasting, owing_start ht⟩) (fun t hk => safe_upload hdel hack hk) hr hgood
  intro name
  constructor
  · intro hf
    refine (hi.accounted name hf).resolve_right fun howes => ?_
    -- some upload answers for the file; it has ended, so the file is not there
    obtain ⟨p, hp⟩ := Option.ne_none_iff_exists'.mp howes
    obtain ⟨e, he, rfl⟩ := owes_some_pid hp
    obtain ⟨t, ht⟩ := Option.ne_none_iff_exists'.mp ((reachable_pids hr).1 e he)
    obtain ⟨-, -, A, -, ha, hsafe⟩ := hthreads e.pid t ht
    obtain ⟨out, hout⟩ := hrest e.pid t ht
    rw [hout] at hsafe
    exact absurd (hsafe cfg.hist hi ha name hp hf) List.not_mem_nil
  · rintro ⟨key, rfl, hk⟩
    exact hi.present key hk

namespace Sample

/-- The session of an upload can raise as it is closed. -/
def closeFails : Faults := ⟨fun e => match e with | .close => true | _ => false, false⟩

/-- The `n`-th to the `m`-th effect of the thread `p`, the last one with the fault `f`. -/
def effectsOf (p : Pid) (n m : ℕ) (f : Fault) : List (Label Call Choice) :=
  (List.range' n (m - n)).map fun i => .run p ⟨if i + 1 = m then f else .none, 5, 200 * (p + 1) + i⟩

/-- The choices of the scheduler, from the dataset without an upload. -/
def journalOf (F : Faults) (ls : List (Label Call Choice)) :
    Config Call Eff (fun e => Except Exn e.Resp) LoggedWorld Outcome :=
  (Config.init ⟨created, []⟩).follow (journal F) (Call.body unicode polars) ls

lemma tidy_created : Tidy created where
  files name := by
    refine iff_of_false (fun h => h rfl) ?_
    rintro ⟨key, -, d, hd, u, hu, -⟩
    obtain ⟨content, hc, -⟩ := allBacked_created d hd u hu
    cases hc
  distinct := keysDistinct_created
  drawn key := by
    rintro ⟨d, hd, u, hu, -⟩
    obtain ⟨content, hc, -⟩ := allBacked_created d hd u hu
    cases hc

/-- The threads 0 and 1 have ended. -/
def ended (cfg : Config Call Eff (fun e => Except Exn e.Resp) LoggedWorld Outcome) : Bool :=
  [0, 1].all fun p => match cfg.threads p with
    | some ⟨_, _, .ret _⟩ => true
    | _ => false

/-- Two uploads race for the lock, and the later one removes the file of the other. -/
def race : List (Label Call Choice) :=
  .spawn 0 upload :: .spawn 1 upload :: effectsOf 0 0 8 .none ++ effectsOf 1 0 17 .none ++ effectsOf 0 8 18 .none

/-- An upload, and then another whose session raises as it is closed after the commit. -/
def replaced : List (Label Call Choice) :=
  .spawn 0 upload :: effectsOf 0 0 17 .none ++ .spawn 1 upload :: effectsOf 1 0 17 .fails ++
    effectsOf 1 17 18 .none

def started (ls : List (Label Call Choice)) : List (Pid × Call) :=
  ls.filterMap fun l => match l with
    | .spawn p k => some (p, k)
    | .run _ _ => none

lemma mem_started {ls : List (Label Call Choice)} {p : Pid} {k : Call} (h : .spawn p k ∈ ls) :
    (p, k) ∈ started ls := List.mem_filterMap.mpr ⟨_, h, rfl⟩

lemma reachable_journalOf (F : Faults) {ls : List (Label Call Choice)} (h : ∀ x ∈ started ls, IsUpload x.2) :
    Config.Reachable (journal F) (Call.body unicode polars) IsUpload ⟨created, []⟩ (journalOf F ls) :=
  Config.Reachable.init.follow fun p k hm => h (p, k) (mem_started hm)

lemma atRest_journalOf {F : Faults} {ls : List (Label Call Choice)} (h : ∀ x ∈ started ls, x.1 = 0 ∨ x.1 = 1)
    (he : ended (journalOf F ls) = true) : AtRest (journalOf F ls) := by
  intro p t ht
  have hp : p ∈ [0, 1] := by
    refine not_not.mp fun hp => ?_
    have hnone : (journalOf F ls).threads p = none :=
      Config.follow_threads_none rfl fun k hk => hp (by simpa using h (p, k) (mem_started hk))
    rw [ht] at hnone
    cases hnone
  have hq := List.all_eq_true.mp he p hp
  rw [ht] at hq
  obtain ⟨k, h₀, prog⟩ := t
  cases prog with
  | ret out => exact ⟨out, rfl⟩
  | vis e f => cases hq

def calm (log : List UploadEvent) : Bool :=
  log.all fun ev => decide (ev.choice.fault = .none)

lemma always_of_calm : ∀ {log : List UploadEvent}, calm log = true → Always ClosesAfterReplacing log
  | [], _ => trivial
  | ev :: log, h => by
    obtain ⟨hev, hlog⟩ := Bool.and_eq_true_iff.mp (show (_ && calm log) = true from h)
    refine ⟨fun _ hf => ?_, always_of_calm hlog⟩
    have hnone : ev.choice.fault = .none := of_decide_eq_true hev
    rw [hnone] at hf
    cases hf

/-- The file of the first upload is there, and no row names it. -/
def orphan (w : World) : Bool :=
  (w.files (.stored ⟨208⟩)).isSome && w.db.datasets.rows.all fun d => d.upload.all fun u => u.storage_key != ⟨208⟩

lemma not_exact_of_orphan {w : World} (h : orphan w = true) :
    ¬ ∀ name, w.files name ≠ none ↔ NamesFile w name := by
  obtain ⟨hf, hn⟩ := Bool.and_eq_true_iff.mp h
  intro hall
  obtain ⟨key, hkey, d, hd, u, hu, rfl⟩ := (hall (.stored ⟨208⟩)).mp (Option.ne_none_iff_isSome.mpr hf)
  have hd' := List.all_eq_true.mp hn d hd
  rw [hu] at hd'
  have hne : u.storage_key ≠ ⟨208⟩ := by simpa using hd'
  exact hne (FileName.stored.inj hkey).symm

end Sample

/-- Two uploads race for the lock: one file is left. -/
theorem no_orphan_files_sample : AtRest (Sample.journalOf Sample.noFaults Sample.race) ∧
    ∀ name, (Sample.journalOf Sample.noFaults Sample.race).hist.now.state.files name ≠ none ↔
      NamesFile (Sample.journalOf Sample.noFaults Sample.race).hist.now.state name := by
  have hrest : AtRest (Sample.journalOf Sample.noFaults Sample.race) :=
    Sample.atRest_journalOf (by decide) (by decide +kernel)
  exact ⟨hrest, no_orphan_files (fun _ => rfl) rfl Sample.tidy_created (Sample.reachable_journalOf _ (by decide))
    (Sample.always_of_calm (by decide +kernel)) hrest⟩

/-- The session of a second upload raises as it is closed after the commit: the file of the first upload
stays, and no row names it. -/
theorem not_no_orphan_files : ¬ ∀ (U : Unicode) (P : Polars) (F : Faults) (w : World)
    (cfg : Config Call Eff (fun e => Except Exn e.Resp) LoggedWorld Outcome), DeletionsSucceed F →
      F.lostAcknowledgement = false → Tidy w →
      Config.Reachable (journal F) (Call.body U P) IsUpload ⟨w, []⟩ cfg → AtRest cfg →
      ∀ name, cfg.hist.now.state.files name ≠ none ↔ NamesFile cfg.hist.now.state name := by
  intro h
  exact Sample.not_exact_of_orphan (by decide +kernel) (h Sample.unicode Sample.polars Sample.closeFails
    Sample.created (Sample.journalOf Sample.closeFails Sample.replaced) (fun _ => rfl) rfl Sample.tidy_created
    (Sample.reachable_journalOf _ (by decide)) (Sample.atRest_journalOf (by decide) (by decide +kernel)))

end DataCheck.Datasets
