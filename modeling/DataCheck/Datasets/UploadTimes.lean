import DataCheck.Datasets.Quiescence
import DataCheck.Datasets.UploadOperation
import DataCheck.Shared.Transactions

/-!
# The times of uploads

An upload reads the clock before it takes the lock of its dataset, and writes that time after it.
So another upload can read the clock later and be committed earlier.  And when its time is the
`updated_at` that is stored, the row gets the time of the flush instead.
-/

namespace DataCheck.Datasets

open Lib Shared

/-! ### Readings and rows -/

def ReadsClock (ev : UploadEvent) : Prop := ev.eff = .now ∧ ev.choice.fault = .none

/-- A reading of the time by a flush. -/
def ReadsUtc (ev : UploadEvent) : Prop := ev.eff = .utcNow ∧ ev.choice.fault = .none

/-- The event wrote the dataset row `d`, which has the upload `u`. -/
def Wrote (ev : UploadEvent) (d : Dataset) (u : UploadColumns) : Prop :=
  d ∈ ev.after.db.datasets ∧ d ∉ ev.before.db.datasets ∧ d.upload = some u

/-- No reading of the time is before an earlier one. -/
def ClockForward (ev : UploadEvent) (log : List UploadEvent) : Prop :=
  ReadsClock ev ∨ ReadsUtc ev → ∀ r ∈ log, ReadsClock r ∨ ReadsUtc r → r.choice.time ≤ ev.choice.time

/-- From one committed upload of a dataset to the next neither `uploaded_at` nor `updated_at`
decreases. -/
def TimesGrow (log : List UploadEvent) : Prop :=
  log.Pairwise fun later earlier => ∀ d u d' u', Wrote later d u → Wrote earlier d' u' → d.id = d'.id →
    u'.uploaded_at ≤ u.uploaded_at ∧ d'.updated_at ≤ d.updated_at

/-- The thread `p` has read the clock, and an upload of the dataset which is committed has read a
later time. -/
def Overtaken (p : Pid) (dataset_id : Uuid) (log : List UploadEvent) : Prop :=
  ∃ mine ∈ log, mine.pid = p ∧ ReadsClock mine ∧
    ∃ theirs ∈ log, (ReadsClock theirs ∨ ReadsUtc theirs) ∧ mine.choice.time < theirs.choice.time ∧
      ∃ ev ∈ log, ev.pid = theirs.pid ∧ ∃ d u, Wrote ev d u ∧ d.id = dataset_id

/-- No upload that was overtaken is committed. -/
def NotOvertaken (ev : UploadEvent) (log : List UploadEvent) : Prop :=
  ∀ d u, Wrote ev d u → ¬ Overtaken ev.pid d.id log

/-! ### What an upload writes -/

/-- The event wrote a row with an upload. -/
def Writes (ev : UploadEvent) : Prop := ∃ d u, Wrote ev d u

/-- The thread has made no such event. -/
def Without (R : UploadEvent → Prop) (p : Pid) (log : List UploadEvent) : Prop := ∀ r ∈ log, r.pid = p → ¬ R r

/-- The thread has made such a reading, and it read this time. -/
def HasRead (R : UploadEvent → Prop) (p : Pid) (time : Time) (log : List UploadEvent) : Prop :=
  (∃ r ∈ log, r.pid = p ∧ R r) ∧ ∀ r ∈ log, r.pid = p → R r → r.choice.time = time

/-- The thread has read `now`, and `updated_at` is that time; or it is the time of a flush over a row with
that time. -/
def Dated (p : Pid) (stored now updated_at : Time) (log : List UploadEvent) : Prop :=
  HasRead ReadsClock p now log ∧ (updated_at = now ∧ Without ReadsUtc p log ∨
    stored = now ∧ HasRead ReadsUtc p updated_at log)

/-- A row that an upload wrote is stored, or a row that a later upload wrote over it. -/
def Newest (db : Db) (log : List UploadEvent) : Prop :=
  ∀ later ev earlier, log = later ++ ev :: earlier → ∀ d u, Wrote ev d u →
    ∃ e ∈ db.datasets, e.id = d.id ∧ (e = d ∨ ∃ ev' ∈ later, ∃ v, Wrote ev' e v)

/-- A thread reads no time once it has written a row, and a row that it writes has the times that it read. -/
structure Stamped (ev : UploadEvent) (log : List UploadEvent) : Prop where
  reads : ReadsClock ev ∨ ReadsUtc ev → Without Writes ev.pid (ev :: log)
  wrote : ∀ d u, Wrote ev d u → u.uploaded_at ≤ d.updated_at ∧
    ∃ e ∈ ev.before.db.datasets, e.id = d.id ∧ Dated ev.pid e.updated_at u.uploaded_at d.updated_at log
  newest : Newest ev.before.db log

section Times

variable {log : List UploadEvent}

lemma pairwise_iff {R : UploadEvent → UploadEvent → Prop} :
    log.Pairwise R ↔ ∀ l ev m ev' r, log = l ++ ev :: (m ++ ev' :: r) → R ev ev' := by
  induction log with
  | nil =>
    refine iff_of_true List.Pairwise.nil fun l ev m ev' r h => ?_
    cases l <;> cases h
  | cons e log ih =>
    rw [List.pairwise_cons, ih]
    constructor
    · rintro ⟨he, hlog⟩ l ev m ev' r h
      rcases List.cons_eq_append_iff.mp h with ⟨rfl, h'⟩ | ⟨l', rfl, h'⟩
      · cases h'
        exact he ev' (by simp)
      · exact hlog l' ev m ev' r h'
    · intro h
      refine ⟨fun ev' hm => ?_, fun l ev m ev' r hl => h (e :: l) ev m ev' r (by rw [hl]; rfl)⟩
      obtain ⟨m, r, rfl⟩ := List.append_of_mem hm
      exact h [] e m ev' r rfl

/-- All readings of a thread that wrote a row are the times of that row. -/
lemma times_of_wrote (hst : Always Stamped log) {l r : List UploadEvent} {ev : UploadEvent}
    (hlog : log = l ++ ev :: r) {d : Dataset} {u : UploadColumns} (hw : Wrote ev d u) {read : UploadEvent}
    (hmem : read ∈ log) (hp : read.pid = ev.pid) :
    (ReadsClock read → read.choice.time = u.uploaded_at) ∧ (ReadsUtc read → read.choice.time = d.updated_at) := by
  obtain ⟨-, e, -, -, ⟨-, hclock⟩, hutc⟩ := (always_iff.mp hst l ev r hlog).wrote d u hw
  -- a reading at or after the event would be one of a thread that has written
  have hearlier : ReadsClock read ∨ ReadsUtc read → read ∈ r := by
    intro hread
    subst hlog
    rcases List.mem_append.mp hmem with hm | hm
    · obtain ⟨l₁, l₂, rfl⟩ := List.append_of_mem hm
      exact absurd ⟨d, u, hw⟩ ((always_iff.mp hst l₁ read (l₂ ++ ev :: r) (by simp)).reads hread ev (by simp) hp.symm)
    · rcases List.mem_cons.mp hm with rfl | hm
      · exact absurd ⟨d, u, hw⟩ ((always_iff.mp hst l read r rfl).reads hread read List.mem_cons_self rfl)
      · exact hm
  refine ⟨fun hr => hclock read (hearlier (Or.inl hr)) hp hr, fun hr => ?_⟩
  rcases hutc with ⟨-, hnone⟩ | ⟨-, -, hall⟩
  · exact absurd hr (hnone read (hearlier (Or.inr hr)) hp)
  · exact hall read (hearlier (Or.inr hr)) hp hr

/-- **Times grow exactly when no upload is committed after it was overtaken.** -/
theorem timesGrow_iff (hst : Always Stamped log) : TimesGrow log ↔ Always NotOvertaken log := by
  rw [TimesGrow, pairwise_iff, always_iff]
  constructor
  · rintro hgrow l ev earlier rfl d u hw ⟨mine, hmem, hp, hmine, theirs, htmem, hread, hlt, ev', hev', hpid, d', u',
      hw', hid⟩
    obtain ⟨m, r, rfl⟩ := List.append_of_mem hev'
    have hlog : l ++ ev :: (m ++ ev' :: r) = (l ++ ev :: m) ++ ev' :: r := by simp
    have hafter := (always_iff.mp hst _ ev' r hlog).wrote d' u' hw'
    -- the other upload was committed before, with the later time
    have hlater : u.uploaded_at < d'.updated_at := by
      have hmineTime := (times_of_wrote hst rfl hw (List.mem_append_right _ (List.mem_cons_of_mem _ hmem)) hp).1 hmine
      have htheirs := times_of_wrote hst hlog hw' (List.mem_append_right _ (List.mem_cons_of_mem _ htmem)) hpid.symm
      rw [hmineTime] at hlt
      rcases hread with hread | hread
      · exact (htheirs.1 hread ▸ hlt).trans_le hafter.1
      · exact htheirs.2 hread ▸ hlt
    have hgrows := (hgrow l ev m ev' r rfl d u d' u' hw hw' hid.symm).2
    have hstamp := always_iff.mp hst l ev _ rfl
    obtain ⟨-, e, he, heid, -, ⟨htime, -⟩ | ⟨htime, -⟩⟩ := hstamp.wrote d u hw
    · rw [htime] at hgrows
      exact absurd hgrows (not_le.mpr hlater)
    · -- the time of the flush: then the row that was stored has the time of this upload
      obtain ⟨e', he', hid', hnewest⟩ := hstamp.newest m ev' r rfl d' u' hw'
      obtain rfl : e' = e := Table.eq_of_key he' he (hid'.trans (hid.trans heid.symm))
      rcases hnewest with rfl | ⟨ev'', hev'', v, hw''⟩
      · exact absurd htime (ne_of_gt hlater)
      · obtain ⟨m₁, m₂, rfl⟩ := List.append_of_mem hev''
        have hle := (hgrow (l ++ ev :: m₁) ev'' m₂ ev' r (by simp) e' v d' u' hw'' hw' hid').2
        exact absurd (htime ▸ hle) (not_le.mpr hlater)
  · intro hgood l ev m ev' r hlog d u d' u' hw hw' hid
    have hlog' : log = (l ++ ev :: m) ++ ev' :: r := by rw [hlog]; simp
    obtain ⟨hle, stored, -, -, ⟨⟨mine, hmem, hp, hmine⟩, hmineTime⟩, -⟩ := (always_iff.mp hst l ev _ hlog).wrote d u hw
    obtain ⟨hle', stored, -, -, ⟨⟨first, hfirst, hfp, hfr⟩, hfirstTime⟩, hutc⟩ :=
      (always_iff.mp hst _ ev' r hlog').wrote d' u' hw'
    -- the other upload has read the time that its row has
    obtain ⟨theirs, htmem, htp, hread, htime⟩ : ∃ theirs ∈ r, theirs.pid = ev'.pid ∧
        (ReadsClock theirs ∨ ReadsUtc theirs) ∧ theirs.choice.time = d'.updated_at := by
      rcases hutc with ⟨htime, -⟩ | ⟨-, ⟨theirs, htmem, htp, hread⟩, hall⟩
      · exact ⟨first, hfirst, hfp, Or.inl hfr, (hfirstTime first hfirst hfp hfr).trans htime.symm⟩
      · exact ⟨theirs, htmem, htp, Or.inr hread, hall theirs htmem htp hread⟩
    have hmid : d'.updated_at ≤ u.uploaded_at := by
      rw [← htime, ← hmineTime mine hmem hp hmine]
      refine not_lt.mp fun hlt => hgood l ev _ hlog d u hw ⟨mine, hmem, hp, hmine, theirs, ?_, hread, hlt, ev', by simp,
        htp.symm, d', u', hw', hid.symm⟩
      exact List.mem_append_right _ (List.mem_cons_of_mem _ htmem)
    exact ⟨hle'.trans hmid, hmid.trans hle⟩

end Times

/-! ### The steps of an upload -/

/-- What a step of the thread `p` may do. -/
structure ClockGuar (p : Pid) (s s' : LoggedWorld) : Prop where
  logs : ∃ ev, s'.log = ev :: s.log ∧ ev.pid = p
  locks : KeepsLocks p s.state s'.state
  datasets : ∀ d ∈ s.state.db.datasets, d ∈ s'.state.db.datasets ∨ s.state.locks d.id = some p

/-- The contract of the clock. -/
def clockwork : Contract Call Eff LoggedWorld where
  Inv h := Always Stamped h.now.log ∧ Newest h.now.state.db h.now.log
  Guar p _ h s := ClockGuar p h.now s
  At _ _ _ := True

/-- Only an event of the thread that reads the time or writes a row ends it. -/
def Timeless (p : Pid) (A : List UploadEvent → Prop) : Prop :=
  ∀ ev log, (ev.pid = p → ¬ ReadsClock ev ∧ ¬ ReadsUtc ev ∧ ¬ Writes ev) → A log → A (ev :: log)

section Assertions

variable {p : Pid} {A B : List UploadEvent → Prop} {R : UploadEvent → Prop} {ev : UploadEvent} {log : List UploadEvent}

lemma without_cons (hev : ev.pid = p → ¬ R ev) (h : Without R p log) : Without R p (ev :: log) := by
  intro r hr hp
  rcases List.mem_cons.mp hr with rfl | hr
  · exact hev hp
  · exact h r hr hp

lemma hasRead_cons {time : Time} (hev : ev.pid = p → ¬ R ev) (h : HasRead R p time log) :
    HasRead R p time (ev :: log) := by
  obtain ⟨⟨read, hmem, hread⟩, hall⟩ := h
  refine ⟨⟨read, List.mem_cons_of_mem _ hmem, hread⟩, fun r hr hp hc => ?_⟩
  rcases List.mem_cons.mp hr with rfl | hr
  · exact absurd hc (hev hp)
  · exact hall r hr hp hc

lemma hasRead_of_without (hp : ev.pid = p) (hev : R ev) (h : Without R p log) :
    HasRead R p ev.choice.time (ev :: log) := by
  refine ⟨⟨ev, List.mem_cons_self, hp, hev⟩, fun r hr hrp hread => ?_⟩
  rcases List.mem_cons.mp hr with rfl | hr
  · rfl
  · exact absurd hread (h r hr hrp)

lemma timeless_true : Timeless p fun _ => True := fun _ _ _ _ => trivial

lemma Timeless.and (hA : Timeless p A) (hB : Timeless p B) : Timeless p fun log => A log ∧ B log :=
  fun ev log hev h => ⟨hA ev log hev h.1, hB ev log hev h.2⟩

/-- The thread has neither read the time nor written a row. -/
def Early (p : Pid) (log : List UploadEvent) : Prop :=
  Without ReadsClock p log ∧ Without ReadsUtc p log ∧ Without Writes p log

lemma timeless_early : Timeless p (Early p) := fun _ _ hev h =>
  ⟨without_cons (fun hp => (hev hp).1) h.1, without_cons (fun hp => (hev hp).2.1) h.2.1,
    without_cons (fun hp => (hev hp).2.2) h.2.2⟩

/-- The thread has read the clock, and no more. -/
def Timed (p : Pid) (now : Time) (log : List UploadEvent) : Prop :=
  HasRead ReadsClock p now log ∧ Without ReadsUtc p log ∧ Without Writes p log

lemma timeless_timed (now : Time) : Timeless p (Timed p now) := fun _ _ hev h =>
  ⟨hasRead_cons (fun hp => (hev hp).1) h.1, without_cons (fun hp => (hev hp).2.1) h.2.1,
    without_cons (fun hp => (hev hp).2.2) h.2.2⟩

lemma timeless_dated (stored now updated_at : Time) : Timeless p (Dated p stored now updated_at) := fun _ _ hev h =>
  ⟨hasRead_cons (fun hp => (hev hp).1) h.1, h.2.imp
    (fun h => ⟨h.1, without_cons (fun hp => (hev hp).2.1) h.2⟩)
    fun h => ⟨h.1, hasRead_cons (fun hp => (hev hp).2.1) h.2⟩⟩

/-- Other threads do not end it. -/
lemma Timeless.stable (hA : Timeless p A) : Stable clockwork p fun h => A h.now.log := by
  rintro q k h w hq - ha ⟨⟨ev, hlog, rfl⟩, -, -⟩ -
  show A w.log
  rw [hlog]
  exact hA ev _ (fun hp => absurd hp hq) ha

lemma stable_holdsRow (d : Dataset) : Stable clockwork p fun h => HoldsRow p d h.now := by
  rintro q k h w hq - ⟨hl, hd⟩ ⟨-, hlocks, hdatasets⟩ -
  refine ⟨hlocks d.id p (Ne.symm hq) hl, (hdatasets d hd).resolve_right fun hlq => ?_⟩
  rw [hl] at hlq
  exact hq (Option.some.inj hlq).symm

/-- One more event, after which every row is there still or was written over. -/
lemma newest_cons {db : Db} (h : Newest db log) (hkeep : ∀ d ∈ db.datasets, ∃ e ∈ ev.after.db.datasets,
    e.id = d.id ∧ (e = d ∨ ∃ v, Wrote ev e v)) : Newest ev.after.db (ev :: log) := by
  intro later ev' earlier hlog d u hw
  rcases List.cons_eq_append_iff.mp hlog with ⟨rfl, hlog'⟩ | ⟨later, rfl, hlog'⟩
  · cases hlog'
    exact ⟨d, hw.1, rfl, Or.inl rfl⟩
  · obtain ⟨e, he, hid, hcase⟩ := h later ev' earlier hlog' d u hw
    obtain ⟨e', he', hid', hcase'⟩ := hkeep e he
    refine ⟨e', he', hid'.trans hid, ?_⟩
    rcases hcase' with rfl | ⟨v, hv⟩
    · exact hcase.imp_right fun ⟨ev'', hm, hv⟩ => ⟨ev'', List.mem_cons_of_mem _ hm, hv⟩
    · exact Or.inr ⟨ev, List.mem_cons_self, v, hv⟩

end Assertions

section Rules

variable {F : Faults} {σ α : Type} {t : Caller Call LoggedWorld}

/-- A body keeps the contract of the clock. -/
abbrev Stamps (F : Faults) (t : Caller Call LoggedWorld) (A : σ → LoggedWorld → Prop) (m : Body σ α)
    (Q : α → σ → LoggedWorld → Prop) : Prop :=
  Triple ((machine F).only fun _ _ => True) clockwork t (fun v h => A v h.now) m
    (fun a v h => Q a v h.now) fun _ _ _ => True

lemma exec_db {p : Pid} {e : Eff} (he : ∀ ws, e = .commit ws → ws = []) {c : Choice} {r : Except Exn e.Resp}
    {w w' : World} (hx : (machine F).exec p e c w = some (r, w')) : w'.db = w.db := by
  by_cases hs : e.still = true
  · exact (exec_still (s := ⟨w, []⟩) hs hx).db
  have hne : ∀ ws, e ≠ .commit ws := by
    rintro ws rfl
    exact hs (List.isEmpty_iff.mpr (he ws rfl))
  rcases exec_cases hne hx with ⟨-, rfl, rfl⟩ | hx
  · exact (locksOnly_failed w p e).db
  cases e with
  | create u | replace u key =>
    simp only [World.perform] at hx
    split at hx <;> cases hx <;> rfl
  | write u chunk | unlink name =>
    cases hx
    rfl
  | commit ws => exact absurd rfl (hne ws)
  | _ => exact absurd rfl hs

theorem stamps_perform {e : Eff} (he : ∀ ws, e = .commit ws → ws = []) {A : σ → LoggedWorld → Prop}
    {Q : e.Resp → σ → LoggedWorld → Prop} (hQs : ∀ a v, Stable clockwork t.pid fun h => Q a v h.now)
    (hreads : e = .now ∨ e = .utcNow → ∀ v s, A v s → Without Writes t.pid s.log)
    (h : ∀ v s c a w, A v s → (machine F).exec t.pid e c s.state = some (.ok a, w) → w.db = s.state.db →
      ¬ Writes ⟨t.pid, e, c, .ok a, s.state, w⟩ → Q a v (s.next t.pid e c (.ok a) w)) :
    Stamps F t A (Body.perform e) Q := by
  refine Triple.perform (fun _ _ _ _ => trivial) hQs (fun _ _ => .const True)
    fun v hist c r s' ⟨hst, hnew⟩ ha hx => ?_
  obtain ⟨w, hw, rfl, -⟩ := Machine.only_exec.mp hx
  have hdb := exec_db he hw
  have hnot : ¬ Writes ⟨t.pid, e, c, r, hist.now.state, w⟩ := by
    rintro ⟨d, u, hd, hd', -⟩
    exact hd' (hdb ▸ hd)
  refine ⟨⟨⟨_, rfl, rfl⟩, exec_keepsLocks hw, fun d hd => Or.inl (hdb ▸ hd)⟩, ⟨⟨⟨fun hr => ?_, fun d u hd =>
    absurd ⟨d, u, hd⟩ hnot, hnew⟩, hst⟩, newest_cons hnew fun d hd => ⟨d, hdb ▸ hd, rfl, Or.inl rfl⟩⟩,
    fun a hr => ?_, fun _ _ => trivial⟩
  · exact without_cons (fun _ => hnot) (hreads (hr.imp And.left And.left) v hist.now ha)
  · subst hr
    exact h v hist.now c a w ha hw hdb hnot

/-- An effect that neither reads the time nor commits a change. -/
theorem stamps_skip {e : Eff} (hn : e ≠ .now ∧ e ≠ .utcNow) (he : ∀ ws, e = .commit ws → ws = [])
    {A : σ → List UploadEvent → Prop} (hA : ∀ v, Timeless t.pid (A v)) :
    Stamps F t (fun v s => A v s.log) (Body.perform e) fun _ v s => A v s.log :=
  stamps_perform he (fun _ v => (hA v).stable) (fun hr => (hr.elim hn.1 hn.2).elim) fun v _ _ _ _ ha _ _ hnot =>
    hA v _ _ (fun _ => ⟨fun hr => hn.1 hr.1, fun hr => hn.2 hr.1, hnot⟩) ha

theorem stamps_now : Stamps F t (fun (_ : σ) s => Early t.pid s.log) Body.now fun now _ s => Timed t.pid now s.log := by
  refine stamps_perform (by simp) (fun now _ => (timeless_timed now).stable) (fun _ _ _ h => h.2.2)
    fun v s c now w ⟨hclock, hutc, hwrites⟩ hx _ hnot => ?_
  obtain ⟨hc, hx⟩ := exec_ok hx
  cases hx
  refine ⟨?_, without_cons (fun _ hr => nomatch hr.1) hutc, without_cons (fun _ => hnot) hwrites⟩
  have hev : ReadsClock (⟨t.pid, .now, c, .ok c.time, s.state, s.state⟩ : UploadEvent) := ⟨rfl, hc⟩
  exact hasRead_of_without rfl hev hclock

theorem stamps_lock {dataset_id owner_id : Uuid} {A : List UploadEvent → Prop} (hA : Timeless t.pid A) :
    Stamps F t (fun (_ : σ) s => A s.log) (getForOwnerForUpdate dataset_id owner_id)
      fun found _ s => A s.log ∧ ∀ d, found = some d → HoldsRow t.pid d s := by
  refine stamps_perform (by simp) (fun found _ => hA.stable.and (Stable.forall fun d => Stable.imp _ (stable_holdsRow d)))
    (by simp) fun v s c found w ha hx _ hnot => ⟨?_, ?_⟩
  · exact hA _ _ (fun _ => ⟨fun hr => (nomatch hr.1), fun hr => (nomatch hr.1), hnot⟩) ha
  · rintro d rfl
    obtain ⟨-, hx⟩ := exec_ok hx
    simp only [World.perform] at hx
    split at hx
    · cases hx
    · next d' hd =>
      split at hx
      · cases hx
        obtain ⟨hmem, hid, -⟩ := ownedDataset_eq_some.mp hd
        exact ⟨by simp [Logged.next, hid], hmem⟩
      · cases hx

theorem stamps_holding {e : Eff} (hn : e ≠ .now ∧ e ≠ .utcNow) (he : (e.isLock || e.ends) = false) {d : Dataset}
    {A : List UploadEvent → Prop} (hA : Timeless t.pid A) :
    Stamps F t (fun (_ : σ) s => A s.log ∧ HoldsRow t.pid d s) (Body.perform e)
      fun _ _ s => A s.log ∧ HoldsRow t.pid d s := by
  have hcommit : ∀ ws, e = .commit ws → ws = [] := by
    rintro ws rfl
    cases he
  refine stamps_perform hcommit (fun _ _ => hA.stable.and (stable_holdsRow d)) (fun hr => (hr.elim hn.1 hn.2).elim)
    fun v s c a w ⟨ha, hd⟩ hx hdb hnot => ⟨?_, ?_, ?_⟩
  · exact hA _ _ (fun _ => ⟨fun hr => hn.1 hr.1, fun hr => hn.2 hr.1, hnot⟩) ha
  · exact (congrFun (exec_locks he hx) d.id).trans hd.1
  · exact hdb ▸ hd.2

/-- The time that goes into the row. -/
theorem stamps_onupdate {now : Time} {d : Dataset} :
    Stamps F t (fun (_ : σ) s => Timed t.pid now s.log ∧ HoldsRow t.pid d s) (Body.onupdate d.updated_at now)
      fun updated_at _ s => Dated t.pid d.updated_at now updated_at s.log ∧ HoldsRow t.pid d s := by
  unfold Body.onupdate
  split
  · next hsame =>
    refine stamps_perform (by simp) (fun updated_at _ => (timeless_dated _ _ updated_at).stable.and (stable_holdsRow d))
      (fun _ _ _ h => h.1.2.2) fun v s c updated_at w ⟨⟨hclock, hutc, _⟩, hd⟩ hx _ _ => ?_
    obtain ⟨hc, hx⟩ := exec_ok hx
    cases hx
    have hev : ReadsUtc (⟨t.pid, .utcNow, c, .ok c.time, s.state, s.state⟩ : UploadEvent) := ⟨rfl, hc⟩
    exact ⟨⟨hasRead_cons (fun _ hr => (nomatch hr.1)) hclock, Or.inr ⟨hsame.symm, hasRead_of_without rfl hev hutc⟩⟩, hd⟩
  · exact Triple.pure fun _ _ _ h => ⟨⟨h.1.1, Or.inl ⟨rfl, h.1.2.1⟩⟩, h.2⟩

/-- What a transaction of an upload leaves to commit. -/
def Stampable (p : Pid) (ws : List Write) (s : LoggedWorld) : Prop :=
  ∃ d u updated_at, ws = [.updateUpload d.id u updated_at] ∧ u.uploaded_at ≤ updated_at ∧
    Dated p d.updated_at u.uploaded_at updated_at s.log ∧ HoldsRow p d s

/-- A row that a flush accepts has no upload after its `updated_at`. -/
lemma le_of_datasetError {db : Db} {d : Dataset} {u : UploadColumns} {updated_at : Time}
    (h : db.datasetError (withUpload d u updated_at) = none) : u.uploaded_at ≤ updated_at := by
  have hchecks : (withUpload d u updated_at).checks = true := by
    unfold Db.datasetError at h
    split at h
    · cases h
    · split at h
      · cases h
      · next hc => simpa using hc
  simp only [Dataset.checks, withUpload, Option.all_some, UploadColumns.checks, Bool.and_eq_true,
    decide_eq_true_eq] at hchecks
  exact of_decide_eq_true hchecks.2.2

theorem stamps_flush {d : Dataset} {u : UploadColumns} {updated_at : Time} :
    Stamps F t (fun (_ : σ) s => Dated t.pid d.updated_at u.uploaded_at updated_at s.log ∧ HoldsRow t.pid d s)
      (Body.flush [.updateUpload d.id u updated_at])
      fun _ _ s => u.uploaded_at ≤ updated_at ∧ Dated t.pid d.updated_at u.uploaded_at updated_at s.log ∧
        HoldsRow t.pid d s := by
  refine stamps_perform (by simp) (fun _ _ => (Stable.const _).and ((timeless_dated _ _ _).stable.and (stable_holdsRow d)))
    (by simp) fun v s c _ w ⟨hdated, hd⟩ hx _ hnot => ?_
  obtain ⟨-, hx⟩ := exec_ok hx
  simp only [World.perform] at hx
  split at hx
  · cases hx
  · next herror =>
    cases hx
    rw [firstError_one, writeError_updateUpload hd.2] at herror
    exact ⟨le_of_datasetError herror, timeless_dated _ _ _ _ _
      (fun _ => ⟨by simp [ReadsClock], by simp [ReadsUtc], hnot⟩) hdated, hd⟩

theorem stamps_commit {ws : List Write} :
    Stamps F t (fun (_ : σ) s => Stampable t.pid ws s) (Body.perform (.commit ws)) fun _ _ _ => True := by
  refine Triple.perform (fun _ _ _ _ => trivial) (fun _ _ => .const True) (fun _ _ => .const True)
    fun v hist c r s' ⟨hst, hnew⟩ ⟨d, u, updated_at, hws, hle, hdated, hlock, hmem⟩ hx => ?_
  subst hws
  obtain ⟨w, hw, rfl, -⟩ := Machine.only_exec.mp hx
  have hguar : KeepsLocks t.pid hist.now.state w := exec_keepsLocks hw
  have hreads : ReadsClock ⟨t.pid, .commit [.updateUpload d.id u updated_at], c, r, hist.now.state, w⟩ ∨
      ReadsUtc ⟨t.pid, .commit [.updateUpload d.id u updated_at], c, r, hist.now.state, w⟩ → False :=
    fun hr => hr.elim (fun hr => nomatch hr.1) fun hr => nomatch hr.1
  rcases exec_commit_cases hw with ⟨-, rfl⟩ | ⟨rfl, -⟩
  · -- the transaction was rolled back
    exact ⟨⟨⟨_, rfl, rfl⟩, hguar, fun _ hd => Or.inl hd⟩, ⟨⟨⟨fun hr => (hreads hr).elim,
      fun e v hw => absurd hw.1 hw.2.1, hnew⟩, hst⟩, newest_cons hnew fun e he => ⟨e, he, rfl, Or.inl rfl⟩⟩,
      fun _ _ => trivial, fun _ _ => trivial⟩
  · have hput : ∀ e, e ∈ ((hist.now.state.apply [.updateUpload d.id u updated_at]).unlock t.pid).db.datasets ↔
        e = withUpload d u updated_at ∨ e ∈ hist.now.state.db.datasets ∧ e.id ≠ d.id := fun e => by
      show e ∈ (hist.now.state.db.applyAll [.updateUpload d.id u updated_at]).datasets ↔ _
      rw [apply_updateUpload hmem]
      exact Table.mem_put
    refine ⟨⟨⟨_, rfl, rfl⟩, hguar, fun e he => ?_⟩, ⟨⟨⟨fun hr => (hreads hr).elim, fun e v hw => ?_, hnew⟩, hst⟩,
      newest_cons hnew fun e he => ?_⟩, fun _ _ => trivial, fun _ _ => trivial⟩
    · by_cases hid : e.id = d.id
      · exact Or.inr (hid ▸ hlock)
      · exact Or.inl ((hput e).mpr (Or.inr ⟨he, hid⟩))
    · rcases (hput e).mp hw.1 with rfl | ⟨he, -⟩
      · obtain rfl : u = v := Option.some.inj hw.2.2
        exact ⟨hle, d, hmem, rfl, hdated⟩
      · exact absurd he hw.2.1
    · by_cases hid : e.id = d.id
      · refine ⟨withUpload d u updated_at, (hput _).mpr (Or.inl rfl), hid.symm, ?_⟩
        by_cases hsame : withUpload d u updated_at ∈ hist.now.state.db.datasets
        · exact Or.inl (Table.eq_of_key hsame he hid.symm)
        · exact Or.inr ⟨u, (hput _).mpr (Or.inl rfl), hsame, rfl⟩
      · exact ⟨e, (hput e).mpr (Or.inr ⟨he, hid⟩), rfl, Or.inl rfl⟩

/-- `with self._session_factory() as database_session` around a body. -/
theorem stamps_session {m : Body σ α} {A : σ → LoggedWorld → Prop} {Q : α → σ → List UploadEvent → Prop}
    (hm : Stamps F t A m fun a v s => Q a v s.log) (hQ : ∀ a v, Timeless t.pid (Q a v)) :
    Stamps F t A (Body.session m) fun a v s => Q a v s.log := by
  unfold Body.session
  refine Triple.bind (B := fun a v h => Q a v h.now.log) (hm.catching fun x => ?_) fun a => ?_
  · have hclose : Stamps F t (fun _ _ => True) (Body.perform .close : Body σ Unit) fun _ _ _ => True :=
      stamps_skip (by simp) (by simp) fun _ => timeless_true
    exact hclose.bind fun _ => Triple.raise fun _ _ _ _ => trivial
  · exact (stamps_skip (by simp) (by simp) (hQ a)).bind fun _ => Triple.pure fun _ _ _ hq => hq

/-- `with database_session.begin()` around a body, by what its commit does. -/
theorem stamps_begin {m : Body σ (α × List Write)} {A : σ → LoggedWorld → Prop}
    {B : α × List Write → σ → LoggedWorld → Prop} {Q : σ → LoggedWorld → Prop} (hm : Stamps F t A m B)
    (hcommit : ∀ a ws, Stamps F t (B (a, ws)) (Body.perform (.commit ws)) fun _ => Q) :
    Stamps F t A (Body.begin m) fun _ => Q := by
  unfold Body.begin
  refine Triple.bind (B := fun out v h => B out v h.now) (hm.catching fun x => ?_) fun out => ?_
  · have hrollback : Stamps F t (fun _ _ => True) (Body.perform .rollback : Body σ Unit) fun _ _ _ => True :=
      stamps_skip (by simp) (by simp) fun _ => timeless_true
    exact hrollback.bind fun _ => Triple.raise fun _ _ _ _ => trivial
  · obtain ⟨a, ws⟩ := out
    exact (hcommit a ws).bind fun _ => Triple.pure fun _ _ _ hq => hq

end Rules

/-! ### An upload -/

section Upload

variable {F : Faults} {σ : Type} {t : Caller Call LoggedWorld} {A : σ → List UploadEvent → Prop}

lemma stamps_unlink (name : FileName) (hA : ∀ v, Timeless t.pid (A v)) :
    Stamps F t (fun v s => A v s.log) (Body.perform (.unlink name)) fun _ v s => A v s.log :=
  stamps_skip (by simp) (by simp) hA

lemma stamps_copyChunks (u : Uuid) (hA : ∀ v, Timeless t.pid (A v)) (source : Source) :
    ∀ written : Bytes, Stamps F t (fun v s => A v s.log) (copyChunks u source written) fun _ v s => A v s.log := by
  induction source with
  | nil => exact fun _ => Triple.pure fun _ _ _ ha => ha
  | cons chunk source ih =>
    intro written
    rcases chunk with _ | _ | ⟨byte, chunk⟩
    · exact Triple.raise fun _ _ _ _ => trivial
    · exact Triple.pure fun _ _ _ ha => ha
    · rw [copyChunks]
      split
      · exact Triple.raise fun _ _ _ _ => trivial
      · exact (stamps_skip (by simp) (by simp) hA).bind fun _ => ih _

lemma stamps_writeCandidate (source : Source) (hA : ∀ v, Timeless t.pid (A v)) :
    Stamps F t (fun v s => A v s.log) (writeCandidate source) fun _ v s => A v s.log := by
  refine Triple.bind (stamps_skip (by simp) (by simp) hA) fun u => ?_
  refine Triple.bind (stamps_skip (by simp) (by simp) hA) fun _ => ?_
  refine Triple.bind (B := fun _ v h => A v h.now.log) ?_ fun _ => Triple.pure fun _ _ _ ha => ha
  refine (stamps_copyChunks u hA source []).catching fun x => ?_
  exact Triple.bind (stamps_unlink (A := fun _ _ => True) _ fun _ => timeless_true) fun _ =>
    Triple.raise fun _ _ _ _ => trivial

lemma stamps_removeQuietly (key : StorageKey) :
    Stamps F t (fun (_ : σ) _ => True) (removeQuietly key) fun _ _ _ => True := by
  refine Triple.catching (stamps_unlink (A := fun _ _ => True) _ fun _ => timeless_true) fun x => ?_
  split
  · exact Triple.pure fun _ _ _ _ => trivial
  · exact Triple.raise fun _ _ _ _ => trivial

/-- The transaction of an upload leaves one of the times that were read. -/
lemma stamps_replaceUpload {owner_id dataset_id : Uuid} {filename : PyStr} {candidate : CandidateFile}
    {structure_ : CsvStructure} {now : Time} {key : StorageKey} :
    Stamps F t (fun _ s => Timed t.pid now s.log)
      (replaceUpload owner_id dataset_id filename candidate structure_ now key)
      fun out _ s => Stampable t.pid out.2 s := by
  refine Triple.bind (stamps_lock (timeless_timed now)) fun found => ?_
  cases found with
  | none => exact Triple.raise fun _ _ _ _ => trivial
  | some d =>
    have hholding : ∀ {e : Eff}, e ≠ .now ∧ e ≠ .utcNow → (e.isLock || e.ends) = false →
        Stamps F t (fun (_ : UploadLocals) s => Timed t.pid now s.log ∧ HoldsRow t.pid d s) (Body.perform e)
          fun _ _ s => Timed t.pid now s.log ∧ HoldsRow t.pid d s :=
      fun hn he => stamps_holding hn he (timeless_timed now)
    refine Triple.bind (Triple.pre (hholding (e := .query _) (by simp) rfl) fun _ _ _ h => ⟨h.1, h.2 d rfl⟩)
      fun columns => ?_
    split
    · exact Triple.raise fun _ _ _ _ => trivial
    refine Triple.bind (B := fun _ _ h => Timed t.pid now h.now.log ∧ HoldsRow t.pid d h.now)
      (Triple.assign fun _ _ _ ha => ha) fun _ => ?_
    refine Triple.bind (B := fun _ _ h => Timed t.pid now h.now.log ∧ HoldsRow t.pid d h.now) ?_ fun _ => ?_
    · exact Triple.bind (hholding (e := .replace _ _) (by simp) rfl) fun _ => hholding (e := .chmod _) (by simp) rfl
    refine Triple.bind stamps_onupdate fun updated_at => Triple.bind stamps_flush fun _ => ?_
    exact Triple.pure fun _ _ _ ⟨hle, hdated, hd⟩ => ⟨d, _, updated_at, rfl, hle, hdated, hd⟩

lemma stamps_installUpload {owner_id dataset_id : Uuid} {filename : PyStr} {candidate : CandidateFile} :
    Stamps F t (fun _ s => Early t.pid s.log) (installUpload owner_id dataset_id filename candidate)
      fun _ _ _ => True := by
  refine Triple.bind (B := fun _ _ h => Early t.pid h.now.log) ?_ fun structure_ => ?_
  · refine Triple.bind (B := fun _ _ h => Early t.pid h.now.log)
      (stamps_skip (by simp) (by simp) fun _ => timeless_early) fun content => ?_
    exact Triple.ofExcept (fun _ _ _ _ _ ha => ha) fun _ _ _ _ _ _ => trivial
  refine Triple.bind stamps_now fun now => ?_
  refine Triple.bind (B := fun _ _ h => Timed t.pid now h.now.log) ?_ fun key => ?_
  · exact Triple.bind (stamps_skip (by simp) (by simp) fun _ => timeless_timed now) fun k =>
      Triple.pure fun _ _ _ ha => ha
  refine Triple.bind (B := fun _ _ _ => True) ?_ fun out => Triple.pure fun _ _ _ _ => trivial
  refine stamps_session (A := fun _ s => Timed t.pid now s.log) (Q := fun _ _ _ => True)
    (Triple.bind (B := fun _ _ _ => True) ?_ fun out => ?_) fun _ _ => timeless_true
  · exact stamps_begin stamps_replaceUpload fun _ _ => stamps_commit
  · exact Triple.bind (B := fun _ _ _ => True) (Triple.assign fun _ _ _ _ => trivial) fun _ =>
      Triple.pure fun _ _ _ _ => trivial

lemma stamps_compensate {candidate : CandidateFile} {v : UploadLocals} {x : Exn} :
    Stamps F t (fun (_ : σ) _ => True) (compensate candidate v x) fun _ _ _ => True := by
  refine Triple.bind (stamps_unlink (A := fun _ _ => True) _ fun _ => timeless_true) fun _ => ?_
  refine Triple.bind (B := fun _ _ _ => True) ?_ fun _ => Triple.raise fun _ _ _ _ => trivial
  unfold removeInstalled
  split
  · split
    · exact Triple.pure fun _ _ _ _ => trivial
    · exact stamps_removeQuietly _
  · exact Triple.pure fun _ _ _ _ => trivial

/-- **An upload writes a row at most once, with the times that it has read.** -/
theorem stamps_uploadCsv (U : Unicode) {owner_id dataset_id : Uuid} {filename : Option PyStr} {source : Source} :
    Stamps F t (fun (_ : σ) s => Early t.pid s.log) (uploadCsv U owner_id dataset_id filename source)
      fun _ _ _ => True := by
  refine Triple.bind (B := fun _ _ h => Early t.pid h.now.log) ?_ fun safe_filename => ?_
  · exact Triple.ofExcept (fun _ _ _ _ _ ha => ha) fun _ _ _ _ _ _ => trivial
  have hearly : ∀ _ : σ, Timeless t.pid (Early t.pid) := fun _ => timeless_early
  refine Triple.bind (B := fun _ _ h => Early t.pid h.now.log) ?_ fun _ => ?_
  · refine stamps_session (A := fun _ s => Early t.pid s.log) (Q := fun _ _ => Early t.pid)
      (stamps_begin (B := fun out _ s => out.2 = [] ∧ Early t.pid s.log) ?_ fun _ ws => ?_) fun _ => hearly
    · refine Triple.bind (stamps_skip (by simp) (by simp) hearly) fun d => ?_
      cases d with
      | none => exact Triple.raise fun _ _ _ _ => trivial
      | some d => exact Triple.pure fun _ _ _ ha => ⟨rfl, ha⟩
    · refine Triple.assume (φ := ws = []) (fun _ _ _ h => h.1) fun hws => ?_
      exact Triple.pre (stamps_skip (by simp) (by simp [hws]) hearly) fun _ _ _ h => h.2
  refine Triple.bind (stamps_writeCandidate source hearly) fun candidate => ?_
  refine Triple.bind (B := fun _ _ _ => True) ?_ fun out => ?_
  · refine Triple.withLocals fun _ => ?_
    exact Triple.pre stamps_installUpload fun _ _ _ ha => ha.2
  · obtain ⟨outcome, v⟩ := out
    cases outcome with
    | error x => exact stamps_compensate
    | ok result =>
      obtain ⟨result, old_key, new_key⟩ := result
      refine Triple.bind (B := fun _ _ _ => True) ?_ fun _ => Triple.pure fun _ _ _ _ => trivial
      unfold removeSuperseded
      split
      · split
        · exact stamps_removeQuietly _
        · exact Triple.pure fun _ _ _ _ => trivial
      · exact Triple.pure fun _ _ _ _ => trivial

end Upload

/-! ### The guarantee -/

lemma safe_stamped {U : Unicode} {P : Polars} {F : Faults} {t : Caller Call LoggedWorld} (hk : IsUpload t.call) :
    Safe ((machine F).only fun _ _ => True) clockwork t (t.call.body U P) (fun h => Early t.pid h.now.log)
      fun _ _ => True := by
  obtain ⟨p, k, h₀⟩ := t
  cases k with
  | uploadCsv owner_id dataset_id filename source =>
    refine ((Triple.bind (stamps_uploadCsv U) fun _ => Triple.pure fun _ _ _ _ => trivial :
      Stamps F ⟨p, .uploadCsv owner_id dataset_id filename source, h₀⟩ (fun _ s => Early p s.log)
        ((Call.uploadCsv owner_id dataset_id filename source).op U P) fun _ _ _ => True) ()).post
          fun _ _ _ _ => trivial
  | _ => exact hk.elim

/-- **Upload times grow exactly when no upload is committed after it was overtaken**: any number of
uploads at once, with any faults and any readings. -/
theorem upload_times_grow_iff {U : Unicode} {P : Polars} {F : Faults} {w : World}
    {cfg : Config Call Eff (fun e => Except Exn e.Resp) LoggedWorld Outcome}
    (hr : Config.Reachable (journal F) (Call.body U P) IsUpload ⟨w, []⟩ cfg) :
    TimesGrow cfg.hist.now.log ↔ Always NotOvertaken cfg.hist.now.log := by
  have hnewest : Newest w.db [] := fun later _ _ h => by cases later <;> cases h
  obtain ⟨⟨hi, -⟩, -⟩ := reachable_safe_only (S := clockwork) (Q := fun _ _ _ => True) ⟨trivial, hnewest⟩
    (fun t ht => ⟨timeless_early.stable, fun r hr hp => absurd hp (ht r hr), fun r hr hp => absurd hp (ht r hr),
      fun r hr hp => absurd hp (ht r hr)⟩) (fun t hk => safe_stamped hk) hr always_true
  exact timesGrow_iff hi

namespace Sample

/-- The `n`-th to the `m`-th effect of the thread `p`, with the clock at `time`. -/
def timed (p : Pid) (time : Time) (n m : ℕ) : List (Label Call Choice) :=
  (List.range' n (m - n)).map fun i => .run p ⟨.none, time, 200 * (p + 1) + i⟩

/-- The first upload reads the clock, then the second reads it and is committed, then the first is. -/
def overtaken : List (Label Call Choice) :=
  .spawn 0 upload :: .spawn 1 upload :: timed 0 6 0 8 ++ timed 1 7 0 16 ++ timed 0 7 8 17

/-- The log of that run. -/
def overtakenLog : List UploadEvent := (journalOf noFaults overtaken).hist.now.log

/-- No choice has an earlier time than one before it. -/
def forward : List UploadEvent → Bool
  | [] => true
  | ev :: log => (log.all fun r => decide (r.choice.time ≤ ev.choice.time)) && forward log

lemma always_of_forward : ∀ {log : List UploadEvent}, forward log = true → Always ClockForward log
  | [], _ => trivial
  | ev :: log, h => by
    obtain ⟨hev, hlog⟩ := Bool.and_eq_true_iff.mp h
    exact ⟨fun _ r hr _ => of_decide_eq_true (List.all_eq_true.mp hev r hr), always_of_forward hlog⟩

/-- Rows that the event wrote: their time is new. -/
def rowsWritten (ev : UploadEvent) : List Dataset :=
  ev.after.db.datasets.rows.filter fun d =>
    d.upload.isSome && ev.before.db.datasets.rows.all fun d' => d'.updated_at != d.updated_at

lemma wrote_of_mem {ev : UploadEvent} {d : Dataset} (h : d ∈ rowsWritten ev) : ∃ u, Wrote ev d u := by
  obtain ⟨hd, hnew⟩ := List.mem_filter.mp h
  obtain ⟨hu, hnew⟩ := Bool.and_eq_true_iff.mp hnew
  obtain ⟨u, hu⟩ := Option.isSome_iff_exists.mp hu
  refine ⟨u, hd, fun hd' => ?_, hu⟩
  simpa using List.all_eq_true.mp hnew d hd'

/-- A row was written with an earlier time than before. -/
def goesBack : List UploadEvent → Bool
  | [] => false
  | ev :: log => (log.any fun ev' => (rowsWritten ev).any fun d => (rowsWritten ev').any fun d' =>
      d.id == d'.id && decide (d.updated_at < d'.updated_at)) || goesBack log

lemma not_timesGrow_of_goesBack : ∀ {log : List UploadEvent}, goesBack log = true → ¬ TimesGrow log
  | [], h => nomatch h
  | ev :: log, h => by
    intro hgrow
    obtain ⟨hev, hlog⟩ := List.pairwise_cons.mp hgrow
    rcases Bool.or_eq_true_iff.mp h with h | h
    · simp only [List.any_eq_true, Bool.and_eq_true, beq_iff_eq, decide_eq_true_eq] at h
      obtain ⟨ev', hmem, d, hd, d', hd', hid, hlt⟩ := h
      obtain ⟨u, hw⟩ := wrote_of_mem hd
      obtain ⟨u', hw'⟩ := wrote_of_mem hd'
      exact absurd (hev ev' hmem d u d' u' hw hw' hid).2 (not_le.mpr hlt)
    · exact not_timesGrow_of_goesBack h hlog

end Sample

/-- The second upload overtakes the first, whose commit then sets the times back. -/
theorem upload_times_grow_iff_sample : ¬ TimesGrow Sample.overtakenLog ∧ ¬ Always NotOvertaken Sample.overtakenLog := by
  have hback : ¬ TimesGrow Sample.overtakenLog := Sample.not_timesGrow_of_goesBack (by decide +kernel)
  exact ⟨hback, fun hn => hback ((upload_times_grow_iff (Sample.reachable_journalOf _ (by decide))).mpr hn)⟩

/-- Two uploads with a clock that goes forward: the second reads it later and is committed earlier. -/
theorem not_upload_times_grow : ¬ ∀ (U : Unicode) (P : Polars) (F : Faults) (w : World)
    (cfg : Config Call Eff (fun e => Except Exn e.Resp) LoggedWorld Outcome),
      Config.Reachable (journal F) (Call.body U P) IsUpload ⟨w, []⟩ cfg →
      Always ClockForward cfg.hist.now.log → TimesGrow cfg.hist.now.log := by
  intro h
  exact Sample.not_timesGrow_of_goesBack (by decide +kernel) (h Sample.unicode Sample.polars Sample.noFaults
    Sample.created (Sample.journalOf Sample.noFaults Sample.overtaken) (Sample.reachable_journalOf _ (by decide))
    (Sample.always_of_forward (by decide +kernel)))

end DataCheck.Datasets
