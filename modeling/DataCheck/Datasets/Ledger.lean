import DataCheck.Datasets.Compensation

/-!
# Who removes which file

Any number of uploads at once.  The ledger says which upload answers for a file that no row names:
the one that drew its name, until a committed row names it; and the one whose commit took the name
out of its row.  No other upload touches the file.
-/

namespace DataCheck.Datasets

open Lib Shared

/-- An effect of an upload that was performed. -/
abbrev UploadEvent : Type := Event Eff (fun e => Except Exn e.Resp) Choice World

/-- The UUID that the name of a file is made of. -/
def uuidOf : FileName → Uuid
  | .candidate u => u
  | .stored key => key.uuid

/-- A committed row names the file. -/
def NamesFile (w : World) (name : FileName) : Prop := ∃ key, name = .stored key ∧ w.db.Names key

/-- The name of the file was drawn. -/
def Draws (ev : UploadEvent) (name : FileName) : Prop :=
  ev.eff = .uuid4 ∧ ev.choice.fault = .none ∧ ev.choice.uuid = uuidOf name

/-- A row named the file, and none does any more. -/
def Drops (ev : UploadEvent) (name : FileName) : Prop :=
  NamesFile ev.before name ∧ ¬ NamesFile ev.after name

/-- No row named the file, and one does now. -/
def Publishes (ev : UploadEvent) (name : FileName) : Prop :=
  ¬ NamesFile ev.before name ∧ NamesFile ev.after name

open Classical in
/-- The thread that answers for the file. -/
noncomputable def owes : List UploadEvent → FileName → Option Pid
  | [], _ => none
  | ev :: log, name =>
    if Draws ev name ∨ Drops ev name then some ev.pid
    else if Publishes ev name then none
    else owes log name

section Owes

variable {ev : UploadEvent} {log : List UploadEvent} {name : FileName} {p : Pid}

lemma owes_some_pid (h : owes log name = some p) : ∃ ev ∈ log, ev.pid = p := by
  induction log with
  | nil => cases h
  | cons ev log ih =>
    rw [owes] at h
    split at h
    · exact ⟨ev, List.mem_cons_self, Option.some.inj h⟩
    · split at h
      · cases h
      · obtain ⟨ev', he', hp⟩ := ih h
        exact ⟨ev', List.mem_cons_of_mem _ he', hp⟩

lemma owes_taken (h : Draws ev name ∨ Drops ev name) : owes (ev :: log) name = some ev.pid := if_pos h

lemma owes_published (h : Publishes ev name) (hd : ¬ Draws ev name) : owes (ev :: log) name = none := by
  rw [owes, if_neg fun hx => hx.elim hd fun hx => h.1 hx.1, if_pos h]

/-- An event that does not change which rows name the file. -/
lemma owes_same (hd : ¬ Draws ev name) (hn : NamesFile ev.after name ↔ NamesFile ev.before name) :
    owes (ev :: log) name = owes log name := by
  rw [owes, if_neg, if_neg]
  · exact fun hx => hx.1 (hn.mp hx.2)
  · exact fun hx => hx.elim hd fun hx => hx.2 (hn.mpr hx.1)

end Owes

/-! ### The contract -/

/-- What always holds: the files are those of the rows and those that some upload answers for. -/
structure LedgerInv (s : LoggedWorld) : Prop where
  drawn : ∀ name, s.state.files name ≠ none → uuidOf name ∈ s.state.issued.map Prod.snd
  named_drawn : ∀ key, s.state.db.Names key → key.uuid ∈ s.state.issued.map Prod.snd
  owed_drawn : ∀ name p, owes s.log name = some p → uuidOf name ∈ s.state.issued.map Prod.snd
  present : ∀ key, s.state.db.Names key → s.state.files (.stored key) ≠ none
  accounted : ∀ name, s.state.files name ≠ none → NamesFile s.state name ∨ owes s.log name ≠ none
  unowed : ∀ name, NamesFile s.state name → owes s.log name = none
  distinct : KeysDistinct s.state

/-- What a step of the thread `p` may do. -/
structure LedgerGuar (p : Pid) (s s' : LoggedWorld) : Prop where
  logs : ∃ ev, s'.log = ev :: s.log ∧ ev.pid = p
  locks : ∀ d q, q ≠ p → s.state.locks d = some q → s'.state.locks d = some q
  datasets : ∀ d ∈ s.state.db.datasets, d ∈ s'.state.db.datasets ∨ s.state.locks d.id = some p
  /-- Only files that it answers for. -/
  files : ∀ name, s'.state.files name = s.state.files name ∨ owes s.log name = some p
  /-- It takes no file from another, and gives it none. -/
  owes : ∀ name q, q ≠ p → (owes s'.log name = some q ↔ owes s.log name = some q)

def ledger : Contract Call Eff LoggedWorld where
  Inv h := LedgerInv h.now
  Guar p _ h s := LedgerGuar p h.now s
  At _ _ _ := True

variable {F : Faults} {good : UploadEvent → List UploadEvent → Prop} {p : Pid} {h : Hist LoggedWorld}
  {s s' : LoggedWorld}

/-- A step keeps the contract. -/
def Keeps (p : Pid) (s s' : LoggedWorld) : Prop := LedgerGuar p s s' ∧ LedgerInv s'

/-- One more event, in which rows and files stay and nothing is drawn. -/
structure Idle (p : Pid) (s s' : LoggedWorld) : Prop where
  next : ∃ e c r w, s' = s.next p e c r w ∧ (e = .uuid4 → c.fault ≠ .none)
  db : s'.state.db = s.state.db
  files : s'.state.files = s.state.files
  issued : s'.state.issued = s.state.issued
  locks : ∀ d q, q ≠ p → s.state.locks d = some q → s'.state.locks d = some q

lemma Idle.owes_eq (hs : Idle p s s') (name : FileName) : owes s'.log name = owes s.log name := by
  obtain ⟨e, c, r, w, rfl, he⟩ := hs.next
  refine owes_same (fun hd => he hd.1 hd.2.1) ?_
  show NamesFile w name ↔ NamesFile s.state name
  rw [NamesFile, show w.db = s.state.db from hs.db]
  rfl

lemma Idle.keeps (hs : Idle p s s') (hi : LedgerInv s) : Keeps p s s' := by
  have howes := hs.owes_eq
  have hnames : ∀ name, NamesFile s'.state name ↔ NamesFile s.state name := fun name => by
    rw [NamesFile, hs.db]
    rfl
  refine ⟨⟨?_, hs.locks, fun d hd => Or.inl (hs.db ▸ hd), fun name => Or.inl (by rw [hs.files]),
    fun name q _ => by rw [howes]⟩, ?_⟩
  · obtain ⟨e, c, r, w, rfl, -⟩ := hs.next
    exact ⟨_, rfl, rfl⟩
  · refine ⟨?_, ?_, ?_, ?_, ?_, ?_, ?_⟩
    · rw [hs.files, hs.issued]
      exact hi.drawn
    · rw [hs.db, hs.issued]
      exact hi.named_drawn
    · intro name q hq
      rw [howes] at hq
      rw [hs.issued]
      exact hi.owed_drawn name q hq
    · rw [hs.db, hs.files]
      exact hi.present
    · intro name hn
      rw [hs.files] at hn
      rw [hnames, howes]
      exact hi.accounted name hn
    · intro name hn
      rw [howes]
      exact hi.unowed name ((hnames name).mp hn)
    · have hd := hi.distinct
      rw [KeysDistinct, hs.db]
      exact hd

/-! ### Assertions -/

/-- Other uploads do not end it. -/
abbrev Lasting (p : Pid) (A : LoggedWorld → Prop) : Prop := Stable ledger p fun h => A h.now

/-- Neither other uploads nor idle steps of its own end it. -/
structure Firm (p : Pid) (A : LoggedWorld → Prop) : Prop where
  lasting : Lasting p A
  idle : ∀ s s', LedgerInv s → A s → Idle p s s' → A s'

lemma lasting_of {A : LoggedWorld → Prop}
    (hA : ∀ q s s', q ≠ p → LedgerInv s → A s → LedgerGuar q s s' → A s') : Lasting p A :=
  fun q _ h w hq hi ha hg _ => hA q h.now w hq hi ha hg

namespace Firm

lemma const (φ : Prop) : Firm p fun _ => φ := ⟨.const φ, fun _ _ _ h _ => h⟩

lemma and {A B : LoggedWorld → Prop} (hA : Firm p A) (hB : Firm p B) : Firm p fun s => A s ∧ B s :=
  ⟨hA.lasting.and hB.lasting, fun s s' hi h hs => ⟨hA.idle s s' hi h.1 hs, hB.idle s s' hi h.2 hs⟩⟩

lemma imp (φ : Prop) {A : LoggedWorld → Prop} (hA : Firm p A) : Firm p fun s => φ → A s :=
  ⟨Stable.imp φ hA.lasting, fun s s' hi h hs hφ => hA.idle s s' hi (h hφ) hs⟩

lemma all {ι : Sort*} {A : ι → LoggedWorld → Prop} (hA : ∀ i, Firm p (A i)) : Firm p fun s => ∀ i, A i s :=
  ⟨Stable.forall fun i => (hA i).lasting, fun s s' hi h hs i => (hA i).idle s s' hi (h i) hs⟩

end Firm

lemma Firm.exists {ι : Sort*} {A : ι → LoggedWorld → Prop} (hA : ∀ i, Firm p (A i)) : Firm p fun s => ∃ i, A i s :=
  ⟨Stable.exists fun i => (hA i).lasting, fun s s' hi ⟨i, h⟩ hs => ⟨i, (hA i).idle s s' hi h hs⟩⟩

/-- The files that the thread answers for are among these. -/
def Owing (p : Pid) (L : List FileName) (s : LoggedWorld) : Prop :=
  ∀ name, owes s.log name = some p → s.state.files name ≠ none → name ∈ L

/-- The thread answers for the file. -/
def Mine (p : Pid) (name : FileName) (s : LoggedWorld) : Prop := owes s.log name = some p

/-- The thread answers for the file, which has these bytes. -/
def MineWith (p : Pid) (name : FileName) (content : Bytes) (s : LoggedWorld) : Prop :=
  Mine p name s ∧ s.state.files name = some content

/-- The thread holds the lock of the dataset, and this is its row. -/
def HoldsRow (p : Pid) (d : Dataset) (s : LoggedWorld) : Prop :=
  s.state.locks d.id = some p ∧ d ∈ s.state.db.datasets

/-- The thread has committed an upload over an earlier one. -/
def HasSuperseded (p : Pid) (log : List UploadEvent) : Prop :=
  ∃ ev ∈ log, ev.pid = p ∧ ∃ key, ev.before.db.Names key ∧ ¬ ev.after.db.Names key

lemma firm_owing (L : List FileName) : Firm p (Owing p L) where
  lasting := lasting_of fun _ _ _ hq _ ha hg name hn hf => by
    have hn' := (hg.owes name p (Ne.symm hq)).mp hn
    rcases hg.files name with he | he
    · exact ha name hn' (he ▸ hf)
    · rw [he] at hn'
      exact absurd (Option.some.inj hn') hq
  idle _ _ _ ha hs name hn hf := by
    rw [hs.owes_eq] at hn
    rw [hs.files] at hf
    exact ha name hn hf

lemma firm_mine (name : FileName) : Firm p (Mine p name) where
  lasting := lasting_of fun _ _ _ hq _ ha hg => (hg.owes name p (Ne.symm hq)).mpr ha
  idle _ _ _ ha hs := (hs.owes_eq name).trans ha

lemma firm_mineWith (name : FileName) (content : Bytes) : Firm p (MineWith p name content) where
  lasting := lasting_of fun _ s _ hq _ ha hg => by
    refine ⟨(hg.owes name p (Ne.symm hq)).mpr ha.1, ?_⟩
    rcases hg.files name with he | he
    · exact he.trans ha.2
    · have hn : owes s.log name = some p := ha.1
      rw [he] at hn
      exact absurd (Option.some.inj hn) hq
  idle s s' hi ha hs := ⟨(firm_mine name).idle s s' hi ha.1 hs, (congrFun hs.files name).trans ha.2⟩

lemma firm_hasSuperseded : Firm p fun s => HasSuperseded p s.log where
  lasting := lasting_of fun _ _ _ _ _ ha hg => by
    obtain ⟨ev', hlog, -⟩ := hg.logs
    obtain ⟨ev, he, hev⟩ := ha
    exact ⟨ev, by rw [hlog]; exact List.mem_cons_of_mem _ he, hev⟩
  idle _ _ _ ha hs := by
    obtain ⟨e, c, r, w, rfl, -⟩ := hs.next
    obtain ⟨ev, he, hev⟩ := ha
    exact ⟨ev, List.mem_cons_of_mem _ he, hev⟩

lemma lasting_holdsRow (d : Dataset) : Lasting p (HoldsRow p d) :=
  lasting_of fun _ _ _ hq _ ha hg => by
    refine ⟨hg.locks d.id p (Ne.symm hq) ha.1, ?_⟩
    rcases hg.datasets d ha.2 with hd | hl
    · exact hd
    · rw [ha.1] at hl
      exact absurd (Option.some.inj hl).symm hq

/-! ### Steps that are not idle -/

def KeepsLocks (p : Pid) (w w' : World) : Prop :=
  ∀ d q, q ≠ p → w.locks d = some q → w'.locks d = some q

lemma keepsLocks_unlock (w : World) : KeepsLocks p w (w.unlock p) := fun d q hq hl => by
  simp [World.unlock, hl, hq]

lemma keepsLocks_failed (w : World) (e : Eff) : KeepsLocks p w (w.failed p e) := by
  unfold World.failed
  split
  · exact keepsLocks_unlock w
  · exact keepsLocks_unlock w
  · exact keepsLocks_unlock w
  · exact fun _ _ _ hl => hl

lemma keepsLocks_lock {w : World} {d : Uuid} (hfree : w.locks d = none ∨ w.locks d = some p) :
    KeepsLocks p w { w with locks := Function.update w.locks d (some p) } := by
  intro d' q hq hl
  have hne : d' ≠ d := by
    rintro rfl
    rcases hfree with hf | hf <;> rw [hf] at hl
    · cases hl
    · exact hq (Option.some.inj hl).symm
  exact (Function.update_of_ne hne _ _).trans hl

/-- **No step takes a lock from another thread.** -/
lemma exec_keepsLocks {e : Eff} {c : Choice} {r : Except Exn e.Resp} {w w' : World}
    (hx : (machine F).exec p e c w = some (r, w')) : KeepsLocks p w w' := by
  simp only [machine] at hx
  split at hx
  · cases e with
    | commit _ | rollback | close =>
      cases hx
      exact keepsLocks_unlock _
    | getForOwnerForUpdate dataset_id owner_id =>
      simp only [World.perform] at hx
      split at hx
      · cases hx
        exact fun _ _ _ hl => hl
      · split at hx
        · next hfree =>
          cases hx
          exact keepsLocks_lock hfree
        · cases hx
    | _ =>
      simp only [World.perform] at hx
      repeat' split at hx
      all_goals cases hx <;> exact fun _ _ _ hl => hl
  · split at hx <;> cases hx
    exact keepsLocks_failed w e
  · split at hx
    · split at hx <;> cases hx
      exact keepsLocks_unlock _
    · cases hx

/-- A still effect draws nothing unless it is a draw. -/
lemma perform_idle {e : Eff} (he : e.still = true) (hu : e ≠ .uuid4) {w w' : World} {c : Choice}
    {r : Except Exn e.Resp} (hx : w.perform p c e = some (r, w')) : w'.issued = w.issued := by
  cases e with
  | uuid4 => exact absurd rfl hu
  | create _ | write _ _ | replace _ _ | unlink _ => cases he
  | commit _ | rollback | close =>
    cases hx
    rfl
  | getForOwnerForUpdate dataset_id owner_id =>
    simp only [World.perform] at hx
    repeat' split at hx
    all_goals cases hx <;> rfl
  | now | utcNow | query _ | flush _ | readCandidate _ | chmod _ | openBinary _ | read | captured _ _ _ =>
    rw [perform_quiet rfl hx]

lemma exec_idle {e : Eff} (he : e.still = true) {c : Choice} (hu : e = .uuid4 → c.fault ≠ .none)
    {r : Except Exn e.Resp} {w : World} (hx : (machine F).exec p e c s.state = some (r, w)) :
    Idle p s (s.next p e c r w) := by
  have hm := exec_still he hx
  have hissued : w.issued = s.state.issued := by
    have hx' := hx
    simp only [machine] at hx'
    split at hx'
    · next hc => exact perform_idle he (fun hn => hu hn hc) hx'
    · split at hx' <;> cases hx'
      exact (locksOnly_failed s.state p e).issued
    · split at hx'
      · split at hx' <;> cases hx'
        rfl
      · cases hx'
  exact ⟨⟨e, c, r, w, rfl, hu⟩, hm.db, hm.files, hissued, exec_keepsLocks hx⟩

/-- A fresh UUID: the thread answers for the files of that name, and there are none. -/
lemma keeps_draw (hi : LedgerInv s) {c : Choice} (hc : c.fault = .none)
    (hu : c.uuid ∉ s.state.issued.map Prod.snd) {r : Except Exn Uuid} :
    Keeps p s (s.next p .uuid4 c r (s.state.draw p c.uuid)) := by
  have hnew : ∀ name, uuidOf name = c.uuid →
      owes (s.next p .uuid4 c r (s.state.draw p c.uuid)).log name = some p := fun name hn =>
    owes_taken (Or.inl ⟨rfl, hc, hn.symm⟩)
  have hold : ∀ name, uuidOf name ≠ c.uuid →
      owes (s.next p .uuid4 c r (s.state.draw p c.uuid)).log name = owes s.log name := fun name hn =>
    owes_same (fun hd => hn hd.2.2.symm) Iff.rfl
  have hmono : ∀ u ∈ s.state.issued.map Prod.snd, u ∈ (s.state.draw p c.uuid).issued.map Prod.snd :=
    fun u hm => List.mem_cons_of_mem _ hm
  refine ⟨⟨⟨_, rfl, rfl⟩, fun _ _ _ hl => hl, fun _ hd => Or.inl hd, fun _ => Or.inl rfl,
    fun name q hq => ?_⟩, ?_⟩
  · by_cases hn : uuidOf name = c.uuid
    · rw [hnew name hn]
      refine iff_of_false (fun he => hq (Option.some.inj he).symm) fun he => hu ?_
      exact hn ▸ hi.owed_drawn name q he
    · rw [hold name hn]
  · refine ⟨fun name hf => hmono _ (hi.drawn name hf), fun key hk => hmono _ (hi.named_drawn key hk),
      fun name q hq => ?_, hi.present, fun name hf => ?_, fun name hn => ?_, hi.distinct⟩
    · by_cases hn : uuidOf name = c.uuid
      · rw [hn]
        exact List.mem_cons_self
      · rw [hold name hn] at hq
        exact hmono _ (hi.owed_drawn name q hq)
    · have hn : uuidOf name ≠ c.uuid := fun he => hu (he ▸ hi.drawn name hf)
      rw [hold name hn]
      exact hi.accounted name hf
    · obtain ⟨key, rfl, hk⟩ := hn
      have hn : uuidOf (.stored key) ≠ c.uuid := fun he => hu (he ▸ hi.named_drawn key hk)
      rw [hold _ hn]
      exact hi.unowed _ ⟨key, rfl, hk⟩

lemma keeps_files (hi : LedgerInv s) {e : Eff} {c : Choice} {r : Except Exn e.Resp} {w : World}
    (hu : e ≠ .uuid4) (hdb : w.db = s.state.db) (hissued : w.issued = s.state.issued)
    (hlocks : w.locks = s.state.locks)
    (hfiles : ∀ name, w.files name = s.state.files name ∨ Mine p name s) :
    Keeps p s (s.next p e c r w) ∧ ∀ name, owes (s.next p e c r w).log name = owes s.log name := by
  have hnames : ∀ name, NamesFile w name ↔ NamesFile s.state name := fun name => by
    rw [NamesFile, hdb]
    rfl
  have howes : ∀ name, owes (s.next p e c r w).log name = owes s.log name := fun name =>
    owes_same (fun hd => hu hd.1) (hnames name)
  refine ⟨⟨⟨⟨_, rfl, rfl⟩, fun d q _ hl => ?_, fun d hd => Or.inl ?_, hfiles, fun name q _ => by rw [howes]⟩,
    ?_⟩, howes⟩
  · show w.locks d = some q
    rw [hlocks, hl]
  · show d ∈ w.db.datasets
    rwa [hdb]
  · refine ⟨fun name hf => ?_, fun key hk => ?_, fun name q hq => ?_, fun key hk => ?_, fun name hf => ?_,
      fun name hn => ?_, ?_⟩
    · show _ ∈ w.issued.map Prod.snd
      rw [hissued]
      rcases hfiles name with he | he
      · exact hi.drawn name (he ▸ hf)
      · exact hi.owed_drawn name p he
    · show _ ∈ w.issued.map Prod.snd
      rw [hissued]
      exact hi.named_drawn key (hdb ▸ hk)
    · show _ ∈ w.issued.map Prod.snd
      rw [hissued]
      rw [howes] at hq
      exact hi.owed_drawn name q hq
    · have hk' : s.state.db.Names key := hdb ▸ hk
      rcases hfiles (.stored key) with he | he
      · show w.files (.stored key) ≠ none
        rw [he]
        exact hi.present key hk'
      · have hn := hi.unowed _ ⟨key, rfl, hk'⟩
        rw [show owes s.log (.stored key) = some p from he] at hn
        cases hn
    · rw [howes]
      rcases hfiles name with he | he
      · exact (hi.accounted name (he ▸ hf)).imp_left (hnames name).mpr
      · exact Or.inr (by rw [show owes s.log name = some p from he]; exact Option.some_ne_none p)
    · rw [howes]
      exact hi.unowed name ((hnames name).mp hn)
    · show KeysDistinct w
      rw [KeysDistinct, hdb]
      exact hi.distinct

/-- The files that rows name after an upload of `d`. -/
lemma names_put {db : Db} {d : Dataset} {u : UploadColumns} {now : Time} (hd : d ∈ db.datasets)
    (hdistinct : ∀ d ∈ db.datasets, ∀ d' ∈ db.datasets, ∀ u u', d.upload = some u → d'.upload = some u' →
      u.storage_key = u'.storage_key → d = d') (key : StorageKey) :
    ({ db with datasets := db.datasets.put (withUpload d u now) } : Db).Names key ↔
      key = u.storage_key ∨ db.Names key ∧ d.upload.map UploadColumns.storage_key ≠ some key := by
  constructor
  · rintro ⟨d', hd', u', hu', rfl⟩
    rcases Table.mem_put.mp hd' with rfl | ⟨hd', hid⟩
    · cases hu'
      exact Or.inl rfl
    · refine Or.inr ⟨⟨d', hd', u', hu', rfl⟩, fun he => hid ?_⟩
      obtain ⟨old, hold, hk⟩ := Option.map_eq_some_iff.mp he
      rw [hdistinct d' hd' d hd u' old hu' hold hk.symm]
      rfl
  · rintro (rfl | ⟨⟨d', hd', u', hu', rfl⟩, hne⟩)
    · exact ⟨withUpload d u now, Table.mem_put.mpr (Or.inl rfl), u, rfl, rfl⟩
    · refine ⟨d', Table.mem_put.mpr (Or.inr ⟨hd', fun hid => hne ?_⟩), u', hu', rfl⟩
      rw [← Table.eq_of_key hd' hd hid, hu']
      rfl

section Commit

variable {d : Dataset} {u : UploadColumns} {content : Bytes} {key : StorageKey} (now : Time) (c : Choice)
  (r : Except Exn Unit)

/-- The world after an upload has committed the row of `d`. -/
def committed (p : Pid) (s : LoggedWorld) (d : Dataset) (u : UploadColumns) (now : Time) (c : Choice)
    (r : Except Exn Unit) : LoggedWorld :=
  s.next p (.commit [.updateUpload d.id u now]) c r ((s.state.apply [.updateUpload d.id u now]).unlock p)

lemma committed_db (hd : HoldsRow p d s) : (committed p s d u now c r).state.db =
    { s.state.db with datasets := s.state.db.datasets.put (withUpload d u now) } := apply_updateUpload hd.2 u now

lemma names_committed (hi : LedgerInv s) (hd : HoldsRow p d s) (key : StorageKey) :
    (committed p s d u now c r).state.db.Names key ↔
      key = u.storage_key ∨ s.state.db.Names key ∧ d.upload.map UploadColumns.storage_key ≠ some key := by
  rw [committed_db now c r hd]
  exact names_put hd.2 hi.distinct key

lemma not_names_new (hi : LedgerInv s) (hm : MineWith p (.stored u.storage_key) content s) :
    ¬ s.state.db.Names u.storage_key := fun hn => by
  have h := hi.unowed _ ⟨_, rfl, hn⟩
  rw [show owes s.log (.stored u.storage_key) = some p from hm.1] at h
  cases h

lemma names_old (hd : HoldsRow p d s) (hk : d.upload.map UploadColumns.storage_key = some key) :
    s.state.db.Names key := by
  obtain ⟨old, hold, rfl⟩ := Option.map_eq_some_iff.mp hk
  exact ⟨d, hd.2, old, hold, rfl⟩

lemma old_ne_new (hi : LedgerInv s) (hd : HoldsRow p d s) (hm : MineWith p (.stored u.storage_key) content s)
    (hk : d.upload.map UploadColumns.storage_key = some key) : key ≠ u.storage_key := by
  rintro rfl
  exact not_names_new hi hm (names_old hd hk)

lemma not_names_old (hi : LedgerInv s) (hd : HoldsRow p d s) (hm : MineWith p (.stored u.storage_key) content s)
    (hk : d.upload.map UploadColumns.storage_key = some key) :
    ¬ (committed p s d u now c r).state.db.Names key := fun hn =>
  ((names_committed now c r hi hd key).mp hn).elim (old_ne_new hi hd hm hk) fun hn => hn.2 hk

/-- Who answers for which file after the commit: nobody for the new one, the thread for the old one. -/
lemma owes_committed (hi : LedgerInv s) (hd : HoldsRow p d s) (hm : MineWith p (.stored u.storage_key) content s)
    (name : FileName) :
    name = .stored u.storage_key ∧ owes (committed p s d u now c r).log name = none ∨
      (∃ key, d.upload.map UploadColumns.storage_key = some key ∧ name = .stored key ∧
        owes (committed p s d u now c r).log name = some p) ∨
      name ≠ .stored u.storage_key ∧ (∀ key, d.upload.map UploadColumns.storage_key = some key → name ≠ .stored key) ∧
        owes (committed p s d u now c r).log name = owes s.log name := by
  have hnotDraw : ∀ w, ¬ Draws ⟨p, .commit [.updateUpload d.id u now], c, r, s.state, w⟩ name :=
    fun w hdraw => nomatch hdraw.1
  by_cases hnew : name = .stored u.storage_key
  · subst hnew
    refine Or.inl ⟨rfl, owes_published ⟨?_, u.storage_key, rfl, (names_committed now c r hi hd _).mpr (Or.inl rfl)⟩ (hnotDraw _)⟩
    rintro ⟨key', he, hn⟩
    cases he
    exact not_names_new hi hm hn
  · by_cases hold : ∃ key, d.upload.map UploadColumns.storage_key = some key ∧ name = .stored key
    · obtain ⟨key, hk, rfl⟩ := hold
      refine Or.inr (Or.inl ⟨key, hk, rfl, owes_taken (Or.inr ⟨⟨key, rfl, names_old hd hk⟩, ?_⟩)⟩)
      rintro ⟨key', he, hn⟩
      cases he
      exact not_names_old now c r hi hd hm hk hn
    · have hother : ∀ key, d.upload.map UploadColumns.storage_key = some key → name ≠ .stored key :=
        fun key hk he => hold ⟨key, hk, he⟩
      refine Or.inr (Or.inr ⟨hnew, hother, owes_same (hnotDraw _) ⟨?_, ?_⟩⟩)
      · rintro ⟨key, rfl, hn⟩
        rcases (names_committed now c r hi hd key).mp hn with rfl | hn
        · exact absurd rfl hnew
        · exact ⟨key, rfl, hn.1⟩
      · rintro ⟨key, rfl, hn⟩
        exact ⟨key, rfl, (names_committed now c r hi hd key).mpr (Or.inr ⟨hn, fun he => hother key he rfl⟩)⟩

/-- No other row names the new file. -/
lemma keysDistinct_committed (hi : LedgerInv s) (hd : HoldsRow p d s)
    (hm : MineWith p (.stored u.storage_key) content s) : KeysDistinct (committed p s d u now c r).state := by
  have hput : ∀ d' ∈ (committed p s d u now c r).state.db.datasets,
      d' = withUpload d u now ∨ d' ∈ s.state.db.datasets ∧ d'.id ≠ d.id := fun d' hd' => by
    rw [committed_db now c r hd] at hd'
    exact Table.mem_put.mp hd'
  have hnew := not_names_new hi hm
  intro d₁ h₁ d₂ h₂ u₁ u₂ hu₁ hu₂ he
  rcases hput d₁ h₁ with rfl | ⟨h₁, -⟩ <;> rcases hput d₂ h₂ with rfl | ⟨h₂, -⟩
  · rfl
  · cases hu₁
    exact absurd ⟨d₂, h₂, u₂, hu₂, he.symm⟩ hnew
  · cases hu₂
    exact absurd ⟨d₁, h₁, u₁, hu₁, he⟩ hnew
  · exact hi.distinct d₁ h₁ d₂ h₂ u₁ u₂ hu₁ hu₂ he

lemma ledgerInv_committed (hi : LedgerInv s) (hd : HoldsRow p d s)
    (hm : MineWith p (.stored u.storage_key) content s) : LedgerInv (committed p s d u now c r) := by
  have hnames : ∀ key, (committed p s d u now c r).state.db.Names key ↔ _ := names_committed now c r hi hd
  have howes := owes_committed now c r hi hd hm
  refine ⟨hi.drawn, fun key hk => ?_, fun name q hq => ?_, fun key hk => ?_, fun name hf => ?_, fun name hn => ?_,
    keysDistinct_committed now c r hi hd hm⟩
  · rcases (hnames key).mp hk with rfl | hk
    · exact hi.owed_drawn _ p hm.1
    · exact hi.named_drawn key hk.1
  · rcases howes name with ⟨rfl, -⟩ | ⟨key, hk, rfl, -⟩ | ⟨-, -, he⟩
    · exact hi.owed_drawn _ p hm.1
    · exact hi.named_drawn key (names_old hd hk)
    · exact hi.owed_drawn name q (he ▸ hq)
  · rcases (hnames key).mp hk with rfl | hk
    · show s.state.files _ ≠ none
      rw [hm.2]
      exact Option.some_ne_none _
    · exact hi.present key hk.1
  · rcases howes name with ⟨rfl, -⟩ | ⟨key, -, rfl, he⟩ | ⟨-, hother, he⟩
    · exact Or.inl ⟨_, rfl, (hnames _).mpr (Or.inl rfl)⟩
    · exact Or.inr (he ▸ Option.some_ne_none p)
    · rw [he]
      refine (hi.accounted name hf).imp_left fun hn => ?_
      obtain ⟨key, rfl, hn⟩ := hn
      exact ⟨key, rfl, (hnames key).mpr (Or.inr ⟨hn, fun hk => hother key hk rfl⟩)⟩
  · rcases howes name with ⟨-, he⟩ | ⟨key, hk, rfl, -⟩ | ⟨hnew, -, he⟩
    · exact he
    · obtain ⟨key', he, hn⟩ := hn
      cases he
      exact absurd hn (not_names_old now c r hi hd hm hk)
    · obtain ⟨key, rfl, hn⟩ := hn
      rw [he]
      rcases (hnames key).mp hn with rfl | hn
      · exact absurd rfl hnew
      · exact hi.unowed _ ⟨key, rfl, hn.1⟩

end Commit

/-- The commit of an upload: the new file has its row, and the thread answers for the old one. -/
theorem keeps_commit (now : Time) (hi : LedgerInv s) {d : Dataset} {u : UploadColumns} {content : Bytes}
    (hd : HoldsRow p d s) (hm : MineWith p (.stored u.storage_key) content s)
    (ho : Owing p [.stored u.storage_key] s) {c : Choice} {r : Except Exn Unit} :
    let s' := s.next p (.commit [.updateUpload d.id u now]) c r
      ((s.state.apply [.updateUpload d.id u now]).unlock p)
    Keeps p s s' ∧ Owing p ((d.upload.map UploadColumns.storage_key).map FileName.stored).toList s' ∧
      ∀ key, d.upload.map UploadColumns.storage_key = some key → key ≠ u.storage_key ∧
        Mine p (.stored key) s' ∧ HasSuperseded p s'.log := by
  have howes := owes_committed now c r hi hd hm
  refine ⟨⟨⟨⟨_, rfl, rfl⟩, keepsLocks_unlock _, fun d' hd' => ?_, fun _ => Or.inl rfl, fun name q hq => ?_⟩,
    ledgerInv_committed now c r hi hd hm⟩, fun name hn hf => ?_, fun key hk => ⟨old_ne_new hi hd hm hk, ?_, ?_⟩⟩
  · by_cases hid : d'.id = d.id
    · exact Or.inr (hid ▸ hd.1)
    · refine Or.inl (?_ : d' ∈ (committed p s d u now c r).state.db.datasets)
      rw [committed_db now c r hd]
      exact Table.mem_put.mpr (Or.inr ⟨hd', hid⟩)
  · rcases howes name with ⟨rfl, he⟩ | ⟨key, hk, rfl, he⟩ | ⟨-, -, he⟩
    · refine iff_of_false (fun hx => nomatch he.symm.trans hx) fun hx => hq ?_
      exact Option.some.inj (hx.symm.trans hm.1)
    · refine iff_of_false (fun hx => hq (Option.some.inj (hx.symm.trans he))) fun hx => ?_
      exact nomatch (hi.unowed _ ⟨key, rfl, names_old hd hk⟩).symm.trans hx
    · exact he ▸ Iff.rfl
  · rcases howes name with ⟨-, he⟩ | ⟨key, hk, rfl, -⟩ | ⟨hnew, -, he⟩
    · exact nomatch he.symm.trans hn
    · simp [hk]
    · exact absurd (List.mem_singleton.mp (ho name (he.symm.trans hn) hf)) hnew
  · rcases howes (.stored key) with ⟨he, -⟩ | ⟨-, -, -, he⟩ | ⟨-, hother, -⟩
    · cases he
      exact absurd rfl (old_ne_new hi hd hm hk)
    · exact he
    · exact absurd rfl (hother key hk)
  · exact ⟨_, List.mem_cons_self, rfl, key, names_old hd hk, not_names_old now c r hi hd hm hk⟩

end DataCheck.Datasets
