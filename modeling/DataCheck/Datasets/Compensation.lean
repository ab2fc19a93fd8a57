import DataCheck.Datasets.Guarantees
import DataCheck.Shared.Journal

/-!
# An upload that fails

One `upload_csv` by itself, from any store, where every effect may fail.  Until its transaction is
committed it changes no row, and the files that it made are gone when it raises.  A committed upload
is complete; the exception is a commit that the server applied and that raised all the same.
-/

namespace DataCheck.Datasets

open Lib Shared

variable {U : Unicode} {F : Faults} {q : Pid} {w : World} {s s' : LoggedWorld}

/-! ### Stores -/

/-- Stored files have keys that were drawn. -/
def KeysDrawn (w : World) : Prop :=
  ∀ key, w.files (.stored key) ≠ none → key.uuid ∈ w.issued.map Prod.snd

/-- Every committed row with an upload names a complete file. -/
def AllBacked (w : World) : Prop := ∀ d ∈ w.db.datasets, ∀ u, d.upload = some u → Backed w u

/-- No two rows name one file. -/
def KeysDistinct (w : World) : Prop :=
  ∀ d ∈ w.db.datasets, ∀ d' ∈ w.db.datasets, ∀ u u', d.upload = some u → d'.upload = some u' →
    u.storage_key = u'.storage_key → d = d'

def DeletionsSucceed (F : Faults) : Prop := ∀ name, F.fails (.unlink name) = false

/-- A file that an upload may make: there was none of that name. -/
def Fresh (w : World) : FileName → Prop
  | .candidate u => w.files (.candidate u) = none
  | .stored key => key.uuid ∉ w.issued.map Prod.snd

lemma Fresh.absent (hw : KeysDrawn w) : ∀ {name : FileName}, Fresh w name → w.files name = none
  | .candidate _, h => h
  | .stored key, h => not_not.mp fun hn => h (hw key hn)

/-! ### Before the commit -/

/-- Nothing was committed, and the files are as in `w` but for those in `L`. -/
structure Around (w : World) (L : List FileName) (s : LoggedWorld) : Prop where
  db : s.state.db = w.db
  files : ∀ name ∉ L, s.state.files name = w.files name
  issued : ∀ u ∈ w.issued.map Prod.snd, u ∈ s.state.issued.map Prod.snd
  uncommitted : ¬ s.Did AppliesChange

lemma settled_around (w : World) (L : List FileName) : Settled (Around w L) := by
  intro s s' h hs
  refine ⟨hs.db.trans h.db, fun name hn => ?_, fun u hu => hs.issued u (h.issued u hu), ?_⟩
  · rw [hs.files, h.files name hn]
  · rw [hs.applies]
    exact h.uncommitted

lemma settled_not_removes : Settled fun s => ¬ s.Did RemovesStored := fun _ _ h hs =>
  mt hs.removes.mp h

lemma Around.mono {L L' : List FileName} (h : Around w L s) (hL : L ⊆ L') : Around w L' s :=
  ⟨h.db, fun name hn => h.files name fun hm => hn (hL hm), h.issued, h.uncommitted⟩

lemma Around.next {L L' : List FileName} (h : Around w L s) {w' : World} {e : Eff} {c : Choice}
    {r : Except Exn e.Resp} (hdb : w'.db = s.state.db) (hissued : w'.issued = s.state.issued)
    (hfiles : ∀ name ∉ L', w'.files name = s.state.files name) (hL : L ⊆ L')
    (he : ¬ AppliesChange e c) : Around w L' (s.next q e c r w') where
  db := hdb.trans h.db
  files name hn := (hfiles name hn).trans (h.files name fun hm => hn (hL hm))
  issued u hu := by
    have hu' := h.issued u hu
    rwa [← hissued] at hu'
  uncommitted := mt (Logged.did_next_of_not he).mp h.uncommitted

lemma setFile_of_ne {w : World} {name name' : FileName} {content : Option Bytes} (hne : name' ≠ name) :
    (w.setFile name content).files name' = w.files name' := by simp [World.setFile, hne]

lemma setFile_self {w : World} {name : FileName} {content : Option Bytes} :
    (w.setFile name content).files name = content := by simp [World.setFile]

lemma Around.restore {L : List FileName} {name : FileName} (h : Around w (name :: L) s)
    (hn : s.state.files name = w.files name) : Around w L s where
  db := h.db
  files n hm := by
    by_cases he : n = name
    · rw [he, hn]
    · exact h.files n (by simp [he, hm])
  issued := h.issued
  uncommitted := h.uncommitted

/-- Nothing was committed, and what is left over is new files, none when deletions succeed. -/
def Undone (F : Faults) (w : World) (s : LoggedWorld) : Prop :=
  ∃ L, Around w L s ∧ (∀ name ∈ L, Fresh w name) ∧ (DeletionsSucceed F → L = [])

lemma Around.undone (h : Around w [] s) : Undone F w s := ⟨[], h, by simp, fun _ => rfl⟩

/-- What an `unlink` does. -/
lemma exec_unlink {name : FileName} {c : Choice} {r : Except Exn Unit} {w w' : World}
    (hx : (machine F).exec q (.unlink name) c w = some (r, w')) :
    c.fault = .none ∧ r = .ok () ∧ w' = w.setFile name none ∨
      ¬ DeletionsSucceed F ∧ c.fault ≠ .none ∧ r = .error .os ∧ w' = w := by
  simp only [machine] at hx
  split at hx
  · next hc =>
    cases hx
    exact Or.inl ⟨hc, rfl, rfl⟩
  · next hc =>
    split at hx
    · next hf =>
      cases hx
      exact Or.inr ⟨fun hd => absurd (hd name) (by simp [hf]), by simp [hc], rfl, rfl⟩
    · cases hx
  · cases hx

lemma not_applies {e : Eff} (he : ∀ ws, e ≠ .commit ws) {c : Choice} : ¬ AppliesChange e c :=
  fun ⟨_, ws, _, h⟩ => he ws h

lemma Around.unlink {L : List FileName} {name : FileName} (h : Around w (name :: L) s)
    (hn : w.files name = none) {c : Choice} {r : Except Exn Unit} :
    Around w L (s.next q (.unlink name) c r (s.state.setFile name none)) := by
  refine Around.restore (h.next rfl rfl (fun n hm => ?_) (List.Subset.refl _) (not_applies (by simp))) ?_
  · exact setFile_of_ne fun he => hm (he ▸ List.mem_cons_self)
  · exact setFile_self.trans hn.symm

section Candidate

variable {σ : Type}

/-- The candidate `u` has these bytes, and nothing else has changed. -/
structure Writing (w : World) (u : Uuid) (content : Bytes) (s : LoggedWorld) : Prop where
  around : Around w [.candidate u] s
  keeps : ¬ s.Did RemovesStored
  fresh : w.files (.candidate u) = none
  content : s.state.files (.candidate u) = some content

lemma settled_writing (w : World) (u : Uuid) (content : Bytes) : Settled (Writing w u content) :=
  fun s s' h hs => ⟨settled_around _ _ s s' h.around hs, settled_not_removes s s' h.keeps hs, h.fresh,
    (congrFun hs.files _).trans h.content⟩

lemma ends_copyChunks {u : Uuid} (source : Source) : ∀ written : Bytes, written.length ≤ maxCsvBytes →
    Ends F q (fun (_ : σ) => Writing w u written) (copyChunks u source written)
      (fun out _ s => Writing w u out s ∧ out.length ≤ maxCsvBytes)
      fun _ s => Around w [.candidate u] s ∧ w.files (.candidate u) = none := by
  induction source with
  | nil => exact fun written hlen => Op.Alone.pure fun _ _ hp => ⟨hp, hlen⟩
  | cons chunk source ih =>
    intro written hlen
    rcases chunk with _ | _ | ⟨byte, chunk⟩
    · exact Op.Alone.raise fun _ _ hp => ⟨hp.around, hp.fresh⟩
    · exact Op.Alone.pure fun _ _ hp => ⟨hp, hlen⟩
    · rw [copyChunks]
      split
      · exact Op.Alone.raise fun _ _ hp => ⟨hp.around, hp.fresh⟩
      · next hle =>
        refine Op.Alone.bind (B := fun _ _ => Writing w u (written ++ byte :: chunk)) ?_
          fun _ => ih _ (by rw [List.length_append]; omega)
        refine ends_perform fun v s c r w' hp hx => ?_
        have he : ¬ AppliesChange (.write u (byte :: chunk)) c := not_applies (by simp)
        rcases exec_cases (by simp) hx with ⟨-, rfl, rfl⟩ | hx
        · refine ⟨fun _ hr => (by cases hr), fun _ _ => ⟨?_, hp.fresh⟩⟩
          exact hp.around.next rfl rfl (fun _ _ => rfl) (List.Subset.refl _) he
        · cases hx
          refine ⟨fun _ _ => ⟨?_, ?_, hp.fresh, ?_⟩, fun _ hr => by cases hr⟩
          · refine hp.around.next rfl rfl (fun n hm => ?_) (List.Subset.refl _) he
            exact setFile_of_ne fun hn => hm (hn ▸ List.mem_cons_self)
          · have hr : ¬ RemovesStored (.write u (byte :: chunk)) c := by simp [RemovesStored]
            exact mt (Logged.did_next_of_not hr).mp hp.keeps
          · refine setFile_self.trans ?_
            rw [hp.content]
            rfl

/-- What the code knows of a written candidate. -/
def Written (w : World) (candidate : CandidateFile) (content : Bytes) (s : LoggedWorld) : Prop :=
  Writing w candidate.uuid content s ∧ content.length ≤ maxCsvBytes ∧
    candidate.size_bytes = content.length ∧ candidate.content_sha256 = sha256 content

lemma ends_writeCandidate (source : Source) :
    Ends F q (fun (_ : σ) s => Around w [] s ∧ ¬ s.Did RemovesStored) (writeCandidate source)
      (fun c _ s => ∃ content, Written w c content s) fun _ => Undone F w := by
  have hstart : Settled fun s => Around w [] s ∧ ¬ s.Did RemovesStored :=
    (settled_around w []).and settled_not_removes
  refine Op.Alone.bind (ends_skip rfl (fun _ => hstart) fun _ _ hp => hp.1.undone) fun u => ?_
  refine Op.Alone.bind (B := fun _ _ => Writing w u []) ?_ fun _ => ?_
  · -- the candidate is created empty, or nothing happens
    refine ends_perform fun v s c r w' hp hx => ?_
    have he : ¬ AppliesChange (.create u) c := not_applies (by simp)
    have hsame : ∀ r', Undone F w (s.next q (.create u) c r' s.state) := fun r' =>
      (hp.1.next rfl rfl (fun _ _ => rfl) (List.Subset.refl _) he).undone
    rcases exec_cases (by simp) hx with ⟨-, rfl, rfl⟩ | hx
    · exact ⟨fun _ hr => (by cases hr), fun _ _ => hsame _⟩
    · simp only [World.perform] at hx
      split at hx <;> cases hx
      · exact ⟨fun _ hr => (by cases hr), fun _ _ => hsame _⟩
      · next hnone =>
        have hfresh : w.files (.candidate u) = none := (hp.1.files _ List.not_mem_nil).symm.trans hnone
        refine ⟨fun _ _ => ⟨?_, ?_, hfresh, setFile_self⟩, fun _ hr => by cases hr⟩
        · refine hp.1.next rfl rfl (fun n hm => ?_) (List.nil_subset _) he
          exact setFile_of_ne fun hn => hm (hn ▸ List.mem_cons_self)
        · have hr : ¬ RemovesStored (.create u) c := by simp [RemovesStored]
          exact mt (Logged.did_next_of_not hr).mp hp.2
  refine Op.Alone.bind
    (B := fun out _ s => Writing w u out s ∧ out.length ≤ maxCsvBytes) ?_ fun out => ?_
  · refine (ends_copyChunks source [] (Nat.zero_le _)).catching fun x => ?_
    refine Op.Alone.bind (B := fun _ _ => Undone F w) (ends_perform fun v s c r w' hp hx => ?_)
      fun _ => Op.Alone.raise fun _ _ hp => hp
    rcases exec_unlink hx with ⟨-, rfl, rfl⟩ | ⟨hd, -, rfl, rfl⟩
    · exact ⟨fun _ _ => (hp.1.unlink hp.2).undone, fun _ hr => by cases hr⟩
    · refine ⟨fun _ hr => (by cases hr), fun _ _ => ⟨[.candidate u], ?_, ?_, fun hd' => absurd hd' hd⟩⟩
      · exact hp.1.next rfl rfl (fun _ _ => rfl) (List.Subset.refl _) (not_applies (by simp))
      · exact List.forall_mem_singleton.mpr hp.2
  · exact Op.Alone.pure fun _ s hp => ⟨out, hp.1, hp.2, rfl, rfl⟩

end Candidate

/-! ### After the commit -/

/-- The row of `d` has the new upload `u`, whose file is complete, and the files of `w` are there. -/
structure Replaced (w : World) (f : Fault) (d : Dataset) (u : UploadColumns) (now : Time)
    (s : LoggedWorld) : Prop where
  mem : d ∈ w.db.datasets
  fresh : u.storage_key.uuid ∉ w.issued.map Prod.snd
  db : s.state.db = { w.db with datasets := w.db.datasets.put (withUpload d u now) }
  backed : Backed s.state u
  others : ∀ key, key.uuid ∈ w.issued.map Prod.snd →
    s.state.files (.stored key) = w.files (.stored key)
  applies : s.Did AppliesChange
  loses : s.Did LosesChange ↔ f = .lostAcknowledgement
  keeps : ¬ s.Did RemovesStored

/-- The files of the rows are complete, unless the commit was lost and the new file removed. -/
def Accounted (w : World) (s : LoggedWorld) : Prop :=
  AllBacked w → KeysDistinct w →
    (AllBacked s.state ↔ ¬ (s.Did LosesChange ∧ s.Did RemovesStored))

def Ended (F : Faults) (w : World) (s : LoggedWorld) : Prop :=
  Undone F w s ∨ s.Did AppliesChange ∧ Accounted w s

section Replaced

variable {f : Fault} {d : Dataset} {u : UploadColumns} {now : Time}

lemma settled_replaced : Settled (Replaced w f d u now) := by
  intro s s' h hs
  refine ⟨h.mem, h.fresh, hs.db.trans h.db, ?_, fun key hk => ?_, hs.applies.mpr h.applies,
    hs.loses.trans h.loses, mt hs.removes.mp h.keeps⟩
  · rw [Backed, hs.files]
    exact h.backed
  · rw [hs.files, h.others key hk]

lemma Replaced.unlinkCandidate (h : Replaced w f d u now s) {v : Uuid} {c : Choice} {r : Except Exn Unit}
    {w' : World} (hfiles : ∀ key, w'.files (.stored key) = s.state.files (.stored key))
    (hdb : w'.db = s.state.db) :
    Replaced w f d u now (s.next q (.unlink (.candidate v)) c r w') := by
  have ha : ¬ AppliesChange (.unlink (.candidate v)) c := not_applies (by simp)
  have hl : ¬ LosesChange (.unlink (.candidate v)) c := fun hl => ha hl.applies
  have hr : ¬ RemovesStored (.unlink (.candidate v)) c := by simp [RemovesStored]
  refine ⟨h.mem, h.fresh, hdb.trans h.db, ?_, fun key hk => (hfiles key).trans (h.others key hk), ?_, ?_, ?_⟩
  · have hb := h.backed
    rw [Backed, ← hfiles] at hb
    exact hb
  · exact (Logged.did_next_of_not ha).mpr h.applies
  · exact (Logged.did_next_of_not hl).trans h.loses
  · exact mt (Logged.did_next_of_not hr).mp h.keeps

/-- Rows that are complete before stay complete as long as their files are there. -/
lemma Replaced.allBacked (h : Replaced w f d u now s) (hw : KeysDrawn w) (hb : AllBacked w) {w' : World}
    (hdb : w'.db = s.state.db)
    (hnew : w'.files (.stored u.storage_key) = s.state.files (.stored u.storage_key))
    (hold : ∀ d' ∈ w.db.datasets, d'.id ≠ d.id → ∀ u', d'.upload = some u' →
      w'.files (.stored u'.storage_key) = s.state.files (.stored u'.storage_key)) : AllBacked w' := by
  intro d' hd' u' hu'
  rw [hdb, h.db] at hd'
  rcases Table.mem_put.mp hd' with rfl | ⟨hd', hid⟩
  · obtain rfl : u = u' := Option.some.inj hu'
    rw [Backed, hnew]
    exact h.backed
  · have hb' := hb d' hd' u' hu'
    obtain ⟨content, hc, hrest⟩ := hb'
    have hdrawn : u'.storage_key.uuid ∈ w.issued.map Prod.snd := hw _ (by rw [hc]; exact Option.some_ne_none _)
    exact ⟨content, by rw [hold d' hd' hid u' hu', h.others _ hdrawn, hc], hrest⟩

lemma Replaced.ended (h : Replaced w f d u now s) (hw : KeysDrawn w) : Ended F w s := by
  refine Or.inr ⟨h.applies, fun hb _ => iff_of_true ?_ fun hlr => h.keeps hlr.2⟩
  exact h.allBacked hw hb rfl rfl fun _ _ _ _ _ => rfl

lemma Replaced.removeOld (h : Replaced w .none d u now s) (hw : KeysDrawn w) {old : UploadColumns}
    (hold : d.upload = some old) (hne : old.storage_key ≠ u.storage_key) {c : Choice}
    {r : Except Exn Unit} : Ended F w (s.next q (.unlink (.stored old.storage_key)) c r
      (s.state.setFile (.stored old.storage_key) none)) := by
  have ha : ¬ LosesChange (.unlink (.stored old.storage_key)) c :=
    fun hl => not_applies (by simp) hl.applies
  have hl : ¬ s.Did LosesChange := fun hl => nomatch h.loses.mp hl
  refine Or.inr ⟨Logged.did_next.mpr (Or.inr h.applies), fun hb hk => iff_of_true ?_ ?_⟩
  · refine h.allBacked hw hb rfl (setFile_of_ne (by simpa using hne.symm)) fun d' hd' hid u' hu' => ?_
    refine setFile_of_ne fun he => hid ?_
    rw [hk d' hd' d h.mem u' old hu' hold (FileName.stored.inj he)]
  · exact fun hlr => hl ((Logged.did_next_of_not ha).mp hlr.1)

/-- The file of a commit that raised is removed: its row has no file. -/
lemma Replaced.removeNew (h : Replaced w .lostAcknowledgement d u now s) {c : Choice}
    (hc : c.fault = .none) {r : Except Exn Unit} :
    Ended F w (s.next q (.unlink (.stored u.storage_key)) c r
      (s.state.setFile (.stored u.storage_key) none)) := by
  refine Or.inr ⟨Logged.did_next.mpr (Or.inr h.applies), fun _ _ => iff_of_false (fun hb => ?_) ?_⟩
  · have hmem : withUpload d u now ∈ (s.state.setFile (.stored u.storage_key) none).db.datasets := by
      show _ ∈ s.state.db.datasets
      rw [h.db]
      exact Table.mem_put.mpr (Or.inl rfl)
    obtain ⟨content, hcontent, -⟩ := hb _ hmem u rfl
    cases setFile_self.symm.trans hcontent
  · rw [not_not]
    exact ⟨Logged.did_next.mpr (Or.inr (h.loses.mpr rfl)), Logged.did_next.mpr (Or.inl ⟨hc, _, rfl⟩)⟩

end Replaced

/-! ### The transaction -/

/-- What the `except BaseException` of an upload finds: nothing was committed, or the session raised
after the commit, or the commit itself did. -/
def Interrupted (w : World) (candidate : Uuid) (v : UploadLocals) (s : LoggedWorld) : Prop :=
  (v.committed = false ∧ (∀ key, v.installed_key = some key → Fresh w (.stored key)) ∧
      w.files (.candidate candidate) = none ∧
      Around w (.candidate candidate :: (v.installed_key.map FileName.stored).toList) s) ∨
    (v.committed = true ∧ ∃ d u now, Replaced w .none d u now s) ∨
    v.committed = false ∧ ∃ d u now, v.installed_key = some u.storage_key ∧
      Replaced w .lostAcknowledgement d u now s

lemma settled_interrupted (candidate : Uuid) (v : UploadLocals) : Settled (Interrupted w candidate v) := by
  refine ((Settled.const _).and ((Settled.const _).and ((Settled.const _).and (settled_around _ _)))).or
    (((Settled.const _).and ?_).or ((Settled.const _).and ?_))
  · exact .exists fun _ => .exists fun _ => .exists fun _ => settled_replaced
  · exact .exists fun _ => .exists fun _ => .exists fun _ => (Settled.const _).and settled_replaced

/-- The candidate is written, and no key is chosen yet. -/
def Scanned (w : World) (candidate : CandidateFile) (content : Bytes) (v : UploadLocals)
    (s : LoggedWorld) : Prop := v = ⟨none, false⟩ ∧ Written w candidate content s

lemma settled_scanned (candidate : CandidateFile) (content : Bytes) (v : UploadLocals) :
    Settled (Scanned w candidate content v) :=
  (Settled.const _).and ((settled_writing _ _ _).and (Settled.const _))

lemma Scanned.interrupted {candidate : CandidateFile} {content : Bytes} {v : UploadLocals}
    (h : Scanned w candidate content v s) : Interrupted w candidate.uuid v s := by
  obtain ⟨rfl, hw, -⟩ := h
  exact Or.inl ⟨rfl, fun key hk => (nomatch hk), hw.fresh, hw.around⟩

/-- The file is under its key, and the row is the one that was read. -/
structure InPlace (w : World) (candidate : CandidateFile) (content : Bytes) (key : StorageKey)
    (v : UploadLocals) (s : LoggedWorld) : Prop where
  locals : v = ⟨some key, false⟩
  fresh : w.files (.candidate candidate.uuid) = none
  around : Around w [.candidate candidate.uuid, .stored key] s
  keeps : ¬ s.Did RemovesStored
  content : s.state.files (.stored key) = some content

lemma settled_inPlace {candidate : CandidateFile} {content : Bytes} {key : StorageKey} {v : UploadLocals} :
    Settled (InPlace w candidate content key v) := fun s s' h hs =>
  ⟨h.locals, h.fresh, settled_around _ _ s s' h.around hs, settled_not_removes s s' h.keeps hs,
    (congrFun hs.files _).trans h.content⟩

lemma InPlace.interrupted {candidate : CandidateFile} {content : Bytes} {key : StorageKey}
    {v : UploadLocals} (h : InPlace w candidate content key v s) (hk : Fresh w (.stored key)) :
    Interrupted w candidate.uuid v s := by
  obtain ⟨rfl, hf, ha, -, -⟩ := h
  exact Or.inl ⟨rfl, fun key' he => by cases he; exact hk, hf, ha⟩

lemma ends_install {candidate : CandidateFile} {content : Bytes} {key : StorageKey}
    (hk : Fresh w (.stored key)) :
    Ends F q (fun v s => v = ⟨some key, false⟩ ∧ Written w candidate content s) (install candidate key)
      (fun _ => InPlace w candidate content key) (Interrupted w candidate.uuid) := by
  refine Op.Alone.bind (B := fun _ => InPlace w candidate content key) ?_ fun _ => ?_
  · refine ends_perform fun v s c r w' hp hx => ?_
    obtain ⟨rfl, hw, -⟩ := hp
    have he : ¬ AppliesChange (.replace candidate.uuid key) c := not_applies (by simp)
    rcases exec_cases (by simp) hx with ⟨-, rfl, rfl⟩ | hx
    · refine ⟨fun _ hr => (by cases hr), fun _ _ => Or.inl ⟨rfl, fun key' hk' => ?_, hw.fresh, ?_⟩⟩
      · cases hk'
        exact hk
      · exact hw.around.next rfl rfl (fun _ _ => rfl) (by simp) he
    · simp only [World.perform, hw.content] at hx
      cases hx
      refine ⟨fun _ _ => ⟨rfl, hw.fresh, ?_, ?_, ?_⟩, fun _ hr => by cases hr⟩
      · refine hw.around.next rfl rfl (fun n hm => ?_) (by simp) he
        obtain ⟨h₁, h₂⟩ : n ≠ .candidate candidate.uuid ∧ n ≠ .stored key := by simpa using hm
        exact (setFile_of_ne h₁).trans (setFile_of_ne h₂)
      · have hr : ¬ RemovesStored (.replace candidate.uuid key) c := by simp [RemovesStored]
        exact mt (Logged.did_next_of_not hr).mp hw.keeps
      · exact (setFile_of_ne (by simp)).trans setFile_self
  · exact ends_skip rfl (fun _ => settled_inPlace) fun _ _ hp => hp.interrupted hk

/-- What the transaction leaves to commit. -/
def Ready (w : World) (candidate : CandidateFile) (content : Bytes) (key : StorageKey)
    (out : (DatasetReference × Option StorageKey) × List Write) (v : UploadLocals) (s : LoggedWorld) : Prop :=
  InPlace w candidate content key v s ∧ Fresh w (.stored key) ∧ ∃ d ∈ w.db.datasets, ∃ u now,
    out.1.2 = d.upload.map UploadColumns.storage_key ∧ out.2 = [.updateUpload d.id u now] ∧
      u.storage_key = key ∧ content.length = u.size_bytes ∧ u.size_bytes ≤ maxCsvBytes ∧
      sha256 content = u.content_sha256 ∧ scanCsv content = .ok ⟨u.row_count, u.column_names⟩

lemma ends_replaceUpload {owner_id dataset_id : Uuid} {filename : PyStr} {candidate : CandidateFile}
    {content : Bytes} {structure_ : CsvStructure} {now : Time} {key : StorageKey}
    (hscan : scanCsv content = .ok structure_) (hk : Fresh w (.stored key)) :
    Ends F q (Scanned w candidate content)
      (replaceUpload owner_id dataset_id filename candidate structure_ now key)
      (Ready w candidate content key) (Interrupted w candidate.uuid) := by
  refine Op.Alone.bind (B := fun d v s => Scanned w candidate content v s ∧
    ∀ d', d = some d' → d' ∈ w.db.datasets) ?_ fun d => ?_
  · refine ends_still rfl (fun a v s s' c hp hs hx => ⟨settled_scanned _ _ v s s' hp hs, ?_⟩)
      fun v s s' hp hs => settled_interrupted _ v s s' hp.interrupted hs
    rintro d' rfl
    have hdb : s.state.db = w.db := hp.2.1.around.db
    simp only [World.perform] at hx
    split at hx
    · cases hx
    · next d₀ hd =>
      split at hx
      · obtain rfl : d₀ = d' := Option.some.inj (Except.ok.inj (congrArg Prod.fst (Option.some.inj hx)))
        rw [← hdb]
        exact (ownedDataset_eq_some.mp hd).1
      · cases hx
  cases d with
  | none => exact Op.Alone.raise fun _ _ hp => hp.1.interrupted
  | some d =>
    refine Op.Alone.assume (φ := d ∈ w.db.datasets) (fun _ _ hp => hp.2 d rfl) fun hd => ?_
    refine Op.Alone.bind (B := fun _ => Scanned w candidate content) ?_ fun columns => ?_
    · exact (ends_skip rfl (settled_scanned _ _) fun _ _ hp => hp.interrupted).pre fun _ _ hp => hp.1
    · split
      · exact Op.Alone.raise fun _ _ hp => hp.interrupted
      refine Op.Alone.bind (B := fun _ v s => v = ⟨some key, false⟩ ∧ Written w candidate content s) ?_
        fun _ => ?_
      · exact Op.Alone.assign fun v s hp => ⟨by rw [hp.1], hp.2⟩
      refine Op.Alone.assume (φ := content.length ≤ maxCsvBytes ∧ candidate.size_bytes = content.length ∧
        candidate.content_sha256 = sha256 content) (fun _ _ hp => hp.2.2) fun hcand => ?_
      refine Op.Alone.bind (ends_install hk) fun _ => ?_
      refine Op.Alone.bind (ends_onupdate (fun _ => settled_inPlace) fun _ _ hp => hp.interrupted hk)
        fun updated_at => ?_
      refine Op.Alone.bind (B := fun _ => InPlace w candidate content key) ?_ fun _ => ?_
      · exact ends_skip rfl (fun _ => settled_inPlace) fun _ _ hp => hp.interrupted hk
      · refine Op.Alone.pure fun v s hp => ⟨hp, hk, d, hd, _, updated_at, rfl, rfl, rfl, ?_⟩
        exact ⟨hcand.2.1.symm, hcand.2.1.trans_le hcand.1, hcand.2.2.symm, hscan⟩

/-- The commit of what is ready: with an acknowledgement (`f` is `none`) or without. -/
lemma Ready.replaced {candidate : CandidateFile} {content : Bytes} {key : StorageKey}
    {out : (DatasetReference × Option StorageKey) × List Write} {v : UploadLocals}
    (h : Ready w candidate content key out v s) {c : Choice} (hc : c.fault ≠ .fails) {r : Except Exn Unit} :
    ∃ d u now, out.1.2 = d.upload.map UploadColumns.storage_key ∧ u.storage_key = key ∧
      Replaced w c.fault d u now (s.next q (.commit out.2) c r ((s.state.apply out.2).unlock q)) := by
  obtain ⟨hp, hk, d, hd, u, now, hold, hws, rfl, hup⟩ := h
  have hdb : s.state.db = w.db := hp.around.db
  have hne : out.2 ≠ [] := by simp [hws]
  have ha : AppliesChange (.commit out.2) c := ⟨hc, out.2, hne, rfl⟩
  have hr : ¬ RemovesStored (.commit out.2) c := by simp [RemovesStored]
  have hl : ¬ s.Did LosesChange := not_did_loses hp.around.uncommitted
  refine ⟨d, u, now, hold, rfl, hd, hk, ?_, ⟨content, hp.content, hup⟩, fun key hkey => ?_,
    Logged.did_next.mpr (Or.inl ha), ?_, mt (Logged.did_next_of_not hr).mp hp.keeps⟩
  · show s.state.db.applyAll out.2 = _
    rw [hdb, hws, apply_updateUpload hd]
  · refine hp.around.files _ ?_
    have hneq : key ≠ u.storage_key := fun he => hk (he ▸ hkey)
    simp [hneq]
  · refine Logged.did_next.trans ⟨fun h => (h.resolve_right hl).1, fun h => Or.inl ⟨h, out.2, hne, rfl⟩⟩

lemma ends_installUpload {owner_id dataset_id : Uuid} {filename : PyStr} {candidate : CandidateFile}
    {content : Bytes} :
    Ends F q (Scanned w candidate content) (installUpload owner_id dataset_id filename candidate)
      (fun out _ s => ∃ d u now, out.2.1 = d.upload.map UploadColumns.storage_key ∧
        u.storage_key = out.2.2 ∧ Replaced w .none d u now s) (Interrupted w candidate.uuid) := by
  have hset := settled_scanned (w := w) candidate content
  have hint : ∀ v s s', Scanned w candidate content v s → Unmoved s s' →
      Interrupted w candidate.uuid v s' := fun v s s' hp hs =>
    settled_interrupted _ v s s' hp.interrupted hs
  refine Op.Alone.bind (B := fun structure_ v s => Scanned w candidate content v s ∧
    scanCsv content = .ok structure_) ?_ fun structure_ => ?_
  · -- the scan reads the candidate's own bytes
    refine Op.Alone.bind (B := fun read v s => Scanned w candidate content v s ∧ read = content) ?_
      fun read => ?_
    · refine ends_still rfl (fun a v s s' c hp hs hx => ⟨hset v s s' hp hs, ?_⟩) hint
      simp only [World.perform, hp.2.1.content] at hx
      exact (Except.ok.inj (congrArg Prod.fst (Option.some.inj hx))).symm
    · refine Op.Alone.ofExcept (fun a v s hr hp => ⟨hp.1, ?_⟩) fun _ v s _ hp => hp.1.interrupted
      obtain ⟨-, rfl⟩ := hp
      cases hs : scanCsv read with
      | error x => rw [hs] at hr; cases hr
      | ok a' => rw [hs] at hr; cases hr; rfl
  refine Op.Alone.assume (φ := scanCsv content = .ok structure_) (fun _ _ hp => hp.2) fun hscan => ?_
  refine Op.Alone.bind (B := fun _ => Scanned w candidate content) ?_ fun now => ?_
  · exact (ends_skip rfl hset fun v s hp => hp.interrupted).pre fun _ _ hp => hp.1
  refine Op.Alone.bind (B := fun key v s => Scanned w candidate content v s ∧ Fresh w (.stored key)) ?_
    fun key => ?_
  · refine Op.Alone.bind (B := fun u v s => Scanned w candidate content v s ∧ Fresh w (.stored ⟨u⟩)) ?_
      fun u => Op.Alone.pure fun _ _ hp => hp
    refine ends_still rfl (fun u v s s' c hp hs hx => ⟨hset v s s' hp hs, fun hm => ?_⟩) hint
    have hm' := hp.2.1.around.issued _ hm
    simp only [World.perform] at hx
    split at hx
    · cases hx
    · next hu =>
      obtain rfl : c.uuid = u := Except.ok.inj (congrArg Prod.fst (Option.some.inj hx))
      exact hu hm'
  refine Op.Alone.assume (φ := Fresh w (.stored key)) (fun _ _ hp => hp.2) fun hk => ?_
  have hzs : ∀ v, Settled (Interrupted w candidate.uuid v) := settled_interrupted candidate.uuid
  refine Op.Alone.bind (B := fun out v s => v.committed = true ∧ ∃ d u now,
    out.2 = d.upload.map UploadColumns.storage_key ∧ u.storage_key = key ∧ Replaced w .none d u now s) ?_
    fun out => ?_
  · refine (ends_session (Op.Alone.bind (B := fun out v s => v = ⟨some key, false⟩ ∧ ∃ d u now,
      out.2 = d.upload.map UploadColumns.storage_key ∧ u.storage_key = key ∧ Replaced w .none d u now s)
      ?_ fun out => ?_) (fun out v => ?_) hzs fun out v s hq => ?_).pre fun v s hp => hp.1
    · refine ends_begin (ends_replaceUpload hscan hk) hzs (fun a ws v s hb => hb.1.interrupted hk)
        (fun a ws v s c hb hc => ?_) fun a ws v s c hb hc => ?_
      · obtain ⟨d, u, now', hold, hu, hrep⟩ := hb.replaced (q := q) (c := c) (r := .ok ()) (by simp [hc])
        rw [hc] at hrep
        exact ⟨hb.1.locals, d, u, now', hold, hu, hrep⟩
      · obtain ⟨d, u, now', hold, hu, hrep⟩ := hb.replaced (q := q) (c := c)
          (r := .error (.database .operational)) (by simp [hc])
        rw [hc] at hrep
        refine Or.inr (Or.inr ⟨by rw [hb.1.locals], d, u, now', ?_, hrep⟩)
        rw [hb.1.locals, hu]
    · exact (Op.Alone.assign fun v s hp => ⟨rfl, hp.2⟩).bind fun _ => Op.Alone.pure fun _ _ hq => hq
    · refine (Settled.const _).and ?_
      exact .exists fun _ => .exists fun _ => .exists fun _ =>
        (Settled.const _).and ((Settled.const _).and settled_replaced)
    · obtain ⟨hv, d, u, now', -, -, hrep⟩ := hq
      exact Or.inr (Or.inl ⟨hv, d, u, now', hrep⟩)
  · exact Op.Alone.pure fun v s hp => hp.2

/-! ### The whole call -/

variable {σ : Type}

/-- `storage.remove`, and an `OSError` is passed over. -/
lemma ends_removeQuietly {key : StorageKey} {P : σ → LoggedWorld → Prop} {Q : LoggedWorld → Prop}
    (hok : ∀ v s c r, P v s → c.fault = .none →
      Q (s.next q (.unlink (.stored key)) c r (s.state.setFile (.stored key) none)))
    (hos : ∀ v s c r, P v s → c.fault ≠ .none → ¬ DeletionsSucceed F →
      Q (s.next q (.unlink (.stored key)) c r s.state)) :
    Ends F q P (removeQuietly key) (fun _ _ => Q) fun _ => Q := by
  refine Op.Alone.catching (Y := fun _ _ => Q) (ends_perform fun v s c r w' hp hx => ?_) fun x => ?_
  · rcases exec_unlink hx with ⟨hc, rfl, rfl⟩ | ⟨hd, hc, rfl, rfl⟩
    · exact ⟨fun _ _ => hok v s c _ hp hc, fun _ hr => (nomatch hr)⟩
    · exact ⟨fun _ hr => (nomatch hr), fun _ _ => hos v s c _ hp hc hd⟩
  · split
    · exact Op.Alone.pure fun _ _ hq => hq
    · exact Op.Alone.raise fun _ _ hq => hq

lemma not_removes_of_fault {e : Eff} {c : Choice} (hc : c.fault ≠ .none) : ¬ RemovesStored e c :=
  fun h => hc h.1

section Whole

variable (hw : KeysDrawn w)
include hw

lemma ends_removeInstalled {v : UploadLocals} :
    Ends F q (fun (_ : σ) s => (v.committed = false ∧ (∀ key, v.installed_key = some key → Fresh w (.stored key)) ∧
        Around w (v.installed_key.map FileName.stored).toList s) ∨
      (v.committed = true ∧ ∃ d u now, Replaced w .none d u now s) ∨
      v.committed = false ∧ ∃ d u now, v.installed_key = some u.storage_key ∧
        Replaced w .lostAcknowledgement d u now s) (removeInstalled v)
      (fun _ _ => Ended F w) fun _ => Ended F w := by
  obtain ⟨installed, committed⟩ := v
  have hdone : ∀ s, (∃ d u now, Replaced w .none d u now s) → Ended F w s :=
    fun s ⟨d, u, now, h⟩ => h.ended hw
  cases installed with
  | none =>
    refine Op.Alone.pure fun _ s hp => ?_
    rcases hp with ⟨-, -, ha⟩ | ⟨-, h⟩ | ⟨-, d, u, now, h, -⟩
    · exact Or.inl ha.undone
    · exact hdone s h
    · cases h
  | some key =>
    cases committed with
    | true =>
      refine Op.Alone.pure fun _ s hp => ?_
      rcases hp with ⟨h, -⟩ | ⟨-, h⟩ | ⟨h, -⟩
      · cases h
      · exact hdone s h
      · cases h
    | false =>
      refine ends_removeQuietly (fun _ s c r hp hc => ?_) fun _ s c r hp hc hd => ?_
      · rcases hp with ⟨-, hk, ha⟩ | ⟨h, -⟩ | ⟨-, d, u, now, h, hr⟩
        · exact Or.inl (ha.unlink ((hk key rfl).absent hw)).undone
        · cases h
        · cases h
          exact hr.removeNew hc
      · rcases hp with ⟨-, hk, ha⟩ | ⟨h, -⟩ | ⟨-, d, u, now, h, hr⟩
        · refine Or.inl ⟨[.stored key], ?_, List.forall_mem_singleton.mpr (hk key rfl),
            fun hd' => absurd hd' hd⟩
          exact ha.next rfl rfl (fun _ _ => rfl) (List.Subset.refl _) (not_applies (by simp))
        · cases h
        · have hmoved : Unmoved s (s.next q (.unlink (.stored key)) c r s.state) :=
            unmoved_next rfl rfl (fun _ hu => hu) (not_applies (by simp)) (not_removes_of_fault hc)
          exact (settled_replaced s _ hr hmoved).ended hw

/-- **The `except BaseException`** undoes what was not committed. -/
lemma ends_compensate {candidate : CandidateFile} {v : UploadLocals} {x : Exn} :
    Ends F q (fun (_ : σ) => Interrupted w candidate.uuid v) (compensate candidate v x)
      (fun _ _ => Ended F w) fun _ => Ended F w := by
  refine Op.Alone.bind (ends_perform fun _ s c r w' hp hx => ?_) fun _ =>
    (ends_removeInstalled hw).bind fun _ => Op.Alone.raise fun _ _ hp => hp
  rcases exec_unlink hx with ⟨-, rfl, rfl⟩ | ⟨hd, -, rfl, rfl⟩
  · refine ⟨fun _ _ => ?_, fun _ hr => (nomatch hr)⟩
    have hfiles : ∀ key, (s.state.setFile (.candidate candidate.uuid) none).files (.stored key) =
        s.state.files (.stored key) := fun key => setFile_of_ne (by simp)
    rcases hp with ⟨hv, hk, hf, ha⟩ | ⟨hv, d, u, now, h⟩ | ⟨hv, d, u, now, hk, h⟩
    · exact Or.inl ⟨hv, hk, ha.unlink hf⟩
    · exact Or.inr (Or.inl ⟨hv, d, u, now, h.unlinkCandidate hfiles rfl⟩)
    · exact Or.inr (Or.inr ⟨hv, d, u, now, hk, h.unlinkCandidate hfiles rfl⟩)
  · refine ⟨fun _ hr => (nomatch hr), fun _ _ => ?_⟩
    rcases hp with ⟨hv, hk, hf, ha⟩ | ⟨hv, d, u, now, h⟩ | ⟨hv, d, u, now, hk, h⟩
    · refine Or.inl ⟨_, ha.next rfl rfl (fun _ _ => rfl) (List.Subset.refl _) (not_applies (by simp)), ?_,
        fun hd' => absurd hd' hd⟩
      intro name hm
      rcases List.mem_cons.mp hm with rfl | hm
      · exact hf
      · obtain ⟨key, hkey, rfl⟩ := Option.map_eq_some_iff.mp (Option.mem_toList.mp hm)
        exact hk key hkey
    · exact (h.unlinkCandidate (fun _ => rfl) rfl).ended hw
    · exact (h.unlinkCandidate (fun _ => rfl) rfl).ended hw

lemma ends_removeSuperseded {d : Dataset} {u : UploadColumns} {now : Time} :
    Ends F q (fun (_ : σ) => Replaced w .none d u now)
      (removeSuperseded (d.upload.map UploadColumns.storage_key) u.storage_key)
      (fun _ _ => Ended F w) fun _ => Ended F w := by
  cases hd : d.upload with
  | none => exact Op.Alone.pure fun _ s hp => hp.ended hw
  | some old =>
    rw [Option.map_some, removeSuperseded]
    split
    · next hne =>
      refine ends_removeQuietly (fun _ s c r hp _ => hp.removeOld hw hd hne) fun _ s c r hp hc _ => ?_
      have hmoved : Unmoved s (s.next q (.unlink (.stored old.storage_key)) c r s.state) :=
        unmoved_next rfl rfl (fun _ hu => hu) (not_applies (by simp)) (not_removes_of_fault hc)
      exact (settled_replaced s _ hp hmoved).ended hw
    · exact Op.Alone.pure fun _ s hp => hp.ended hw

/-- **What an upload ends with**, wherever it fails: nothing is committed and what it made is gone, or
its row is committed and the files of all rows are accounted for. -/
theorem ends_uploadCsv (U : Unicode) {owner_id dataset_id : Uuid} {filename : Option PyStr}
    {source : Source} :
    Ends F q (fun (_ : σ) s => Around w [] s ∧ ¬ s.Did RemovesStored)
      (uploadCsv U owner_id dataset_id filename source) (fun _ _ => Ended F w) fun _ => Ended F w := by
  have hstart : Settled fun s => Around w [] s ∧ ¬ s.Did RemovesStored :=
    (settled_around w []).and settled_not_removes
  have hended : ∀ s, Around w [] s ∧ ¬ s.Did RemovesStored → Ended F w s := fun s hp => Or.inl hp.1.undone
  refine Op.Alone.bind (B := fun _ _ s => Around w [] s ∧ ¬ s.Did RemovesStored) ?_ fun safe_filename => ?_
  · exact Op.Alone.ofExcept (fun _ _ _ _ hp => hp) fun _ _ s _ hp => hended s hp
  refine Op.Alone.bind (B := fun _ _ s => Around w [] s ∧ ¬ s.Did RemovesStored) ?_ fun _ => ?_
  · refine (ends_reading ?_ (fun _ _ => hstart) (fun _ => hstart) fun _ _ _ hq => hq).post
      (fun _ _ _ hq => hq) fun _ _ s hz => hended s hz
    refine Op.Alone.bind (ends_skip rfl (fun _ => hstart) fun _ _ hp => hp) fun d => ?_
    cases d with
    | none => exact Op.Alone.raise fun _ _ hp => hp
    | some d => exact Op.Alone.pure fun _ _ hp => ⟨rfl, hp⟩
  refine Op.Alone.bind ((ends_writeCandidate source).post (fun _ _ _ hq => hq) fun _ _ s hz => Or.inl hz)
    fun candidate => ?_
  refine Op.Alone.exists_pre fun content => ?_
  refine Op.Alone.bind (B := fun out _ s => match out.1 with
    | .ok (_, old_key, new_key) => ∃ d u now, old_key = d.upload.map UploadColumns.storage_key ∧
        u.storage_key = new_key ∧ Replaced w .none d u now s
    | .error _ => Interrupted w candidate.uuid out.2 s) ?_ fun out => ?_
  · exact Op.Alone.withLocals fun _ => ends_installUpload
  · obtain ⟨outcome, v⟩ := out
    cases outcome with
    | error x => exact ends_compensate hw
    | ok result =>
      obtain ⟨result, old_key, new_key⟩ := result
      refine Op.Alone.exists_pre fun d => Op.Alone.exists_pre fun u => Op.Alone.exists_pre fun now => ?_
      refine Op.Alone.assume (φ := old_key = d.upload.map UploadColumns.storage_key ∧
        u.storage_key = new_key) (fun _ _ hp => ⟨hp.1, hp.2.1⟩) fun hkeys => ?_
      obtain ⟨rfl, rfl⟩ := hkeys
      refine Op.Alone.bind (B := fun _ _ => Ended F w) ?_ fun _ => Op.Alone.pure fun _ _ hq => hq
      exact (ends_removeSuperseded hw).pre fun _ _ hp => hp.2.2

end Whole

/-! ### The guarantees -/

variable {P : Polars} {cs cs' : List Choice} {owner_id dataset_id : Uuid} {filename : Option PyStr}
  {source : Source} {out : Except Exn Reply}

lemma around_start : Around w [] ⟨w, []⟩ ∧ ¬ (⟨w, []⟩ : LoggedWorld).Did RemovesStored :=
  ⟨⟨rfl, fun _ _ => rfl, fun _ hu => hu, Logged.not_did_start⟩, Logged.not_did_start⟩

/-- One upload by itself, from the store `w`. -/
lemma ended_upload (hw : KeysDrawn w)
    (hrun : ((Call.uploadCsv owner_id dataset_id filename source).body U P).solo (journal F) q cs ⟨w, []⟩ =
      some ((out, ()), s, cs')) : Ended F w s := by
  have hbody : Ends F q (fun (_ : Unit) s => Around w [] s ∧ ¬ s.Did RemovesStored)
      ((Call.uploadCsv owner_id dataset_id filename source).op U P) (fun _ _ => Ended F w)
      fun _ => Ended F w := (ends_uploadCsv hw U).bind fun _ => Op.Alone.pure fun _ _ hq => hq
  obtain ⟨hok, herror⟩ := hbody () ⟨w, []⟩ cs out () s cs' around_start hrun
  cases out with
  | ok a => exact hok a rfl
  | error x => exact herror x rfl

/-- **A failed upload changes nothing**: it raised, no change of its was committed, and the deletions of
the storage succeed; then rows and files are what they were. -/
theorem failed_upload_changes_nothing (hF : DeletionsSucceed F) (hw : KeysDrawn w) {x : Exn}
    (hrun : ((Call.uploadCsv owner_id dataset_id filename source).body U P).solo (journal F) q cs ⟨w, []⟩ =
      some ((.error x, ()), s, cs')) (hc : ¬ s.Did AppliesChange) :
    s.state.db = w.db ∧ s.state.files = w.files := by
  rcases ended_upload hw hrun with ⟨L, ha, -, hL⟩ | ⟨happlied, -⟩
  · obtain rfl := hL hF
    exact ⟨ha.db, funext fun name => ha.files name List.not_mem_nil⟩
  · exact absurd happlied hc

namespace Sample

/-- A dataset without an upload, and no files. -/
def created : World where
  db := { Db.empty with datasets := Table.empty.put ⟨101, 7, py "d", none, 5, 5⟩ }
  files := fun _ => none
  locks := fun _ => none
  issued := [(0, 101)]

lemma keysDrawn_created : KeysDrawn created := fun _ h => absurd rfl h

lemma keysDistinct_created : KeysDistinct created := by
  intro d hd d' hd' u u' hu
  rcases Table.mem_put.mp hd with rfl | ⟨hd, -⟩
  · cases hu
  · exact absurd hd (Table.not_mem_empty _)

lemma allBacked_created : AllBacked created := by
  intro d hd u hu
  rcases Table.mem_put.mp hd with rfl | ⟨hd, -⟩
  · cases hu
  · exact absurd hd (Table.not_mem_empty _)

/-- An upload of the sample file to the dataset. -/
def upload : Call := .uploadCsv 7 101 (some (py "f.csv")) [some content]

/-- Every effect of the upload goes well but for the `n`-th, which has the fault `f`. -/
def choices (n : ℕ) (f : Fault) : List Choice :=
  (List.range 20).map fun i => ⟨if i = n then f else .none, 5, 200 + i⟩

/-- `chmod` can fail. -/
def chmodFails : Faults := ⟨fun e => match e with | .chmod _ => true | _ => false, false⟩

/-- The log has no commit of a change. -/
def quiet (s : LoggedWorld) : Bool :=
  s.log.all fun e => match e.eff with | .commit ws => ws.isEmpty | _ => true

lemma not_applies_of_quiet {s : LoggedWorld} (h : quiet s = true) : ¬ s.Did AppliesChange := by
  rintro ⟨e, he, -, ws, hne, heff⟩
  have hq := List.all_eq_true.mp h e he
  rw [heff] at hq
  exact hne (List.isEmpty_iff.mp hq)

end Sample

/-- `chmod` fails after the rename: the installed file is removed again. -/
theorem failed_upload_changes_nothing_sample : ∃ s cs',
    (Sample.upload.body Sample.unicode Sample.polars).solo (journal Sample.chmodFails) 1
      (Sample.choices 12 .fails) ⟨Sample.created, []⟩ = some ((.error .os, ()), s, cs') ∧
    s.state.db = Sample.created.db ∧ s.state.files = Sample.created.files := by
  have hrun : ∃ s cs', (Sample.upload.body Sample.unicode Sample.polars).solo
      (journal Sample.chmodFails) 1 (Sample.choices 12 .fails) ⟨Sample.created, []⟩ =
        some ((.error .os, ()), s, cs') ∧ Sample.quiet s = true := by
    refine ⟨_, _, rfl, ?_⟩
    rfl
  obtain ⟨s, cs', hrun, hq⟩ := hrun
  exact ⟨s, cs', hrun, failed_upload_changes_nothing (fun _ => rfl) Sample.keysDrawn_created hrun
    (Sample.not_applies_of_quiet hq)⟩

/-- Where no commit loses its acknowledgement, a thread removes no file that a row names. -/
lemma unlink_not_named (hF : F.lostAcknowledgement = false) {cfg : SysConfig}
    (hr : Reach U P F anyCall cfg) (hb : AllBacked cfg.hist.now) {p : Pid} {k : Call} {h₀ : Hist World}
    {key : StorageKey} {f : Except Exn Unit → Prog Eff (fun e => Except Exn e.Resp) Outcome}
    (hp : cfg.threads p = some ⟨k, h₀, .vis (.unlink (.stored key)) f⟩) : ¬ cfg.hist.now.db.Names key := by
  have hg : SysGuar F p cfg.hist (cfg.hist.now.setFile (.stored key) none) :=
    reach_guar creates_any hr hp (c := ⟨.none, 0, 0⟩) (r := .ok ()) rfl
  intro hn
  rcases hg.stored key with he | ⟨-, hpub⟩ | ⟨-, hnot⟩ | ⟨hl, -⟩
  · obtain ⟨d, hd, u, hu, rfl⟩ := hn
    obtain ⟨content, hc, -⟩ := hb d hd u hu
    rw [hc, setFile_self] at he
    cases he
  · exact hpub (published_of_names hn)
  · exact hnot hn
  · rw [hF] at hl
    cases hl

/-- **Compensation deletes a committed upload only after a commit that was applied and raised**, when
the removal succeeds.  In a run of one upload, from any store whose rows name complete files, the rows
name complete files afterwards exactly when that did not happen; and in every run of calls without
such a commit rows name complete files, and no thread is about to remove a file that a row names. -/
theorem compensation_keeps_upload_iff (U : Unicode) (P : Polars) :
    (∀ (F : Faults) (q : Pid) (w : World) (owner_id dataset_id : Uuid) (filename : Option PyStr)
      (source : Source) (cs cs' : List Choice) (out : Except Exn Reply) (s : LoggedWorld),
      KeysDrawn w → AllBacked w → KeysDistinct w →
      ((Call.uploadCsv owner_id dataset_id filename source).body U P).solo (journal F) q cs ⟨w, []⟩ =
        some ((out, ()), s, cs') →
      (AllBacked s.state ↔ ¬ (s.Did LosesChange ∧ s.Did RemovesStored))) ∧
    ∀ (F : Faults) (cfg : SysConfig), F.lostAcknowledgement = false → Reach U P F anyCall cfg →
      AllBacked cfg.hist.now ∧ ∀ p k h₀ key f,
        cfg.threads p = some ⟨k, h₀, .vis (.unlink (.stored key)) f⟩ → ¬ cfg.hist.now.db.Names key := by
  constructor
  · intro F q w owner_id dataset_id filename source cs cs' out s hw hb hk hrun
    rcases ended_upload hw hrun with ⟨L, ha, hL, -⟩ | ⟨-, haccounted⟩
    · -- nothing was committed: the rows are those of `w`, and so are their files
      refine iff_of_true (fun d hd u hu => ?_) fun hlr => not_did_loses ha.uncommitted hlr.1
      rw [ha.db] at hd
      obtain ⟨content, hc, hrest⟩ := hb d hd u hu
      refine ⟨content, (ha.files _ fun hm => ?_).trans hc, hrest⟩
      exact hL _ hm (hw _ (by rw [hc]; exact Option.some_ne_none _))
    · exact haccounted hb hk
  · intro F cfg hF hr
    have hb : AllBacked cfg.hist.now := fun d hd u hu =>
      ((reach_inv creates_any hr).kept d hd u hu).resolve_right fun hl => by
        rw [hF] at hl
        exact Bool.false_ne_true hl.1
    exact ⟨hb, fun p k h₀ key f hp => unlink_not_named hF hr hb hp⟩

namespace Sample

/-- A commit can lose its acknowledgement. -/
def losesAcknowledgement : Faults := ⟨fun _ => false, true⟩

/-- The log has no commit without an acknowledgement. -/
def acknowledged (s : LoggedWorld) : Bool :=
  s.log.all fun e => match e.choice.fault with | .lostAcknowledgement => false | _ => true

lemma not_loses_of_acknowledged {s : LoggedWorld} (h : acknowledged s = true) : ¬ s.Did LosesChange := by
  rintro ⟨e, he, hf, -⟩
  have hq := List.all_eq_true.mp h e he
  rw [hf] at hq
  cases hq

/-- A row names a file that does not exist. -/
def dangling (w : World) : Bool :=
  w.db.datasets.rows.any fun d => d.upload.any fun u => (w.files (.stored u.storage_key)).isNone

lemma not_allBacked_of_dangling {w : World} (h : dangling w = true) : ¬ AllBacked w := by
  intro hb
  obtain ⟨d, hd, hu⟩ := List.any_eq_true.mp h
  obtain ⟨u, hu, hnone⟩ := (Option.any_eq_true _ _).mp hu
  obtain ⟨content, hc, -⟩ := hb d hd u hu
  rw [hc] at hnone
  cases hnone

end Sample

/-- An upload in which every commit is acknowledged. -/
theorem compensation_keeps_upload_iff_sample : ∃ s reply cs',
    (Sample.upload.body Sample.unicode Sample.polars).solo (journal Sample.losesAcknowledgement) 1
      (Sample.choices 20 .none) ⟨Sample.created, []⟩ = some ((.ok reply, ()), s, cs') ∧
    AllBacked s.state := by
  have hrun : ∃ s reply cs', (Sample.upload.body Sample.unicode Sample.polars).solo
      (journal Sample.losesAcknowledgement) 1 (Sample.choices 20 .none) ⟨Sample.created, []⟩ =
        some ((.ok reply, ()), s, cs') ∧ Sample.acknowledged s = true := by
    refine ⟨_, _, _, rfl, ?_⟩
    rfl
  obtain ⟨s, reply, cs', hrun, hq⟩ := hrun
  refine ⟨s, reply, cs', hrun, ((compensation_keeps_upload_iff Sample.unicode Sample.polars).1 _ _ _ _ _ _ _ _
    _ _ _ Sample.keysDrawn_created Sample.allBacked_created Sample.keysDistinct_created hrun).mpr ?_⟩
  exact fun hlr => Sample.not_loses_of_acknowledged hq hlr.1

/-- The server applies the commit of the first upload of a dataset and the connection is lost: the
handler removes the file that the committed row names. -/
theorem not_compensation_keeps_upload : ¬ ∀ (U : Unicode) (P : Polars) (F : Faults) (q : Pid) (w : World)
    (owner_id dataset_id : Uuid) (filename : Option PyStr) (source : Source) (cs cs' : List Choice)
    (out : Except Exn Reply) (s : LoggedWorld), KeysDrawn w → AllBacked w → KeysDistinct w →
      ((Call.uploadCsv owner_id dataset_id filename source).body U P).solo (journal F) q cs ⟨w, []⟩ =
        some ((out, ()), s, cs') → AllBacked s.state := by
  intro h
  have hrun : ∃ s cs', (Sample.upload.body Sample.unicode Sample.polars).solo
      (journal Sample.losesAcknowledgement) 1 (Sample.choices 15 .lostAcknowledgement)
        ⟨Sample.created, []⟩ = some ((.error (.database .operational), ()), s, cs') ∧
        Sample.dangling s.state = true := by
    refine ⟨_, _, rfl, ?_⟩
    rfl
  obtain ⟨s, cs', hrun, hd⟩ := hrun
  exact Sample.not_allBacked_of_dangling hd (h _ _ _ _ _ _ _ _ _ _ _ _ _ Sample.keysDrawn_created
    Sample.allBacked_created Sample.keysDistinct_created hrun)

end DataCheck.Datasets
