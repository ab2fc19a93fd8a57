import DataCheck.Shared.Steps

/-!
# The dataset service keeps the contract

Each method of the dataset service, effect by effect.  An upload is the long one: it owns its
candidate, then its stored file until a committed row names it, and after its commit it may remove
the file that its row named before.
-/

namespace DataCheck.Datasets

open Lib Shared

variable {ok : ValidationRule → Prop} {F : Faults} {p : Pid} {h : Hist World} {w : World}

/-! ### Steps on files -/

/-- A step on files that are its own, unpublished, or superseded, or removes one of its own after a
commit that raised. -/
theorem allowed_files (hi : SysInv ok F h) (hdb : w.db = h.now.db) (hlocks : w.locks = h.now.locks)
    (hissued : w.issued = h.now.issued)
    (hc : ∀ u, w.files (.candidate u) = h.now.files (.candidate u) ∨ Drew p u h)
    (hs : ∀ key, w.files (.stored key) = h.now.files (.stored key) ∨ Unpublished p key h ∨
      Superseded key h ∨ F.lostAcknowledgement = true ∧ Drew p key.uuid h ∧
        w.files (.stored key) = none) : Allowed ok F p h w := by
  have hg : SysGuar F p h w :=
    { issued_mono := fun x hx => hissued ▸ hx
      issued_mine := fun x hx => Or.inl (hissued ▸ hx)
      locks := fun d q _ hq => by rw [hlocks]; exact hq
      datasets := fun d hd => Or.inl (hdb ▸ hd)
      new_datasets := fun d hd => Or.inl ⟨d, hdb ▸ hd, rfl⟩
      names := fun key hn => Or.inl (hdb ▸ hn)
      candidates := hc
      stored := hs
      rules := fun r hr => Or.inl (hdb ▸ hr)
      analyses := fun a ha => hdb ▸ ha
      new_analyses := fun a ha => Or.inl (hdb ▸ ha)
      results := fun r hr => hdb ▸ hr
      new_results := fun r hr => Or.inl (hdb ▸ hr) }
  refine ⟨hg, hi.push hg (by rw [hissued]; exact hi.issued_once) (by rw [hdb]) ?_ ?_ ?_⟩
  · exact fun r hr => Or.inl (hdb ▸ hr)
  · exact fun a ha => Or.inl (hdb ▸ ha)
  · exact fun r hr => Or.inl (hdb ▸ hr)

lemma setFile_candidate {u v : Uuid} {content : Option Bytes} :
    (w.setFile (.candidate u) content).files (.candidate v) =
      if v = u then content else w.files (.candidate v) := by
  simp [World.setFile, Function.update_apply]

lemma setFile_candidate_stored {u : Uuid} {key : StorageKey} {content : Option Bytes} :
    (w.setFile (.candidate u) content).files (.stored key) = w.files (.stored key) := by
  simp [World.setFile]

lemma setFile_stored {key key' : StorageKey} {content : Option Bytes} :
    (w.setFile (.stored key) content).files (.stored key') =
      if key' = key then content else w.files (.stored key') := by
  simp [World.setFile, Function.update_apply]

lemma setFile_stored_candidate {u : Uuid} {key : StorageKey} {content : Option Bytes} :
    (w.setFile (.stored key) content).files (.candidate u) = w.files (.candidate u) := by
  simp [World.setFile]

lemma allowed_setCandidate (hi : SysInv ok F h) {u : Uuid} (hu : Drew p u h) (content : Option Bytes) :
    Allowed ok F p h (h.now.setFile (.candidate u) content) := by
  refine allowed_files hi rfl rfl rfl (fun v => ?_) fun key => Or.inl setFile_candidate_stored
  rw [setFile_candidate]
  split
  · next hv => exact Or.inr (hv ▸ hu)
  · exact Or.inl rfl

/-- The thread drew the storage key, and no committed row has ever named it, unless its own commit
raised and was applied. -/
def Owns (F : Faults) (p : Pid) (key : StorageKey) : Assert World := fun h =>
  Unpublished p key h ∨ F.lostAcknowledgement = true ∧ Drew p key.uuid h

lemma steady_owns (key : StorageKey) : Steady ok F p (Owns F p key) :=
  (steady_unpublished key).or ((Steady.const _).and (steady_drew _))

lemma allowed_remove (hi : SysInv ok F h) {key : StorageKey} (hk : Owns F p key h ∨ Superseded key h) :
    Allowed ok F p h (h.now.setFile (.stored key) none) := by
  refine allowed_files hi rfl rfl rfl (fun v => Or.inl setFile_stored_candidate) fun key' => ?_
  rw [setFile_stored]
  split
  · next hv =>
    subst hv
    rcases hk with (hk | ⟨hF, hk⟩) | hk
    · exact Or.inr (Or.inl hk)
    · exact Or.inr (Or.inr (Or.inr ⟨hF, hk, rfl⟩))
    · exact Or.inr (Or.inr (Or.inl hk))
  · exact Or.inl rfl

lemma allowed_replace (hi : SysInv ok F h) {u : Uuid} (hu : Drew p u h) {key : StorageKey}
    (hk : Unpublished p key h) (content : Option Bytes) :
    Allowed ok F p h ((h.now.setFile (.stored key) content).setFile (.candidate u) none) := by
  refine allowed_files hi rfl rfl rfl (fun v => ?_) fun key' => ?_
  · rw [setFile_candidate, setFile_stored_candidate]
    split
    · next hv => exact Or.inr (hv ▸ hu)
    · exact Or.inl rfl
  · rw [setFile_candidate_stored, setFile_stored]
    split
    · next hv => exact Or.inr (Or.inl (hv ▸ hk))
    · exact Or.inl rfl

lemma owns_setFile {key : StorageKey} (hk : Owns F p key h) (name : FileName)
    (content : Option Bytes) : Owns F p key (h.push (h.now.setFile name content)) := by
  refine hk.imp_left fun hk => ⟨hk.1, fun hp => ?_⟩
  rcases published_push.mp hp with hn | hp
  · exact hk.2 (published_of_names hn)
  · exact hk.2 hp

section Rules

variable {σ : Type} {t : Caller Call World} {P : σ → Assert World} {Z : Exn → σ → Assert World}

/-- `unlink` of a candidate of one's own. -/
theorem does_unlinkCandidate {u : Uuid} {R : σ → Assert World}
    (hRs : ∀ s, Steady ok F t.pid (R s)) (hZs : ∀ x s, Steady ok F t.pid (Z x s))
    (hu : ∀ s h, SysInv ok F h → P s h → Drew t.pid u h)
    (hR : ∀ s h, SysInv ok F h → P s h → R s (h.push (h.now.setFile (.candidate u) none)))
    (hZ : ∀ s h, SysInv ok F h → P s h → Z .os s h) :
    Does ok F t P (Body.perform (.unlink (.candidate u))) (fun _ => R) Z := by
  refine does_perform (by simp) (fun _ _ _ _ => trivial) (fun _ s => (hRs s).stable)
    (fun x s => (hZs x s).stable) (fun _ s h hi hp => ?_) fun s h c r w hi hp hr => ?_
  · exact stutter (hZs _ s).stable hi (hZ s h hi hp)
  · cases hr
    exact ⟨allowed_setCandidate hi (hu s h hi hp) none, fun _ _ => hR s h hi hp, fun x hx => (nomatch hx)⟩

/-- `unlink` of a stored file of one's own, or of a superseded one. -/
theorem does_remove {key : StorageKey} (hZs : ∀ x s, Steady ok F t.pid (Z x s))
    (hk : ∀ s h, SysInv ok F h → P s h → Owns F t.pid key h ∨ Superseded key h)
    (hZ : ∀ s h, SysInv ok F h → P s h → Z .os s h) :
    Does ok F t P (remove key) (fun _ _ _ => True) Z := by
  refine does_perform (by simp) (fun _ _ _ _ => trivial) (fun _ _ => Stable.const _)
    (fun x s => (hZs x s).stable) (fun _ s h hi hp => ?_) fun s h c r w hi hp hr => ?_
  · exact stutter (hZs _ s).stable hi (hZ s h hi hp)
  · cases hr
    exact ⟨allowed_remove hi (hk s h hi hp), fun _ _ => trivial, fun x hx => (nomatch hx)⟩

theorem does_removeQuietly {key : StorageKey}
    (hk : ∀ s h, SysInv ok F h → P s h → Owns F t.pid key h ∨ Superseded key h) :
    Does ok F t P (removeQuietly key) (fun _ _ _ => True) fun _ _ _ => True := by
  refine Triple.catching (Y := fun _ _ _ => True)
    (does_remove (fun _ _ => Steady.const _) hk fun _ _ _ _ => trivial) fun x => ?_
  split
  · exact Triple.pure fun _ _ _ _ => trivial
  · exact Triple.raise fun _ _ _ _ => trivial

end Rules

/-! ### Candidates -/

section Upload

variable {σ : Type} {t : Caller Call World}

lemma does_copyChunks {u : Uuid} (source : Source) : ∀ written : Bytes, written.length ≤ maxCsvBytes →
    Does ok F t (fun (_ : σ) => CandidateHas t.pid u written) (copyChunks u source written)
      (fun out _ h => CandidateHas t.pid u out h ∧ out.length ≤ maxCsvBytes) fun _ _ => Drew t.pid u := by
  induction source with
  | nil => exact fun written hw => Triple.pure fun _ _ _ hp => ⟨hp, hw⟩
  | cons chunk source ih =>
    intro written hw
    rcases chunk with _ | _ | ⟨byte, chunk⟩
    · exact Triple.raise fun _ _ _ hp => hp.1
    · exact Triple.pure fun _ _ _ hp => ⟨hp, hw⟩
    · rw [copyChunks]
      split
      · exact Triple.raise fun _ _ _ hp => hp.1
      · next hlen =>
        refine Triple.bind (B := fun _ _ => CandidateHas t.pid u (written ++ byte :: chunk)) ?_
          fun _ => ih _ (by rw [List.length_append]; omega)
        refine does_perform (by simp) (fun _ _ _ _ => trivial)
          (fun _ _ => (steady_candidateHas u _).stable) (fun _ _ => (steady_drew u).stable)
          (fun _ s h hi hp => stutter (steady_drew u).stable hi hp.1) fun s h c r w hi hp hr => ?_
        cases hr
        refine ⟨allowed_setCandidate hi hp.1 _, fun _ _ => ⟨hp.1, ?_⟩, fun x hx => (nomatch hx)⟩
        rw [Hist.push_now, setFile_candidate, if_pos rfl, hp.2]
        rfl

/-- What the code knows of a written candidate. -/
def IsCandidate (p : Pid) (candidate : CandidateFile) (content : Bytes) : Assert World := fun h =>
  CandidateHas p candidate.uuid content h ∧ content.length ≤ maxCsvBytes ∧
    candidate.size_bytes = content.length ∧ candidate.content_sha256 = sha256 content

lemma steady_isCandidate (candidate : CandidateFile) (content : Bytes) :
    Steady ok F p (IsCandidate p candidate content) := (steady_candidateHas _ _).and (.const _)

lemma does_writeCandidate (source : Source) :
    Does ok F t (fun (_ : σ) _ => True) (writeCandidate source)
      (fun c _ h => ∃ content, IsCandidate t.pid c content h) fun _ _ _ => True := by
  refine Triple.bind (B := fun u _ => Drew t.pid u) ?_ fun u => ?_
  · exact does_uuid4 (fun u _ => (steady_drew u).stable) (fun _ _ => Stable.const _)
      (fun u _ h _ _ _ => List.mem_cons_self) fun _ _ _ _ => trivial
  refine Triple.bind (B := fun _ _ => CandidateHas t.pid u []) ?_ fun _ => ?_
  · -- the candidate is created empty
    refine does_perform (by simp) (fun _ _ _ _ => trivial) (fun _ _ => (steady_candidateHas u _).stable)
      (fun _ _ => Stable.const _) (fun _ _ _ _ _ => trivial) fun s h c r w hi hp hr => ?_
    simp only [World.perform] at hr
    split at hr <;> cases hr
    · exact ⟨allowed_stutter hi, fun a ha => (by cases ha), fun _ _ => trivial⟩
    · refine ⟨allowed_setCandidate hi hp _, fun _ _ => ⟨hp, ?_⟩, fun _ _ => trivial⟩
      rw [Hist.push_now, setFile_candidate, if_pos rfl]
  refine Triple.bind
    (B := fun out _ h => CandidateHas t.pid u out h ∧ out.length ≤ maxCsvBytes) ?_ fun out => ?_
  · refine (does_copyChunks source [] (Nat.zero_le _)).catching fun x => ?_
    exact (does_unlinkCandidate (fun _ => Steady.const True) (fun _ _ => Steady.const _)
      (fun _ _ _ hp => hp) (fun _ _ _ _ => trivial) fun _ _ _ _ => trivial).bind
      fun _ => Triple.raise fun _ _ _ _ => trivial
  · exact Triple.pure fun _ h _ hp => ⟨out, hp.1, hp.2, rfl, rfl⟩

/-! ### The upload transaction -/

/-- The lock of the dataset is held, and all its rules target columns among these. -/
def HoldsColumns (p : Pid) (d : Dataset) (columns : List PyStr) : Assert World := fun h =>
  Holds p d h ∧ ∀ r ∈ h.now.db.validation_rules, r.dataset_id = d.id → r.target_column ∈ columns

lemma stable_holdsColumns (d : Dataset) (columns : List PyStr) :
    Stable (contract ok F) p (HoldsColumns p d columns) := by
  rintro q k h w hqp hi ⟨hl, hc⟩ hg hi'
  refine ⟨stable_holds d q k h w hqp hi hl hg hi', fun r hr hd => ?_⟩
  rcases hg.rules r hr with hold | hlock
  · exact hc r hold hd
  · rw [hd, hl.1] at hlock
    exact absurd (Option.some.inj hlock).symm hqp

/-- The row of `d` with a new upload. -/
def withUpload (d : Dataset) (upload : UploadColumns) (now : Time) : Dataset :=
  { d with upload := some upload, updated_at := now }

lemma apply_updateUpload {db : Db} {d : Dataset} (hd : d ∈ db.datasets) (upload : UploadColumns)
    (now : Time) : db.applyAll [.updateUpload d.id upload now] =
      { db with datasets := db.datasets.put (withUpload d upload now) } := by
  simp only [Db.applyAll, List.foldl, Db.apply, Table.find?_eq_some.mpr ⟨hd, rfl⟩]
  rfl

/-- **The commit of an upload**: under the lock, with an installed file that is what the row says,
and columns that the rules target. -/
theorem allowed_commitUpload (hi : SysInv ok F h) {d : Dataset} {upload : UploadColumns} {now : Time}
    {content : Bytes} {columns : List PyStr} (hd : HoldsColumns p d columns h)
    (hcols : columns ⊆ upload.column_names) (hinst : Installed p upload.storage_key content h)
    (hup : content.length = upload.size_bytes ∧ upload.size_bytes ≤ maxCsvBytes ∧
      sha256 content = upload.content_sha256 ∧
      scanCsv content = .ok ⟨upload.row_count, upload.column_names⟩) :
    Allowed ok F p h ((h.now.apply [.updateUpload d.id upload now]).unlock p) := by
  obtain ⟨⟨hlock, hmem⟩, hrules⟩ := hd
  have hput : ((h.now.apply [.updateUpload d.id upload now]).unlock p).db.datasets =
      h.now.db.datasets.put (withUpload d upload now) := by
    simp only [World.unlock, World.apply, apply_updateUpload hmem]
  have hrest : ((h.now.apply [.updateUpload d.id upload now]).unlock p).db =
      { h.now.db with datasets := h.now.db.datasets.put (withUpload d upload now) } := by
    simp only [World.unlock, World.apply, apply_updateUpload hmem]
  have hg : SysGuar F p h ((h.now.apply [.updateUpload d.id upload now]).unlock p) :=
    { issued_mono := fun x hx => hx
      issued_mine := fun x hx => Or.inl hx
      locks := fun d' q hqp hq => by simp [World.unlock, World.apply, hq, hqp]
      datasets := by
        intro d' hd'
        rw [hput]
        by_cases hid : d'.id = d.id
        · obtain rfl := Table.eq_of_key hd' hmem hid
          exact Or.inr ⟨hlock, withUpload d' upload now, Table.mem_put.mpr (Or.inl rfl), rfl, rfl⟩
        · exact Or.inl (Table.mem_put.mpr (Or.inr ⟨hd', hid⟩))
      new_datasets := by
        intro d' hd'
        rw [hput, Table.mem_put] at hd'
        rcases hd' with rfl | ⟨hd', -⟩
        · exact Or.inl ⟨d, hmem, rfl⟩
        · exact Or.inl ⟨d', hd', rfl⟩
      names := by
        rintro key ⟨d', hd', u, hu, rfl⟩
        rw [hput, Table.mem_put] at hd'
        rcases hd' with rfl | ⟨hd', -⟩
        · cases hu
          exact Or.inr hinst.1
        · exact Or.inl ⟨d', hd', u, hu, rfl⟩
      candidates := fun u => Or.inl rfl
      stored := fun key => Or.inl rfl
      rules := fun r hr => Or.inl (by rw [hrest] at hr; exact hr)
      analyses := fun a ha => by rw [hrest]; exact ha
      new_analyses := fun a ha => Or.inl (by rw [hrest] at ha; exact ha)
      results := fun r hr => by rw [hrest]; exact hr
      new_results := fun r hr => Or.inl (by rw [hrest] at hr; exact hr) }
  refine ⟨hg, hi.push_dataset hg hi.issued_once (withUpload d upload now) hput ?_ ?_ ?_ ?_ ?_⟩
  · intro u hu
    cases hu
    exact ⟨⟨content, hinst.2, hup⟩, fun hn => hinst.1.2 (published_of_names hn)⟩
  · exact fun r hr hid => ⟨upload, rfl, hcols (hrules r hr hid)⟩
  · rw [hrest]
  · rw [hrest]
  · rw [hrest]

/-- After the commit no row names the file that the row named before. -/
theorem superseded_commitUpload (hi : SysInv ok F h) {d : Dataset} {upload old : UploadColumns} {now : Time}
    (hd : Holds p d h) (hold : d.upload = some old) (hne : old.storage_key ≠ upload.storage_key) :
    Superseded old.storage_key (h.push ((h.now.apply [.updateUpload d.id upload now]).unlock p)) := by
  refine ⟨published_push.mpr (Or.inr (published_of_names ⟨d, hd.2, old, hold, rfl⟩)), ?_⟩
  rintro ⟨d', hd', u, hu, hk⟩
  have hput : d' ∈ h.now.db.datasets.put (withUpload d upload now) := by
    simpa only [Hist.push_now, World.unlock, World.apply, apply_updateUpload hd.2] using hd'
  rcases Table.mem_put.mp hput with rfl | ⟨hd', hid⟩
  · cases hu
    exact hne hk.symm
  · exact hid (hi.key_once d' hd' d hd.2 u old hu hold hk ▸ rfl)

/-- What the `except BaseException` of an upload relies on. -/
def Compensable (F : Faults) (p : Pid) (candidate : CandidateFile) (v : UploadLocals) : Assert World := fun h =>
  Drew p candidate.uuid h ∧ ∀ key, v.installed_key = some key → v.committed = false →
    Owns F p key h

lemma steady_compensable (candidate : CandidateFile) (v : UploadLocals) :
    Steady ok F p (Compensable F p candidate v) := by
  refine (steady_drew _).and ⟨?_, ?_⟩
  · exact Stable.forall fun key => Stable.imp _ (Stable.imp _ (steady_owns key).stable)
  · exact fun h w hi hp hw key hk hc => (steady_owns key).locks h w hi (hp key hk hc) hw

/-- What is left to do after an upload was committed: the old file may go. -/
def OldGone (old_key : Option StorageKey) (new_key : StorageKey) : Assert World := fun h =>
  ∀ key, old_key = some key → key ≠ new_key → Superseded key h

lemma steady_oldGone (old_key : Option StorageKey) (new_key : StorageKey) :
    Steady ok F p (OldGone old_key new_key) :=
  ⟨Stable.forall fun key => Stable.imp _ (Stable.imp _ (steady_superseded key).stable),
    fun h w hi hp hw key hk hne => (steady_superseded (p := p) key).locks h w hi (hp key hk hne) hw⟩

lemma does_install {candidate : CandidateFile} {key : StorageKey} {content : Bytes} {d : Dataset}
    {columns : List PyStr} {v₀ : UploadLocals} (hv : v₀ = ⟨some key, false⟩) :
    Does ok F t (fun v h => v = v₀ ∧ IsCandidate t.pid candidate content h ∧ Unpublished t.pid key h ∧
        HoldsColumns t.pid d columns h) (install candidate key)
      (fun _ v h => v = v₀ ∧ Drew t.pid candidate.uuid h ∧ Installed t.pid key content h ∧
        HoldsColumns t.pid d columns h) fun _ v => Compensable F t.pid candidate v := by
  subst hv
  refine Triple.bind (B := fun _ v h => v = ⟨some key, false⟩ ∧ Drew t.pid candidate.uuid h ∧
    Installed t.pid key content h ∧ HoldsColumns t.pid d columns h) ?_ fun _ => ?_
  · refine does_perform (by simp) (fun _ _ _ _ => trivial) (fun _ _ => ?_)
      (fun _ v => (steady_compensable candidate v).stable) (fun _ s h hi hp => ?_)
      fun s h c r w hi hp hr => ?_
    · exact (Stable.const _).and ((steady_drew _).stable.and
        ((steady_installed _ _).stable.and (stable_holdsColumns d columns)))
    · obtain ⟨rfl, hc, hk, -⟩ := hp
      exact stutter (steady_compensable candidate _).stable hi
        ⟨hc.1.1, fun key' he _ => by cases he; exact Or.inl hk⟩
    · obtain ⟨rfl, hc, hk, hd⟩ := hp
      simp only [World.perform, hc.1.2] at hr
      cases hr
      refine ⟨allowed_replace hi hc.1.1 hk _, fun _ _ => ⟨rfl, hc.1.1, ⟨?_, ?_⟩, hd⟩,
        fun x hx => by cases hx⟩
      · exact ⟨hk.1, fun hp => (published_push.mp hp).elim (fun hn => hk.2 (published_of_names hn)) hk.2⟩
      · rw [Hist.push_now, setFile_candidate_stored, setFile_stored, if_pos rfl]
  · refine does_quiet rfl (fun _ _ _ _ => trivial) (fun _ _ => ?_)
      (fun _ v => (steady_compensable candidate v).stable) (fun _ s h hi hp => ?_)
      fun s h c r hi hp hr => ?_
    · exact (Stable.const _).and ((steady_drew _).stable.and
        ((steady_installed _ _).stable.and (stable_holdsColumns d columns)))
    · obtain ⟨rfl, hc, hk, -⟩ := hp
      exact ⟨hc, fun key' he _ => by cases he; exact Or.inl hk.1⟩
    · refine ⟨fun _ _ => hp, fun x hx => ?_⟩
      obtain ⟨rfl, hc, hk, -⟩ := hp
      exact ⟨hc, fun key' he _ => by cases he; exact Or.inl hk.1⟩

/-- What the transaction of an upload starts from. -/
def BeforeInstall (p : Pid) (candidate : CandidateFile) (content : Bytes) (new_key : StorageKey)
    (v : UploadLocals) : Assert World := fun h =>
  v = ⟨none, false⟩ ∧ IsCandidate p candidate content h ∧ Unpublished p new_key h

lemma steady_beforeInstall (candidate : CandidateFile) (content : Bytes) (new_key : StorageKey)
    (v : UploadLocals) : Steady ok F p (BeforeInstall p candidate content new_key v) :=
  (Steady.const _).and ((steady_isCandidate _ _).and (steady_unpublished _))

lemma BeforeInstall.compensable {candidate : CandidateFile} {content : Bytes} {new_key : StorageKey}
    {v : UploadLocals} (hb : BeforeInstall p candidate content new_key v h) :
    Compensable F p candidate v h := by
  obtain ⟨rfl, hc, -⟩ := hb
  exact ⟨hc.1.1, fun key hk => (nomatch hk)⟩

/-- What the transaction of an upload leaves to commit. -/
def ReadyToCommit (p : Pid) (candidate : CandidateFile) (new_key : StorageKey)
    (out : (DatasetReference × Option StorageKey) × List Write) (v : UploadLocals) :
    Assert World := fun h =>
  v = ⟨some new_key, false⟩ ∧ Drew p candidate.uuid h ∧
    ∃ d upload now content columns, out.2 = [.updateUpload d.id upload now] ∧
      out.1.2 = d.upload.map UploadColumns.storage_key ∧ upload.storage_key = new_key ∧
      HoldsColumns p d columns h ∧ columns ⊆ upload.column_names ∧ Installed p new_key content h ∧
      content.length = upload.size_bytes ∧ upload.size_bytes ≤ maxCsvBytes ∧
      sha256 content = upload.content_sha256 ∧
      scanCsv content = .ok ⟨upload.row_count, upload.column_names⟩

lemma does_replaceUpload {owner_id dataset_id : Uuid} {filename : PyStr} {candidate : CandidateFile}
    {content : Bytes} {structure_ : CsvStructure} {now : Time} {new_key : StorageKey}
    (hscan : scanCsv content = .ok structure_) :
    Does ok F t (BeforeInstall t.pid candidate content new_key)
      (replaceUpload owner_id dataset_id filename candidate structure_ now new_key)
      (ReadyToCommit t.pid candidate new_key) (fun _ v => Compensable F t.pid candidate v) := by
  have hzs : ∀ (x : Exn) v, Stable (contract ok F) t.pid (Compensable F t.pid candidate v) :=
    fun _ v => (steady_compensable candidate v).stable
  refine Triple.bind (B := fun d v h => BeforeInstall t.pid candidate content new_key v h ∧
    ∀ d', d = some d' → Holds t.pid d' h) ?_ fun d => ?_
  · refine does_getForOwnerForUpdate (fun d v => ?_) hzs (fun v h _ hp _ => ⟨hp, fun _ hd => (nomatch hd)⟩)
      (fun d v h w hi hp _ hw hd => ⟨(steady_beforeInstall _ _ _ v).locks h w hi hp hw, ?_⟩)
      fun v h _ hp => hp.compensable
    · exact (steady_beforeInstall _ _ _ v).stable.and
        (Stable.forall fun d' => Stable.imp _ (stable_holds d'))
    · rintro d' hd'
      cases hd'
      exact hd
  cases d with
  | none => exact Triple.raise fun _ _ _ hp => hp.1.compensable
  | some d =>
    refine Triple.bind (B := fun columns v h => BeforeInstall t.pid candidate content new_key v h ∧
      HoldsColumns t.pid d columns h) ?_ fun columns => ?_
    · refine does_query (fun columns v => ?_) hzs (fun v h _ hp => ⟨hp.1, hp.2 d rfl, ?_⟩)
        fun v h _ hp => hp.1.compensable
      · exact (steady_beforeInstall _ _ _ v).stable.and (stable_holdsColumns d columns)
      · intro r hr hd
        exact List.mem_map.mpr ⟨r, Table.mem_select.mpr ⟨hr, by simpa using hd⟩, rfl⟩
    · split
      · exact Triple.raise fun _ _ _ hp => hp.1.compensable
      · next hsub =>
        refine Triple.bind (B := fun _ v h => v = ⟨some new_key, false⟩ ∧
          IsCandidate t.pid candidate content h ∧ Unpublished t.pid new_key h ∧
            HoldsColumns t.pid d columns h) ?_ fun _ => ?_
        · refine Triple.assign fun v h _ hp => ?_
          obtain ⟨⟨rfl, hc, hk⟩, hd⟩ := hp
          exact ⟨rfl, hc, hk, hd⟩
        -- from here on the candidate's bytes are under the new key
        refine Triple.assume (φ := candidate.size_bytes = content.length ∧ content.length ≤ maxCsvBytes ∧
          candidate.content_sha256 = sha256 content) (fun v h _ hp => ?_) fun hcand => ?_
        · exact ⟨hp.2.1.2.2.1, hp.2.1.2.1, hp.2.1.2.2.2⟩
        refine Triple.bind (does_install rfl) fun _ => ?_
        have hstable : ∀ v : UploadLocals, Stable (contract ok F) t.pid fun h => v = ⟨some new_key, false⟩ ∧
            Drew t.pid candidate.uuid h ∧ Installed t.pid new_key content h ∧ HoldsColumns t.pid d columns h :=
          fun v => (Stable.const _).and ((steady_drew _).stable.and
            ((steady_installed _ _).stable.and (stable_holdsColumns d columns)))
        have hraise : ∀ (v : UploadLocals) h, v = ⟨some new_key, false⟩ ∧ Drew t.pid candidate.uuid h ∧
            Installed t.pid new_key content h ∧ HoldsColumns t.pid d columns h →
            Compensable F t.pid candidate v h := by
          rintro v h ⟨rfl, hc, hk, -⟩
          exact ⟨hc, fun key he _ => by cases he; exact Or.inl hk.1⟩
        refine Triple.bind (does_onupdate hstable hzs fun v h _ => hraise v h) fun updated_at => ?_
        refine Triple.bind (does_flush (fun _ => hstable) hzs (fun _ _ _ hp => hp)
          fun _ v h _ => hraise v h) fun _ => ?_
        · refine Triple.pure fun v h _ hp => ?_
          obtain ⟨rfl, hc, hk, hd⟩ := hp
          exact ⟨rfl, hc, d, _, updated_at, content, columns, rfl, rfl, rfl, hd, not_not.mp hsub, hk,
            hcand.1.symm, hcand.1.trans_le hcand.2.1, hcand.2.2.symm, hscan⟩

lemma does_installUpload {owner_id dataset_id : Uuid} {filename : PyStr} {candidate : CandidateFile}
    {content : Bytes} :
    Does ok F t (fun v h => v = ⟨none, false⟩ ∧ IsCandidate t.pid candidate content h)
      (installUpload owner_id dataset_id filename candidate)
      (fun out _ => OldGone out.2.1 out.2.2) (fun _ v => Compensable F t.pid candidate v) := by
  have hzs : ∀ (x : Exn) v, Steady ok F t.pid (Compensable F t.pid candidate v) :=
    fun _ v => steady_compensable candidate v
  have hstart : ∀ v h, v = ⟨none, false⟩ ∧ IsCandidate t.pid candidate content h →
      Compensable F t.pid candidate v h := by
    rintro _ h ⟨rfl, hc⟩
    exact ⟨hc.1.1, fun key hk => by cases hk⟩
  have hst : ∀ v : UploadLocals, Steady ok F t.pid
      fun h => v = ⟨none, false⟩ ∧ IsCandidate t.pid candidate content h :=
    fun v => (Steady.const _).and (steady_isCandidate _ _)
  refine Triple.bind (B := fun structure_ v h => (v = ⟨none, false⟩ ∧
    IsCandidate t.pid candidate content h) ∧ scanCsv content = .ok structure_) ?_ fun structure_ => ?_
  · -- the scan reads the candidate's own bytes
    refine Triple.bind (B := fun read v h => (v = ⟨none, false⟩ ∧
      IsCandidate t.pid candidate content h) ∧ read = content) ?_ fun read => ?_
    · refine does_quiet rfl (fun _ _ _ _ => trivial)
        (fun _ v => ((hst v).and (.const _)).stable) (fun x v => (hzs x v).stable)
        (fun _ v h _ hp => hstart v h hp) fun v h c r hi hp hr => ?_
      simp only [World.perform, hp.2.1.2] at hr
      cases hr
      exact ⟨fun a ha => by cases ha; exact ⟨hp, rfl⟩, fun x hx => by cases hx⟩
    · refine Triple.ofExcept (fun s v h hr _ hp => ⟨hp.1, ?_⟩) fun _ v h _ _ hp => hstart v h hp.1
      obtain ⟨hp, rfl⟩ := hp
      cases hs : scanCsv read with
      | error x => rw [hs] at hr; cases hr
      | ok s' => rw [hs] at hr; cases hr; rfl
  refine Triple.assume (φ := scanCsv content = .ok structure_) (fun _ _ _ hp => hp.2) fun hscan => ?_
  refine Triple.bind (B := fun _ v h => v = ⟨none, false⟩ ∧ IsCandidate t.pid candidate content h)
    ?_ fun now => ?_
  · exact does_now (fun _ v => (hst v).stable) (fun x v => (hzs x v).stable)
      (fun _ _ _ _ hp => hp.1) fun v h _ hp => hstart v h hp.1
  refine Triple.bind (B := fun new_key => BeforeInstall t.pid candidate content new_key) ?_
    fun new_key => ?_
  · refine Triple.bind (B := fun u => BeforeInstall t.pid candidate content ⟨u⟩) ?_
      fun u => Triple.pure fun _ _ _ hp => hp
    refine does_uuid4 (fun u v => (steady_beforeInstall _ _ _ v).stable)
      (fun x v => (hzs x v).stable) (fun u v h hi hp hu => ?_) fun v h _ hp => hstart v h hp
    refine ⟨hp.1, ⟨⟨List.mem_cons_of_mem _ hp.2.1.1, hp.2.1.2⟩, hp.2.2⟩, List.mem_cons_self, ?_⟩
    -- a key that was never drawn was never published
    intro hpub
    rcases published_push.mp hpub with hn | hpub
    · exact (hi.key_issued _ (published_of_names hn)).elim fun q hq => hu q hq
    · exact (hi.key_issued _ hpub).elim fun q hq => hu q hq
  refine Triple.bind (B := fun out _ => OldGone out.2 new_key) ?_ fun out => ?_
  · refine does_session (Q := fun out v h => v.committed = true ∧ Drew t.pid candidate.uuid h ∧
      OldGone out.2 new_key h) (fun out v => ?_) hzs ?_ (fun _ out v h _ hq => ?_)
      (fun x v h _ hz => hz) |>.post (fun out v h _ hq => hq.2.2) fun _ _ _ _ hz => hz
    · exact (Steady.const _).and ((steady_drew _).and (steady_oldGone _ _))
    · refine Triple.bind (B := fun out v h => (v.installed_key = some new_key ∧
        Drew t.pid new_key.uuid h) ∧ Drew t.pid candidate.uuid h ∧ OldGone out.2 new_key h) ?_ fun out => ?_
      · refine does_begin (fun out v => ((Steady.const _).and (steady_drew _)).and
            ((steady_drew _).and (steady_oldGone _ _))) hzs
          (does_replaceUpload hscan) (fun out ws v h hi hc => ?_) (fun out ws v h hi hc => ?_)
          (fun hF out v h _ hq => ⟨hq.2.1, fun key hk _ => ?_⟩) fun x v h _ hz => hz
        · obtain ⟨rfl, hdrew, d, upload, now', content', columns, hws, hold, rfl, hd, hsub, hinst, hup⟩ := hc
          obtain rfl : ws = _ := hws
          refine ⟨allowed_commitUpload hi hd hsub hinst hup, ⟨rfl, hinst.1.1⟩, hdrew, fun key hk hne => ?_⟩
          obtain ⟨old, hu, rfl⟩ := Option.map_eq_some_iff.mp (hold.symm.trans hk)
          exact superseded_commitUpload hi hd.1 hu hne
        · obtain ⟨rfl, hdrew, d, upload, now', content', columns, -, -, rfl, -, -, hinst, -⟩ := hc
          exact ⟨hdrew, fun key hk _ => by cases hk; exact Or.inl hinst.1⟩
        · -- the commit raised, and was applied
          obtain rfl : new_key = key := Option.some.inj (hq.1.1.symm.trans hk)
          exact Or.inr ⟨hF, hq.1.2⟩
      · exact (Triple.assign fun v h _ hp => ⟨rfl, hp.2⟩).bind
          fun _ => Triple.pure fun _ _ _ hq => hq
    · exact ⟨hq.2.1, fun key _ hc => by rw [hq.1] at hc; cases hc⟩
  · exact Triple.pure fun _ _ _ hp => hp

lemma does_compensate {candidate : CandidateFile} {v : UploadLocals} {x : Exn} :
    Does ok F t (fun (_ : σ) => Compensable F t.pid candidate v) (compensate candidate v x)
      (fun _ _ _ => True) fun _ _ _ => True := by
  refine Triple.bind (B := fun _ _ => Compensable F t.pid candidate v) ?_ fun _ => ?_
  · refine does_unlinkCandidate (fun _ => steady_compensable candidate v) (fun _ _ => Steady.const _)
      (fun _ _ _ hp => hp.1) (fun _ h _ hp => ⟨hp.1, fun key hk hc => ?_⟩) fun _ _ _ _ => trivial
    exact owns_setFile (hp.2 key hk hc) _ _
  · refine Triple.bind (B := fun _ _ _ => True) ?_ fun _ => ?_
    · unfold removeInstalled
      split
      · next key hkey =>
        split
        · exact Triple.pure fun _ _ _ _ => trivial
        · next hc =>
          exact does_removeQuietly fun _ _ _ hp => Or.inl (hp.2 key hkey (by simpa using hc))
      · exact Triple.pure fun _ _ _ _ => trivial
    · exact Triple.raise fun _ _ _ _ => trivial

lemma does_removeSuperseded {old_key : Option StorageKey} {new_key : StorageKey} :
    Does ok F t (fun (_ : σ) => OldGone old_key new_key) (removeSuperseded old_key new_key)
      (fun _ _ _ => True) fun _ _ _ => True := by
  cases old_key with
  | none => exact Triple.pure fun _ _ _ _ => trivial
  | some key =>
    rw [removeSuperseded]
    split
    · next hne => exact does_removeQuietly fun _ _ _ hp => Or.inr (hp key rfl hne)
    · exact Triple.pure fun _ _ _ _ => trivial

/-- **An upload keeps the contract**, wherever it fails. -/
theorem does_uploadCsv (U : Unicode) {owner_id dataset_id : Uuid} {filename : Option PyStr}
    {source : Source} :
    Does ok F t (fun (_ : σ) _ => True) (uploadCsv U owner_id dataset_id filename source)
      (fun _ _ _ => True) fun _ _ _ => True := by
  refine Triple.bind (B := fun _ _ _ => True) ?_ fun safe_filename => ?_
  · exact Triple.ofExcept (fun _ _ _ _ _ _ => trivial) fun _ _ _ _ _ _ => trivial
  refine Triple.bind (B := fun _ _ _ => True) ?_ fun _ => ?_
  · refine does_transaction (C := fun out _ _ => out.2 = []) (fun _ _ => Steady.const _)
      (fun _ _ => Steady.const _) ?_ (fun _ ws _ h hi hc => ?_) (fun _ _ _ _ _ _ => trivial)
      (fun _ _ _ _ _ _ => trivial) fun _ _ _ _ _ => trivial
    · refine Triple.bind (B := fun _ _ _ => True) ?_ fun d => ?_
      · exact does_query (fun _ _ => Stable.const _) (fun _ _ => Stable.const _)
          (fun _ _ _ _ => trivial) fun _ _ _ _ => trivial
      · cases d with
        | none => exact Triple.raise fun _ _ _ _ => trivial
        | some d => exact Triple.pure fun _ _ _ _ => rfl
    · obtain rfl : ws = [] := hc
      exact commit_nil (Steady.const _) hi trivial
  refine Triple.bind (does_writeCandidate source) fun candidate => ?_
  refine Triple.exists_pre fun content => ?_
  refine Triple.bind (B := fun out _ h => match out.1 with
    | .ok (_, old_key, new_key) => OldGone old_key new_key h
    | .error _ => Compensable F t.pid candidate out.2 h) ?_ fun out => ?_
  · exact Triple.withLocals fun _ => does_installUpload
  · obtain ⟨outcome, v⟩ := out
    cases outcome with
    | error x => exact does_compensate
    | ok result =>
      obtain ⟨result, old_key, new_key⟩ := result
      refine Triple.bind (B := fun _ _ _ => True) ?_ fun _ => ?_
      · exact does_removeSuperseded
      · exact Triple.pure fun _ _ _ _ => trivial

end Upload

end DataCheck.Datasets
