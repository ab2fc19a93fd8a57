import DataCheck.Datasets.Operations

/-!
# An upload is an atomic operation

An upload writes its candidate, scans it, and replaces the file of the dataset under the lock of its
row: at the moment of its commit the installed file has the bytes that were sent, and the row that is
written says so.
-/

namespace DataCheck.Datasets

open Lib Shared

variable {ok : ValidationRule → Prop} {F : Faults} {U : Unicode} {h : Hist World} {w : World} {σ : Type}
  {t : Caller Call World} {owner_id dataset_id : Uuid}

/-! ### The candidate -/

lemma contentOf_error {x : Exn} : ∀ {source : Source} {written : Bytes}, contentOf source written = .error x →
    x = .source ∨ x = .fileTooLarge
  | [], _, hx => by cases hx
  | none :: _, _, hx => by
    cases hx
    exact Or.inl rfl
  | some [] :: _, _, hx => by cases hx
  | some (byte :: chunk) :: source, written, hx => by
    rw [contentOf] at hx
    split at hx
    · cases hx
      exact Or.inr rfl
    · exact contentOf_error hx

/-- How the copy of a source may end, when it does not end well. -/
def CopyRaises (t : Caller Call World) (r : Except Exn Bytes) (x : Exn) : Assert World := fun h =>
  t.start ≤ h ∧ (r = .error x ∨ x.isFault = true)

lemma tolerant_copyRaises (r : Except Exn Bytes) : Tolerant ok F U t fun x (_ : σ) => CopyRaises t r x :=
  ⟨fun _ _ => ((Steady.since _).and (Steady.const _)).persists, fun _ _ _ hx hle => ⟨hle, Or.inr hx⟩,
    fun _ _ _ hz => hz.1⟩

lemma shows_copyChunks {u : Uuid} (source : Source) : ∀ written : Bytes, written.length ≤ maxCsvBytes →
    Shows ok F U t (fun (_ : σ) h => t.start ≤ h ∧ CandidateHas t.pid u written h) (copyChunks u source written)
      (fun out _ h => (t.start ≤ h ∧ CandidateHas t.pid u out h) ∧ out.length ≤ maxCsvBytes ∧
        contentOf source written = .ok out)
      fun x _ => CopyRaises t (contentOf source written) x := by
  induction source with
  | nil => exact fun written hlen => AlsoTriple.pure fun _ _ _ hp => ⟨hp, hlen, rfl⟩
  | cons chunk source ih =>
    intro written hlen
    rcases chunk with _ | _ | ⟨byte, chunk⟩
    · exact AlsoTriple.raise fun _ _ _ hp => ⟨hp.1, Or.inl rfl⟩
    · exact AlsoTriple.pure fun _ _ _ hp => ⟨hp, hlen, rfl⟩
    · rw [copyChunks, contentOf]
      split
      · exact AlsoTriple.raise fun _ _ _ hp => ⟨hp.1, Or.inl rfl⟩
      · refine AlsoTriple.bind (B := fun _ _ h => t.start ≤ h ∧
          CandidateHas t.pid u (written ++ byte :: chunk) h) ?_ fun _ => ih _ (by rw [List.length_append]; omega)
        refine shows_perform (fun ws hc => by cases hc) (tolerant_copyRaises _) (fun _ _ hp => hp.1)
          (fun _ _ => ((Steady.since _).and (steady_candidateHas u _)).persists.stable)
          fun _ h c r w hi hp hr => ?_
        cases hr
        refine ⟨fun _ _ => ⟨Hist.le_push _ hp.1, hp.2.1, ?_⟩, fun x hx => by cases hx⟩
        rw [Hist.push_now, setFile_candidate, if_pos rfl, hp.2.2]
        rfl

lemma shows_writeCandidate (source : Source) :
    Shows ok F U t (sinceStart t) (writeCandidate source : Body σ _)
      (fun c _ h => ∃ content, contentOf source [] = .ok content ∧ t.start ≤ h ∧ IsCandidate t.pid c content h)
      fun x _ => CopyRaises t (contentOf source []) x := by
  have hZ : Tolerant ok F U t fun x (_ : σ) => CopyRaises t (contentOf source []) x := tolerant_copyRaises _
  refine AlsoTriple.bind (B := fun u _ h => t.start ≤ h ∧ Drew t.pid u h) ?_ fun u => ?_
  · exact shows_uuid4 hZ (fun _ _ hp => hp) (fun u _ => ((Steady.since _).and (steady_drew u)).persists.stable)
      fun u _ h _ hp _ => ⟨Hist.le_push _ hp, List.mem_cons_self⟩
  refine AlsoTriple.bind (B := fun _ _ h => t.start ≤ h ∧ CandidateHas t.pid u [] h) ?_ fun _ => ?_
  · refine shows_perform (fun ws hc => by cases hc) hZ (fun _ _ hp => hp.1)
      (fun _ _ => ((Steady.since _).and (steady_candidateHas u [])).persists.stable) fun _ h c r w hi hp hr => ?_
    simp only [World.perform] at hr
    split at hr
    · cases hr
      exact ⟨fun a ha => (by cases ha), fun x hx => by cases hx; exact ⟨Hist.le_push _ hp.1, Or.inr rfl⟩⟩
    · cases hr
      refine ⟨fun _ _ => ⟨Hist.le_push _ hp.1, hp.2, ?_⟩, fun x hx => by cases hx⟩
      rw [Hist.push_now, setFile_candidate, if_pos rfl]
  refine AlsoTriple.bind (B := fun out _ h => (t.start ≤ h ∧ CandidateHas t.pid u out h) ∧
    out.length ≤ maxCsvBytes ∧ contentOf source [] = .ok out) ?_ fun out => ?_
  · refine (shows_copyChunks source [] (Nat.zero_le _)).catching fun x => ?_
    exact (shows_unlink hZ (fun _ _ hp => hp.1) (fun s => (hZ.persists x s)) fun _ _ w hp =>
      ⟨Hist.le_push w hp.1, hp.2⟩).bind fun _ => AlsoTriple.raise fun _ _ _ hp => hp
  · exact AlsoTriple.pure fun _ _ _ hp => ⟨out, hp.2.2, hp.1.1, hp.1.2, hp.2.1, rfl, rfl⟩

lemma shows_removeQuietly {key : StorageKey} {A : Assert World} (hA : Persists ok F U t.pid A)
    (hpush : ∀ h w, A h → A (h.push w)) :
    Shows ok F U t (fun (_ : σ) => A) (removeQuietly key) (fun _ _ => A) fun x _ => Refused U t x := by
  refine AlsoTriple.catching (Y := fun x _ h => A h ∧ x = .os) ?_ fun x => ?_
  · refine shows_effect (fun ws hc => by cases hc) (fun _ _ => hA.stable)
      (fun _ _ => hA.stable.and (Stable.const _)) (fun _ h hp => ⟨hpush h _ hp, rfl⟩) fun _ h c r w _ hp hr => ?_
    cases hr
    exact ⟨fun _ _ => hpush h _ hp, fun x hx => by cases hx⟩
  · split
    · exact AlsoTriple.pure fun _ _ _ hp => hp.1
    · next hx => exact AlsoTriple.raise fun _ _ _ hp => absurd hp.2 hx

/-! ### The transaction -/

/-- What the transaction of an upload starts from. -/
def Prepared (t : Caller Call World) (candidate : CandidateFile) (content : Bytes) (new_key : StorageKey) :
    Assert World := fun h =>
  t.start ≤ h ∧ IsCandidate t.pid candidate content h ∧ Unpublished t.pid new_key h

lemma persists_prepared (candidate : CandidateFile) (content : Bytes) (new_key : StorageKey) :
    Persists ok F U t.pid (Prepared t candidate content new_key) :=
  ((Steady.since _).and ((steady_isCandidate _ _).and (steady_unpublished _))).persists

/-- The file is installed, under the lock of its dataset, whose rules target these columns. -/
def InstalledUnder (t : Caller Call World) (content : Bytes) (new_key : StorageKey) (d : Dataset) (columns : List PyStr) :
    Assert World := fun h =>
  t.start ≤ h ∧ Installed t.pid new_key content h ∧ HoldsColumns t.pid d columns h

lemma stable_installedUnder (content : Bytes) (new_key : StorageKey) (d : Dataset) (columns : List PyStr) :
    Stable (services ok F U) t.pid (InstalledUnder t content new_key d columns) :=
  ((Stable.since _).and ((steady_installed _ _).stable.and (stable_holdsColumns d columns))).both _

lemma shows_install {candidate : CandidateFile} {content : Bytes} {new_key : StorageKey} {d : Dataset}
    {columns : List PyStr} :
    Shows ok F U t (fun (_ : σ) h => Prepared t candidate content new_key h ∧ HoldsColumns t.pid d columns h)
      (install candidate new_key) (fun _ _ => InstalledUnder t content new_key d columns) fun x _ => Refused U t x := by
  refine AlsoTriple.bind (B := fun _ _ => InstalledUnder t content new_key d columns) ?_ fun _ => ?_
  · refine shows_perform (fun ws hc => by cases hc) tolerant_refused (fun _ _ hp => hp.1.1)
      (fun _ _ => stable_installedUnder _ _ _ _) fun _ h c r w hi hp hr => ?_
    obtain ⟨⟨hle, hc, hk⟩, hd⟩ := hp
    simp only [World.perform, hc.1.2] at hr
    cases hr
    refine ⟨fun _ _ => ⟨Hist.le_push _ hle, ⟨⟨hk.1, fun hp => ?_⟩, ?_⟩, hd⟩, fun x hx => by cases hx⟩
    · exact (published_push.mp hp).elim (fun hn => hk.2 (published_of_names hn)) hk.2
    · rw [Hist.push_now, setFile_candidate_stored, setFile_stored, if_pos rfl]
  · refine shows_quiet rfl tolerant_refused (fun _ _ hp => hp.1) (fun _ _ => stable_installedUnder _ _ _ _)
      fun _ h c r hi hp hr => ⟨fun _ _ => hp, fun x hx => ?_⟩
    -- the file is there, so it can be given its mode
    simp only [World.perform, hp.2.1.2] at hr
    cases hr
    cases hx

lemma keyFree_of_unpublished {p : Pid} {key : StorageKey} (hk : Unpublished p key h) (id : Uuid) :
    h.now.db.keyFree id key = true := by
  refine List.all_eq_true.mpr fun d hd => ?_
  cases hu : d.upload with
  | none => simp
  | some u =>
    have hne : u.storage_key ≠ key := fun he => hk.2 (published_of_names ⟨d, hd, u, hu, he⟩)
    simp [hne]

lemma writeError_updateUpload {db : Db} {d : Dataset} (hd : d ∈ db.datasets) (u : UploadColumns) (now : Time) :
    db.writeError (.updateUpload d.id u now) = db.datasetError (withUpload d u now) := by
  simp only [Db.writeError, Table.find?_eq_some.mpr ⟨hd, rfl⟩]
  rfl

/-- What the transaction of an upload leaves to commit. -/
def LeavesUpload (t : Caller Call World) (filename : Option PyStr) (U : Unicode) (content : Bytes)
    (dataset_id owner_id : Uuid) (out : (DatasetReference × Option StorageKey) × List Write) :
    Assert World := fun h =>
  ∃ d u updated_at columns, out.1.1 = datasetReference (withUpload d u updated_at) ∧
    out.2 = [.updateUpload d.id u updated_at] ∧ InstalledUnder t content u.storage_key d columns h ∧
    (d.id = dataset_id ∧ d.owner_id = owner_id) ∧ columns ⊆ u.column_names ∧
    normalizeCsvFilename U filename = .ok u.original_filename ∧ Describes u content ∧
    (d.updated_at ≠ u.uploaded_at → updated_at = u.uploaded_at) ∧
    (withUpload d u updated_at).storable = true ∧ (withUpload d u updated_at).checks = true

section Upload

variable {filename : Option PyStr} {source : Source} {content : Bytes}
  (hcall : t.call = .uploadCsv owner_id dataset_id filename source)
include hcall

lemma shows_replaceUpload {safe_filename : PyStr} {candidate : CandidateFile} {structure_ : CsvStructure}
    {now : Time} {new_key : StorageKey} (hname : normalizeCsvFilename U filename = .ok safe_filename)
    (hcontent : contentOf source [] = .ok content) (hscan : scanCsv content = .ok structure_) :
    Shows ok F U t (fun _ => Prepared t candidate content new_key)
      (replaceUpload owner_id dataset_id safe_filename candidate structure_ now new_key)
      (fun out _ => LeavesUpload t filename U content dataset_id owner_id out) fun x _ => Refused U t x := by
  refine shows_lockDataset tolerant_refused (fun _ => persists_prepared _ _ _) (fun _ _ hp => hp.1)
    (by rw [hcall]; rfl) (by rw [hcall]; rfl) (fun _ _ _ hr => hr) fun d hid ho => ?_
  refine AlsoTriple.bind (B := fun columns _ h => (¬ columns ⊆ structure_.column_names →
    Refused U t .incompatibleUpload h) ∧ Prepared t candidate content new_key h ∧
      HoldsColumns t.pid d columns h) ?_ fun columns => ?_
  · refine shows_query tolerant_refused (fun _ _ hp => hp.1.1) (fun columns _ => ?_)
      fun _ h _ hp => ⟨fun hsub => ?_, hp.1, hp.2, fun r hr hd => ?_⟩
    · exact (Stable.imp _ (persists_refused _).stable).and
        ((persists_prepared _ _ _).stable.and ((stable_holdsColumns d columns).both _))
    · -- a rule targets a column that the new file does not have
      obtain ⟨r, hr, hnot⟩ : ∃ r ∈ h.now.db.validation_rules.select fun r => r.dataset_id = d.id,
          r.target_column ∉ structure_.column_names := by
        by_contra hall
        push Not at hall
        exact hsub fun column hcol => (List.mem_map.mp hcol).elim fun r hr => hr.2 ▸ hall r hr.1
      obtain ⟨hr, hds⟩ := Table.mem_select.mp hr
      refine ⟨h, hp.1.1, Hist.le_rfl, ?_⟩
      rw [hcall]
      exact ⟨content, structure_, hcontent, hscan, r, hr, (of_decide_eq_true hds).trans hid, hnot⟩
    · exact List.mem_map.mpr ⟨r, Table.mem_select.mpr ⟨hr, by simpa using hd⟩, rfl⟩
  split
  · next hsub => exact AlsoTriple.raise fun _ _ _ hp => hp.1 hsub
  · next hsub =>
    refine AlsoTriple.assume (φ := candidate.size_bytes = content.length ∧ content.length ≤ maxCsvBytes ∧
      candidate.content_sha256 = sha256 content) (fun _ _ _ hp => ?_) fun hcand => ?_
    · exact ⟨hp.2.1.2.1.2.2.1, hp.2.1.2.1.2.1, hp.2.1.2.1.2.2.2⟩
    refine AlsoTriple.bind (B := fun _ _ h => Prepared t candidate content new_key h ∧
      HoldsColumns t.pid d columns h) (AlsoTriple.assign fun _ _ _ hp => hp.2) fun _ => ?_
    refine AlsoTriple.bind shows_install fun _ => ?_
    set u : UploadColumns := ⟨safe_filename, new_key, candidate.content_sha256, candidate.size_bytes,
      structure_.row_count, structure_.column_names, now⟩ with hu
    refine AlsoTriple.bind (shows_onupdate tolerant_refused (fun _ _ hp => hp.1)
      fun _ => stable_installedUnder _ _ _ _) fun updated_at => ?_
    refine AlsoTriple.assume (fun _ _ _ hp => hp.2) fun htime => ?_
    have herror : ∀ {h : Hist World}, InstalledUnder t content new_key d columns h →
        h.now.db.firstError [.updateUpload d.id u updated_at] = h.now.db.datasetError (withUpload d u updated_at) ∧
          ∀ v, (withUpload d u updated_at).upload = some v → h.now.db.keyFree d.id v.storage_key = true := by
      intro h hp
      refine ⟨?_, fun v hv => ?_⟩
      · rw [firstError_one, writeError_updateUpload hp.2.2.1.2]
      · cases hv
        exact keyFree_of_unpublished hp.2.1.1 _
    refine AlsoTriple.bind (B := fun _ _ h => InstalledUnder t content new_key d columns h ∧
      (withUpload d u updated_at).storable = true ∧ (withUpload d u updated_at).checks = true) ?_ fun _ => ?_
    · refine (shows_flush tolerant_refused (fun _ _ hp => hp.1)
        (fun _ _ => (stable_installedUnder _ _ _ _).and (Stable.const _)) (fun _ h _ hp he => ⟨hp, ?_⟩)
        fun x _ h _ hp he => ?_).pre fun _ _ _ hp => hp.1
      · obtain ⟨heq, hfree⟩ := herror hp
        exact (datasetError_cases (d := withUpload d u updated_at) hfree).1 (heq.symm.trans he)
      · obtain ⟨heq, hfree⟩ := herror hp
        exact refused_row ((datasetError_cases (d := withUpload d u updated_at) hfree).2 x (heq.symm.trans he))
          (by rw [hcall]; rfl) hp.1
    · refine AlsoTriple.pure fun _ h _ hp => ?_
      exact ⟨d, u, updated_at, columns, rfl, rfl, hp.1, ⟨hid, ho⟩, not_not.mp hsub, hname,
        ⟨hcand.1, hcand.2.1, hcand.2.2, hscan⟩, htime, hp.2⟩

lemma upload_changes (hcontent : contentOf source [] = .ok content)
    {out : (DatasetReference × Option StorageKey) × List Write}
    (hc : LeavesUpload t filename U content dataset_id owner_id out h) :
    Changes U t.pid h t.call (.dataset out.1.1) ((h.now.apply out.2).unlock t.pid).db ∧
      ((h.now.apply out.2).unlock t.pid).db.validation_rules = h.now.db.validation_rules := by
  obtain ⟨d, u, updated_at, columns, href, hws, ⟨-, hinst, hholds⟩, ⟨rfl, rfl⟩, hsub, hname, hdesc, htime, hrow⟩ := hc
  have hdb : ((h.now.apply out.2).unlock t.pid).db =
      { h.now.db with datasets := h.now.db.datasets.put (withUpload d u updated_at) } := by
    rw [hws]
    exact apply_updateUpload hholds.1.2 u updated_at
  refine ⟨?_, by rw [hdb]⟩
  rw [hdb, hcall, href]
  exact .uploadCsv (ownedDataset_eq_some.mpr ⟨hholds.1.2, rfl, rfl⟩) hname hcontent hdesc hinst.2 hinst.1.1 hinst.1.2
    (fun r hr hid => hsub (hholds.2 r hr hid)) htime hrow

lemma shows_installUpload {safe_filename : PyStr} {candidate : CandidateFile}
    (hname : normalizeCsvFilename U filename = .ok safe_filename) (hcontent : contentOf source [] = .ok content) :
    Shows ok F U t (fun _ h => t.start ≤ h ∧ IsCandidate t.pid candidate content h)
      (installUpload owner_id dataset_id safe_filename candidate)
      (fun out _ h => Answered U t h (.dataset out.1)) fun x _ => Refused U t x := by
  have hstart : Persists ok F U t.pid fun h => t.start ≤ h ∧ IsCandidate t.pid candidate content h :=
    ((Steady.since _).and (steady_isCandidate _ _)).persists
  refine AlsoTriple.bind (B := fun structure_ _ h => (t.start ≤ h ∧ IsCandidate t.pid candidate content h) ∧
    scanCsv content = .ok structure_) ?_ fun structure_ => ?_
  · -- the scan reads the bytes that were sent
    refine AlsoTriple.bind (B := fun read _ h => (t.start ≤ h ∧ IsCandidate t.pid candidate content h) ∧
      read = content) ?_ fun read => ?_
    · refine shows_quiet rfl tolerant_refused (fun _ _ hp => hp.1)
        (fun _ _ => hstart.stable.and (Stable.const _)) fun _ h c r hi hp hr => ?_
      simp only [World.perform, hp.2.1.2] at hr
      cases hr
      exact ⟨fun a ha => by cases ha; exact ⟨hp, rfl⟩, fun x hx => by cases hx⟩
    · refine AlsoTriple.assume (φ := read = content) (fun _ _ _ hp => hp.2) fun hread => ?_
      subst hread
      cases hs : scanCsv read with
      | ok s => exact AlsoTriple.pure fun _ _ _ hp => ⟨hp.1, rfl⟩
      | error code =>
        refine AlsoTriple.raise fun _ h _ hp => ⟨h, hp.1.1, Hist.le_rfl, ?_⟩
        rw [hcall]
        exact ⟨read, hcontent, hs⟩
  refine AlsoTriple.assume (fun _ _ _ hp => hp.2) fun hscan => ?_
  refine AlsoTriple.bind (B := fun _ _ h => t.start ≤ h ∧ IsCandidate t.pid candidate content h) ?_ fun now => ?_
  · exact (shows_now tolerant_refused (fun _ _ hp => hp.1) fun _ => hstart.stable).pre fun _ _ _ hp => hp.1
  refine AlsoTriple.bind (B := fun new_key _ => Prepared t candidate content new_key) ?_ fun new_key => ?_
  · refine AlsoTriple.bind (B := fun u _ => Prepared t candidate content ⟨u⟩) ?_
      fun u => AlsoTriple.pure fun _ _ _ hp => hp
    refine shows_uuid4 tolerant_refused (fun _ _ hp => hp.1) (fun u _ => (persists_prepared _ _ _).stable)
      fun u _ h hi hp hu => ⟨Hist.le_push _ hp.1, ?_, List.mem_cons_self, fun hpub => ?_⟩
    · exact ⟨⟨List.mem_cons_of_mem _ hp.2.1.1, hp.2.1.2⟩, hp.2.2⟩
    · -- a key that was never drawn was never published
      rcases published_push.mp hpub with hn | hpub
      · exact (hi.1.key_issued _ (published_of_names hn)).elim fun q hq => hu q hq
      · exact (hi.1.key_issued _ hpub).elim fun q hq => hu q hq
  refine AlsoTriple.bind (B := fun out _ h => Answered U t h (.dataset out.1)) ?_
    fun out => AlsoTriple.pure fun _ _ _ hp => hp
  refine shows_session tolerant_refused (fun _ _ => persists_answered _) (fun _ _ _ => answered_since) ?_
  refine AlsoTriple.bind (B := fun out _ h => Answered U t h (.dataset out.1)) ?_ fun out =>
    AlsoTriple.bind (B := fun _ _ h => Answered U t h (.dataset out.1)) (AlsoTriple.assign fun _ _ _ hp => hp)
      fun _ => AlsoTriple.pure fun _ _ _ hp => hp
  refine shows_begin tolerant_refused (fun _ _ => persists_answered _)
    (fun out _ h hb => ?_) (shows_replaceUpload hcall hname hcontent hscan) fun out ws _ h hi hb _ => ?_
  · obtain ⟨d, u, updated_at, columns, -, -, hplace, -⟩ := hb
    exact hplace.1
  · obtain ⟨hchange, hrules⟩ := upload_changes hcall hcontent hb
    obtain ⟨d, u, updated_at, columns, -, -, hplace, -⟩ := hb
    exact ⟨⟨Or.inr ⟨_, hchange⟩, fun r hr => Or.inl (hrules ▸ hr)⟩, .changed hplace.1 Hist.le_rfl hchange⟩

theorem shows_uploadCsv :
    Shows ok F U t (sinceStart t) (uploadCsv U owner_id dataset_id filename source : Body σ _)
      (fun d _ h => Answered U t h (.dataset d)) fun x _ => Refused U t x := by
  refine AlsoTriple.bind (shows_policy fun code hx _ => ?_) fun safe_filename => ?_
  · rw [hcall]
    exact hx
  refine AlsoTriple.assume (fun _ _ _ hp => hp.2) fun hname => ?_
  refine AlsoTriple.bind (B := fun _ => sinceStart t) ?_ fun _ => ?_
  · refine (shows_reading tolerant_refused (fun _ _ => persists_since) (fun _ _ _ hp => hp) ?_).pre
      fun _ _ _ hp => hp.1
    refine shows_findDataset (by rw [hcall]; rfl) (by rw [hcall]; rfl) fun d =>
      AlsoTriple.pure fun _ _ _ ⟨_, _, hle, hle', _⟩ => ⟨rfl, Hist.le_trans hle hle'⟩
  refine AlsoTriple.bind (B := fun c _ h => ∃ content, contentOf source [] = .ok content ∧ t.start ≤ h ∧
    IsCandidate t.pid c content h) ?_ fun candidate => ?_
  · refine (shows_writeCandidate source).post (fun _ _ _ _ hq => hq) fun x _ h _ hz => ?_
    rcases hz with ⟨hle, hx | hx⟩
    · refine ⟨h, hle, Hist.le_rfl, ?_⟩
      rw [hcall]
      rcases contentOf_error hx with rfl | rfl
      · exact hx
      · exact hx
    · exact refused_fault hx hle
  refine AlsoTriple.exists_pre fun content => ?_
  refine AlsoTriple.assume (fun _ _ _ hp => hp.1) fun hcontent => ?_
  refine AlsoTriple.bind (B := fun out _ h => (∀ r, out.1 = .ok r → Answered U t h (.dataset r.1)) ∧
    ∀ x, out.1 = .error x → Refused U t x h) ?_ fun out => ?_
  · refine AlsoTriple.withLocals fun _ => ?_
    refine ((shows_installUpload hcall hname hcontent).pre fun _ _ _ hp => hp.2.2).post
      (fun r _ _ _ hq => ⟨fun r' hr' => ?_, fun x hx => by cases hx⟩)
      fun x _ _ _ hz => ⟨fun r' hr' => (by cases hr'), fun x' hx' => ?_⟩
    · cases hr'
      exact hq
    · cases hx'
      exact hz
  obtain ⟨outcome, v⟩ := out
  cases outcome with
  | error x =>
    -- the compensation raises the same exception, or fails itself
    refine (AlsoTriple.bind (B := fun _ _ => Refused U t x) ?_ fun _ => ?_).pre fun _ _ _ hp => hp.2 x rfl
    · exact shows_unlink tolerant_refused (fun _ _ => refused_since) (fun _ => persists_refused x)
        fun _ _ w => refused_push w
    refine AlsoTriple.bind (B := fun _ _ => Refused U t x) ?_ fun _ => AlsoTriple.raise fun _ _ _ hp => hp
    unfold removeInstalled
    split
    · split
      · exact AlsoTriple.pure fun _ _ _ hp => hp
      · exact shows_removeQuietly (persists_refused x) fun _ w => refused_push w
    · exact AlsoTriple.pure fun _ _ _ hp => hp
  | ok r =>
    obtain ⟨result, old_key, new_key⟩ := r
    have hlast : Persists ok F U t.pid fun h => Answered U t h (.dataset result) := persists_answered _
    refine (AlsoTriple.bind (B := fun _ _ h => Answered U t h (.dataset result)) ?_ fun _ =>
      AlsoTriple.pure fun _ _ _ hp => hp).pre fun _ _ _ hp => hp.1 _ rfl
    unfold removeSuperseded
    split
    · split
      · exact shows_removeQuietly hlast fun _ _ => answered_push
      · exact AlsoTriple.pure fun _ _ _ hp => hp
    · exact AlsoTriple.pure fun _ _ _ hp => hp

end Upload

end DataCheck.Datasets
