import DataCheck.Shared.Alone

/-!
# Content that is written and read back

What `write_candidate` stores from any chunks, and what `_read_verified_content` makes of it.
-/

namespace DataCheck.Analyses

open Lib Shared Datasets

variable {F : Faults} {σ : Type} {q : Pid} {s : σ} {c : Choice} {cs : List Choice} {w : World} {u : Uuid}
  {key : StorageKey} {content file : Bytes}

lemma calm_drop (h : Calm cs) (n : ℕ) : Calm (cs.drop n) := fun c hc => h c (List.mem_of_mem_drop hc)

lemma setFile_setFile (w : World) (name : FileName) (a b : Option Bytes) :
    (w.setFile name a).setFile name b = w.setFile name b := by
  simp only [World.setFile, Function.update_idem]

/-! ### Writing -/

lemma solo_copyChunk {chunk written : Bytes} {source : Source} (hne : chunk ≠ []) (hc : c.fault = .none)
    (hw : w.files (.candidate u) = some written) (hle : written.length + chunk.length ≤ maxCsvBytes) :
    (copyChunks u (some chunk :: source) written s).solo (machine F) q (c :: cs) w =
      (copyChunks u source (written ++ chunk) s).solo (machine F) q cs
        (w.setFile (.candidate u) (some (written ++ chunk))) := by
  obtain ⟨byte, chunk, rfl⟩ := List.exists_cons_of_ne_nil hne
  have hwrite : w.perform q c (.write u (byte :: chunk)) =
      some (.ok (), w.setFile (.candidate u) (some (written ++ byte :: chunk))) := by
    simp only [World.perform, hw, Option.map_some]
  rw [copyChunks, if_neg (Nat.not_lt.mpr hle)]
  exact Op.solo_bind_ok (solo_perform hc hwrite)

lemma setFile_self {content : Bytes} (hw : w.files (.candidate u) = some content) :
    w.setFile (.candidate u) (some content) = w := by
  rw [World.setFile, ← hw, Function.update_eq_self]

/-- The loop of `write_candidate` copies every chunk, as long as the limit is not exceeded. -/
lemma solo_copyChunks : ∀ {reads : List Bytes}, (∀ chunk ∈ reads, chunk ≠ []) → ∀ {written : Bytes} {cs : List Choice}
    {w : World}, Calm cs → reads.length ≤ cs.length → w.files (.candidate u) = some written →
    (written ++ reads.flatten).length ≤ maxCsvBytes →
    (copyChunks u (reads.map some) written s).solo (machine F) q cs w =
      some ((.ok (written ++ reads.flatten), s), w.setFile (.candidate u) (some (written ++ reads.flatten)),
        cs.drop reads.length)
  | [], _, written, cs, w, _, _, hw, _ => by
    rw [List.flatten_nil, List.append_nil, setFile_self hw]
    rfl
  | chunk :: reads, hne, written, cs, w, hcalm, hlen, hw, hle => by
    obtain ⟨c, cs, rfl⟩ := List.exists_cons_of_length_pos (l := cs) (by simp only [List.length_cons] at hlen; omega)
    obtain ⟨hc, hcalm⟩ := calm_cons.mp hcalm
    rw [List.flatten_cons, ← List.append_assoc] at hle ⊢
    have hfit : written.length + chunk.length ≤ maxCsvBytes := by
      simp only [List.length_append] at hle
      omega
    rw [List.map_cons, solo_copyChunk (hne _ List.mem_cons_self) hc hw hfit,
      solo_copyChunks (fun x hx => hne x (List.mem_cons_of_mem _ hx)) hcalm (Nat.le_of_succ_le_succ hlen)
        (Function.update_self ..) hle, setFile_setFile]
    rfl

lemma solo_copyChunks_tooLarge : ∀ {reads : List Bytes}, (∀ chunk ∈ reads, chunk ≠ []) → ∀ {written : Bytes}
    {cs : List Choice} {w : World}, Calm cs → reads.length ≤ cs.length → w.files (.candidate u) = some written →
    written.length ≤ maxCsvBytes → maxCsvBytes < (written ++ reads.flatten).length →
    ∃ begun n, n < reads.length ∧ (copyChunks u (reads.map some) written s).solo (machine F) q cs w =
      some ((.error .fileTooLarge, s), w.setFile (.candidate u) begun, cs.drop n)
  | [], _, written, cs, w, _, _, _, hle, hlt => by
    rw [List.flatten_nil, List.append_nil] at hlt
    omega
  | chunk :: reads, hne, written, cs, w, hcalm, hlen, hw, hle, hlt => by
    by_cases hfit : written.length + chunk.length ≤ maxCsvBytes
    · obtain ⟨c, cs, rfl⟩ := List.exists_cons_of_length_pos (l := cs) (by simp only [List.length_cons] at hlen; omega)
      obtain ⟨hc, hcalm⟩ := calm_cons.mp hcalm
      rw [List.flatten_cons, ← List.append_assoc] at hlt
      have hnow : (w.setFile (.candidate u) (some (written ++ chunk))).files (.candidate u) = some (written ++ chunk) :=
        Function.update_self ..
      obtain ⟨rest, n, hn, hrest⟩ := solo_copyChunks_tooLarge (fun x hx => hne x (List.mem_cons_of_mem _ hx)) hcalm
        (Nat.le_of_succ_le_succ hlen) hnow (by rwa [List.length_append]) hlt
      refine ⟨rest, n + 1, Nat.succ_lt_succ hn, ?_⟩
      rw [List.map_cons, solo_copyChunk (hne _ List.mem_cons_self) hc hw hfit, hrest, setFile_setFile]
      rfl
    · -- this chunk exceeds the limit, and is not written
      obtain ⟨byte, chunk, rfl⟩ := List.exists_cons_of_ne_nil (hne _ List.mem_cons_self)
      refine ⟨some written, 0, Nat.succ_pos _, ?_⟩
      rw [List.map_cons, copyChunks, if_pos (Nat.not_le.mp hfit), setFile_self hw]
      rfl

/-- The file that `write_candidate` makes of a content. -/
def candidateOf (u : Uuid) (content : Bytes) : CandidateFile := ⟨u, content.length, sha256 content⟩

/-- The world in which the thread `q` has created an empty candidate. -/
def begun (w : World) (q : Pid) (u : Uuid) : World :=
  { w with issued := (q, u) :: w.issued }.setFile (.candidate u) (some [])

lemma solo_create {α : Type} {f : Uuid → Body σ α} {c' : Choice} (hc : c.fault = .none) (hc' : c'.fault = .none)
    (hu : c.uuid ∉ w.issued.map Prod.snd) (hw : w.files (.candidate c.uuid) = none) :
    ((Body.uuid4 >>= fun u => Body.perform (.create u) >>= fun _ => f u : Body σ α) s).solo (machine F) q
      (c :: c' :: cs) w = (f c.uuid s).solo (machine F) q cs (begun w q c.uuid) := by
  have huuid : w.perform q c .uuid4 = some (.ok c.uuid, { w with issued := (q, c.uuid) :: w.issued }) := by
    rw [World.perform, if_neg hu]
  have hcreate : ({ w with issued := (q, c.uuid) :: w.issued } : World).perform q c' (.create c.uuid) =
      some (.ok (), begun w q c.uuid) := by
    simp only [World.perform, hw, begun]
  refine (Op.solo_bind_ok (solo_perform hc huuid)).trans ?_
  exact Op.solo_bind_ok (solo_perform hc' hcreate)

lemma files_setFile_begun (content : Option Bytes) :
    ((begun w q u).setFile (.candidate u) content).files = Function.update w.files (.candidate u) content := by
  simp only [begun, World.setFile, Function.update_idem]

section Write

variable {reads : List Bytes} {c' : Choice}

/-- **A content within the limit is written as it is.** -/
lemma solo_writeCandidate (hreads : ∀ chunk ∈ reads, chunk ≠ []) (hc : c.fault = .none) (hc' : c'.fault = .none)
    (hcalm : Calm cs) (hlen : reads.length ≤ cs.length) (hu : c.uuid ∉ w.issued.map Prod.snd)
    (hw : w.files (.candidate c.uuid) = none) (hle : reads.flatten.length ≤ maxCsvBytes) :
    (writeCandidate (reads.map some) s).solo (machine F) q (c :: c' :: cs) w =
      some ((.ok (candidateOf c.uuid reads.flatten), s),
        (begun w q c.uuid).setFile (.candidate c.uuid) (some reads.flatten), cs.drop reads.length) := by
  refine (solo_create hc hc' hu hw).trans ?_
  refine Op.solo_bind_ok (Op.solo_catching_ok ?_)
  exact solo_copyChunks hreads hcalm hlen (Function.update_self ..) hle

/-- **A content beyond the limit is refused, and nothing of it is left.** -/
lemma solo_writeCandidate_tooLarge (hreads : ∀ chunk ∈ reads, chunk ≠ []) (hc : c.fault = .none)
    (hc' : c'.fault = .none) (hcalm : Calm cs) (hlen : reads.length ≤ cs.length)
    (hu : c.uuid ∉ w.issued.map Prod.snd) (hw : w.files (.candidate c.uuid) = none)
    (hlt : maxCsvBytes < reads.flatten.length) :
    ∃ n, (writeCandidate (reads.map some) s).solo (machine F) q (c :: c' :: cs) w =
      some ((.error .fileTooLarge, s), (begun w q c.uuid).setFile (.candidate c.uuid) none, cs.drop n) := by
  obtain ⟨rest, n, hn, hrest⟩ := solo_copyChunks_tooLarge (F := F) (q := q) (s := s) (w := begun w q c.uuid) hreads hcalm
    hlen (Function.update_self ..) (Nat.zero_le _) hlt
  -- the handler removes the file
  obtain ⟨c₁, cs₁, hcs⟩ := List.exists_cons_of_length_pos (l := cs.drop n) (by rw [List.length_drop]; omega)
  have hc₁ : c₁.fault = .none := hcalm c₁ (List.mem_of_mem_drop (hcs ▸ List.mem_cons_self))
  have htail : cs.drop (n + 1) = cs₁ := by rw [← List.drop_drop, hcs, List.drop_succ_cons, List.drop_zero]
  refine ⟨n + 1, (solo_create hc hc' hu hw).trans ?_⟩
  refine Op.solo_bind_error ((Op.solo_catching_error hrest).trans ?_)
  rw [hcs, htail, ← setFile_setFile (begun w q c.uuid) _ rest none]
  exact (Op.solo_bind_ok (solo_perform hc₁ rfl)).trans rfl

lemma solo_install {candidate : CandidateFile} (hc : c.fault = .none) (hc' : c'.fault = .none)
    (hw : w.files (.candidate candidate.uuid) = some content) :
    (install candidate key s).solo (machine F) q (c :: c' :: cs) w =
      some ((.ok (), s), (w.setFile (.stored key) (some content)).setFile (.candidate candidate.uuid) none, cs) := by
  have hreplace : w.perform q c (.replace candidate.uuid key) =
      some (.ok (), (w.setFile (.stored key) (some content)).setFile (.candidate candidate.uuid) none) := by
    simp only [World.perform, hw]
  have hfile : ((w.setFile (.stored key) (some content)).setFile (.candidate candidate.uuid) none).files (.stored key) =
      some content := by
    simp [World.setFile]
  have hchmod : ((w.setFile (.stored key) (some content)).setFile (.candidate candidate.uuid) none).perform q c'
      (.chmod key) = some (.ok (), (w.setFile (.stored key) (some content)).setFile (.candidate candidate.uuid) none) := by
    rw [World.perform, hfile, if_neg (by simp)]
  exact (Op.solo_bind_ok (solo_perform hc hreplace)).trans (solo_perform hc' hchmod)

end Write

/-! ### Reading -/

section Read

variable {reads : List Bytes}

/-- The loop of `_read_verified_content` on a content within the limit. -/
lemma solo_readChunks : ∀ {reads : List Bytes} {content : Bytes} {cs : List Choice}, Calm cs →
    reads.length ≤ cs.length → (content ++ reads.flatten).length ≤ maxCsvBytes →
    (readChunks reads content s).solo (machine F) q cs w =
      some ((.ok (content ++ reads.flatten), s), w, cs.drop reads.length)
  | [], content, cs, _, _, _ => by
    rw [List.flatten_nil, List.append_nil]
    rfl
  | chunk :: reads, content, cs, hcalm, hlen, hle => by
    obtain ⟨c, cs, rfl⟩ := List.exists_cons_of_length_pos (l := cs) (by simp only [List.length_cons] at hlen; omega)
    obtain ⟨hc, hcalm⟩ := calm_cons.mp hcalm
    rw [List.flatten_cons, ← List.append_assoc] at hle ⊢
    have hfit : ¬ maxCsvBytes < (content ++ chunk).length := by
      rw [List.length_append] at hle
      omega
    refine (Op.solo_bind_ok (Op.solo_catching_ok (solo_perform hc rfl))).trans ?_
    rw [if_neg hfit, solo_readChunks hcalm (Nat.le_of_succ_le_succ hlen) hle]
    rfl

/-- The loop of `_read_verified_content` on a content beyond the limit. -/
lemma solo_readChunks_tooLarge : ∀ {reads : List Bytes} {content : Bytes} {cs : List Choice}, Calm cs →
    reads.length ≤ cs.length → content.length ≤ maxCsvBytes → maxCsvBytes < (content ++ reads.flatten).length →
    ∃ cs', (readChunks reads content s).solo (machine F) q cs w =
      some ((.error (.integrityFault .overByteLimit), s), w, cs')
  | [], content, cs, _, _, hle, hlt => by
    rw [List.flatten_nil, List.append_nil] at hlt
    omega
  | chunk :: reads, content, cs, hcalm, hlen, hle, hlt => by
    obtain ⟨c, cs, rfl⟩ := List.exists_cons_of_length_pos (l := cs) (by simp only [List.length_cons] at hlen; omega)
    obtain ⟨hc, hcalm⟩ := calm_cons.mp hcalm
    by_cases hfit : maxCsvBytes < (content ++ chunk).length
    · refine ⟨cs, (Op.solo_bind_ok (Op.solo_catching_ok (solo_perform hc rfl))).trans ?_⟩
      rw [if_pos hfit]
      rfl
    · rw [List.flatten_cons, ← List.append_assoc] at hlt
      obtain ⟨cs', hrest⟩ := solo_readChunks_tooLarge hcalm (Nat.le_of_succ_le_succ hlen) (Nat.not_lt.mp hfit) hlt
      refine ⟨cs', (Op.solo_bind_ok (Op.solo_catching_ok (solo_perform hc rfl))).trans ?_⟩
      rw [if_neg hfit, hrest]

end Read

/-- `_read_verified_content`, where the file is read in the pieces of `split`. -/
def readVerifiedWith (split : Bytes → List Bytes) (storage_key : StorageKey) (source : SourceSnapshot) :
    Body σ Bytes := do
  let file ← (openBinary storage_key : Body σ Bytes).catching fun _ =>
    Body.raise (.integrityFault .csvUnavailable)
  let content ← readChunks (split file) []
  if content.length ≠ source.size_bytes then Body.raise (.integrityFault .sizeMismatch)
  else if sha256 content ≠ source.content_sha256 then Body.raise (.integrityFault .hashMismatch)
  else pure content

/-- Successive reads of a file: none is empty, and together they are the file. -/
def Splits (split : Bytes → List Bytes) : Prop := ∀ b, (∀ chunk ∈ split b, chunk ≠ []) ∧ (split b).flatten = b

lemma readsOf_ne_nil {n : ℕ} (hn : 0 < n) : ∀ {fuel : ℕ} {b : Bytes}, ∀ chunk ∈ readsOf n fuel b, chunk ≠ []
  | 0, _ => by simp [readsOf]
  | _ + 1, [] => by simp [readsOf]
  | fuel + 1, x :: b => by
    rw [readsOf]
    refine List.forall_mem_cons.mpr ⟨?_, readsOf_ne_nil hn⟩
    obtain ⟨n, rfl⟩ := Nat.exists_eq_succ_of_ne_zero (Nat.pos_iff_ne_zero.mp hn)
    exact List.cons_ne_nil _ _

/-- The reads of `_READ_CHUNK_BYTES`. -/
lemma splits_chunks : Splits (chunks readChunkBytes) := fun b => ⟨readsOf_ne_nil (by decide), chunks_flatten (by decide) b⟩

lemma readVerifiedContent_eq (storage_key : StorageKey) (source : SourceSnapshot) :
    (readVerifiedContent storage_key source : Body σ Bytes) =
      readVerifiedWith (chunks readChunkBytes) storage_key source := rfl

/-- What the checks make of the bytes of a file. -/
def verified (source : SourceSnapshot) (file : Bytes) : Except Exn Bytes :=
  if maxCsvBytes < file.length then .error (.integrityFault .overByteLimit)
  else if file.length ≠ source.size_bytes then .error (.integrityFault .sizeMismatch)
  else if sha256 file ≠ source.content_sha256 then .error (.integrityFault .hashMismatch)
  else .ok file

/-- **Reading depends on the bytes of the file only.** -/
lemma solo_readVerifiedWith (source : SourceSnapshot) {split : Bytes → List Bytes} (hsplit : Splits split)
    (hw : w.files (.stored key) = some file) (hcalm : Calm cs) (hlen : (split file).length < cs.length) :
    ∃ cs', (readVerifiedWith split key source s).solo (machine F) q cs w =
      some ((verified source file, s), w, cs') := by
  obtain ⟨c, cs, rfl⟩ := List.exists_cons_of_length_pos (l := cs) (by omega)
  obtain ⟨hc, hcalm⟩ := calm_cons.mp hcalm
  have hopen : w.perform q c (.openBinary key) = some (.ok file, w) := by
    simp only [World.perform, hw]
  have hrun : ∀ {f : Bytes → Body σ Bytes}, ((((openBinary key : Body σ Bytes).catching fun _ =>
      Body.raise (.integrityFault .csvUnavailable)) >>= f) s).solo (machine F) q (c :: cs) w =
        (f file s).solo (machine F) q cs w :=
    Op.solo_bind_ok (Op.solo_catching_ok (solo_perform hc hopen))
  have hflat : [] ++ (split file).flatten = file := (hsplit file).2
  by_cases hlt : maxCsvBytes < file.length
  · obtain ⟨cs', hread⟩ := @solo_readChunks_tooLarge F _ q s w (split file) [] cs hcalm
      (Nat.le_of_succ_le_succ hlen) (Nat.zero_le _) (by rwa [hflat])
    refine ⟨cs', hrun.trans ((Op.solo_bind_error hread).trans ?_)⟩
    rw [verified, if_pos hlt]
  · have hread := @solo_readChunks F _ q s w (split file) [] cs hcalm
      (Nat.le_of_succ_le_succ hlen) (by rw [hflat]; omega)
    rw [hflat] at hread
    refine ⟨cs.drop (split file).length, hrun.trans ((Op.solo_bind_ok hread).trans ?_)⟩
    rw [verified, if_neg hlt]
    by_cases hsize : file.length = source.size_bytes
    · by_cases hhash : sha256 file = source.content_sha256
      · rw [if_neg (not_not.mpr hsize), if_neg (not_not.mpr hhash), if_neg (not_not.mpr hsize), if_neg (not_not.mpr hhash)]
        rfl
      · rw [if_neg (not_not.mpr hsize), if_pos hhash, if_neg (not_not.mpr hsize), if_pos hhash]
        rfl
    · rw [if_pos hsize, if_pos hsize]
      rfl

/-! ### Every loop ends -/

lemma within_copyChunks : ∀ (source : Source) (written : Bytes),
    Op.Within source.length (copyChunks u source written : Body σ Bytes)
  | [], _ => Op.within_pure
  | none :: _, _ => Op.within_raise.mono (Nat.zero_le _)
  | some [] :: _, _ => Op.within_pure.mono (Nat.zero_le _)
  | some (byte :: chunk) :: source, written => by
    rw [copyChunks]
    split
    · exact Op.within_raise.mono (Nat.zero_le _)
    · exact (Op.within_perform.bind fun _ => within_copyChunks source _).mono (by simp only [List.length_cons]; omega)

/-- `write_candidate` ends on every finite source, whatever fails. -/
lemma within_writeCandidate (source : Source) :
    Op.Within (source.length + 3) (writeCandidate source : Body σ CandidateFile) := by
  have hunlink : ∀ (u : Uuid) (x : Exn), Op.Within 1 (Body.perform (.unlink (.candidate u)) >>= fun _ =>
      (Body.raise x : Body σ Bytes)) := fun u x => Op.within_perform.bind fun _ => Op.within_raise
  have hloop : ∀ u : Uuid, Op.Within (source.length + 1) ((copyChunks u source [] : Body σ Bytes).catching fun x =>
      Body.perform (.unlink (.candidate u)) >>= fun _ => Body.raise x) :=
    fun u => (within_copyChunks source []).catching fun x => hunlink u x
  have hbody : ∀ u : Uuid, Op.Within (source.length + 1) (((copyChunks u source [] : Body σ Bytes).catching fun x =>
      Body.perform (.unlink (.candidate u)) >>= fun _ => Body.raise x) >>= fun written =>
        (pure ⟨u, written.length, sha256 written⟩ : Body σ CandidateFile)) :=
    fun u => (hloop u).bind fun _ => Op.within_pure
  have hcreate : ∀ u : Uuid, Op.Within (1 + (source.length + 1)) (Body.perform (.create u) >>= fun _ =>
      ((copyChunks u source [] : Body σ Bytes).catching fun x =>
        Body.perform (.unlink (.candidate u)) >>= fun _ => Body.raise x) >>= fun written =>
          (pure ⟨u, written.length, sha256 written⟩ : Body σ CandidateFile)) :=
    fun u => Op.within_perform.bind fun _ => hbody u
  have hall : Op.Within (1 + (1 + (source.length + 1))) (writeCandidate source : Body σ CandidateFile) :=
    Op.Within.bind (Op.within_perform (e := Eff.uuid4)) hcreate
  exact hall.mono (by omega)

/-- The loop of `_read_verified_content` ends. -/
lemma within_readChunks : ∀ (reads : List Bytes) (content : Bytes),
    Op.Within reads.length (readChunks reads content : Body σ Bytes)
  | [], _ => Op.within_pure
  | chunk :: reads, content => by
    have hread : Op.Within 1 ((Body.perform .read : Body σ Unit).catching fun _ =>
        Body.raise (.integrityFault .csvUnavailable)) := Op.within_perform.catching fun _ => Op.within_raise
    refine (hread.bind fun _ => ?_).mono (k := (chunk :: reads).length) (Nat.le_of_eq (Nat.add_comm _ _))
    split
    · exact Op.within_raise.mono (Nat.zero_le _)
    · exact within_readChunks reads _

/-! ### The round trip -/

/-- **Writing and verified reading are inverse up to the limit.**  However a source is split into chunks: a
content beyond the limit is refused and leaves no candidate; any other is written exactly, under its size and
digest, and becomes the file of any key.  However a file is split into reads: with that size and digest the
content is read back, and any other file that is no collision is refused.  All loops end. -/
theorem write_read_inverse (F : Faults) (q : Pid) (s : σ) :
    (∀ (reads : List Bytes) (c c' : Choice) (cs : List Choice) (w : World), (∀ chunk ∈ reads, chunk ≠ []) →
      Calm (c :: c' :: cs) → reads.length + 2 ≤ cs.length → c.uuid ∉ w.issued.map Prod.snd →
      w.files (.candidate c.uuid) = none → ∃ w₁ cs₁,
      (maxCsvBytes < reads.flatten.length →
        (writeCandidate (reads.map some) s).solo (machine F) q (c :: c' :: cs) w =
            some ((.error .fileTooLarge, s), w₁, cs₁) ∧ w₁.files = w.files) ∧
      (reads.flatten.length ≤ maxCsvBytes →
        (writeCandidate (reads.map some) s).solo (machine F) q (c :: c' :: cs) w =
            some ((.ok ⟨c.uuid, reads.flatten.length, sha256 reads.flatten⟩, s), w₁, cs₁) ∧
        w₁.files = Function.update w.files (.candidate c.uuid) (some reads.flatten) ∧
        ∀ key, ∃ w₂ cs₂, (install ⟨c.uuid, reads.flatten.length, sha256 reads.flatten⟩ key s).solo (machine F) q cs₁ w₁ =
            some ((.ok (), s), w₂, cs₂) ∧
          w₂.files = Function.update w.files (.stored key) (some reads.flatten))) ∧
    ((∀ storage_key source, (readVerifiedContent storage_key source : Body σ Bytes) =
        readVerifiedWith (chunks readChunkBytes) storage_key source) ∧ Splits (chunks readChunkBytes)) ∧
    (∀ (split : Bytes → List Bytes) (content file : Bytes) (source : SourceSnapshot) (key : StorageKey)
      (cs : List Choice) (w : World), Splits split → content.length ≤ maxCsvBytes →
      source.size_bytes = content.length → source.content_sha256 = sha256 content →
      w.files (.stored key) = some file → Calm cs → (split file).length < cs.length →
      ∃ out cs', (readVerifiedWith split key source s).solo (machine F) q cs w = some ((out, s), w, cs') ∧
        (file = content → out = .ok content) ∧
        (file ≠ content → (sha256 file = sha256 content → file = content) →
          ∃ x, out = .error (.integrityFault x))) ∧
    (∀ source, Op.Within (source.length + 3) (writeCandidate source : Body σ CandidateFile)) ∧
    ∀ reads content, Op.Within reads.length (readChunks reads content : Body σ Bytes) := by
  refine ⟨fun reads c c' cs w hreads hcalm hlen hu hw => ?_, ⟨readVerifiedContent_eq, splits_chunks⟩, ?_,
    within_writeCandidate, within_readChunks⟩
  · obtain ⟨hc, hcalm⟩ := calm_cons.mp hcalm
    obtain ⟨hc', hcalm⟩ := calm_cons.mp hcalm
    by_cases hlt : maxCsvBytes < reads.flatten.length
    · obtain ⟨n, hrun⟩ := solo_writeCandidate_tooLarge (s := s) (F := F) (q := q) hreads hc hc' hcalm (by omega) hu hw hlt
      refine ⟨_, _, fun _ => ⟨hrun, ?_⟩, fun hle => absurd hlt (Nat.not_lt.mpr hle)⟩
      rw [files_setFile_begun, ← hw, Function.update_eq_self]
    · have hle := Nat.not_lt.mp hlt
      refine ⟨_, _, fun h => absurd h hlt, fun _ => ⟨solo_writeCandidate hreads hc hc' hcalm (by omega) hu hw hle,
        files_setFile_begun _, fun key => ?_⟩⟩
      -- two more effects install the file
      obtain ⟨c₁, cs₁, hcs₁⟩ := List.exists_cons_of_length_pos (l := cs.drop reads.length) (by
        rw [List.length_drop]
        omega)
      obtain ⟨c₂, cs₂, rfl⟩ := List.exists_cons_of_length_pos (l := cs₁) (by
        have hlen' := congrArg List.length hcs₁
        rw [List.length_drop, List.length_cons] at hlen'
        omega)
      have hcalm' := calm_drop hcalm reads.length
      rw [hcs₁, calm_cons, calm_cons] at hcalm'
      rw [hcs₁]
      refine ⟨_, cs₂, solo_install hcalm'.1 hcalm'.2.1 (Function.update_self ..), ?_⟩
      have hother : FileName.candidate c.uuid ≠ FileName.stored key := by simp
      simp only [World.setFile, begun, Function.update_idem]
      rw [Function.update_comm hother, Function.update_idem, Function.update_comm hother.symm, ← hw, Function.update_eq_self]
  · intro split content file source key cs w hsplit hle hsize hhash hw hcalm hlen
    obtain ⟨cs', hrun⟩ := solo_readVerifiedWith source hsplit hw hcalm hlen
    refine ⟨_, cs', hrun, ?_, ?_⟩
    · rintro rfl
      rw [verified, if_neg (Nat.not_lt.mpr hle), if_neg (not_not.mpr hsize.symm), if_neg (not_not.mpr hhash.symm)]
    · intro hne hcollision
      rw [verified, hhash]
      split
      · exact ⟨_, rfl⟩
      · split
        · exact ⟨_, rfl⟩
        · split
          · exact ⟨_, rfl⟩
          · next hsame => exact absurd (hcollision (not_not.mp hsame)) hne

namespace Sample

def sound : Faults := ⟨fun _ => false, false⟩

/-- A few effects without a fault, which draw the UUID 1. -/
def steps : List Choice := List.replicate 8 ⟨.none, 5, 1⟩

lemma calm_steps : Calm steps := fun c hc => by rw [List.eq_of_mem_replicate hc]

def bytes : Bytes := [97, 10, 49, 10]

/-- Its columns in the database. -/
def stored : SourceSnapshot := ⟨py "f.csv", sha256 bytes, 4, 1, [py "a"], 5⟩

end Sample

/-- Four bytes are written in two chunks, become a file, and are read back. -/
theorem write_read_inverse_sample : ∃ w₁ cs₁ w₂ cs₂ cs₃,
    (writeCandidate [some [97, 10], some [49, 10]] ()).solo (machine Sample.sound) 0 Sample.steps World.empty =
      some ((.ok ⟨1, 4, sha256 Sample.bytes⟩, ()), w₁, cs₁) ∧
    (install ⟨1, 4, sha256 Sample.bytes⟩ ⟨2⟩ ()).solo (machine Sample.sound) 0 cs₁ w₁ = some ((.ok (), ()), w₂, cs₂) ∧
    (readVerifiedContent ⟨2⟩ Sample.stored ()).solo (machine Sample.sound) 0 Sample.steps w₂ =
      some ((.ok Sample.bytes, ()), w₂, cs₃) := by
  obtain ⟨hwrite, ⟨heq, hsplits⟩, hread, -⟩ := write_read_inverse Sample.sound 0 ()
  obtain ⟨w₁, cs₁, -, hwritten⟩ := hwrite [[97, 10], [49, 10]] _ _ _ World.empty (by decide) Sample.calm_steps (by decide)
    List.not_mem_nil rfl
  obtain ⟨hrun, -, hinstall⟩ := hwritten (by decide)
  obtain ⟨w₂, cs₂, hrun', hfiles⟩ := hinstall ⟨2⟩
  have hfile : w₂.files (.stored ⟨2⟩) = some Sample.bytes := by
    rw [hfiles]
    exact Function.update_self ..
  obtain ⟨out, cs₃, hrun'', hsame, -⟩ := hread (chunks readChunkBytes) Sample.bytes Sample.bytes Sample.stored ⟨2⟩
    Sample.steps w₂ hsplits (by decide) rfl rfl hfile Sample.calm_steps (by decide +kernel)
  rw [hsame rfl] at hrun''
  exact ⟨w₁, cs₁, w₂, cs₂, cs₃, hrun, hrun', heq ⟨2⟩ Sample.stored ▸ hrun''⟩

end DataCheck.Analyses
