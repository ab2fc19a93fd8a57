import DataCheck.Lib.Lockstep
import DataCheck.Shared.Ownership
import DataCheck.Shared.Steps

/-!
# Effects on an owner's data

Which effects a service call may perform for an owner, and what each of them does: in two worlds
that agree on the owner's data it answers the same and the worlds agree again, and it leaves the
rows and the files of every other owner alone.
-/

namespace DataCheck.Shared

open Lib Datasets Analyses

variable {F : Faults} {p : Pid} {o A : Uuid} {old : Uuid → Prop} {w w' v v' : World}

/-- The UUID that a file is named by. -/
def FileName.uuid : FileName → Uuid
  | .candidate u => u
  | .stored key => key.uuid

def World.Issued (w : World) (u : Uuid) : Prop := u ∈ w.issued.map Prod.snd

/-- The rows satisfy the constraints of the database, and whatever has a name drew it. -/
structure World.WellFormed (w : World) : Prop where
  db : w.db.WellFormed w.Issued
  files : ∀ name content, w.files name = some content → w.Issued name.uuid

/-- The two worlds have the same rows and the same files of the owner. -/
structure Agree (o : Uuid) (w v : World) : Prop where
  rows : w.db.ownRows o = v.db.ownRows o
  files : ∀ key, (w.db.ownRows o).Names key → w.files (.stored key) = v.files (.stored key)

lemma Agree.refl (w : World) : Agree o w w := ⟨rfl, fun _ _ => rfl⟩

lemma Agree.trans {w₁ w₂ w₃ : World} (h : Agree o w₁ w₂) (h' : Agree o w₂ w₃) : Agree o w₁ w₃ :=
  ⟨h.rows.trans h'.rows, fun key hk => (h.files key hk).trans (h'.files key (h.rows ▸ hk))⟩

/-! ### The effects of an owner's calls -/

/-- A UUID that was drawn, and is not `old`. -/
abbrev World.New (w : World) (old : Uuid → Prop) : Uuid → Prop := Db.New w.Issued old

/-- The effects that a call may perform for the owner, where the UUIDs drawn by other calls are
`old`. -/
def MayDo (o : Uuid) (old : Uuid → Prop) (w : World) : Eff → Prop
  | .query q => Db.MayQuery o (w.db.ownRows o) q
  | .getForOwnerForUpdate _ owner_id => owner_id = o
  | .flush ws => Db.MayWrites (w.New old) o (w.db.ownRows o) ws
  | .commit ws => Db.MayWrites (w.New old) o (w.db.ownRows o) ws ∧ w.db.firstError ws = none
  | .create u | .write u _ | .readCandidate u | .unlink (.candidate u) => w.New old u
  | .replace u key => w.New old u ∧ w.New old key.uuid
  | .chmod key => w.New old key.uuid
  | .unlink (.stored key) => ∀ A, A ≠ o → ¬ (w.db.ownRows A).Names key
  | .openBinary key => (w.db.ownRows o).Names key
  | _ => True

/-- The same answer, as far as it is looked at. -/
def Eff.Same : (e : Eff) → Except Exn e.Resp → Except Exn e.Resp → Prop
  | .query q, .ok a, .ok b => q.Same a b
  | _, r, r' => r = r'

/-- Everything that is not `old` is the owner's. -/
structure Private (o : Uuid) (old : Uuid → Prop) (w : World) : Prop where
  wellFormed : w.WellFormed
  new : w.db.NewIsOf o old
  issued : ∀ u, old u → w.Issued u

/-- A call for the owner. -/
def ownData (o : Uuid) (old : Uuid → Prop) : Discipline Eff (fun e => Except Exn e.Resp) World where
  Inv := Private o old
  May := MayDo o old
  Same := Eff.Same

/-- The two worlds agree on what the owner has and on what is not `old`. -/
structure Alike (o : Uuid) (old : Uuid → Prop) (w v : World) : Prop where
  agree : Agree o w v
  files : ∀ name, ¬ old name.uuid → w.files name = v.files name
  issued : w.issued = v.issued
  locks : w.locks = v.locks
  left : Private o old w
  right : Private o old v

lemma Alike.refl (h : Private o old w) : Alike o old w w :=
  ⟨.refl w, fun _ _ => rfl, rfl, rfl, h, h⟩

/-! ### What changes in a world -/

lemma Private.locksOnly (h : Private o old w) (hw : LocksOnly w w') : Private o old w' := by
  obtain ⟨⟨hdb, hfiles⟩, hnew, hissued⟩ := h
  have hi : w'.Issued = w.Issued := congrArg (fun l u => u ∈ List.map Prod.snd l) hw.issued
  refine ⟨⟨?_, ?_⟩, ?_, ?_⟩
  · rw [hw.db, hi]
    exact hdb
  · rw [hw.files, hi]
    exact hfiles
  · rw [hw.db]
    exact hnew
  · rw [hi]
    exact hissued

lemma Private.setFile (h : Private o old w) {name : FileName} {content : Option Bytes}
    (hname : content = none ∨ w.Issued name.uuid) : Private o old (w.setFile name content) := by
  refine ⟨⟨h.wellFormed.db, fun other bytes hf => ?_⟩, h.new, h.issued⟩
  simp only [World.setFile, Function.update_apply] at hf
  split at hf
  · next he =>
    subst he
    rcases hname with rfl | hname
    · cases hf
    · exact hname
  · exact h.wellFormed.files other bytes hf

lemma Db.WellFormed.mono {issued issued' : Uuid → Prop} {db : Db} (h : db.WellFormed issued)
    (hi : ∀ u, issued u → issued' u) : db.WellFormed issued' :=
  { h with
    dataset_issued := fun d hd => hi _ (h.dataset_issued d hd)
    key_issued := fun d hd u hu => hi _ (h.key_issued d hd u hu)
    rule_issued := fun r hr => hi _ (h.rule_issued r hr)
    analysis_issued := fun a ha => hi _ (h.analysis_issued a ha) }

lemma Private.draw (h : Private o old w) (q : Pid × Uuid) : Private o old { w with issued := q :: w.issued } := by
  have hi : ∀ u, w.Issued u → World.Issued { w with issued := q :: w.issued } u := fun u hu =>
    List.mem_cons_of_mem _ hu
  exact ⟨⟨h.wellFormed.db.mono hi, fun name content hf => hi _ (h.wellFormed.files name content hf)⟩, h.new,
    fun u hu => hi u (h.issued u hu)⟩

lemma Private.apply (h : Private o old w) {ws : List Write}
    (hm : Db.MayWrites (w.New old) o (w.db.ownRows o) ws) (he : w.db.firstError ws = none) :
    Private o old (w.apply ws) := by
  obtain ⟨hw, hn, -, -⟩ := Db.ownRows_applyAll h.wellFormed.db h.new hm he
  exact ⟨⟨hw, h.wellFormed.files⟩, hn, h.issued⟩

lemma Alike.locksOnly (h : Alike o old w v) (hw : LocksOnly w w') (hv : LocksOnly v v')
    (hl : w'.locks = v'.locks) : Alike o old w' v' where
  agree := ⟨by rw [hw.db, hv.db]; exact h.agree.rows, by rw [hw.db, hw.files, hv.files]; exact h.agree.files⟩
  files := by rw [hw.files, hv.files]; exact h.files
  issued := by rw [hw.issued, hv.issued]; exact h.issued
  locks := hl
  left := h.left.locksOnly hw
  right := h.right.locksOnly hv

lemma Alike.unlock (h : Alike o old w v) (p : Pid) : Alike o old (w.unlock p) (v.unlock p) :=
  h.locksOnly (locksOnly_unlock w p) (locksOnly_unlock v p) (by simp only [World.unlock, h.locks])

lemma Alike.issued_iff (h : Alike o old w v) (u : Uuid) : w.Issued u ↔ v.Issued u := by
  rw [World.Issued, World.Issued, h.issued]

lemma Alike.new_eq (h : Alike o old w v) : w.New old = v.New old := by
  funext u
  exact propext (and_congr_left fun _ => h.issued_iff u)

lemma Alike.setFile (h : Alike o old w v) {name : FileName} {content : Option Bytes}
    (hname : content = none ∨ w.Issued name.uuid) :
    Alike o old (w.setFile name content) (v.setFile name content) where
  agree := by
    refine ⟨h.agree.rows, fun key hk => ?_⟩
    simp only [World.setFile, Function.update_apply]
    split
    · rfl
    · exact h.agree.files key hk
  files other ho := by
    simp only [World.setFile, Function.update_apply]
    split
    · rfl
    · exact h.files other ho
  issued := h.issued
  locks := h.locks
  left := h.left.setFile hname
  right := h.right.setFile (hname.imp_right (h.issued_iff _).mp)

lemma Alike.setStored (h : Alike o old w v) {key : StorageKey} {content : Option Bytes} (hk : w.Issued key.uuid) :
    Alike o old (w.setFile (.stored key) content) (v.setFile (.stored key) content) := h.setFile (Or.inr hk)

lemma Alike.draw (h : Alike o old w v) (q : Pid × Uuid) :
    Alike o old { w with issued := q :: w.issued } { v with issued := q :: v.issued } where
  agree := ⟨h.agree.rows, h.agree.files⟩
  files := h.files
  issued := congrArg (q :: ·) h.issued
  locks := h.locks
  left := h.left.draw q
  right := h.right.draw q

lemma Alike.apply (h : Alike o old w v) {ws : List Write}
    (hm : Db.MayWrites (w.New old) o (w.db.ownRows o) ws) (he : w.db.firstError ws = none) :
    Alike o old (w.apply ws) (v.apply ws) := by
  have hm' : Db.MayWrites (v.New old) o (v.db.ownRows o) ws := by rwa [← h.new_eq, ← h.agree.rows]
  have he' : v.db.firstError ws = none := by
    rw [← Db.firstError_congr h.left.wellFormed.db (h.right.wellFormed.db.mono fun u => (h.issued_iff u).mpr)
      h.left.new h.right.new h.agree.rows hm]
    exact he
  have hrows := (Db.ownRows_applyAll h.left.wellFormed.db h.left.new hm he).2.2.1
  have hrows' := (Db.ownRows_applyAll h.right.wellFormed.db h.right.new hm' he').2.2.1
  refine ⟨⟨?_, fun key hk => ?_⟩, h.files, h.issued, h.locks, h.left.apply hm he, h.right.apply hm' he'⟩
  · change (w.db.applyAll ws).ownRows o = (v.db.applyAll ws).ownRows o
    rw [hrows, hrows', h.agree.rows]
  · rcases Db.names_foldl hm (hrows ▸ hk) with hk | hnew
    · exact h.agree.files key hk
    · exact h.files (.stored key) hnew.2

/-! ### One effect in two worlds -/

lemma Query.same_refl (q : Query) (a : q.Rows) : q.Same a a := by
  cases q with
  | targetColumns dataset_id => exact fun _ => Iff.rfl
  | _ => rfl

lemma Eff.same_refl {e : Eff} (r : Except Exn e.Resp) : e.Same r r := by
  cases e with
  | query q =>
    cases r with
    | ok a => exact q.same_refl a
    | error x => exact rfl
  | _ => exact rfl

/-- An effect is performed in both worlds, or in neither: the answer is the same, and the worlds stay
alike. -/
abbrev Matched (o : Uuid) (old : Uuid → Prop) (e : Eff) :
    Option (Except Exn e.Resp × World) → Option (Except Exn e.Resp × World) → Prop :=
  Option.Rel fun x y => e.Same x.1 y.1 ∧ Alike o old x.2 y.2

lemma matched {e : Eff} (r : Except Exn e.Resp) (h : Alike o old w v) :
    Matched o old e (some (r, w)) (some (r, v)) := .some ⟨e.same_refl r, h⟩

/-- What an effect does when it does not fail. -/
theorem perform_alike (h : Alike o old w v) {e : Eff} (hm : MayDo o old w e) (c : Choice) :
    Matched o old e (w.perform p c e) (v.perform p c e) := by
  cases e with
  | now | utcNow => exact matched _ h
  | uuid4 =>
    simp only [World.perform, h.issued]
    split
    · exact .none
    · have hd := matched (e := .uuid4) (.ok c.uuid) (h.draw (p, c.uuid))
      rwa [h.issued] at hd
  | query q => exact .some ⟨Db.eval_congr h.agree.rows hm, h⟩
  | getForOwnerForUpdate dataset_id owner_id =>
    obtain rfl : owner_id = o := hm
    simp only [World.perform, Db.ownedDataset_congr h.agree.rows, h.locks]
    split
    · exact matched _ h
    · split
      · exact matched _ (h.locksOnly ⟨rfl, rfl, rfl⟩ ⟨rfl, rfl, rfl⟩ rfl)
      · exact .none
  | flush ws =>
    have he := Db.firstError_congr h.left.wellFormed.db
      (h.right.wellFormed.db.mono fun u => (h.issued_iff u).mpr) h.left.new h.right.new h.agree.rows hm
    simp only [World.perform, he]
    split
    · exact matched _ h
    · exact matched _ h
  | commit ws => exact matched _ ((h.apply hm.1 hm.2).unlock p)
  | rollback => exact matched _ (h.unlock p)
  | close => exact matched _ (h.unlock p)
  | create u =>
    simp only [World.perform, h.files (.candidate u) hm.2]
    split
    · exact matched _ h
    · exact matched _ (h.setFile (Or.inr hm.1))
  | write u chunk =>
    simp only [World.perform, h.files (.candidate u) hm.2]
    exact matched _ (h.setFile (Or.inr hm.1))
  | readCandidate u =>
    simp only [World.perform, h.files (.candidate u) hm.2]
    split
    · exact matched _ h
    · exact matched _ h
  | replace u key =>
    simp only [World.perform, h.files (.candidate u) hm.1.2]
    split
    · exact matched _ ((h.setStored hm.2.1).setFile (Or.inl rfl))
    · exact matched _ h
  | chmod key =>
    simp only [World.perform, h.files (.stored key) hm.2]
    split
    · exact matched _ h
    · exact matched _ h
  | unlink name => exact matched _ (h.setFile (Or.inl rfl))
  | openBinary key =>
    simp only [World.perform, h.agree.files key hm]
    split
    · exact matched _ h
    · exact matched _ h
  | read => exact matched _ h
  | captured _ _ _ => exact matched _ h

/-- **Effects on an owner's data do the same in two worlds that agree on it**, whatever goes wrong. -/
theorem lockstep_ownData : (ownData o old).Lockstep (machine F) p (Alike o old) := by
  intro e c w v h hm
  have hfailed : Alike o old (w.failed p e) (v.failed p e) := by
    cases e with
    | commit _ | rollback | close => exact h.unlock p
    | _ => exact h
  simp only [machine]
  split
  · exact perform_alike h hm c
  · split
    · exact matched _ hfailed
    · exact .none
  · split
    · split
      · exact matched (e := .commit _) _ ((h.apply hm.1 hm.2).unlock p)
      · exact .none
    · exact .none

/-- Whatever a call does, what is not `old` stays the owner's. -/
theorem invariant_ownData : (ownData o old).Invariant (machine F) p := by
  intro e c w r w' hw hm hx
  have hs := lockstep_ownData (F := F) (p := p) e c w w (Alike.refl hw) hm
  rw [hx] at hs
  cases hs with
  | some h => exact h.2.left

/-! ### The data of other owners -/

lemma agree_locksOnly (hw : LocksOnly w w') : Agree A w w' :=
  ⟨by rw [hw.db], fun key _ => by rw [hw.files]⟩

lemma agree_setFile {name : FileName} {content : Option Bytes}
    (h : ∀ key, name = .stored key → ¬ (w.db.ownRows A).Names key) : Agree A w (w.setFile name content) := by
  refine ⟨rfl, fun key hk => (Function.update_of_ne ?_ _ _).symm⟩
  rintro rfl
  exact h key rfl hk

/-- No other owner's dataset names a file that is not `old`. -/
lemma Private.not_names (h : Private o old w) (hA : A ≠ o) {key : StorageKey} (hk : ¬ old key.uuid) :
    ¬ (w.db.ownRows A).Names key := by
  rintro ⟨d, ⟨hd, hdA⟩, u, hu, rfl⟩
  exact hA (hdA.symm.trans (h.new.key d hd u hu hk))

lemma Private.agree_apply (h : Private o old w) (hA : A ≠ o) {ws : List Write}
    (hm : Db.MayWrites (w.New old) o (w.db.ownRows o) ws) (he : w.db.firstError ws = none) :
    Agree A w (w.apply ws) :=
  ⟨((Db.ownRows_applyAll h.wellFormed.db h.new hm he).2.2.2 A hA).symm, fun _ _ => rfl⟩

lemma agree_perform (h : Private o old w) (hA : A ≠ o) {e : Eff} (hm : MayDo o old w e) {c : Choice}
    {r : Except Exn e.Resp} (hx : w.perform p c e = some (r, w')) : Agree A w w' := by
  cases e with
  | commit ws =>
    cases hx
    exact (h.agree_apply hA hm.1 hm.2).trans (agree_locksOnly (locksOnly_unlock _ p))
  | uuid4 =>
    simp only [World.perform] at hx
    split at hx <;> cases hx
    exact ⟨rfl, fun _ _ => rfl⟩
  | getForOwnerForUpdate dataset_id owner_id =>
    simp only [World.perform] at hx
    split at hx
    · cases hx
      exact .refl w
    · split at hx <;> cases hx
      exact agree_locksOnly ⟨rfl, rfl, rfl⟩
  | create u =>
    simp only [World.perform] at hx
    split at hx <;> cases hx
    · exact .refl w
    · exact agree_setFile fun key hk => by cases hk
  | write u chunk =>
    cases hx
    exact agree_setFile fun key hk => by cases hk
  | replace u key =>
    simp only [World.perform] at hx
    split at hx <;> cases hx
    · refine (agree_setFile fun k hk => ?_).trans (agree_setFile fun k hk => by cases hk)
      cases hk
      exact h.not_names hA hm.2.2
    · exact .refl w
  | unlink name =>
    cases hx
    refine agree_setFile fun key hk => ?_
    subst hk
    exact hm A hA
  | rollback | close =>
    cases hx
    exact agree_locksOnly (locksOnly_unlock w p)
  | now | utcNow | query _ | flush _ | readCandidate _ | chmod _ | openBinary _ | read | captured _ _ _ =>
    rw [perform_quiet rfl hx]
    exact .refl w

/-- **Effects on an owner's data leave the rows and the files of every other owner alone.** -/
theorem agree_exec (h : Private o old w) (hA : A ≠ o) {e : Eff} (hm : MayDo o old w e) {c : Choice}
    {r : Except Exn e.Resp} (hx : (machine F).exec p e c w = some (r, w')) : Agree A w w' := by
  simp only [machine] at hx
  split at hx
  · exact agree_perform h hA hm hx
  · split at hx <;> cases hx
    exact agree_locksOnly (locksOnly_failed w p e)
  · split at hx
    · split at hx <;> cases hx
      exact (h.agree_apply hA hm.1 hm.2).trans (agree_locksOnly (locksOnly_unlock _ p))
    · cases hx

/-! ### Bodies that serve one owner -/

/-- What stays while rows stay and UUIDs are drawn. -/
def Inert (P : World → Prop) : Prop :=
  ∀ w w', P w → w'.db = w.db → (∀ u, w.Issued u → w'.Issued u) → P w'

lemma Inert.const (φ : Prop) : Inert fun _ => φ := fun _ _ h _ _ => h

lemma Inert.rows (φ : Db → Prop) : Inert fun w => φ w.db := fun _ _ h hdb _ => by simpa only [hdb] using h

lemma Inert.owns (dataset_id : Uuid) : Inert fun w => w.db.Owns o dataset_id := .rows fun db => db.Owns o dataset_id

lemma Inert.new (u : Uuid) : Inert fun w => w.New old u := fun _ _ h _ hi => ⟨hi u h.1, h.2⟩

lemma Inert.and {P Q : World → Prop} (hP : Inert P) (hQ : Inert Q) : Inert fun w => P w ∧ Q w :=
  fun w w' h hdb hi => ⟨hP w w' h.1 hdb hi, hQ w w' h.2 hdb hi⟩

lemma Inert.forall {ι : Sort*} {P : ι → World → Prop} (hP : ∀ i, Inert (P i)) : Inert fun w => ∀ i, P i w :=
  fun w w' h hdb hi i => hP i w w' (h i) hdb hi

lemma Inert.locksOnly {P : World → Prop} (hP : Inert P) (h : P w) (hw : LocksOnly w w') : P w' :=
  hP w w' h hw.db fun u hu => by rw [World.Issued, hw.issued]; exact hu

lemma perform_inert {e : Eff} (hne : ∀ ws, e ≠ .commit ws) {c : Choice} {r : Except Exn e.Resp}
    (hx : w.perform p c e = some (r, w')) : w'.db = w.db ∧ ∀ u, w.Issued u → w'.Issued u := by
  cases e with
  | commit ws => exact absurd rfl (hne ws)
  | uuid4 =>
    simp only [World.perform] at hx
    split at hx <;> cases hx
    exact ⟨rfl, fun u hu => List.mem_cons_of_mem _ hu⟩
  | getForOwnerForUpdate dataset_id owner_id =>
    simp only [World.perform] at hx
    split at hx
    · cases hx
      exact ⟨rfl, fun _ hu => hu⟩
    · split at hx <;> cases hx
      exact ⟨rfl, fun _ hu => hu⟩
  | create u | replace u key =>
    simp only [World.perform] at hx
    split at hx <;> cases hx
    all_goals exact ⟨rfl, fun _ hu => hu⟩
  | write _ _ | unlink _ | rollback | close =>
    cases hx
    exact ⟨rfl, fun _ hu => hu⟩
  | now | utcNow | query _ | flush _ | readCandidate _ | chmod _ | openBinary _ | read | captured _ _ _ =>
    rw [perform_quiet rfl hx]
    exact ⟨rfl, fun _ hu => hu⟩

section Rules

variable {σ α β : Type} {P : σ → World → Prop} {Z : σ → World → Prop}

/-- The body, alone, performs only what it may for the owner; it returns with `Q` and raises with
`Z`. -/
abbrev Serves (F : Faults) (p : Pid) (o : Uuid) (old : Uuid → Prop) (P : σ → World → Prop) (m : Body σ α)
    (Q : α → σ → World → Prop) (Z : σ → World → Prop) : Prop :=
  Op.Keeps (machine F) p (ownData o old) P m Q fun _ => Z

/-- What is known after an effect that is not a commit. -/
lemma exec_inert {e : Eff} (hne : ∀ ws, e ≠ .commit ws) {s : σ} (hP : Inert (P s)) (hp : P s w)
    (hZ : ∀ w, P s w → Z s w) {c : Choice} {r : Except Exn e.Resp}
    (hx : (machine F).exec p e c w = some (r, w')) :
    (∀ a, r = .ok a → w.perform p c e = some (.ok a, w') ∧ w'.db = w.db ∧ P s w') ∧
      ∀ x, r = .error x → Z s w' := by
  rcases exec_cases hne hx with ⟨-, rfl, rfl⟩ | hx
  · exact ⟨fun a ha => (nomatch ha), fun _ _ => hZ _ (hP.locksOnly hp (locksOnly_failed w p e))⟩
  · obtain ⟨hdb, hi⟩ := perform_inert hne hx
    have hp' : P s w' := hP w w' hp hdb hi
    refine ⟨?_, fun _ _ => hZ w' hp'⟩
    rintro a rfl
    exact ⟨hx, hdb, hp'⟩

theorem serves_perform {e : Eff} {Q : e.Resp → σ → World → Prop} (hne : ∀ ws, e ≠ .commit ws)
    (hsame : ∀ r r', e.Same r r' → r = r') (hP : ∀ s, Inert (P s))
    (hmay : ∀ s w, Private o old w → P s w → MayDo o old w e)
    (hQ : ∀ a s w c w', Private o old w → w.perform p c e = some (.ok a, w') → w'.db = w.db → P s w' → Q a s w')
    (hZ : ∀ s w, P s w → Z s w) : Serves F p o old P (Body.perform e) Q Z := by
  refine Op.Keeps.perform hmay hsame fun s w c r w' hw _ hp hx => ?_
  obtain ⟨hok, herr⟩ := exec_inert hne (hP s) hp (hZ s) hx
  refine ⟨fun a ha => ?_, herr⟩
  obtain ⟨hx, hdb, hp'⟩ := hok a ha
  exact hQ a s w c w' hw hx hdb hp'

theorem serves_skip {e : Eff} (hne : ∀ ws, e ≠ .commit ws) (hsame : ∀ r r', e.Same r r' → r = r')
    (hP : ∀ s, Inert (P s)) (hmay : ∀ s w, Private o old w → P s w → MayDo o old w e)
    (hZ : ∀ s w, P s w → Z s w) : Serves F p o old P (Body.perform e) (fun _ => P) Z :=
  serves_perform hne hsame hP hmay (fun _ _ _ _ _ _ _ _ hp => hp) hZ

theorem serves_now (hP : ∀ s, Inert (P s)) (hZ : ∀ s w, P s w → Z s w) :
    Serves F p o old P Body.now (fun _ => P) Z :=
  serves_skip (fun _ h => by cases h) (fun _ _ h => h) hP (fun _ _ _ _ => trivial) hZ

theorem serves_onupdate {stored assigned : Time} (hP : ∀ s, Inert (P s)) (hZ : ∀ s w, P s w → Z s w) :
    Serves F p o old P (Body.onupdate stored assigned) (fun _ => P) Z := by
  unfold Body.onupdate
  split
  · exact serves_skip (e := .utcNow) (fun _ h => by cases h) (fun _ _ h => h) hP (fun _ _ _ _ => trivial) hZ
  · exact Op.Keeps.pure fun _ _ hp => hp

theorem serves_uuid4 (hP : ∀ s, Inert (P s)) (hZ : ∀ s w, P s w → Z s w) :
    Serves F p o old P Body.uuid4 (fun u s w => P s w ∧ w.New old u) Z := by
  refine serves_perform (fun _ h => by cases h) (fun _ _ h => h) hP (fun _ _ _ _ => trivial) ?_ hZ
  intro u s w c w' hw hx _ hp
  simp only [World.perform] at hx
  split at hx
  · cases hx
  · next hu =>
    cases hx
    exact ⟨hp, List.mem_cons_self, fun ho => hu (hw.issued _ ho)⟩

theorem serves_query {q : Query} {Q : q.Rows → σ → World → Prop} (hsame : ∀ a b, q.Same a b → a = b)
    (hP : ∀ s, Inert (P s)) (hmay : ∀ s w, Private o old w → P s w → Db.MayQuery o (w.db.ownRows o) q)
    (hQ : ∀ s w, P s w → Q (w.db.eval q) s w) (hZ : ∀ s w, P s w → Z s w) :
    Serves F p o old P (Body.perform (.query q)) Q Z := by
  refine serves_perform (fun _ h => by cases h) (fun r r' h => ?_) hP hmay ?_ hZ
  · cases r <;> cases r' <;> first | exact h | exact congrArg _ (hsame _ _ h)
  · intro a s w c w' _ hx _ hp
    cases hx
    exact hQ s w hp

theorem serves_getForUpdate {dataset_id : Uuid} {Q : Option Dataset → σ → World → Prop}
    (hP : ∀ s, Inert (P s)) (hnone : ∀ s w, P s w → Q none s w)
    (hsome : ∀ d s w, P s w → d ∈ w.db.datasets → d.id = dataset_id → d.owner_id = o → Q (some d) s w)
    (hZ : ∀ s w, P s w → Z s w) : Serves F p o old P (getForOwnerForUpdate dataset_id o) Q Z := by
  refine serves_perform (fun _ h => by cases h) (fun _ _ h => h) hP (fun _ _ _ _ => rfl) ?_ hZ
  intro a s w c w' _ hx hdb hp
  simp only [World.perform] at hx
  split at hx
  · cases hx
    exact hnone s w hp
  · next d hd =>
    obtain ⟨hmem, hid, ho⟩ := ownedDataset_eq_some.mp hd
    split at hx <;> cases hx
    exact hsome d s _ hp hmem hid ho

theorem serves_getForOwner {dataset_id : Uuid} {Q : Option Dataset → σ → World → Prop}
    (hP : ∀ s, Inert (P s)) (hnone : ∀ s w, P s w → Q none s w)
    (hsome : ∀ d s w, P s w → w.db.Owns o dataset_id → Q (some d) s w)
    (hZ : ∀ s w, P s w → Z s w) : Serves F p o old P (getForOwner dataset_id o) Q Z := by
  refine serves_query (fun _ _ h => h) hP (fun _ _ _ _ => rfl) (fun s w hp => ?_) hZ
  change Q (w.db.ownedDataset dataset_id o) s w
  cases hd : w.db.ownedDataset dataset_id o with
  | none => exact hnone s w hp
  | some d => exact hsome d s w hp ⟨d, ownedDataset_eq_some.mp hd⟩

/-- A flush of changes to the owner's data: the commit may follow. -/
theorem serves_flush {ws : List Write} (hP : ∀ s, Inert (P s))
    (hmay : ∀ s w, Private o old w → P s w → Db.MayWrites (w.New old) o (w.db.ownRows o) ws)
    (hZ : ∀ s w, P s w → Z s w) :
    Serves F p o old P (Body.flush ws) (fun _ s w => MayDo o old w (.commit ws) ∧ P s w) Z := by
  refine Op.Keeps.perform hmay (fun _ _ h => h) fun s w c r w' hw _ hp hx => ?_
  obtain ⟨hok, herr⟩ := exec_inert (fun _ h => by cases h) (hP s) hp (hZ s) hx
  refine ⟨fun a ha => ?_, herr⟩
  obtain ⟨hx, -, hp'⟩ := hok a ha
  simp only [World.perform] at hx
  split at hx
  · cases hx
  · next he =>
    cases hx
    exact ⟨⟨hmay s w hw hp, he⟩, hp'⟩

/-- `with self._session_factory() as database_session` around a body. -/
theorem serves_session {m : Body σ α} {Q : α → σ → World → Prop} (hm : Serves F p o old P m Q Z)
    (hQ : ∀ a s, Inert (Q a s)) (hZ : ∀ s, Inert (Z s)) (hclose : ∀ a s w, Q a s w → Z s w) :
    Serves F p o old P (Body.session m) Q Z := by
  have hskip : ∀ {R : σ → World → Prop}, (∀ s, Inert (R s)) → (∀ s w, R s w → Z s w) →
      Serves F p o old R (Body.perform .close) (fun _ => R) Z := fun hR hRZ =>
    serves_skip (fun _ h => by cases h) (fun _ _ h => h) hR (fun _ _ _ _ => trivial) hRZ
  unfold Body.session
  refine Op.Keeps.bind (B := Q) (hm.catching fun x => ?_) fun a => ?_
  · exact (hskip hZ fun _ _ h => h).bind fun _ => Op.Keeps.raise fun _ _ h => h
  · exact (hskip (hQ a) (hclose a)).bind fun _ => Op.Keeps.pure fun _ _ h => h

/-- `with database_session.begin()` around a body that leaves the owner's changes to commit. -/
theorem serves_begin {m : Body σ (α × List Write)} {B : α × List Write → σ → World → Prop}
    {Q : α → σ → World → Prop}
    (hm : Serves F p o old P m (fun out s w => MayDo o old w (.commit out.2) ∧ B out s w) Z)
    (hB : ∀ out s, Inert (B out s)) (hQ : ∀ a s, Inert (Q a s)) (hZ : ∀ s, Inert (Z s))
    (hcommit : ∀ a ws s w, Private o old w → MayDo o old w (.commit ws) → B (a, ws) s w → Q a s (w.apply ws))
    (hfail : ∀ out s w, B out s w → Z s w) (hlost : ∀ a s w, Q a s w → Z s w) :
    Serves F p o old P (Body.begin m) Q Z := by
  unfold Body.begin
  refine Op.Keeps.bind (hm.catching fun x => ?_) fun out => ?_
  · exact (serves_skip (e := .rollback) (fun _ h => by cases h) (fun _ _ h => h) hZ (fun _ _ _ _ => trivial)
      fun _ _ h => h).bind fun _ => Op.Keeps.raise fun _ _ h => h
  · obtain ⟨a, ws⟩ := out
    refine Op.Keeps.bind (B := fun _ => Q a) (Op.Keeps.perform (fun _ _ _ h => h.1) (fun _ _ h => h) ?_)
      fun _ => Op.Keeps.pure fun _ _ h => h
    rintro s w c r w' hw - ⟨hmay, hb⟩ hx
    have hq : Q a s ((w.apply ws).unlock p) :=
      (hQ a s).locksOnly (hcommit a ws s w hw hmay hb) (locksOnly_unlock _ p)
    rcases exec_commit_cases hx with ⟨rfl, rfl⟩ | ⟨rfl, -⟩
    · exact ⟨fun _ h => (nomatch h), fun _ _ => hfail _ s _ ((hB _ s).locksOnly hb (locksOnly_unlock w p))⟩
    · exact ⟨fun _ _ => hq, fun _ _ => hlost a s _ hq⟩

/-- A transaction, after which nothing has to be known. -/
theorem serves_transaction {m : Body σ (α × List Write)}
    (hm : Serves F p o old P m (fun out _ w => MayDo o old w (.commit out.2)) fun _ _ => True) :
    Serves F p o old P (Body.transaction m) (fun _ _ _ => True) fun _ _ => True :=
  serves_session (serves_begin (B := fun _ _ _ => True) (hm.post (fun _ _ _ h => ⟨h, trivial⟩) fun _ _ _ h => h)
    (fun _ _ => .const _) (fun _ _ => .const _) (fun _ => .const _) (fun _ _ _ _ _ _ _ => trivial)
    (fun _ _ _ _ => trivial) fun _ _ _ _ => trivial) (fun _ _ => .const _) (fun _ => .const _) fun _ _ _ _ => trivial

theorem serves_reading {m : Body σ (α × List Write)} {Q : α → σ → World → Prop}
    (hm : Serves F p o old P m (fun out s w => out.2 = [] ∧ Q out.1 s w) fun _ _ => True)
    (hQ : ∀ a s, Inert (Q a s)) : Serves F p o old P (Body.transaction m) Q fun _ _ => True := by
  refine serves_session (serves_begin (B := fun out s w => out.2 = [] ∧ Q out.1 s w)
    (Op.Keeps.post hm ?_ fun _ _ _ h => h) (fun out s => (Inert.const _).and (hQ out.1 s)) hQ (fun _ => .const _)
    ?_ (fun _ _ _ _ => trivial) fun _ _ _ _ => trivial) hQ (fun _ => .const _) fun _ _ _ _ => trivial
  · rintro ⟨a, ws⟩ s w ⟨rfl, hq⟩
    exact ⟨⟨trivial, rfl⟩, rfl, hq⟩
  · rintro a ws s w - - ⟨rfl, hq⟩
    exact hq

end Rules

end DataCheck.Shared
