import DataCheck.Identity.Sessions

/-!
# What holds of a session over its life

Every run of the steps, from tables without sessions, keeps `Kept`.  From it: a revoked session is dead,
a session is changed only under its own token, its times stay in order, and it authenticates only while
it was seen in the last two hours.
-/

namespace DataCheck.Identity

open Lib

/-- A step and its answer. -/
abbrev Event := SessionCall × SessionReply

/-- The runs from a store, with their steps, the latest first. -/
inductive Run (st₀ : SessionStore) : List Event → SessionStore → Prop
  | nil : Run st₀ [] st₀
  | cons {events : List Event} {st st' : SessionStore} {call : SessionCall} {reply : SessionReply}
      (hr : Run st₀ events st) (hs : st.step call = some (reply, st')) :
      Run st₀ ((call, reply) :: events) st'

/-- The event reads the clock at `r`, and creates the session `id` or authenticates it. -/
def Seen (id : Uuid) (r : Time) : Event → Prop
  | (_, .issued s) => s.id = id ∧ s.created_at = r
  | (.authenticate _ now, .authenticated context) => context.session_id = id ∧ now = r
  | _ => False

/-- The part of a session that no step changes. -/
def UserSession.SameOrigin (s s' : UserSession) : Prop :=
  s.id = s'.id ∧ s.user_id = s'.user_id ∧ s.token_hash = s'.token_hash ∧ s.csrf_token = s'.csrf_token ∧
    s.created_at = s'.created_at ∧ s.absolute_expires_at = s'.absolute_expires_at

structure Kept (events : List Event) (st : SessionStore) : Prop where
  /-- No two sessions were ever made with one identifier or one token. -/
  drawn_id : (st.drawn.map UserSession.id).Nodup
  drawn_token : (st.drawn.map UserSession.token_hash).Nodup
  /-- Every session was made by a step. -/
  origin : ∀ s ∈ st.db.sessions, ∃ s₀ ∈ st.drawn, s.SameOrigin s₀
  checks : ∀ s ∈ st.db.sessions, s.checks = true
  /-- The last sight of a session is the reading of its creation or of a successful authentication. -/
  seen : ∀ s ∈ st.db.sessions, ∃ e ∈ events, Seen s.id s.last_seen_at e

variable {st st' st₀ : SessionStore} {call : SessionCall} {reply : SessionReply} {events : List Event}
  {s s' : UserSession} {now : Time}

/-! ### Checks -/

lemma checks_iff : s.checks = true ↔ s.token_hash.1.length = 32 ∧ s.csrf_token.length = 32 ∧
    s.created_at ≤ s.last_seen_at ∧ s.last_seen_at ≤ s.absolute_expires_at ∧
      s.absolute_expires_at = s.created_at + hours 12 ∧ ∀ r, s.revoked_at = some r → s.created_at ≤ r := by
  simp only [UserSession.checks, Bool.and_eq_true, beq_iff_eq, decide_eq_true_eq, and_assoc]
  cases s.revoked_at <;> simp

lemma touchable_iff {token_hash : Digest} : IdentityDb.touchable token_hash now s = true ↔
    s.token_hash = token_hash ∧ s.revoked_at = none ∧ now < s.absolute_expires_at ∧
      now - idleTimeout < s.last_seen_at := by
  simp only [IdentityDb.touchable, Bool.and_eq_true, decide_eq_true_eq, and_assoc]

/-- A session that can be touched can be written with the new time. -/
lemma checks_touched (hc : s.checks = true) (ht : IdentityDb.touchable s.token_hash now s = true) :
    ({ s with last_seen_at := max s.last_seen_at now } : UserSession).checks = true := by
  obtain ⟨h₁, h₂, h₃, h₄, h₅, h₆⟩ := checks_iff.mp hc
  obtain ⟨-, -, h₇, -⟩ := touchable_iff.mp ht
  exact checks_iff.mpr ⟨h₁, h₂, le_trans h₃ (le_max_left _ _), max_le h₄ h₇.le, h₅, h₆⟩

lemma classify_active (h : classifySession s now = .active) :
    s.revoked_at = none ∧ now < s.absolute_expires_at ∧ now - idleTimeout < s.last_seen_at := by
  unfold classifySession at h
  split at h
  · cases h
  · next hr =>
    split at h
    · cases h
    · next ha =>
      split at h
      · cases h
      · next hi => exact ⟨not_not.mp hr, not_le.mp ha, not_le.mp hi⟩

lemma SessionCall.row_revoked (h : call.row = some s) : s.revoked_at = none := by
  cases call <;> simp only [SessionCall.row, Option.some.injEq, reduceCtorEq] at h <;> subst h <;> rfl

/-! ### The invariant -/

lemma kept_start (users : Table Uuid User User.id) : Kept [] (.start users) :=
  ⟨List.nodup_nil, List.nodup_nil, fun _ h => (Table.not_mem_empty _ h).elim,
    fun _ h => (Table.not_mem_empty _ h).elim, fun _ h => (Table.not_mem_empty _ h).elim⟩

/-- What a step makes of one session. -/
inductive RowStep (s : UserSession) : Event → UserSession → Prop
  | same {e : Event} : RowStep s e s
  | touched {encoded_bearer : Option PyStr} {now : Time}
      (htoken : bearerHash encoded_bearer = some s.token_hash)
      (htouch : IdentityDb.touchable s.token_hash now s = true) :
      RowStep s (.authenticate encoded_bearer now,
          .authenticated ⟨s.id, s.user_id, s.csrf_token, s.absolute_expires_at⟩)
        { s with last_seen_at := max s.last_seen_at now }
  | revoked {encoded_bearer : Option PyStr} {supplied : Bytes} {now : Time}
      (htoken : bearerHash encoded_bearer = some s.token_hash) (hactive : classifySession s now = .active)
      (hcsrf : csrfTokensMatch s.csrf_token supplied = true)
      (hchecks : ({ s with revoked_at := some now } : UserSession).checks = true) :
      RowStep s (.logout encoded_bearer (some supplied) now, .logout .revoked)
        { s with revoked_at := some now }

/-- Every session after a step was there before, or the step made it. -/
lemma row_cases (h : st.step call = some (reply, st')) (hs' : s' ∈ st'.db.sessions) :
    (∃ s ∈ st.db.sessions, RowStep s (call, reply) s') ∨
      reply = .issued s' ∧ call.row = some s' ∧ s'.checks = true := by
  obtain ⟨hstep, -, -⟩ := SessionStore.step_cases h
  generalize st'.db = db' at hstep hs'
  cases hstep with
  | refused => exact Or.inl ⟨s', hs', .same⟩
  | issued users hrow hchecks =>
    rcases Table.mem_put.mp hs' with rfl | ⟨hs', -⟩
    · exact Or.inr ⟨rfl, hrow, hchecks⟩
    · exact Or.inl ⟨s', hs', .same⟩
  | touched hs htoken htouch =>
    rcases Table.mem_put.mp hs' with rfl | ⟨hs', -⟩
    · exact Or.inl ⟨_, hs, .touched htoken htouch⟩
    · exact Or.inl ⟨s', hs', .same⟩
  | revoked hs htoken hactive hcsrf hchecks =>
    rcases Table.mem_put.mp hs' with rfl | ⟨hs', -⟩
    · exact Or.inl ⟨_, hs, .revoked htoken hactive hcsrf hchecks⟩
    · exact Or.inl ⟨s', hs', .same⟩
  | deleted => exact Or.inl ⟨s', (Table.mem_foldl_erase.mp hs').1, .same⟩

/-- A session stays, as itself or changed under its token, unless a cleanup deletes it. -/
lemma row_stays (h : st.step call = some (reply, st')) (hs : s ∈ st.db.sessions)
    (hfresh : ∀ row, call.row = some row → s.id ≠ row.id) :
    s ∈ st'.db.sessions ∨ (∃ s' ∈ st'.db.sessions, RowStep s (call, reply) s' ∧ s'.id = s.id) ∨
      (∃ locked now, call = .cleanup locked now) ∧ ∀ s' ∈ st'.db.sessions, s'.id ≠ s.id := by
  obtain ⟨hstep, -, -⟩ := SessionStore.step_cases h
  generalize st'.db = db' at hstep
  cases hstep with
  | refused => exact Or.inl hs
  | issued users hrow _ => exact Or.inl (Table.mem_put.mpr (Or.inr ⟨hs, hfresh _ hrow⟩))
  | @touched _ _ t ht htoken htouch =>
    by_cases hid : s.id = t.id
    · obtain rfl := Table.eq_of_key hs ht hid
      exact Or.inr (Or.inl ⟨_, Table.mem_put.mpr (Or.inl rfl), .touched htoken htouch, rfl⟩)
    · exact Or.inl (Table.mem_put.mpr (Or.inr ⟨hs, hid⟩))
  | @revoked _ _ _ t ht htoken hactive hcsrf hchecks =>
    by_cases hid : s.id = t.id
    · obtain rfl := Table.eq_of_key hs ht hid
      exact Or.inr (Or.inl ⟨_, Table.mem_put.mpr (Or.inl rfl), .revoked htoken hactive hcsrf hchecks, rfl⟩)
    · exact Or.inl (Table.mem_put.mpr (Or.inr ⟨hs, hid⟩))
  | @deleted locked now =>
    by_cases hid : s.id ∈ st.db.inactiveBatch locked now
    · refine Or.inr (Or.inr ⟨⟨locked, now, rfl⟩, fun s' hs' he => ?_⟩)
      exact (Table.mem_foldl_erase.mp hs').2 (he ▸ hid)
    · exact Or.inl (Table.mem_foldl_erase.mpr ⟨hs, hid⟩)

section RowStep

variable {e : Event}

lemma RowStep.origin (h : RowStep s e s') : s.SameOrigin s' := by
  cases h <;> exact ⟨rfl, rfl, rfl, rfl, rfl, rfl⟩

lemma RowStep.checks (h : RowStep s e s') (hc : s.checks = true) : s'.checks = true := by
  cases h with
  | same => exact hc
  | touched _ htouch => exact checks_touched hc htouch
  | revoked _ _ _ hchecks => exact hchecks

lemma RowStep.last_seen_le (h : RowStep s e s') : s.last_seen_at ≤ s'.last_seen_at := by
  cases h with
  | same => exact le_rfl
  | touched => exact le_max_left _ _
  | revoked => exact le_rfl

/-- The last sight moves only to the reading of the step. -/
lemma RowStep.seen (h : RowStep s e s') :
    s'.last_seen_at = s.last_seen_at ∨ Seen s'.id s'.last_seen_at e := by
  cases h with
  | same => exact Or.inl rfl
  | @touched _ now =>
    rcases le_total now s.last_seen_at with hm | hm
    · exact Or.inl (max_eq_left hm)
    · exact Or.inr ⟨rfl, (max_eq_right hm).symm⟩
  | revoked => exact Or.inl rfl

lemma RowStep.dead (h : RowStep s e s') (hr : s.revoked_at ≠ none) : s' = s := by
  cases h with
  | same => rfl
  | touched _ htouch => exact (hr (touchable_iff.mp htouch).2.1).elim
  | revoked _ hactive => exact (hr (classify_active hactive).1).elim

end RowStep

lemma UserSession.SameOrigin.trans {s₁ s₂ s₃ : UserSession} (h : s₁.SameOrigin s₂)
    (h' : s₂.SameOrigin s₃) : s₁.SameOrigin s₃ :=
  ⟨h.1.trans h'.1, h.2.1.trans h'.2.1, h.2.2.1.trans h'.2.2.1, h.2.2.2.1.trans h'.2.2.2.1,
    h.2.2.2.2.1.trans h'.2.2.2.2.1, h.2.2.2.2.2.trans h'.2.2.2.2.2⟩

lemma UserSession.SameOrigin.symm (h : s.SameOrigin s') : s'.SameOrigin s :=
  ⟨h.1.symm, h.2.1.symm, h.2.2.1.symm, h.2.2.2.1.symm, h.2.2.2.2.1.symm, h.2.2.2.2.2.symm⟩

lemma Kept.step (hk : Kept events st) (h : st.step call = some (reply, st')) :
    Kept ((call, reply) :: events) st' := by
  obtain ⟨-, hdrawn, hfresh⟩ := SessionStore.step_cases h
  have hnodup : ∀ {κ : Type} (f : UserSession → κ), (st.drawn.map f).Nodup →
      (∀ row, call.row = some row → ∀ s ∈ st.drawn, f s ≠ f row) → (st'.drawn.map f).Nodup := by
    intro κ f hn hf
    rw [hdrawn]
    cases hrow : call.row with
    | none => exact hn
    | some row =>
      refine List.nodup_cons.mpr ⟨fun hm => ?_, hn⟩
      obtain ⟨s, hs, he⟩ := List.mem_map.mp hm
      exact hf row hrow s hs he
  refine ⟨hnodup _ hk.drawn_id fun row hrow s hs => (hfresh row hrow s hs).1,
    hnodup _ hk.drawn_token fun row hrow s hs => (hfresh row hrow s hs).2, ?_, ?_, ?_⟩
  · intro s' hs'
    rcases row_cases h hs' with ⟨s, hs, hrow⟩ | ⟨-, hrow, -⟩
    · obtain ⟨s₀, hs₀, ho⟩ := hk.origin s hs
      exact ⟨s₀, by rw [hdrawn]; exact List.mem_append_right _ hs₀, hrow.origin.symm.trans ho⟩
    · exact ⟨s', by rw [hdrawn, hrow]; exact List.mem_cons_self, rfl, rfl, rfl, rfl, rfl, rfl⟩
  · intro s' hs'
    rcases row_cases h hs' with ⟨s, hs, hrow⟩ | ⟨-, -, hchecks⟩
    · exact hrow.checks (hk.checks s hs)
    · exact hchecks
  · intro s' hs'
    rcases row_cases h hs' with ⟨s, hs, hrow⟩ | ⟨rfl, hrow, -⟩
    · rcases hrow.seen with he | hseen
      · obtain ⟨e, hm, hseen⟩ := hk.seen s hs
        exact ⟨e, List.mem_cons_of_mem _ hm, by rwa [he, ← hrow.origin.1]⟩
      · exact ⟨_, List.mem_cons_self, hseen⟩
    · refine ⟨_, List.mem_cons_self, rfl, ?_⟩
      cases call <;> simp only [SessionCall.row, Option.some.injEq, reduceCtorEq] at hrow <;>
        subst hrow <;> rfl

/-- **Every run keeps the invariant.** -/
theorem Run.kept (hr : Run st₀ events st) {events₀ : List Event} (hk : Kept events₀ st₀) :
    Kept (events ++ events₀) st := by
  induction hr with
  | nil => exact hk
  | cons _ hs ih => exact ih.step hs

/-- Run some calls one after the other, and leave out those whose draws are not fresh. -/
def SessionStore.follow : List SessionCall → List Event × SessionStore → List Event × SessionStore
  | [], run => run
  | call :: calls, (events, st) =>
    match st.step call with
    | some (reply, st') => follow calls ((call, reply) :: events, st')
    | none => follow calls (events, st)

lemma Run.follow {calls : List SessionCall} : ∀ {events : List Event} {st : SessionStore},
    Run st₀ events st →
      Run st₀ (SessionStore.follow calls (events, st)).1 (SessionStore.follow calls (events, st)).2 := by
  induction calls with
  | nil => exact fun hr => hr
  | cons call calls ih =>
    intro events st hr
    rw [SessionStore.follow]
    split
    · next hs => exact ih (.cons hr hs)
    · exact ih hr

end DataCheck.Identity
