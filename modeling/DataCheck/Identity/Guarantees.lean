import DataCheck.Identity.SessionRuns

/-!
# What the identity service promises
-/

namespace DataCheck.Identity

open Lib

variable {users : Table Uuid User User.id} {st st' st'' : SessionStore} {events later : List Event}
  {call : SessionCall} {reply : SessionReply} {s s' : UserSession} {now : Time}

/-! ### The life of a session -/

/-- The hash of the token that a step presents. -/
def SessionCall.tokenHash : SessionCall → Option Digest
  | .authenticate encoded_bearer _ => bearerHash encoded_bearer
  | .logout encoded_bearer _ _ => bearerHash encoded_bearer
  | _ => none

/-- What holds of the sessions of a store that `events` led to. -/
structure SessionLaws (events : List Event) (st : SessionStore) : Prop where
  /-- A session that a logout revoked stays revoked as it is, and never authenticates again. -/
  revoked_for_good : ∀ encoded_bearer supplied now st',
    st.step (.logout encoded_bearer supplied now) = some (.logout .revoked, st') →
    ∃ s ∈ st.db.sessions, bearerHash encoded_bearer = some s.token_hash ∧
      (∃ s' ∈ st'.db.sessions, s'.id = s.id ∧ s'.revoked_at = some now) ∧
      ∀ later st'', Run st' later st'' →
        (∀ s'' ∈ st''.db.sessions, s''.id = s.id → s''.revoked_at = some now) ∧
        ∀ encoded_bearer' now' reply st''', bearerHash encoded_bearer' = some s.token_hash →
          st''.step (.authenticate encoded_bearer' now') = some (reply, st''') →
          reply = .authenticationRequired
  /-- Only a logout that presents the token and the CSRF token of a session revokes it. -/
  revoked_by_owner : ∀ call reply st', st.step call = some (reply, st') → ∀ s' ∈ st'.db.sessions,
    (∀ s ∈ st.db.sessions, s.id = s'.id → s.revoked_at ≠ s'.revoked_at →
      s.revoked_at = none ∧ ∃ encoded_bearer now, call = .logout encoded_bearer (some s.csrf_token) now ∧
        bearerHash encoded_bearer = some s.token_hash ∧ s.csrf_token.length = 32 ∧
          s'.revoked_at = some now) ∧
    ((∀ s ∈ st.db.sessions, s.id ≠ s'.id) → s'.revoked_at = none)
  /-- A step leaves every session alone whose token it does not present, unless a cleanup deletes it. -/
  others_untouched : ∀ call reply st', st.step call = some (reply, st') → ∀ s ∈ st.db.sessions,
    call.tokenHash ≠ some s.token_hash → s ∈ st'.db.sessions ∨
      (∃ locked now, call = .cleanup locked now) ∧ ∀ s' ∈ st'.db.sessions, s'.id ≠ s.id
  /-- The last sight never moves back, also over many steps. -/
  last_seen_le : ∀ later st', Run st later st' → ∀ s ∈ st.db.sessions, ∀ s' ∈ st'.db.sessions,
    s.id = s'.id → s.last_seen_at ≤ s'.last_seen_at
  times : ∀ s ∈ st.db.sessions,
    s.created_at ≤ s.last_seen_at ∧ s.last_seen_at ≤ s.absolute_expires_at
  /-- A session authenticates only in its first twelve hours, and only where it was seen after two hours
  before. -/
  seen_recently : ∀ encoded_bearer now context st',
    st.step (.authenticate encoded_bearer now) = some (.authenticated context, st') →
    ∃ s ∈ st.db.sessions, s.id = context.session_id ∧ bearerHash encoded_bearer = some s.token_hash ∧
      now < s.created_at + hours 12 ∧ ∃ e ∈ events, ∃ r, Seen s.id r e ∧ now - hours 2 < r

/-! ### One step -/

/-- The identifier of a session is drawn, and never drawn again. -/
lemma Kept.fresh (hk : Kept events st) (h : st.step call = some (reply, st')) (hs : s ∈ st.db.sessions) :
    ∀ row, call.row = some row → s.id ≠ row.id := by
  obtain ⟨-, -, hfresh⟩ := SessionStore.step_cases h
  obtain ⟨s₀, hs₀, ho⟩ := hk.origin s hs
  intro row hrow
  rw [ho.1]
  exact (hfresh row hrow s₀ hs₀).1

/-- Sessions with one token are one session. -/
lemma Kept.eq_of_token (hk : Kept events st) (hs : s ∈ st.db.sessions) (hs' : s' ∈ st.db.sessions)
    (h : s.token_hash = s'.token_hash) : s = s' := by
  obtain ⟨s₀, hs₀, ho⟩ := hk.origin s hs
  obtain ⟨s₀', hs₀', ho'⟩ := hk.origin s' hs'
  have he : s₀ = s₀' := List.inj_on_of_nodup_map hk.drawn_token hs₀ hs₀'
    (by rw [← ho.2.2.1, h, ho'.2.2.1])
  refine Table.eq_of_key hs hs' ?_
  rw [ho.1, he, ho'.1]

/-- What a step makes of a session that it finds. -/
lemma Kept.row_step (hk : Kept events st) (h : st.step call = some (reply, st'))
    (hs : s ∈ st.db.sessions) (hs' : s' ∈ st'.db.sessions) (hid : s.id = s'.id) :
    RowStep s (call, reply) s' := by
  rcases row_cases h hs' with ⟨t, ht, hrow⟩ | ⟨-, hrow, -⟩
  · have he : s = t := Table.eq_of_key hs ht (hid.trans hrow.origin.1.symm)
    exact he ▸ hrow
  · exact (hk.fresh h hs _ hrow hid).elim

lemma step_authenticate {encoded_bearer : Option PyStr}
    (h : st.step (.authenticate encoded_bearer now) = some (reply, st')) :
    reply = .authenticationRequired ∨ ∃ s ∈ st.db.sessions, bearerHash encoded_bearer = some s.token_hash ∧
      IdentityDb.touchable s.token_hash now s = true ∧
        reply = .authenticated ⟨s.id, s.user_id, s.csrf_token, s.absolute_expires_at⟩ := by
  obtain ⟨hstep, -, -⟩ := SessionStore.step_cases h
  simp only [SessionStore.step, SessionCall.row, Option.any_none, Bool.false_eq_true, if_false,
    Option.some.injEq, Prod.mk.injEq, SessionStore.perform] at h
  rcases st.db.authenticate_reply encoded_bearer now with hreply | ⟨context, hreply⟩
  · exact Or.inl (h.1.symm.trans hreply)
  · obtain rfl : reply = .authenticated context := h.1.symm.trans hreply
    generalize st'.db = db' at hstep
    cases hstep with
    | refused _ ha => exact (ha _ rfl).elim
    | touched hs htoken htouch => exact Or.inr ⟨_, hs, htoken, htouch, rfl⟩

lemma step_revoked {encoded_bearer : Option PyStr} {supplied : Option Bytes}
    (h : st.step (.logout encoded_bearer supplied now) = some (.logout .revoked, st')) :
    ∃ s ∈ st.db.sessions, bearerHash encoded_bearer = some s.token_hash ∧
      classifySession s now = .active ∧ supplied = some s.csrf_token ∧
        { s with revoked_at := some now } ∈ st'.db.sessions := by
  obtain ⟨hstep, -, -⟩ := SessionStore.step_cases h
  generalize st'.db = db' at hstep
  cases hstep with
  | refused _ _ hl => exact (hl rfl).elim
  | revoked hs htoken hactive hcsrf =>
    obtain ⟨rfl, -⟩ := csrfTokensMatch_iff.mp hcsrf
    exact ⟨_, hs, htoken, hactive, rfl, Table.mem_put.mpr (Or.inl rfl)⟩

/-! ### Many steps -/

/-- Over a run, a session that was drawn before comes from the session with its identifier, and what
holds of each step holds of the whole run. -/
lemma Run.rows {P : UserSession → UserSession → Prop} (hrefl : ∀ s, P s s)
    (htrans : ∀ s₁ s₂ s₃ e, P s₁ s₂ → RowStep s₂ e s₃ → P s₁ s₃) (hr : Run st later st') :
    (∀ t ∈ st.drawn, t ∈ st'.drawn) ∧
      ∀ t ∈ st.drawn, ∀ s' ∈ st'.db.sessions, s'.id = t.id → ∃ s ∈ st.db.sessions, s.id = t.id ∧ P s s' := by
  induction hr with
  | nil => exact ⟨fun _ h => h, fun _ _ s' hs' hid => ⟨s', hs', hid, hrefl s'⟩⟩
  | @cons later st₁ st₂ call reply hr hs ih =>
    obtain ⟨hdrawn, hrow⟩ := ih
    obtain ⟨-, hd, hfresh⟩ := SessionStore.step_cases hs
    refine ⟨fun t ht => by rw [hd]; exact List.mem_append_right _ (hdrawn t ht), ?_⟩
    intro t ht s' hs' hid
    rcases row_cases hs hs' with ⟨s₁, hs₁, hstep⟩ | ⟨-, hnew, -⟩
    · obtain ⟨s, hsm, hsid, hp⟩ := hrow t ht s₁ hs₁ (hstep.origin.1.trans hid)
      exact ⟨s, hsm, hsid, htrans _ _ _ _ hp hstep⟩
    · exact ((hfresh _ hnew t (hdrawn t ht)).1 hid.symm).elim

/-- A revoked session stays revoked, and never authenticates. -/
lemma Kept.dead (hk : Kept events st) (hs : s ∈ st.db.sessions) (hrev : s.revoked_at = some now)
    (hr : Run st later st') : (∀ s' ∈ st'.db.sessions, s'.id = s.id → s'.revoked_at = some now) ∧
      ∀ encoded_bearer now' reply st'', bearerHash encoded_bearer = some s.token_hash →
        st'.step (.authenticate encoded_bearer now') = some (reply, st'') →
        reply = .authenticationRequired := by
  obtain ⟨s₀, hs₀, ho⟩ := hk.origin s hs
  obtain ⟨hdrawn, hrow⟩ := Run.rows
    (P := fun a b => a.revoked_at ≠ none → b = a) (fun _ _ => rfl)
    (fun a b c e hab hbc ha => by
      obtain rfl := hab ha
      exact hbc.dead ha) hr
  have hback : ∀ s' ∈ st'.db.sessions, s'.id = s.id → s' = s := by
    intro s' hs' hid
    obtain ⟨t, ht, htid, hp⟩ := hrow s₀ hs₀ s' hs' (hid.trans ho.1)
    obtain rfl : t = s := Table.eq_of_key ht hs (htid.trans ho.1.symm)
    exact hp (by simp [hrev])
  refine ⟨fun s' hs' hid => by rw [hback s' hs' hid, hrev], fun encoded_bearer now' reply st'' htoken h => ?_⟩
  have hk' := hr.kept hk
  rcases step_authenticate h with hreply | ⟨t, ht, htoken', htouch, -⟩
  · exact hreply
  · -- the session that is touched was drawn with the token of `s`, so it is `s`
    obtain ⟨t₀, ht₀, ho'⟩ := hk'.origin t ht
    have he : t₀ = s₀ := List.inj_on_of_nodup_map hk'.drawn_token ht₀ (hdrawn s₀ hs₀) (by
      rw [← ho'.2.2.1, ← ho.2.2.1]
      exact Option.some_injective _ (htoken'.symm.trans htoken))
    have hts : t = s := hback t ht (by rw [ho'.1, he, ho.1])
    have hnone := (touchable_iff.mp htouch).2.1
    rw [hts, hrev] at hnone
    cases hnone

/-- The last sight of a session never moves back. -/
lemma Kept.last_seen_le (hk : Kept events st) (hr : Run st later st') (hs : s ∈ st.db.sessions)
    (hs' : s' ∈ st'.db.sessions) (hid : s.id = s'.id) : s.last_seen_at ≤ s'.last_seen_at := by
  obtain ⟨s₀, hs₀, ho⟩ := hk.origin s hs
  obtain ⟨-, hrow⟩ := Run.rows (P := fun a b => a.last_seen_at ≤ b.last_seen_at) (fun _ => le_rfl)
    (fun a b c e hab hbc => le_trans hab hbc.last_seen_le) hr
  obtain ⟨t, ht, htid, hp⟩ := hrow s₀ hs₀ s' hs' (hid.symm.trans ho.1)
  obtain rfl : t = s := Table.eq_of_key ht hs (htid.trans ho.1.symm)
  exact hp

/-! ### The session laws -/

/-- **The laws of sessions hold in every run**: of any number of registrations, logins, authentications,
logouts and cleanups, each with a reading of its own. -/
theorem sessions_safe (hr : Run (.start users) events st) : SessionLaws events st := by
  have hk : Kept events st := by simpa using hr.kept (kept_start users)
  refine ⟨?_, ?_, ?_, ?_, ?_, ?_⟩
  · intro encoded_bearer supplied now st' h
    obtain ⟨s, hs, htoken, -, -, hmem⟩ := step_revoked h
    have hk' := hk.step h
    refine ⟨s, hs, htoken, ⟨_, hmem, rfl, rfl⟩, fun later st'' hr' => ?_⟩
    exact hk'.dead (s := { s with revoked_at := some now }) hmem rfl hr'
  · intro call reply st' h s' hs'
    refine ⟨fun s hs hid hne => ?_, fun hnew => ?_⟩
    · have hrow := hk.row_step h hs hs' hid
      cases hrow with
      | same => exact (hne rfl).elim
      | touched => exact (hne rfl).elim
      | revoked htoken hactive hcsrf =>
        obtain ⟨rfl, hlen⟩ := csrfTokensMatch_iff.mp hcsrf
        exact ⟨(classify_active hactive).1, _, _, rfl, htoken, hlen, rfl⟩
    · rcases row_cases h hs' with ⟨s, hs, hrow⟩ | ⟨-, hrow, -⟩
      · exact (hnew s hs hrow.origin.1).elim
      · exact SessionCall.row_revoked hrow
  · intro call reply st' h s hs hne
    rcases row_stays h hs (hk.fresh h hs) with hmem | ⟨s', hs', hrow, -⟩ | hdel
    · exact Or.inl hmem
    · cases hrow with
      | same => exact Or.inl hs'
      | touched htoken => exact (hne htoken).elim
      | revoked htoken => exact (hne htoken).elim
    · exact Or.inr hdel
  · exact fun later st' hr' s hs s' hs' hid => hk.last_seen_le hr' hs hs' hid
  · intro s hs
    obtain ⟨-, -, h₁, h₂, -⟩ := checks_iff.mp (hk.checks s hs)
    exact ⟨h₁, h₂⟩
  · intro encoded_bearer now context st' h
    rcases step_authenticate h with hreply | ⟨s, hs, htoken, htouch, hcontext⟩
    · cases hreply
    · obtain ⟨-, -, habs, hidle⟩ := touchable_iff.mp htouch
      obtain ⟨-, -, -, -, habs', -⟩ := checks_iff.mp (hk.checks s hs)
      obtain ⟨e, he, hseen⟩ := hk.seen s hs
      cases hcontext
      exact ⟨s, hs, rfl, htoken, habs' ▸ habs, e, he, _, hseen, hidle⟩

namespace Sample

/-- A token of one byte, 32 times. -/
def token (b : UInt8) : Token := Token.replicate b

/-- An account is registered at the reading `now`. -/
def registered (now : Time) : SessionCall :=
  .register 1 ⟨py "a@b.co", py "a@b.co"⟩ (py "h") ⟨2, token 3, token 4⟩ now

def session (now : Time) : UserSession := .issue 2 1 (token 3).1 (token 4).1 now

def bearer : Option PyStr := some (base64Encode (token 3).1)

/-- The store after these steps. -/
def after (calls : List SessionCall) : List Event × SessionStore := SessionStore.follow calls ([], .start .empty)

lemma run_after (calls : List SessionCall) : Run (.start .empty) (after calls).1 (after calls).2 :=
  Run.follow .nil

lemma session_mem : session 7 ∈ (after [registered 7]).2.db.sessions := by
  have h : (after [registered 7]).2.db.sessions.rows = [session 7] := by decide +kernel
  rw [Table.mem_def, h]
  exact List.mem_singleton.mpr rfl

end Sample

/-- A session that is registered, used and logged out. -/
theorem sessions_safe_sample : ∃ events st, SessionLaws events st ∧ events.length = 3 ∧
    st.db.sessions.rows.map UserSession.revoked_at = [some 9] :=
  ⟨_, _, sessions_safe (Sample.run_after [Sample.registered 7, .authenticate Sample.bearer 5,
    .logout Sample.bearer (some (Sample.token 4).1) 9]), by decide +kernel, by decide +kernel⟩

/-! ### Logging out -/

/-- The logout that presents this token and this CSRF token at the reading `now` revokes the session,
and writes a row that the table accepts. -/
def LogsOut (st : SessionStore) (encoded_bearer : Option PyStr) (s : UserSession) (now : Time) : Prop :=
  ∃ st', st.step (.logout encoded_bearer (some s.csrf_token) now) = some (.logout .revoked, st') ∧
    ∃ s' ∈ st'.db.sessions, s'.id = s.id ∧ s'.revoked_at = some now ∧ s'.checks = true

/-- **An active session can be logged out exactly when the clock reads its creation or later.**
`_classify_session` does not look at `created_at`, and `revoked_at >= created_at` is a constraint. -/
theorem logs_out_iff (hr : Run (.start users) events st) (hs : s ∈ st.db.sessions)
    {encoded_bearer : Option PyStr} (htoken : bearerHash encoded_bearer = some s.token_hash)
    (hactive : classifySession s now = .active) :
    LogsOut st encoded_bearer s now ↔ s.created_at ≤ now := by
  have hk : Kept events st := by simpa using hr.kept (kept_start users)
  obtain ⟨h₁, h₂, h₃, h₄, h₅, -⟩ := checks_iff.mp (hk.checks s hs)
  constructor
  · rintro ⟨st', h, s', hs', hid, hrev, hchecks⟩
    have ho := (hk.row_step h hs hs' hid.symm).origin
    obtain ⟨-, -, -, -, -, h₆⟩ := checks_iff.mp hchecks
    exact ho.2.2.2.2.1 ▸ h₆ now hrev
  · intro hle
    have hchecks : ({ s with revoked_at := some now } : UserSession).checks = true :=
      checks_iff.mpr ⟨h₁, h₂, h₃, h₄, h₅, fun r hr => Option.some_injective _ hr ▸ hle⟩
    have hfind : st.db.getForUpdateByTokenHash s.token_hash = some s := by
      obtain ⟨t, ht⟩ := Option.isSome_iff_exists.mp
        (List.find?_isSome (p := fun t : UserSession => decide (t.token_hash = s.token_hash)).mpr
          ⟨s, hs, by simp⟩)
      have he : t = s := hk.eq_of_token (List.mem_of_find?_eq_some ht) hs (by simpa using List.find?_some ht)
      exact he ▸ ht
    have hcsrf : csrfTokensMatch s.csrf_token s.csrf_token = true := csrfTokensMatch_iff.mpr ⟨rfl, h₂⟩
    refine ⟨⟨{ st.db with sessions := st.db.sessions.put { s with revoked_at := some now } }, st.drawn⟩,
      ?_, _, Table.mem_put.mpr (Or.inl rfl), rfl, rfl, hchecks⟩
    simp [SessionStore.step, SessionCall.row, SessionStore.perform, IdentityDb.logout, htoken, hfind,
      hactive, hcsrf, hchecks]

/-- A session that is logged out as it is created. -/
theorem logs_out_iff_sample : LogsOut (Sample.after [Sample.registered 7]).2 Sample.bearer
    (Sample.session 7) 7 ↔ (Sample.session 7).created_at ≤ (7 : Time) :=
  logs_out_iff (Sample.run_after [Sample.registered 7]) Sample.session_mem
    (bearerHash_encode (Sample.token 3)) (by decide +kernel)

/-- The clock of the logout is two microseconds behind the clock of the registration. -/
theorem not_logs_out : ¬ ∀ (users : Table Uuid User User.id) (events : List Event) (st : SessionStore)
    (s : UserSession) (encoded_bearer : Option PyStr) (now : Time), Run (.start users) events st →
      s ∈ st.db.sessions → bearerHash encoded_bearer = some s.token_hash →
      classifySession s now = .active → LogsOut st encoded_bearer s now := by
  intro h
  obtain ⟨st', hstep, -⟩ := h .empty _ _ _ _ 5 (Sample.run_after [Sample.registered 7]) Sample.session_mem
    (bearerHash_encode (Sample.token 3)) (by decide +kernel)
  have hreply : ((Sample.after [Sample.registered 7]).2.step
      (.logout Sample.bearer (some (Sample.session 7).csrf_token) 5)).map Prod.fst =
        some (.integrityError .check) := by decide +kernel
  have h' := congrArg (Option.map Prod.fst) hstep
  exact absurd (hreply.symm.trans h') (by simp)

end DataCheck.Identity
