import DataCheck.Lib.Confined

/-!
# Typestates

A typestate says which effects a program may perform next, as an automaton that reads the effects and
their answers.  When every call follows it, and the effects keep what the automata of all threads say
of the shared state, that is known in every configuration.
-/

namespace DataCheck.Lib

variable {E C W K X S S' σ τ α β : Type} {R A : E → Type}

/-- An automaton over effects: what it allows, and where it goes with an answer. -/
structure Typestate (E : Type) (R : E → Type) (S : Type) where
  may : S → E → Prop
  next : S → (e : E) → R e → S

/-- From the state `s` on, whatever it is answered, the program performs what the automaton allows and
stops with `Q`. -/
def Prog.Follows (T : Typestate E R S) (Q : α → S → Prop) : Prog E R α → S → Prop
  | .ret a, s => Q a s
  | .vis e k, s => T.may s e ∧ ∀ r, (k r).Follows T Q (T.next s e r)

section Prog

variable {T : Typestate E R S} {Q : α → S → Prop}

lemma Prog.Follows.mono {Q' : α → S → Prop} {m : Prog E R α} (hQ : ∀ a s, Q' a s → Q a s) :
    ∀ {s : S}, m.Follows T Q' s → m.Follows T Q s := by
  induction m with
  | ret a => exact fun h => hQ a _ h
  | vis e k ih => exact fun h => ⟨h.1, fun r => ih r (h.2 r)⟩

lemma Prog.Follows.bind {Q' : β → S → Prop} {m : Prog E R α} {f : α → Prog E R β}
    (hf : ∀ a s, Q a s → (f a).Follows T Q' s) : ∀ {s : S}, m.Follows T Q s → (m.bind f).Follows T Q' s := by
  induction m with
  | ret a => exact fun h => hf a _ h
  | vis e k ih => exact fun h => ⟨h.1, fun r => ih r (h.2 r)⟩

/-- Two automata side by side. -/
def Typestate.prod (T : Typestate E R S) (T' : Typestate E R S') : Typestate E R (S × S') where
  may s e := T.may s.1 e ∧ T'.may s.2 e
  next s e r := (T.next s.1 e r, T'.next s.2 e r)

/-- **A program that follows both automata follows each.** -/
theorem Prog.Follows.fst {T' : Typestate E R S'} {Q : α → S × S' → Prop} {Q' : α → S → Prop} {m : Prog E R α}
    (hQ : ∀ a s, Q a s → Q' a s.1) : ∀ {s : S × S'}, m.Follows (T.prod T') Q s → m.Follows T Q' s.1 := by
  induction m with
  | ret a => exact fun h => hQ a _ h
  | vis e k ih => exact fun h => ⟨h.1.1, fun r => ih r (h.2 r)⟩

theorem Prog.Follows.snd {T' : Typestate E R S'} {Q : α → S × S' → Prop} {Q' : α → S' → Prop} {m : Prog E R α}
    (hQ : ∀ a s, Q a s → Q' a s.2) : ∀ {s : S × S'}, m.Follows (T.prod T') Q s → m.Follows T' Q' s.2 := by
  induction m with
  | ret a => exact fun h => hQ a _ h
  | vis e k ih => exact fun h => ⟨h.1.2, fun r => ih r (h.2 r)⟩

end Prog

/-! ### Runs -/

/-- The automata of the threads of a configuration are in the states `G`: those not started at the start, the
others where `I` holds and the rest of the program goes on; and `J` holds of all of them and the shared state. -/
structure Config.Tracks (T : K → Typestate E R S) (s₀ : S) (I : K → S → Prop) (Q : K → α → S → Prop)
    (J : (Pid → S) → W → Prop) (G : Pid → S) (cfg : Config K E R W α) : Prop where
  shared : J G cfg.hist.now
  unstarted : ∀ p, cfg.threads p = none → G p = s₀
  state : ∀ p t, cfg.threads p = some t → I t.call (G p)
  follows : ∀ p t, cfg.threads p = some t → t.prog.Follows (T t.call) (Q t.call) (G p)

section Runs

variable {M : Machine E R C W} {T : K → Typestate E R S} {s₀ : S} {I : K → S → Prop} {Q : K → α → S → Prop}
  {J : (Pid → S) → W → Prop} {body : K → Prog E R α} {calls : K → Prop} {w₀ : W} {cfg cfg' : Config K E R W α}

/-- What the effects keep when each thread is allowed what it does. -/
def Typestate.Kept (M : Machine E R C W) (T : K → Typestate E R S) (J : (Pid → S) → W → Prop) : Prop :=
  ∀ G p k e c w r w', J G w → (T k).may (G p) e → M.exec p e c w = some (r, w') →
    J (Function.update G p ((T k).next (G p) e r)) w'

/-- The program of every call follows its automaton, and `I` holds of each of its states. -/
structure Typestate.Obeyed (T : K → Typestate E R S) (s₀ : S) (I : K → S → Prop) (Q : K → α → S → Prop)
    (body : K → Prog E R α) (calls : K → Prop) : Prop where
  start : ∀ k, calls k → I k s₀
  next : ∀ k s e r, I k s → (T k).may s e → I k ((T k).next s e r)
  follows : ∀ k, calls k → (body k).Follows (T k) (Q k) s₀

section Step

variable (hJ : Typestate.Kept M T J) (hbody : Typestate.Obeyed T s₀ I Q body calls)
include hJ hbody

/-- **Threads that follow their automata one by one follow them together.** -/
theorem Config.Tracks.step {G : Pid → S} (hG : cfg.Tracks T s₀ I Q J G) {l : Label K C}
    (hl : ∀ p k, l = .spawn p k → calls k)
    (hs : cfg.step M body l = some cfg') : ∃ G', cfg'.Tracks T s₀ I Q J G' := by
  rcases Config.step_cases hs with
    ⟨p, k, rfl, hp, hhist, hthr⟩ | ⟨p, c, k, h₀, e, f, r, w, rfl, hp, he, hhist, hthr⟩
  · -- a call starts, with its automaton at the start
    refine ⟨G, hhist ▸ hG.shared, fun q hq => ?_, fun q t hq => ?_, fun q t hq => ?_⟩
    · rw [hthr] at hq
      exact hG.unstarted q (update_none hq).2
    · rw [hthr] at hq
      rcases update_some hq with ⟨rfl, rfl⟩ | ⟨-, hq⟩
      · rw [hG.unstarted q hp]
        exact hbody.start k (hl q k rfl)
      · exact hG.state q t hq
    · rw [hthr] at hq
      rcases update_some hq with ⟨rfl, rfl⟩ | ⟨-, hq⟩
      · rw [hG.unstarted q hp]
        exact hbody.follows k (hl q k rfl)
      · exact hG.follows q t hq
  · -- a thread performs an effect, and its automaton goes on
    obtain ⟨hmay, hf⟩ := hG.follows p _ hp
    refine ⟨Function.update G p ((T k).next (G p) e r), ?_, fun q hq => ?_, fun q t hq => ?_, fun q t hq => ?_⟩
    · rw [hhist]
      exact hJ G p k e c _ r w hG.shared hmay he
    · rw [hthr] at hq
      obtain ⟨hqp, hq⟩ := update_none hq
      rw [Function.update_of_ne hqp]
      exact hG.unstarted q hq
    · rw [hthr] at hq
      rcases update_some hq with ⟨rfl, rfl⟩ | ⟨hqp, hq⟩
      · rw [Function.update_self]
        exact hbody.next k _ e r (hG.state q _ hp) hmay
      · rw [Function.update_of_ne hqp]
        exact hG.state q t hq
    · rw [hthr] at hq
      rcases update_some hq with ⟨rfl, rfl⟩ | ⟨hqp, hq⟩
      · rw [Function.update_self]
        exact hf r
      · rw [Function.update_of_ne hqp]
        exact hG.follows q t hq

theorem Config.Tracks.steps {G : Pid → S} (hG : cfg.Tracks T s₀ I Q J G) (hs : Config.Steps M body calls cfg cfg') :
    ∃ G', cfg'.Tracks T s₀ I Q J G' := by
  induction hs with
  | refl => exact ⟨G, hG⟩
  | step l _ hl hs' ih =>
    obtain ⟨G', hG'⟩ := ih
    exact hG'.step hJ hbody hl hs'

/-- What holds at the start and is kept holds of every configuration that is reached. -/
theorem reachable_tracks (hinit : J (fun _ => s₀) w₀) (hr : Config.Reachable M body calls w₀ cfg) :
    ∃ G, cfg.Tracks T s₀ I Q J G := by
  induction hr with
  | init => exact ⟨fun _ => s₀, hinit, fun _ _ => rfl, fun p t ht => (by cases ht), fun p t ht => (by cases ht)⟩
  | step l _ hl hs ih =>
    obtain ⟨G, hG⟩ := ih
    exact hG.step hJ hbody hl hs

end Step

/-- The thread `p` follows the automaton, which is in a state with `I`. -/
def Config.Goes (T : Typestate E R S) (Q : α → S → Prop) (I : S → Prop) (p : Pid) (cfg : Config K E R W α) : Prop :=
  ∃ t s, cfg.threads p = some t ∧ t.prog.Follows T Q s ∧ I s

/-- **What each step of a thread keeps of its automaton, the run keeps.** -/
theorem Config.Goes.steps {T : Typestate E R S} {Q : α → S → Prop} {I : S → Prop} {p : Pid} (hg : cfg.Goes T Q I p)
    (hs : Config.Steps M body calls cfg cfg')
    (hI : ∀ cfg₁ cfg₂ c k h₀ e f r w s, Config.Steps M body calls cfg cfg₁ →
      cfg₁.step M body (.run p c) = some cfg₂ → Config.Steps M body calls cfg₂ cfg' →
      cfg₁.threads p = some ⟨k, h₀, .vis e f⟩ → M.exec p e c cfg₁.hist.now = some (r, w) → T.may s e → I s →
        I (T.next s e r)) :
    cfg'.Goes T Q I p := by
  induction hs with
  | refl => exact hg
  | @step cfg₁ cfg₂ l hs hl hs' ih =>
    obtain ⟨t, s, ht, hf, hi⟩ := ih fun c₁ c₂ c k h₀ e f r w s h₁ h₂ h₃ =>
      hI c₁ c₂ c k h₀ e f r w s h₁ h₂ (.step l h₃ hl hs')
    rcases Config.step_cases hs' with ⟨q, k, -, hq, -, hth⟩ | ⟨q, c, k, h₀, e, f, r, w, rfl, hq, he, -, hth⟩
    · have hne : p ≠ q := by
        rintro rfl
        rw [ht] at hq
        cases hq
      exact ⟨t, s, by rw [hth, Function.update_of_ne hne, ht], hf, hi⟩
    · by_cases hqp : p = q
      · obtain rfl := hqp
        rw [ht] at hq
        cases hq
        exact ⟨_, T.next s e r, by rw [hth, Function.update_self], hf.2 r, hI _ _ _ _ _ _ _ _ _ s hs hs' .refl ht he hf.1 hi⟩
      · exact ⟨t, s, by rw [hth, Function.update_of_ne hqp, ht], hf, hi⟩

end Runs

/-! ### Method bodies -/

namespace Op

/-- `Q` for what is returned and `Z` for what is raised, with the state of the automaton then. -/
def EndsIn (Q : α → S → Prop) (Z : X → S → Prop) : Except X α × σ → S → Prop
  | (.ok a, _), s => Q a s
  | (.error x, _), s => Z x s

/-- From every state with `P` the body follows the automaton, returns only with `Q` and raises only with
`Z`. -/
def Follows (T : Typestate E (fun e => Except X (A e)) S) (P : S → Prop) (m : Op E A X σ α) (Q : α → S → Prop)
    (Z : X → S → Prop) : Prop :=
  ∀ v s, P s → (m v).Follows T (EndsIn Q Z) s

variable {T : Typestate E (fun e => Except X (A e)) S} {P P' : S → Prop} {Q Q' : α → S → Prop} {Z Y : X → S → Prop}
  {m : Op E A X σ α}

lemma follows_false : Follows T (fun _ => False) m Q Z := fun _ _ hp => hp.elim

lemma follows_pure {a : α} (hQ : ∀ s, P s → Q a s) : Follows T P (Op.pure a : Op E A X σ α) Q Z :=
  fun _ s hp => hQ s hp

lemma follows_raise {x : X} (hZ : ∀ s, P s → Z x s) : Follows T P (Op.raise x : Op E A X σ α) Q Z :=
  fun _ s hp => hZ s hp

lemma follows_assign {f : σ → σ} : Follows T P (Op.assign f : Op E A X σ Unit) (fun _ => P) Z :=
  fun _ _ hp => hp

lemma follows_ofExcept {r : Except X α} (hQ : ∀ a s, P s → Q a s) (hZ : ∀ x s, P s → Z x s) :
    Follows T P (Op.ofExcept r : Op E A X σ α) Q Z := by
  cases r with
  | ok a => exact follows_pure (hQ a)
  | error x => exact follows_raise (hZ x)

lemma follows_perform {e : E} {Q : A e → S → Prop} (hmay : ∀ s, P s → T.may s e)
    (hQ : ∀ a s, P s → Q a (T.next s e (.ok a))) (hZ : ∀ x s, P s → Z x (T.next s e (.error x))) :
    Follows T P (Op.perform e : Op E A X σ (A e)) Q Z := by
  refine fun v s hp => ⟨hmay s hp, fun r => ?_⟩
  cases r with
  | ok a => exact hQ a s hp
  | error x => exact hZ x s hp

lemma Follows.pre (hm : Follows T P' m Q Z) (hP : ∀ s, P s → P' s) : Follows T P m Q Z :=
  fun v s hp => hm v s (hP s hp)

lemma Follows.post (hm : Follows T P m Q' Y) (hQ : ∀ a s, Q' a s → Q a s) (hZ : ∀ x s, Y x s → Z x s) :
    Follows T P m Q Z := by
  refine fun v s hp => (hm v s hp).mono fun out s' h => ?_
  obtain ⟨r, v'⟩ := out
  cases r with
  | ok a => exact hQ a s' h
  | error x => exact hZ x s' h

lemma Follows.bind {Q' : β → S → Prop} {f : α → Op E A X σ β} (hm : Follows T P m Q Z)
    (hf : ∀ a, Follows T (Q a) (f a) Q' Z) : Follows T P (m >>= f) Q' Z := by
  refine fun v s hp => (hm v s hp).bind fun out s' h => ?_
  obtain ⟨r, v'⟩ := out
  cases r with
  | ok a => exact hf a v' s' h
  | error x => exact h

lemma Follows.catching {g : X → Op E A X σ α} (hm : Follows T P m Q Y) (hg : ∀ x, Follows T (Y x) (g x) Q Z) :
    Follows T P (Op.catching m g) Q Z := by
  refine fun v s hp => (hm v s hp).bind fun out s' h => ?_
  obtain ⟨r, v'⟩ := out
  cases r with
  | ok a => exact h
  | error x => exact hg x v' s' h

lemma Follows.withLocals {init : τ} {m : Op E A X τ α} {B : Except X α × τ → S → Prop}
    (hm : Follows T P m (fun a s => ∀ v, B (.ok a, v) s) fun x s => ∀ v, B (.error x, v) s) :
    Follows T P (Op.withLocals init m : Op E A X σ _) B Z := by
  refine fun _ s hp => (hm init s hp).bind fun out s' h => ?_
  obtain ⟨r, v'⟩ := out
  cases r with
  | ok a => exact h v'
  | error x => exact h v'

end Op

end DataCheck.Lib
