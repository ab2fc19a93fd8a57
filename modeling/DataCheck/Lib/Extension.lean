import DataCheck.Lib.Rely

/-!
# More than a contract

When every thread keeps a contract, that is a fact about every step of a run, and a proof about
something more may use it.  `Also` is what such a proof shows of one program: at each step it is
given the first contract and shows the second.  Both together are a contract again
(`Contract.both`), so that `reachable_safe` puts the threads together, and nothing that was proved
of the first contract is proved again.
-/

namespace DataCheck.Lib

variable {K E C W α β : Type} {R : E → Type}

def Contract.both (S S' : Contract K E W) : Contract K E W where
  Inv h := S.Inv h ∧ S'.Inv h
  Guar p k h w := S.Guar p k h w ∧ S'.Guar p k h w
  At t e h := S.At t e h ∧ S'.At t e h

/-- What the first contract keeps stable, both keep stable. -/
lemma Stable.both {S : Contract K E W} (S' : Contract K E W) {p : Pid} {P : Assert W} (hP : Stable S p P) :
    Stable (S.both S') p P :=
  fun q k h w hq hi hp hg hi' => hP q k h w hq hi.1 hp hg.1 hi'.1

/-! ### Programs -/

/-- The program of the thread `t` keeps the contract `S'`, where it is known to keep `S`. -/
def Also (M : Machine E R C W) (S S' : Contract K E W) (t : Caller K W) :
    Prog E R α → Assert W → (α → Assert W) → Prop
  | .ret a, P, Q => ∀ h, (S.both S').Inv h → P h → Q a h
  | .vis e f, P, Q =>
    (∀ h, (S.both S').Inv h → P h → S'.At t e h) ∧
    ∀ h c r w, (S.both S').Inv h → P h → M.exec t.pid e c h.now = some (r, w) →
      S.Guar t.pid t.call h w → S.Inv (h.push w) →
      S'.Guar t.pid t.call h w ∧ S'.Inv (h.push w) ∧
        ∃ P', Stable (S.both S') t.pid P' ∧ P' (h.push w) ∧ Also M S S' t (f r) P' Q

section Also

variable {M : Machine E R C W} {S S' : Contract K E W} {t : Caller K W}

/-- **A program that keeps one contract, and with it another, keeps both.** -/
theorem Safe.also {m : Prog E R α} {P P' : Assert W} {Q Q' : α → Assert W} (hm : Safe M S t m P Q)
    (hm' : Also M S S' t m P' Q') :
    Safe M (S.both S') t m (fun h => P h ∧ P' h) fun a h => Q a h ∧ Q' a h := by
  induction m generalizing P P' with
  | ret a => exact fun h hi hp => ⟨hm h hi.1 hp.1, hm' h hi hp.2⟩
  | vis e f ih =>
    refine ⟨fun h hi hp => ⟨hm.1 h hi.1 hp.1, hm'.1 h hi hp.2⟩, fun h c r w hi hp he => ?_⟩
    obtain ⟨hg, hi₁, P₁, hs, hp₁, hf⟩ := hm.2 h c r w hi.1 hp.1 he
    obtain ⟨hg', hi₁', P₁', hs', hp₁', hf'⟩ := hm'.2 h c r w hi hp.2 he hg hi₁
    exact ⟨⟨hg, hg'⟩, ⟨hi₁, hi₁'⟩, _, (hs.both S').and hs', ⟨hp₁, hp₁'⟩, ih r hf hf'⟩

lemma Also.pre {m : Prog E R α} {P P' : Assert W} {Q : α → Assert W} (hm : Also M S S' t m P' Q)
    (hP : ∀ h, (S.both S').Inv h → P h → P' h) : Also M S S' t m P Q := by
  cases m with
  | ret a => exact fun h hi hp => hm h hi (hP h hi hp)
  | vis e f =>
    exact ⟨fun h hi hp => hm.1 h hi (hP h hi hp), fun h c r w hi hp => hm.2 h c r w hi (hP h hi hp)⟩

lemma Also.post {m : Prog E R α} {P : Assert W} {Q Q' : α → Assert W} (hm : Also M S S' t m P Q')
    (hQ : ∀ a h, (S.both S').Inv h → Q' a h → Q a h) : Also M S S' t m P Q := by
  induction m generalizing P with
  | ret a => exact fun h hi hp => hQ a h hi (hm h hi hp)
  | vis e f ih =>
    refine ⟨hm.1, fun h c r w hi hp he hg hi' => ?_⟩
    obtain ⟨hg', hi₁, P', hs, hp', hf⟩ := hm.2 h c r w hi hp he hg hi'
    exact ⟨hg', hi₁, P', hs, hp', ih r hf⟩

lemma Also.exists_pre {ι : Sort*} {m : Prog E R α} {P : ι → Assert W} {Q : α → Assert W}
    (hm : ∀ i, Also M S S' t m (P i) Q) : Also M S S' t m (fun h => ∃ i, P i h) Q := by
  cases m with
  | ret a => exact fun h hi ⟨i, hp⟩ => hm i h hi hp
  | vis e f =>
    exact ⟨fun h hi ⟨i, hp⟩ => (hm i).1 h hi hp, fun h c r w hi ⟨i, hp⟩ => (hm i).2 h c r w hi hp⟩

lemma Also.bind {m : Prog E R α} {f : α → Prog E R β} {P : Assert W} {Q' : α → Assert W}
    {Q : β → Assert W} (hm : Also M S S' t m P Q') (hf : ∀ a, Also M S S' t (f a) (Q' a) Q) :
    Also M S S' t (m.bind f) P Q := by
  induction m generalizing P with
  | ret a => exact (hf a).pre hm
  | vis e g ih =>
    refine ⟨hm.1, fun h c r w hi hp he hg hi' => ?_⟩
    obtain ⟨hg', hi₁, P', hs, hp', hf'⟩ := hm.2 h c r w hi hp he hg hi'
    exact ⟨hg', hi₁, P', hs, hp', ih r hf'⟩

end Also

/-! ### Method bodies -/

variable {A : E → Type} {X σ τ : Type}

/-- From `P` the body keeps the contract `S'` where it is known to keep `S`, returns only with `Q`
and raises only with `Z`. -/
def AlsoTriple (M : Machine E (fun e => Except X (A e)) C W) (S S' : Contract K E W) (t : Caller K W)
    (P : σ → Assert W) (m : Op E A X σ α) (Q : α → σ → Assert W) (Z : X → σ → Assert W) : Prop :=
  ∀ s, Also M S S' t (m s) (P s) (post Q Z)

section AlsoTriple

variable {M : Machine E (fun e => Except X (A e)) C W} {S S' : Contract K E W} {t : Caller K W}
  {P P' : σ → Assert W} {Z Y : X → σ → Assert W}

theorem AlsoTriple.pure {a : α} {Q : α → σ → Assert W} (hQ : ∀ s h, (S.both S').Inv h → P s h → Q a s h) :
    AlsoTriple M S S' t P (Op.pure a) Q Z := fun s h hi hp => hQ s h hi hp

theorem AlsoTriple.raise {x : X} {Q : α → σ → Assert W} (hZ : ∀ s h, (S.both S').Inv h → P s h → Z x s h) :
    AlsoTriple M S S' t P (Op.raise x) Q Z := fun s h hi hp => hZ s h hi hp

theorem AlsoTriple.assign {f : σ → σ} {Q : Unit → σ → Assert W}
    (hQ : ∀ s h, (S.both S').Inv h → P s h → Q () (f s) h) : AlsoTriple M S S' t P (Op.assign f) Q Z :=
  fun s h hi hp => hQ s h hi hp

theorem AlsoTriple.ofExcept {r : Except X α} {Q : α → σ → Assert W}
    (hQ : ∀ a s h, r = .ok a → (S.both S').Inv h → P s h → Q a s h)
    (hZ : ∀ x s h, r = .error x → (S.both S').Inv h → P s h → Z x s h) :
    AlsoTriple M S S' t P (Op.ofExcept r) Q Z := by
  cases r with
  | ok a => exact AlsoTriple.pure fun s h hi hp => hQ a s h rfl hi hp
  | error x => exact AlsoTriple.raise fun s h hi hp => hZ x s h rfl hi hp

theorem AlsoTriple.pre {m : Op E A X σ α} {Q : α → σ → Assert W} (hm : AlsoTriple M S S' t P' m Q Z)
    (hP : ∀ s h, (S.both S').Inv h → P s h → P' s h) : AlsoTriple M S S' t P m Q Z :=
  fun s => (hm s).pre (hP s)

theorem AlsoTriple.post {m : Op E A X σ α} {Q Q' : α → σ → Assert W} (hm : AlsoTriple M S S' t P m Q' Y)
    (hQ : ∀ a s h, (S.both S').Inv h → Q' a s h → Q a s h)
    (hZ : ∀ x s h, (S.both S').Inv h → Y x s h → Z x s h) : AlsoTriple M S S' t P m Q Z :=
  fun s => (hm s).post fun out h hi hq => by
    obtain ⟨r, s'⟩ := out
    cases r with
    | ok a => exact hQ a s' h hi hq
    | error x => exact hZ x s' h hi hq

theorem AlsoTriple.exists_pre {ι : Sort*} {P : ι → σ → Assert W} {m : Op E A X σ α}
    {Q : α → σ → Assert W} (hm : ∀ i, AlsoTriple M S S' t (P i) m Q Z) :
    AlsoTriple M S S' t (fun s h => ∃ i, P i s h) m Q Z := fun s => Also.exists_pre fun i => hm i s

/-- A fact that the precondition contains may be used in the proof of the body. -/
theorem AlsoTriple.assume {φ : Prop} {m : Op E A X σ α} {Q : α → σ → Assert W}
    (hφ : ∀ s h, (S.both S').Inv h → P s h → φ) (hm : φ → AlsoTriple M S S' t P m Q Z) :
    AlsoTriple M S S' t P m Q Z :=
  fun s => (Also.exists_pre fun i : φ => hm i s).pre fun h hi hp => ⟨hφ s h hi hp, hp⟩

theorem AlsoTriple.bind {m : Op E A X σ α} {f : α → Op E A X σ β} {B : α → σ → Assert W}
    {Q : β → σ → Assert W} (hm : AlsoTriple M S S' t P m B Z)
    (hf : ∀ a, AlsoTriple M S S' t (B a) (f a) Q Z) : AlsoTriple M S S' t P (m >>= f) Q Z := fun s => by
  refine (hm s).bind fun out => ?_
  obtain ⟨r, s'⟩ := out
  cases r with
  | ok a => exact hf a s'
  | error x => exact fun h _ hz => hz

theorem AlsoTriple.catching {m : Op E A X σ α} {g : X → Op E A X σ α} {Q : α → σ → Assert W}
    (hm : AlsoTriple M S S' t P m Q Y) (hg : ∀ x, AlsoTriple M S S' t (Y x) (g x) Q Z) :
    AlsoTriple M S S' t P (Op.catching m g) Q Z := fun s => by
  refine (hm s).bind fun out => ?_
  obtain ⟨r, s'⟩ := out
  cases r with
  | ok a => exact fun h _ hq => hq
  | error x => exact hg x s'

theorem AlsoTriple.withLocals {init : τ} {m : Op E A X τ α} {Q : Except X α × τ → σ → Assert W}
    (hm : ∀ s, AlsoTriple M S S' t (fun v h => v = init ∧ P s h) m (fun a v => Q (.ok a, v) s)
      fun x v => Q (.error x, v) s) :
    AlsoTriple M S S' t P (Op.withLocals init m) Q Z := fun s => by
  refine (((hm s) init).pre fun h _ hp => ⟨rfl, hp⟩).bind fun out => ?_
  obtain ⟨r, v⟩ := out
  cases r <;> exact fun h _ hq => hq

/-- One effect: what the step adds, what holds after it, and that the others keep that. -/
theorem AlsoTriple.perform {e : E} {Q : A e → σ → Assert W}
    (hat : ∀ s h, (S.both S').Inv h → P s h → S'.At t e h)
    (hQs : ∀ a s, Stable (S.both S') t.pid (Q a s)) (hZs : ∀ x s, Stable (S.both S') t.pid (Z x s))
    (hstep : ∀ s h c r w, (S.both S').Inv h → P s h → M.exec t.pid e c h.now = some (r, w) →
      S.Guar t.pid t.call h w → S.Inv (h.push w) → S'.Guar t.pid t.call h w ∧ S'.Inv (h.push w) ∧
        (∀ a, r = .ok a → Q a s (h.push w)) ∧ ∀ x, r = .error x → Z x s (h.push w)) :
    AlsoTriple M S S' t P (Op.perform e) Q Z := fun s => by
  refine ⟨hat s, fun h c r w hi hp he hg hi₁ => ?_⟩
  obtain ⟨hg', hi', hq, hz⟩ := hstep s h c r w hi hp he hg hi₁
  refine ⟨hg', hi', ?_⟩
  cases r with
  | ok a => exact ⟨Q a s, hQs a s, hq a rfl, fun h' _ hq' => hq'⟩
  | error x => exact ⟨Z x s, hZs x s, hz x rfl, fun h' _ hz' => hz'⟩

end AlsoTriple

end DataCheck.Lib
