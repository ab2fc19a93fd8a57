import DataCheck.Lib.Threads

/-!
# One thread alone

A program that runs by itself is a function of the choices that the environment makes.  The rules
here run a body statement by statement.
-/

namespace DataCheck.Lib

variable {E C W X σ α β : Type} {R A : E → Type}

/-- Run a program alone as the thread `p`, while the environment makes the choices `cs` one by one:
what the program stops with, the state then, and the choices that are left. -/
def Prog.solo (M : Machine E R C W) (p : Pid) : Prog E R α → List C → W → Option (α × W × List C)
  | .ret a, cs, w => some (a, w, cs)
  | .vis _ _, [], _ => none
  | .vis e k, c :: cs, w =>
    match M.exec p e c w with
    | some (r, w') => (k r).solo M p cs w'
    | none => none

theorem Prog.solo_bind (M : Machine E R C W) (p : Pid) (m : Prog E R α) (f : α → Prog E R β) :
    ∀ (cs : List C) (w : W), (m.bind f).solo M p cs w =
      (m.solo M p cs w).bind fun out => (f out.1).solo M p out.2.2 out.2.1 := by
  induction m with
  | ret a => exact fun _ _ => rfl
  | vis e k ih =>
    intro cs w
    cases cs with
    | nil => rfl
    | cons c cs =>
      simp only [Prog.vis_bind, Prog.solo]
      split
      · exact ih _ _ _
      · rfl

/-- The program performs at most `n` effects, whatever they answer. -/
def Prog.Within : Prog E R α → ℕ → Prop
  | .ret _, _ => True
  | .vis _ _, 0 => False
  | .vis _ k, n + 1 => ∀ r, (k r).Within n

lemma Prog.Within.mono {m : Prog E R α} : ∀ {n k : ℕ}, m.Within n → n ≤ k → m.Within k := by
  induction m with
  | ret a => intros; trivial
  | vis e f ih =>
    intro n k hm hle
    cases n with
    | zero => exact hm.elim
    | succ n =>
      cases k with
      | zero => omega
      | succ k => exact fun r => ih r (hm r) (by omega)

lemma Prog.Within.bind {m : Prog E R α} {f : α → Prog E R β} {k : ℕ} (hf : ∀ a, (f a).Within k) :
    ∀ {n : ℕ}, m.Within n → (m.bind f).Within (n + k) := by
  induction m with
  | ret a => exact fun _ => (hf a).mono (by omega)
  | vis e g ih =>
    intro n hm
    cases n with
    | zero => exact hm.elim
    | succ n =>
      rw [Nat.succ_add]
      exact fun r => ih r (hm r)

/-- A program alone stops, when every effect that it may perform is performed: `Good` is what the
environment makes sure of, for the choices that are left. -/
theorem Prog.Within.exists_solo {M : Machine E R C W} {p : Pid} {Good : W → List C → Prop}
    (hgood : ∀ w c cs e, Good w (c :: cs) → ∃ r w', M.exec p e c w = some (r, w') ∧ Good w' cs)
    {m : Prog E R α} : ∀ {n : ℕ}, m.Within n → ∀ {cs : List C} {w : W}, Good w cs → n ≤ cs.length →
      ∃ out, m.solo M p cs w = some out := by
  induction m with
  | ret a => exact fun _ _ _ _ _ => ⟨_, rfl⟩
  | vis e f ih =>
    intro n hm cs w hg hlen
    cases n with
    | zero => exact hm.elim
    | succ n =>
      cases cs with
      | nil => simp at hlen
      | cons c cs =>
        obtain ⟨r, w', hx, hg'⟩ := hgood w c cs e hg
        simp only [Prog.solo, hx]
        exact ih r (hm r) hg' (by simpa using hlen)

namespace Op

/-- The body performs at most `n` effects. -/
def Within (n : ℕ) (m : Op E A X σ α) : Prop := ∀ s, (m s).Within n

section Within

variable {n k : ℕ} {m : Op E A X σ α} {f : α → Op E A X σ β} {g : X → Op E A X σ α}

lemma within_pure {a : α} : Within 0 (Op.pure a : Op E A X σ α) := fun _ => trivial

lemma within_raise {x : X} : Within 0 (Op.raise x : Op E A X σ α) := fun _ => trivial

lemma within_perform {e : E} : Within 1 (Op.perform e : Op E A X σ (A e)) := fun _ _ => trivial

lemma within_ofExcept {r : Except X α} : Within 0 (Op.ofExcept r : Op E A X σ α) := by
  cases r with
  | ok a => exact within_pure
  | error x => exact within_raise

lemma Within.mono (h : Within n m) (hle : n ≤ k) : Within k m := fun s => (h s).mono hle

lemma Within.bind (hm : Within n m) (hf : ∀ a, Within k (f a)) : Within (n + k) (m >>= f) := fun s =>
  Prog.Within.bind (fun out => by
    obtain ⟨r, s'⟩ := out
    cases r with
    | ok a => exact hf a s'
    | error x => trivial) (hm s)

lemma Within.catching (hm : Within n m) (hg : ∀ x, Within k (g x)) : Within (n + k) (Op.catching m g) := fun s =>
  Prog.Within.bind (fun out => by
    obtain ⟨r, s'⟩ := out
    cases r with
    | ok a => trivial
    | error x => exact hg x s') (hm s)

end Within

variable {M : Machine E (fun e => Except X (A e)) C W} {p : Pid} {m : Op E A X σ α}
  {f : α → Op E A X σ β} {g : X → Op E A X σ α} {s s' : σ} {cs cs' : List C} {w w' : W}

lemma solo_bind_ok {a : α} (h : (m s).solo M p cs w = some ((.ok a, s'), w', cs')) :
    ((m >>= f) s).solo M p cs w = (f a s').solo M p cs' w' := by
  refine (Prog.solo_bind M p (m s) _ cs w).trans ?_
  rw [h]
  rfl

lemma solo_bind_error {x : X} (h : (m s).solo M p cs w = some ((.error x, s'), w', cs')) :
    ((m >>= f) s).solo M p cs w = some ((.error x, s'), w', cs') := by
  refine (Prog.solo_bind M p (m s) _ cs w).trans ?_
  rw [h]
  rfl

lemma solo_catching_ok {a : α} (h : (m s).solo M p cs w = some ((.ok a, s'), w', cs')) :
    (Op.catching m g s).solo M p cs w = some ((.ok a, s'), w', cs') := by
  refine (Prog.solo_bind M p (m s) _ cs w).trans ?_
  rw [h]
  rfl

lemma solo_catching_error {x : X} (h : (m s).solo M p cs w = some ((.error x, s'), w', cs')) :
    (Op.catching m g s).solo M p cs w = (g x s').solo M p cs' w' := by
  refine (Prog.solo_bind M p (m s) _ cs w).trans ?_
  rw [h]
  rfl

/-! ### Rules -/

/-- From `P` the body, running alone, returns only with `Q` and raises only with `Z`. -/
def Alone (M : Machine E (fun e => Except X (A e)) C W) (p : Pid) (P : σ → W → Prop) (m : Op E A X σ α)
    (Q : α → σ → W → Prop) (Z : X → σ → W → Prop) : Prop :=
  ∀ s w cs out s' w' cs', P s w → (m s).solo M p cs w = some ((out, s'), w', cs') →
    (∀ a, out = .ok a → Q a s' w') ∧ ∀ x, out = .error x → Z x s' w'

section Alone

variable {P P' : σ → W → Prop} {Q : α → σ → W → Prop} {Z Y : X → σ → W → Prop}

theorem Alone.pure {a : α} (hQ : ∀ s w, P s w → Q a s w) : Alone M p P (Op.pure a) Q Z := by
  intro s w cs out s' w' cs' hp h
  cases h
  exact ⟨fun a ha => by cases ha; exact hQ _ _ hp, fun x hx => (nomatch hx)⟩

theorem Alone.raise {x : X} (hZ : ∀ s w, P s w → Z x s w) :
    Alone M p P (Op.raise x : Op E A X σ α) Q Z := by
  intro s w cs out s' w' cs' hp h
  cases h
  exact ⟨fun a ha => (nomatch ha), fun x hx => by cases hx; exact hZ _ _ hp⟩

theorem Alone.assign {g : σ → σ} {Q : Unit → σ → W → Prop} (hQ : ∀ s w, P s w → Q () (g s) w) :
    Alone M p P (Op.assign g) Q Z := by
  intro s w cs out s' w' cs' hp h
  cases h
  exact ⟨fun a _ => hQ _ _ hp, fun x hx => (nomatch hx)⟩

theorem Alone.ofExcept {r : Except X α} (hQ : ∀ a s w, r = .ok a → P s w → Q a s w)
    (hZ : ∀ x s w, r = .error x → P s w → Z x s w) : Alone M p P (Op.ofExcept r) Q Z := by
  cases r with
  | ok a => exact Alone.pure fun s w hp => hQ a s w rfl hp
  | error x => exact Alone.raise fun s w hp => hZ x s w rfl hp

theorem Alone.pre (h : Alone M p P' m Q Z) (hP : ∀ s w, P s w → P' s w) : Alone M p P m Q Z :=
  fun s w cs out s' w' cs' hp => h s w cs out s' w' cs' (hP s w hp)

theorem Alone.post {Q' : α → σ → W → Prop} (h : Alone M p P m Q' Y)
    (hQ : ∀ a s w, Q' a s w → Q a s w) (hZ : ∀ x s w, Y x s w → Z x s w) : Alone M p P m Q Z := by
  intro s w cs out s' w' cs' hp hm
  obtain ⟨hq, hz⟩ := h s w cs out s' w' cs' hp hm
  exact ⟨fun a ha => hQ a s' w' (hq a ha), fun x hx => hZ x s' w' (hz x hx)⟩

theorem Alone.exists_pre {ι : Sort*} {P : ι → σ → W → Prop} (h : ∀ i, Alone M p (P i) m Q Z) :
    Alone M p (fun s w => ∃ i, P i s w) m Q Z :=
  fun s w cs out s' w' cs' ⟨i, hp⟩ => h i s w cs out s' w' cs' hp

theorem Alone.or_pre (h : Alone M p P m Q Z) (h' : Alone M p P' m Q Z) :
    Alone M p (fun s w => P s w ∨ P' s w) m Q Z :=
  fun s w cs out s' w' cs' hp => hp.elim (h s w cs out s' w' cs') (h' s w cs out s' w' cs')

/-- A fact that the precondition contains may be used in the proof of the body. -/
theorem Alone.assume {φ : Prop} (hφ : ∀ s w, P s w → φ) (h : φ → Alone M p P m Q Z) :
    Alone M p P m Q Z :=
  fun s w cs out s' w' cs' hp => h (hφ s w hp) s w cs out s' w' cs' hp

theorem Alone.bind {Q : β → σ → W → Prop} {B : α → σ → W → Prop} (hm : Alone M p P m B Z)
    (hf : ∀ a, Alone M p (B a) (f a) Q Z) : Alone M p P (m >>= f) Q Z := by
  intro s w cs out s' w' cs' hp h
  obtain ⟨⟨⟨r, s₁⟩, w₁, cs₁⟩, hm', hf'⟩ :=
    Option.bind_eq_some_iff.mp ((Prog.solo_bind M p (m s) _ cs w).symm.trans h)
  obtain ⟨hq, hz⟩ := hm s w cs r s₁ w₁ cs₁ hp hm'
  cases r with
  | ok a => exact hf a s₁ w₁ cs₁ out s' w' cs' (hq a rfl) hf'
  | error x =>
    cases hf'
    exact ⟨fun a ha => (nomatch ha), fun y hy => by cases hy; exact hz x rfl⟩

theorem Alone.catching (hm : Alone M p P m Q Y) (hg : ∀ x, Alone M p (Y x) (g x) Q Z) :
    Alone M p P (Op.catching m g) Q Z := by
  intro s w cs out s' w' cs' hp h
  obtain ⟨⟨⟨r, s₁⟩, w₁, cs₁⟩, hm', hf'⟩ :=
    Option.bind_eq_some_iff.mp ((Prog.solo_bind M p (m s) _ cs w).symm.trans h)
  obtain ⟨hq, hz⟩ := hm s w cs r s₁ w₁ cs₁ hp hm'
  cases r with
  | ok a =>
    cases hf'
    exact ⟨fun b hb => by cases hb; exact hq a rfl, fun x hx => (nomatch hx)⟩
  | error x => exact hg x s₁ w₁ cs₁ out s' w' cs' (hz x rfl) hf'

theorem Alone.withLocals {τ : Type} {init : τ} {m : Op E A X τ α} {Q : Except X α × τ → σ → W → Prop}
    (hm : ∀ s, Alone M p (fun v w => v = init ∧ P s w) m (fun a v => Q (.ok a, v) s)
      fun x v => Q (.error x, v) s) : Alone M p P (Op.withLocals init m) Q Z := by
  intro s w cs out s' w' cs' hp h
  obtain ⟨⟨⟨r, v⟩, w₁, cs₁⟩, hm', hf'⟩ :=
    Option.bind_eq_some_iff.mp ((Prog.solo_bind M p (m init) _ cs w).symm.trans h)
  obtain ⟨hq, hz⟩ := hm s init w cs r v w₁ cs₁ ⟨rfl, hp⟩ hm'
  cases hf'
  refine ⟨fun b hb => ?_, fun x hx => (nomatch hx)⟩
  cases hb
  cases r with
  | ok a => exact hq a rfl
  | error x => exact hz x rfl

theorem Alone.perform {e : E} {Q : A e → σ → W → Prop}
    (hstep : ∀ s w c r w', P s w → M.exec p e c w = some (r, w') →
      (∀ a, r = .ok a → Q a s w') ∧ ∀ x, r = .error x → Z x s w') :
    Alone M p P (Op.perform e) Q Z := by
  intro s w cs out s' w' cs' hp h
  cases cs with
  | nil => cases h
  | cons c cs =>
    simp only [Op.perform, Prog.solo] at h
    split at h
    · next r w₁ he =>
      cases h
      exact hstep s w c _ _ hp he
    · cases h

end Alone

end Op

end DataCheck.Lib
