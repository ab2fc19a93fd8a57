import DataCheck.Lib.Solo
import Mathlib.Data.Option.Basic

/-!
# Two runs in lockstep

A discipline says which effects a program may perform in a state, and how much of an answer it may
look at.  A program that keeps the discipline does the same from any two states that its effects
cannot tell apart, whatever else is different there; and what its effects preserve one by one, the
whole run preserves.
-/

namespace DataCheck.Lib

variable {E C W X σ τ α β : Type} {R A : E → Type}

/-- What a program may rely on, which effects it may perform, and which answers it may not tell
apart. -/
structure Discipline (E : Type) (R : E → Type) (W : Type) where
  Inv : W → Prop
  May : W → E → Prop
  Same : (e : E) → R e → R e → Prop

/-- The effects keep what the program relies on. -/
def Discipline.Invariant (D : Discipline E R W) (M : Machine E R C W) (p : Pid) : Prop :=
  ∀ e c w r w', D.Inv w → D.May w e → M.exec p e c w = some (r, w') → D.Inv w'

/-- From two states that `Rel` relates, an effect is performed in both or in neither; the answers are
the same, and the next states are related. -/
def Discipline.Lockstep (D : Discipline E R W) (M : Machine E R C W) (p : Pid) (Rel : W → W → Prop) : Prop :=
  ∀ e c w v, Rel w v → D.May w e →
    Option.Rel (fun x y => D.Same e x.1 y.1 ∧ Rel x.2 y.2) (M.exec p e c w) (M.exec p e c v)

/-- Alone from the state `w` the program keeps the discipline, and stops only with `Q`. -/
def Prog.Keeps (M : Machine E R C W) (p : Pid) (D : Discipline E R W) (Q : α → W → Prop) :
    Prog E R α → W → Prop
  | .ret a, w => Q a w
  | .vis e k, w => D.May w e ∧ (∀ r r', D.Same e r r' → k r = k r') ∧
    ∀ c r w', D.Inv w' → M.exec p e c w = some (r, w') → (k r).Keeps M p D Q w'

namespace Prog.Keeps

variable {M : Machine E R C W} {p : Pid} {D : Discipline E R W} {m : Prog E R α}

lemma bind {f : α → Prog E R β} {B : α → W → Prop} {Q : β → W → Prop}
    (hf : ∀ a w, D.Inv w → B a w → (f a).Keeps M p D Q w) :
    ∀ {w : W}, D.Inv w → m.Keeps M p D B w → (m.bind f).Keeps M p D Q w := by
  induction m with
  | ret a => exact fun hw hm => hf a _ hw hm
  | vis e k ih =>
    rintro w hw ⟨hmay, hk, hnext⟩
    exact ⟨hmay, fun r r' hr => congrArg (fun n => n.bind f) (hk r r' hr),
      fun c r w' hw' hx => ih r hw' (hnext c r w' hw' hx)⟩

lemma post {Q Q' : α → W → Prop} (hQ : ∀ a w, Q' a w → Q a w) :
    ∀ {w : W}, m.Keeps M p D Q' w → m.Keeps M p D Q w := by
  induction m with
  | ret a => exact fun hm => hQ a _ hm
  | vis e k ih => exact fun hm => ⟨hm.1, hm.2.1, fun c r w' hw' hx => ih r (hm.2.2 c r w' hw' hx)⟩

/-- **What every effect preserves, a run preserves.** -/
theorem solo {I : W → Prop} {Q : α → W → Prop} (hD : D.Invariant M p)
    (hI : ∀ e c w r w', D.Inv w → I w → D.May w e → M.exec p e c w = some (r, w') → I w') :
    ∀ {cs : List C} {w : W} {a : α} {w' : W} {cs' : List C}, D.Inv w → I w → m.Keeps M p D Q w →
      m.solo M p cs w = some (a, w', cs') → D.Inv w' ∧ I w' ∧ Q a w' := by
  induction m with
  | ret a =>
    intro cs w b w' cs' hw hi hm h
    cases h
    exact ⟨hw, hi, hm⟩
  | vis e k ih =>
    rintro (_ | ⟨c, cs⟩) w b w' cs' hw hi ⟨hmay, -, hnext⟩ h
    · cases h
    · simp only [Prog.solo] at h
      split at h
      · next r w₁ hx =>
        have hw₁ : D.Inv w₁ := hD e c w r w₁ hw hmay hx
        exact ih r hw₁ (hI e c w r w₁ hw hi hmay hx) (hnext c r w₁ hw₁ hx) h
      · cases h

/-- **Two runs in lockstep**: from related states, with the same choices of the environment, both
programs stop or neither does; they stop with the same value, in related states, and with the same
choices left. -/
theorem lockstep {Rel : W → W → Prop} {Q : α → W → Prop} (hstep : D.Lockstep M p Rel)
    (hRel : ∀ w v, Rel w v → D.Inv w) :
    ∀ {cs : List C} {w v : W}, Rel w v → m.Keeps M p D Q w →
      Option.Rel (fun x y => x.1 = y.1 ∧ Rel x.2.1 y.2.1 ∧ x.2.2 = y.2.2) (m.solo M p cs w)
        (m.solo M p cs v) := by
  induction m with
  | ret a => exact fun hr _ => .some ⟨rfl, hr, rfl⟩
  | vis e k ih =>
    rintro (_ | ⟨c, cs⟩) w v hr ⟨hmay, hk, hnext⟩
    · exact .none
    · have hs := hstep e c w v hr hmay
      simp only [Prog.solo]
      revert hs
      cases hw : M.exec p e c w with
      | none =>
        intro hs
        cases hv : M.exec p e c v with
        | none => exact .none
        | some y => rw [hv] at hs; cases hs
      | some x =>
        intro hs
        cases hv : M.exec p e c v with
        | none => rw [hv] at hs; cases hs
        | some y =>
          rw [hv] at hs
          obtain ⟨r, w'⟩ := x
          obtain ⟨r', v'⟩ := y
          obtain ⟨hsame, hr'⟩ : D.Same e r r' ∧ Rel w' v' := by
            cases hs with
            | some h => exact h
          simp only [← hk r r' hsame]
          exact ih r hr' (hnext c r w' (hRel w' v' hr') hw)

end Prog.Keeps

namespace Op

variable {M : Machine E (fun e => Except X (A e)) C W} {p : Pid}
  {D : Discipline E (fun e => Except X (A e)) W} {m : Op E A X σ α} {f : α → Op E A X σ β}
  {g : X → Op E A X σ α} {P H : σ → W → Prop} {Q : α → σ → W → Prop} {Z Y : X → σ → W → Prop}

/-- The body stopped with `Q` or raised with `Z`. -/
def Ended (Q : α → σ → W → Prop) (Z : X → σ → W → Prop) (out : Except X α × σ) (w : W) : Prop :=
  (∀ a, out.1 = .ok a → Q a out.2 w) ∧ ∀ x, out.1 = .error x → Z x out.2 w

/-- From `P` the body, running alone, keeps the discipline, returns only with `Q` and raises only with
`Z`. -/
def Keeps (M : Machine E (fun e => Except X (A e)) C W) (p : Pid)
    (D : Discipline E (fun e => Except X (A e)) W) (P : σ → W → Prop) (m : Op E A X σ α)
    (Q : α → σ → W → Prop) (Z : X → σ → W → Prop) : Prop :=
  ∀ s w, D.Inv w → P s w → (m s).Keeps M p D (Ended Q Z) w

/-! ### Rules -/

theorem Keeps.pure {a : α} (hQ : ∀ s w, P s w → Q a s w) : Keeps M p D P (Op.pure a) Q Z := by
  intro s w _ hp
  exact ⟨fun b hb => by cases hb; exact hQ s w hp, fun x hx => (nomatch hx)⟩

theorem Keeps.raise {x : X} (hZ : ∀ s w, P s w → Z x s w) :
    Keeps M p D P (Op.raise x : Op E A X σ α) Q Z := by
  intro s w _ hp
  exact ⟨fun a ha => (nomatch ha), fun y hy => by cases hy; exact hZ s w hp⟩

theorem Keeps.assign {g : σ → σ} {Q : Unit → σ → W → Prop} (hQ : ∀ s w, P s w → Q () (g s) w) :
    Keeps M p D P (Op.assign g) Q Z := by
  intro s w _ hp
  exact ⟨fun a _ => hQ s w hp, fun x hx => (nomatch hx)⟩

theorem Keeps.ofExcept {r : Except X α} (hQ : ∀ a s w, r = .ok a → P s w → Q a s w)
    (hZ : ∀ x s w, r = .error x → P s w → Z x s w) : Keeps M p D P (Op.ofExcept r) Q Z := by
  cases r with
  | ok a => exact Keeps.pure fun s w hp => hQ a s w rfl hp
  | error x => exact Keeps.raise fun s w hp => hZ x s w rfl hp

theorem Keeps.pre (h : Keeps M p D H m Q Z) (hP : ∀ s w, D.Inv w → P s w → H s w) :
    Keeps M p D P m Q Z := fun s w hw hp => h s w hw (hP s w hw hp)

theorem Keeps.post {Q' : α → σ → W → Prop} (h : Keeps M p D P m Q' Y) (hQ : ∀ a s w, Q' a s w → Q a s w)
    (hZ : ∀ x s w, Y x s w → Z x s w) : Keeps M p D P m Q Z := fun s w hw hp =>
  Prog.Keeps.post (fun out w hout => ⟨fun a ha => hQ a out.2 w (hout.1 a ha), fun x hx => hZ x out.2 w (hout.2 x hx)⟩)
    (h s w hw hp)

/-- A fact that the precondition contains may be used in the proof of the body. -/
theorem Keeps.assume {φ : Prop} (hφ : ∀ s w, D.Inv w → P s w → φ) (h : φ → Keeps M p D P m Q Z) :
    Keeps M p D P m Q Z := fun s w hw hp => h (hφ s w hw hp) s w hw hp

theorem Keeps.bind {Q : β → σ → W → Prop} {B : α → σ → W → Prop} (hm : Keeps M p D P m B Z)
    (hf : ∀ a, Keeps M p D (B a) (f a) Q Z) : Keeps M p D P (m >>= f) Q Z := by
  intro s w hw hp
  refine Prog.Keeps.bind (fun out w' hw' hout => ?_) hw (hm s w hw hp)
  obtain ⟨r, s'⟩ := out
  cases r with
  | ok a => exact hf a s' w' hw' (hout.1 a rfl)
  | error x => exact ⟨fun a ha => (nomatch ha), fun y hy => by cases hy; exact hout.2 x rfl⟩

theorem Keeps.catching (hm : Keeps M p D P m Q Y) (hg : ∀ x, Keeps M p D (Y x) (g x) Q Z) :
    Keeps M p D P (Op.catching m g) Q Z := by
  intro s w hw hp
  refine Prog.Keeps.bind (fun out w' hw' hout => ?_) hw (hm s w hw hp)
  obtain ⟨r, s'⟩ := out
  cases r with
  | ok a => exact ⟨fun b hb => by cases hb; exact hout.1 a rfl, fun x hx => (nomatch hx)⟩
  | error x => exact hg x s' w' hw' (hout.2 x rfl)

theorem Keeps.withLocals {init : τ} {m : Op E A X τ α} {Q : Except X α × τ → σ → W → Prop}
    (hm : ∀ s, Keeps M p D (fun v w => v = init ∧ P s w) m (fun a v => Q (.ok a, v) s)
      fun x v => Q (.error x, v) s) : Keeps M p D P (Op.withLocals init m) Q Z := by
  intro s w hw hp
  refine Prog.Keeps.bind (fun out w' _ hout => ?_) hw (hm s init w hw ⟨rfl, hp⟩)
  obtain ⟨r, v⟩ := out
  refine ⟨fun b hb => ?_, fun x hx => (nomatch hx)⟩
  cases hb
  cases r with
  | ok a => exact hout.1 a rfl
  | error x => exact hout.2 x rfl

/-- One effect, all of whose answer is used. -/
theorem Keeps.perform {e : E} {Q : A e → σ → W → Prop} (hmay : ∀ s w, D.Inv w → P s w → D.May w e)
    (hsame : ∀ r r', D.Same e r r' → r = r')
    (hstep : ∀ s w c r w', D.Inv w → D.Inv w' → P s w → M.exec p e c w = some (r, w') →
      (∀ a, r = .ok a → Q a s w') ∧ ∀ x, r = .error x → Z x s w') :
    Keeps M p D P (Op.perform e) Q Z := by
  intro s w hw hp
  exact ⟨hmay s w hw hp, fun r r' hr => by rw [hsame r r' hr],
    fun c r w' hw' hx => hstep s w c r w' hw hw' hp hx⟩

/-- One effect, and a rest that does not tell apart what the discipline does not. -/
theorem Keeps.perform_bind {e : E} {f : A e → Op E A X σ β} {Q : β → σ → W → Prop} {B : A e → σ → W → Prop}
    (hmay : ∀ s w, D.Inv w → P s w → D.May w e)
    (hsame : ∀ r r', D.Same e r r' → r = r' ∨ ∃ a a', r = .ok a ∧ r' = .ok a' ∧ f a = f a')
    (hstep : ∀ s w c r w', D.Inv w → D.Inv w' → P s w → M.exec p e c w = some (r, w') →
      (∀ a, r = .ok a → B a s w') ∧ ∀ x, r = .error x → Z x s w')
    (hf : ∀ a, Keeps M p D (B a) (f a) Q Z) : Keeps M p D P (Op.perform e >>= f) Q Z := by
  intro s w hw hp
  refine ⟨hmay s w hw hp, fun r r' hr => ?_, fun c r w' hw' hx => ?_⟩
  · rcases hsame r r' hr with rfl | ⟨a, a', rfl, rfl, he⟩
    · rfl
    · exact congrFun he s
  · obtain ⟨hok, herr⟩ := hstep s w c r w' hw hw' hp hx
    cases r with
    | ok a => exact hf a s w' hw' (hok a rfl)
    | error x => exact ⟨fun a ha => (nomatch ha), fun y hy => by cases hy; exact herr x rfl⟩

end Op

end DataCheck.Lib
