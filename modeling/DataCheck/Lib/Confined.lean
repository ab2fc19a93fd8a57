import DataCheck.Lib.Threads

/-!
# What a program may do at all

Statements about a program that do not depend on the shared state: whatever it is answered, it performs only
certain effects, and stops only in certain ways.
-/

namespace DataCheck.Lib

variable {E C W K X σ τ α β : Type} {R A : E → Type}

/-- Whatever it is answered, as far as `ans` allows, the program performs only effects in `eff` and stops
only with `Q`. -/
def Prog.Confined (ans : (e : E) → R e → Prop) (eff : E → Prop) (Q : α → Prop) : Prog E R α → Prop
  | .ret a => Q a
  | .vis e k => eff e ∧ ∀ r, ans e r → (k r).Confined ans eff Q

section Prog

variable {ans : (e : E) → R e → Prop} {eff : E → Prop} {Q : α → Prop}

lemma Prog.Confined.mono {Q' : α → Prop} {m : Prog E R α} (hm : m.Confined ans eff Q') (hQ : ∀ a, Q' a → Q a) :
    m.Confined ans eff Q := by
  induction m with
  | ret a => exact hQ a hm
  | vis e k ih => exact ⟨hm.1, fun r hr => ih r (hm.2 r hr)⟩

lemma Prog.Confined.bind {Q' : β → Prop} {m : Prog E R α} {f : α → Prog E R β} (hm : m.Confined ans eff Q)
    (hf : ∀ a, Q a → (f a).Confined ans eff Q') : (m.bind f).Confined ans eff Q' := by
  induction m with
  | ret a => exact hf a hm
  | vis e k ih => exact ⟨hm.1, fun r hr => ih r (hm.2 r hr)⟩

end Prog

/-! ### Runs -/

section Runs

variable {M : Machine E R C W} {ans : (e : E) → R e → Prop} {eff : E → Prop} {Q : K → α → Prop}
  {body : K → Prog E R α} {calls : K → Prop} {w₀ : W} {cfg : Config K E R W α}

/-- **What every call is confined to, every thread is confined to**, and a statement about the state that such
effects keep holds of every state. -/
theorem reachable_confined {Inv : W → Prop} (hinit : Inv w₀)
    (hstep : ∀ p e c w r w', eff e → Inv w → M.exec p e c w = some (r, w') → ans e r ∧ Inv w')
    (hbody : ∀ k, calls k → (body k).Confined ans eff (Q k)) (hr : Config.Reachable M body calls w₀ cfg) :
    Inv cfg.hist.now ∧ ∀ p t, cfg.threads p = some t → t.prog.Confined ans eff (Q t.call) := by
  induction hr with
  | init => exact ⟨hinit, fun p t ht => by cases ht⟩
  | @step cfg cfg' l hr hl hs ih =>
    obtain ⟨hi, hth⟩ := ih
    rcases Config.step_cases hs with
      ⟨p, k, rfl, -, hhist, hthr⟩ | ⟨p, c, k, h₀, e, f, r, w, rfl, hp, he, hhist, hthr⟩
    · refine ⟨hhist ▸ hi, fun q t hq => ?_⟩
      rw [hthr] at hq
      by_cases hqp : q = p
      · subst hqp
        rw [Function.update_self] at hq
        cases hq
        exact hbody k (hl q k rfl)
      · rw [Function.update_of_ne hqp] at hq
        exact hth q t hq
    · obtain ⟨heff, hf⟩ := hth p _ hp
      obtain ⟨hans, hi'⟩ := hstep p e c _ r w heff hi he
      rw [hhist]
      refine ⟨hi', fun q t hq => ?_⟩
      rw [hthr] at hq
      by_cases hqp : q = p
      · subst hqp
        rw [Function.update_self] at hq
        cases hq
        exact hf r hans
      · rw [Function.update_of_ne hqp] at hq
        exact hth q t hq

end Runs

/-! ### Method bodies -/

namespace Op

/-- `Q` for what is returned and `Z` for what is raised. -/
def Ends (Q : α → Prop) (Z : X → Prop) : Except X α × σ → Prop
  | (.ok a, _) => Q a
  | (.error x, _) => Z x

/-- Whatever it is answered, the body performs only effects in `eff`, returns only with `Q` and raises only
with `Z`. -/
def Confined (ans : (e : E) → Except X (A e) → Prop) (eff : E → Prop) (m : Op E A X σ α) (Q : α → Prop)
    (Z : X → Prop) : Prop :=
  ∀ s, (m s).Confined ans eff (Ends Q Z)

variable {ans : (e : E) → Except X (A e) → Prop} {eff : E → Prop} {Q Q' : α → Prop} {Z Y : X → Prop}
  {m : Op E A X σ α}

lemma confined_pure {a : α} (hQ : Q a) : Confined ans eff (Op.pure a : Op E A X σ α) Q Z := fun _ => hQ

lemma confined_raise {x : X} (hZ : Z x) : Confined ans eff (Op.raise x : Op E A X σ α) Q Z := fun _ => hZ

lemma confined_assign {f : σ → σ} : Confined ans eff (Op.assign f : Op E A X σ Unit) (fun _ => True) Z :=
  fun _ => trivial

lemma confined_ofExcept {r : Except X α} (hQ : ∀ a, r = .ok a → Q a) (hZ : ∀ x, r = .error x → Z x) :
    Confined ans eff (Op.ofExcept r : Op E A X σ α) Q Z := by
  cases r with
  | ok a => exact confined_pure (hQ a rfl)
  | error x => exact confined_raise (hZ x rfl)

lemma confined_perform {e : E} {Q : A e → Prop} (he : eff e) (hQ : ∀ a, ans e (.ok a) → Q a)
    (hZ : ∀ x, ans e (.error x) → Z x) : Confined ans eff (Op.perform e : Op E A X σ (A e)) Q Z := by
  refine fun s => ⟨he, fun r hr => ?_⟩
  cases r with
  | ok a => exact hQ a hr
  | error x => exact hZ x hr

lemma Confined.post (hm : Confined ans eff m Q' Y) (hQ : ∀ a, Q' a → Q a) (hZ : ∀ x, Y x → Z x) :
    Confined ans eff m Q Z := by
  refine fun s => (hm s).mono fun out h => ?_
  obtain ⟨r, s'⟩ := out
  cases r with
  | ok a => exact hQ a h
  | error x => exact hZ x h

lemma Confined.bind {Q' : β → Prop} {f : α → Op E A X σ β} (hm : Confined ans eff m Q Z)
    (hf : ∀ a, Q a → Confined ans eff (f a) Q' Z) : Confined ans eff (m >>= f) Q' Z := by
  refine fun s => (hm s).bind fun out h => ?_
  obtain ⟨r, s'⟩ := out
  cases r with
  | ok a => exact hf a h s'
  | error x => exact h

lemma Confined.catching {g : X → Op E A X σ α} (hm : Confined ans eff m Q Y)
    (hg : ∀ x, Y x → Confined ans eff (g x) Q Z) : Confined ans eff (Op.catching m g) Q Z := by
  refine fun s => (hm s).bind fun out h => ?_
  obtain ⟨r, s'⟩ := out
  cases r with
  | ok a => exact h
  | error x => exact hg x h s'

lemma Confined.withLocals {init : τ} {m : Op E A X τ α} (hm : Confined ans eff m Q Y) :
    Confined ans eff (Op.withLocals init m : Op E A X σ _) (Ends Q Y) Z :=
  fun _ => (hm init).bind fun _ h => h

end Op

end DataCheck.Lib
