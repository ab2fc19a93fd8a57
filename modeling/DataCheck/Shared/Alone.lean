import DataCheck.Lib.Solo
import DataCheck.Shared.Calls

/-!
# A call alone

One service call that runs by itself while nothing goes wrong.
-/

namespace DataCheck.Shared

open Lib Datasets Analyses

variable {F : Faults} {σ α : Type} {q : Pid} {m : Body σ (α × List Write)} {s s' : σ}
  {c c₁ c₂ : Choice} {cs cs' : List Choice} {w w' : World}

def Calm (cs : List Choice) : Prop := ∀ c ∈ cs, c.fault = .none

lemma calm_cons : Calm (c :: cs) ↔ c.fault = .none ∧ Calm cs := List.forall_mem_cons

lemma Calm.four (h : Calm cs) (hlen : 4 ≤ cs.length) : ∃ c₁ c₂ c₃ c₄ cs',
    cs = c₁ :: c₂ :: c₃ :: c₄ :: cs' ∧ c₁.fault = .none ∧ c₂.fault = .none ∧ c₃.fault = .none ∧
      c₄.fault = .none := by
  match cs, hlen with
  | c₁ :: c₂ :: c₃ :: c₄ :: cs', _ =>
    simp only [calm_cons] at h
    exact ⟨c₁, c₂, c₃, c₄, cs', rfl, h.1, h.2.1, h.2.2.1, h.2.2.2.1⟩

lemma solo_perform {e : Eff} {r : Except Exn e.Resp} (hc : c.fault = .none)
    (he : w.perform q c e = some (r, w')) :
    ((Body.perform e : Body σ e.Resp) s).solo (machine F) q (c :: cs) w = some ((r, s), w', cs) := by
  simp only [Body.perform, Op.perform, Prog.solo, machine, hc, he]

lemma solo_session_ok {m : Body σ α} {a : α} (hc : c.fault = .none)
    (h : (m s).solo (machine F) q cs w = some ((.ok a, s'), w', c :: cs')) :
    (Body.session m s).solo (machine F) q cs w = some ((.ok a, s'), w'.unlock q, cs') := by
  refine (Op.solo_bind_ok (Op.solo_catching_ok h)).trans ?_
  exact (Op.solo_bind_ok (solo_perform hc rfl)).trans rfl

lemma solo_session_error {m : Body σ α} {x : Exn} (hc : c.fault = .none)
    (h : (m s).solo (machine F) q cs w = some ((.error x, s'), w', c :: cs')) :
    (Body.session m s).solo (machine F) q cs w = some ((.error x, s'), w'.unlock q, cs') := by
  refine Op.solo_bind_error ((Op.solo_catching_error h).trans ?_)
  exact (Op.solo_bind_ok (solo_perform hc rfl)).trans rfl

theorem solo_transaction_ok {a : α} {l : List Write} (h₁ : c₁.fault = .none) (h₂ : c₂.fault = .none)
    (h : (m s).solo (machine F) q cs w = some ((.ok (a, l), s'), w', c₁ :: c₂ :: cs')) :
    (Body.transaction m s).solo (machine F) q cs w =
      some ((.ok a, s'), ((w'.apply l).unlock q).unlock q, cs') := by
  refine solo_session_ok h₂ ((Op.solo_bind_ok (Op.solo_catching_ok h)).trans ?_)
  exact (Op.solo_bind_ok (solo_perform h₁ rfl)).trans rfl

theorem solo_transaction_error {x : Exn} (h₁ : c₁.fault = .none) (h₂ : c₂.fault = .none)
    (h : (m s).solo (machine F) q cs w = some ((.error x, s'), w', c₁ :: c₂ :: cs')) :
    (Body.transaction m s).solo (machine F) q cs w =
      some ((.error x, s'), (w'.unlock q).unlock q, cs') := by
  refine solo_session_error h₂ (Op.solo_bind_error ((Op.solo_catching_error h).trans ?_))
  exact (Op.solo_bind_ok (solo_perform h₁ rfl)).trans rfl

/-- Alone on this database, with nothing going wrong, the call answers `out` after at most `n`
effects, and the database is as it was. -/
def Reads (U : Unicode) (P : Polars) (F : Faults) (n : ℕ) (db : Db) (k : Call) (out : Except Exn Reply) :
    Prop :=
  ∀ q cs w, w.db = db → Calm cs → n ≤ cs.length →
    ∃ w' cs', (k.body U P).solo (machine F) q cs w = some ((out, ()), w', cs') ∧ w'.db = db

end DataCheck.Shared
