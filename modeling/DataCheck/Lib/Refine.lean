import Mathlib.Logic.Basic
import Mathlib.Data.List.Forall2

/-!
# Refinement over runs

A system that answers requests one after the other, and a function that says what it should answer.
When one step agrees with the function, so does every run.
-/

namespace DataCheck.Lib

variable {S I O A B : Type}

/-- The runs of a system: the requests, what each was answered with and the state then, and the state
at the end. -/
inductive Serves (step : S → I → O → S → Prop) : S → List I → List (O × S) → S → Prop
  | nil {s : S} : Serves step s [] [] s
  | cons {s s' s'' : S} {i : I} {o : O} {is : List I} {os : List (O × S)} (hs : step s i o s')
      (hr : Serves step s' is os s'') : Serves step s (i :: is) ((o, s') :: os) s''

/-- What a function of the state and the request answers to some requests, and its state at the end. -/
def answers (f : A → I → B × A) : A → List I → List B × A
  | a, [] => ([], a)
  | a, i :: is => ((f a i).1 :: (answers f (f a i).2 is).1, (answers f (f a i).2 is).2)

/-- Every step of the system is one of the function: where the states are related they stay so, and
the answer of the system shows that of the function. -/
def Refines (step : S → I → O → S → Prop) (f : A → I → B × A) (rel : A → S → Prop)
    (shows : B → O → S → Prop) : Prop :=
  ∀ a s i o s', rel a s → step s i o s' → shows (f a i).1 o s' ∧ rel (f a i).2 s'

variable {step : S → I → O → S → Prop} {f : A → I → B × A} {rel : A → S → Prop} {shows : B → O → S → Prop}

/-- **A refinement holds over runs.** -/
theorem Refines.run (h : Refines step f rel shows) {s s' : S} {is : List I} {os : List (O × S)}
    (hr : Serves step s is os s') : ∀ {a : A}, rel a s →
      List.Forall₂ (fun b out => shows b out.1 out.2) (answers f a is).1 os ∧ rel (answers f a is).2 s' := by
  induction hr with
  | nil => exact fun ha => ⟨.nil, ha⟩
  | cons hs _ ih =>
    intro a ha
    obtain ⟨hshow, hrel⟩ := h a _ _ _ _ ha hs
    obtain ⟨hshows, hend⟩ := ih hrel
    exact ⟨.cons hshow hshows, hend⟩

end DataCheck.Lib
