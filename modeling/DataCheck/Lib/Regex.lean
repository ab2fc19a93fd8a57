import DataCheck.Lib.Text

/-!
# Regular expressions

Expressions over character classes, matched against a whole string by derivatives.
-/

namespace DataCheck.Lib

/-- A regular expression without anchors, groups to refer back to, or lookaround. -/
inductive Regex where
  | empty
  | eps
  | cls (p : PyChar → Bool)
  | seq (r s : Regex)
  | alt (r s : Regex)
  | star (r : Regex)

namespace Regex

def nullable : Regex → Bool
  | empty => false
  | eps => true
  | cls _ => false
  | seq r s => r.nullable && s.nullable
  | alt r s => r.nullable || s.nullable
  | star _ => true

/-- What has to match after the character `c`. -/
def deriv (c : PyChar) : Regex → Regex
  | empty => empty
  | eps => empty
  | cls p => if p c then eps else empty
  | seq r s => if r.nullable then alt (seq (r.deriv c) s) (s.deriv c) else seq (r.deriv c) s
  | alt r s => alt (r.deriv c) (s.deriv c)
  | star r => seq (r.deriv c) (star r)

/-- `re.fullmatch` -/
def fullmatch (r : Regex) (s : PyStr) : Bool := (s.foldl (fun r c => r.deriv c) r).nullable

/-- `r?` -/
def opt (r : Regex) : Regex := alt r eps

/-- `r+` -/
def plus (r : Regex) : Regex := seq r (star r)

/-- `r{n}` -/
def times (r : Regex) : ℕ → Regex
  | 0 => eps
  | n + 1 => seq r (times r n)

/-- `r{0,n}` -/
def upTo (r : Regex) : ℕ → Regex
  | 0 => eps
  | n + 1 => opt (seq r (upTo r n))

/-- One of the characters of `s`. -/
def oneOf (s : String) : Regex := cls fun c => (py s).contains c

/-- `[0-9]` -/
def digit : Regex := cls fun c => 48 ≤ c.val && c.val ≤ 57

/-- `[A-Za-z0-9]`, and the characters of `s`. -/
def alnumOr (s : String) : Regex := cls fun c =>
  (48 ≤ c.val && c.val ≤ 57) || (65 ≤ c.val && c.val ≤ 90) || (97 ≤ c.val && c.val ≤ 122) ||
    (py s).contains c

/-! ### What matches -/

/-- The strings of an expression. -/
inductive Matches : Regex → PyStr → Prop
  | eps : Matches eps []
  | cls {p : PyChar → Bool} {c : PyChar} (h : p c = true) : Matches (cls p) [c]
  | seq {r s : Regex} {a b : PyStr} (ha : Matches r a) (hb : Matches s b) : Matches (seq r s) (a ++ b)
  | left {r s : Regex} {a : PyStr} (h : Matches r a) : Matches (alt r s) a
  | right {r s : Regex} {a : PyStr} (h : Matches s a) : Matches (alt r s) a
  | done {r : Regex} : Matches (star r) []
  | more {r : Regex} {a b : PyStr} (ha : Matches r a) (hb : Matches (star r) b) : Matches (star r) (a ++ b)

section Matches

variable {r s : Regex} {c : PyChar} {w : PyStr} {p : PyChar → Bool}

@[simp] lemma not_matches_empty : ¬ Matches empty w := nofun

@[simp] lemma matches_eps : Matches eps w ↔ w = [] :=
  ⟨fun h => by cases h; rfl, fun h => h ▸ .eps⟩

lemma matches_cls : Matches (cls p) w ↔ ∃ c, w = [c] ∧ p c = true := by
  constructor
  · rintro ⟨h⟩
    exact ⟨_, rfl, ‹_›⟩
  · rintro ⟨c, rfl, h⟩
    exact .cls h

lemma matches_seq : Matches (seq r s) w ↔ ∃ a b, w = a ++ b ∧ Matches r a ∧ Matches s b := by
  constructor
  · intro h
    cases h with
    | seq ha hb => exact ⟨_, _, rfl, ha, hb⟩
  · rintro ⟨a, b, rfl, ha, hb⟩
    exact .seq ha hb

lemma matches_alt : Matches (alt r s) w ↔ Matches r w ∨ Matches s w := by
  constructor
  · intro h
    cases h with
    | left h => exact Or.inl h
    | right h => exact Or.inr h
  · rintro (h | h)
    · exact .left h
    · exact .right h

lemma matches_opt : Matches (opt r) w ↔ Matches r w ∨ w = [] := by rw [opt, matches_alt, matches_eps]

/-- A string of a repetition that begins with a character begins with a nonempty string of what is
repeated. -/
lemma Matches.star_cons (h : Matches (star r) (c :: w)) :
    ∃ a b, w = a ++ b ∧ Matches r (c :: a) ∧ Matches (star r) b := by
  generalize hr : star r = r', hw : c :: w = w' at h
  induction h with
  | done => cases hw
  | @more r' a b ha hb _ ihb =>
    cases hr
    cases a with
    | nil => exact ihb rfl hw
    | cons d a =>
      cases hw
      exact ⟨a, b, rfl, ha, hb⟩
  | _ => cases hr

lemma nullable_iff : r.nullable = true ↔ Matches r [] := by
  induction r with
  | empty => simp [nullable]
  | eps => simp [nullable]
  | cls p => simp [nullable, matches_cls]
  | seq r s ihr ihs => simp [nullable, matches_seq, ihr, ihs]
  | alt r s ihr ihs => simp [nullable, matches_alt, ihr, ihs]
  | star r => exact ⟨fun _ => .done, fun _ => rfl⟩

lemma deriv_iff : ∀ {w : PyStr}, Matches (r.deriv c) w ↔ Matches r (c :: w) := by
  induction r with
  | empty => simp [deriv]
  | eps => simp [deriv]
  | cls p =>
    intro w
    rw [deriv, matches_cls]
    split
    · next h => simp [h]
    · next h => simp [h]
  | seq r s ihr ihs =>
    intro w
    -- the first character comes from the first part, or that part is empty
    have hsplit : Matches (seq r s) (c :: w) ↔
        (∃ a b, w = a ++ b ∧ Matches r (c :: a) ∧ Matches s b) ∨ Matches r [] ∧ Matches s (c :: w) := by
      rw [matches_seq]
      constructor
      · rintro ⟨a, b, hw, ha, hb⟩
        cases a with
        | nil =>
          cases hw
          exact Or.inr ⟨ha, hb⟩
        | cons d a =>
          cases hw
          exact Or.inl ⟨a, b, rfl, ha, hb⟩
      · rintro (⟨a, b, rfl, ha, hb⟩ | ⟨ha, hb⟩)
        · exact ⟨c :: a, b, rfl, ha, hb⟩
        · exact ⟨[], c :: w, rfl, ha, hb⟩
    rw [hsplit, deriv]
    split
    · next hn => simp [matches_alt, matches_seq, ihr, ihs, nullable_iff.mp hn]
    · next hn => simp [matches_seq, ihr, mt nullable_iff.mpr hn]
  | alt r s ihr ihs => simp [deriv, matches_alt, ihr, ihs]
  | star r ih =>
    intro w
    simp only [deriv, matches_seq, ih]
    constructor
    · rintro ⟨a, b, rfl, ha, hb⟩
      exact .more ha hb
    · exact Matches.star_cons

/-- **The whole string matches exactly if it is a string of the expression.** -/
theorem fullmatch_iff : ∀ {w : PyStr} {r : Regex}, r.fullmatch w = true ↔ Matches r w
  | [], _ => nullable_iff
  | c :: w, r => (fullmatch_iff (w := w) (r := r.deriv c)).trans deriv_iff

lemma matches_star_cls : Matches (star (cls p)) w ↔ ∀ c ∈ w, p c = true := by
  induction w with
  | nil => exact ⟨fun _ c hc => (List.not_mem_nil hc).elim, fun _ => .done⟩
  | cons c w ih =>
    rw [List.forall_mem_cons, ← ih]
    constructor
    · intro h
      obtain ⟨a, b, rfl, ha, hb⟩ := h.star_cons
      obtain ⟨d, hd, hp⟩ := matches_cls.mp ha
      cases hd
      exact ⟨hp, hb⟩
    · rintro ⟨hc, hw⟩
      exact .more (.cls hc) hw

lemma matches_plus_cls : Matches (plus (cls p)) w ↔ w ≠ [] ∧ ∀ c ∈ w, p c = true := by
  rw [plus, matches_seq]
  constructor
  · rintro ⟨a, b, rfl, ha, hb⟩
    obtain ⟨c, rfl, hc⟩ := matches_cls.mp ha
    exact ⟨List.cons_ne_nil _ _, List.forall_mem_cons.mpr ⟨hc, matches_star_cls.mp hb⟩⟩
  · rintro ⟨hne, hall⟩
    cases w with
    | nil => exact absurd rfl hne
    | cons c w =>
      rw [List.forall_mem_cons] at hall
      exact ⟨[c], w, rfl, .cls hall.1, matches_star_cls.mpr hall.2⟩

lemma matches_upTo_cls : ∀ {n : ℕ} {w : PyStr},
    Matches (upTo (cls p) n) w ↔ w.length ≤ n ∧ ∀ c ∈ w, p c = true
  | 0, w => by
    rw [upTo, matches_eps, Nat.le_zero, List.length_eq_zero_iff]
    exact ⟨fun h => ⟨h, by simp [h]⟩, And.left⟩
  | n + 1, w => by
    rw [upTo, matches_opt, matches_seq]
    constructor
    · rintro (⟨a, b, rfl, ha, hb⟩ | rfl)
      · obtain ⟨c, rfl, hc⟩ := matches_cls.mp ha
        obtain ⟨hlen, hall⟩ := matches_upTo_cls.mp hb
        exact ⟨Nat.succ_le_succ hlen, List.forall_mem_cons.mpr ⟨hc, hall⟩⟩
      · simp
    · rintro ⟨hlen, hall⟩
      cases w with
      | nil => exact Or.inr rfl
      | cons c w =>
        rw [List.forall_mem_cons] at hall
        exact Or.inl ⟨[c], w, rfl, .cls hall.1, matches_upTo_cls.mpr ⟨Nat.le_of_succ_le_succ hlen, hall.2⟩⟩

/-- Every class of the expression is inside `q`. -/
def Within (q : PyChar → Prop) : Regex → Prop
  | empty => True
  | eps => True
  | cls p => ∀ c, p c = true → q c
  | seq r s => Within q r ∧ Within q s
  | alt r s => Within q r ∧ Within q s
  | star r => Within q r

lemma within_times {q : PyChar → Prop} {r : Regex} (h : Within q r) : ∀ n, Within q (times r n)
  | 0 => trivial
  | n + 1 => ⟨h, within_times h n⟩

lemma within_upTo {q : PyChar → Prop} {r : Regex} (h : Within q r) : ∀ n, Within q (upTo r n)
  | 0 => trivial
  | n + 1 => ⟨⟨h, within_upTo h n⟩, trivial⟩

lemma Matches.within {q : PyChar → Prop} (h : Matches r w) : Within q r → ∀ c ∈ w, q c := by
  induction h with
  | eps => exact fun _ c hc => (List.not_mem_nil hc).elim
  | cls h => exact fun hq c hc => List.mem_singleton.mp hc ▸ hq _ h
  | seq _ _ iha ihb => exact fun hq => List.forall_mem_append.mpr ⟨iha hq.1, ihb hq.2⟩
  | left _ ih => exact fun hq => ih hq.1
  | right _ ih => exact fun hq => ih hq.2
  | done => exact fun _ c hc => (List.not_mem_nil hc).elim
  | more _ _ iha ihb => exact fun hq => List.forall_mem_append.mpr ⟨iha hq, ihb hq⟩

end Matches

/-! ### Changing characters -/

section Folds

variable {f : PyChar → PyChar} {r s : Regex} {c : PyChar} {w : PyStr}

/-- Every class of the expression is kept by the change of characters. -/
def Folds (f : PyChar → PyChar) : Regex → Prop
  | empty => True
  | eps => True
  | cls p => ∀ c, p (f c) = p c
  | seq r s => Folds f r ∧ Folds f s
  | alt r s => Folds f r ∧ Folds f s
  | star r => Folds f r

lemma folds_upTo (h : Folds f r) : ∀ n, Folds f (upTo r n)
  | 0 => trivial
  | n + 1 => ⟨⟨h, folds_upTo h n⟩, trivial⟩

lemma Folds.deriv_eq (h : Folds f r) : r.deriv (f c) = r.deriv c := by
  induction r with
  | empty => rfl
  | eps => rfl
  | cls p => rw [deriv, deriv, h c]
  | seq r s ihr ihs => rw [deriv, deriv, ihr h.1, ihs h.2]
  | alt r s ihr ihs => rw [deriv, deriv, ihr h.1, ihs h.2]
  | star r ih => rw [deriv, deriv, ih h]

lemma Folds.deriv (h : Folds f r) : Folds f (r.deriv c) := by
  induction r with
  | empty => trivial
  | eps => trivial
  | cls p =>
    rw [Regex.deriv]
    split <;> trivial
  | seq r s ihr ihs =>
    rw [Regex.deriv]
    split
    · exact ⟨⟨ihr h.1, h.2⟩, ihs h.2⟩
    · exact ⟨ihr h.1, h.2⟩
  | alt r s ihr ihs => exact ⟨ihr h.1, ihs h.2⟩
  | star r ih => exact ⟨ih h, h⟩

/-- What matches is closed under the change of characters, both ways. -/
lemma Folds.fullmatch_map (h : Folds f r) : r.fullmatch (w.map f) = r.fullmatch w := by
  induction w generalizing r with
  | nil => rfl
  | cons c w ih =>
    calc r.fullmatch ((c :: w).map f) = (r.deriv (f c)).fullmatch (w.map f) := rfl
      _ = (r.deriv c).fullmatch (w.map f) := by rw [h.deriv_eq]
      _ = (r.deriv c).fullmatch w := ih h.deriv

end Folds

end Regex

end DataCheck.Lib
