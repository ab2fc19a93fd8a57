import DataCheck.Validation.Engine
import Mathlib.Data.List.TakeWhile

/-!
# What a rule means

A rule skips some cells and is violated at others; its result counts both and shows the first
violations.  The four loops of `rules.py` compute just that.
-/

namespace DataCheck.Validation

open Lib

abbrev Cell := Option PyStr

/-- There is nothing in the cell, or only whitespace. -/
def missing (value : Cell) : Bool := value.all fun text => text.all PyStr.isSpace

/-- What Polars says of one cell: the answers of `contains` are one predicate, cell by cell, and it
rejects a pattern by the pattern alone. -/
structure Elementwise (P : Polars) (found : PyStr → PyStr → Bool) : Prop where
  pattern_alone : ∀ pattern values values',
    P.contains pattern values = none → P.contains pattern values' = none
  cells : ∀ pattern values answers, P.contains pattern values = some answers →
    answers = values.map (Option.map (found pattern))

variable (U : Unicode) (found : PyStr → PyStr → Bool)

def Check.holds : Check → PyStr → Bool
  | .required, _ => true
  | .unique, _ => true
  | .type expected_type, text => matchesType U text expected_type
  | .range minimum maximum, text => withinRange text minimum maximum
  | .regex pattern, text => found pattern text

/-- The check says nothing of the cell. -/
def Check.skips : Check → Cell → Bool
  | .required, _ => false
  | _, value => missing value

/-- The check is violated at a cell below the cells `above`. -/
def Check.violated (check : Check) (above : List Cell) (value : Cell) : Bool :=
  match check with
  | .required => missing value
  | .unique => !missing value && decide (value ∈ above)
  | _ => !missing value && !value.any (check.holds U found)

/-- The cells at which the check is violated, each with its row number, from the top. -/
def Check.violations (check : Check) (values : List Cell) : List (Cell × ℕ) :=
  (values.zipIdx 1).filter fun row => check.violated U found (values.take (row.2 - 1)) row.1

/-- What is shown of a cell. -/
def sampleOf (row : Cell × ℕ) : ViolationSample where
  row_number := row.2
  value_preview := row.1.map fun text => text.take valuePreviewLimit
  truncated := row.1.any fun text => decide (valuePreviewLimit < text.length)

/-- The result that a rule should have on a column. -/
def RuleSpec.expected (rule : RuleSpec) (values : List Cell) : RuleValidationResult :=
  let skipped := values.countP rule.check.skips
  let violations := rule.check.violations U found values
  { rule
    evaluated_count := values.length - skipped
    passed_count := values.length - skipped - violations.length
    violation_count := violations.length
    skipped_count := skipped
    violation_samples := (violations.take violationSampleLimit).map sampleOf }

variable {U found}

/-! ### Missing cells -/

lemma strip_eq_nil {s : PyStr} : s.strip = [] ↔ ∀ c ∈ s, PyStr.isSpace c = true := by
  have hspaces : ∀ l : PyStr, l.dropWhile PyStr.isSpace = [] ↔ ∀ c ∈ l, PyStr.isSpace c = true :=
    fun l => List.dropWhile_eq_nil_iff
  simp only [PyStr.strip, List.reverse_eq_nil_iff, hspaces, List.mem_reverse]
  constructor
  · intro h
    -- a first character that is no whitespace would be left
    by_contra hne
    have hd : s.dropWhile PyStr.isSpace ≠ [] := fun he => hne ((hspaces s).mp he)
    have hhead := List.head_dropWhile_not PyStr.isSpace hd
    rw [h _ (List.head_mem hd)] at hhead
    cases hhead
  · exact fun h c hc => h c ((List.dropWhile_suffix PyStr.isSpace).subset hc)

/-- **`is_missing` is absence.** -/
theorem isMissing_eq (value : Cell) : isMissing value = missing value := by
  cases value with
  | none => rfl
  | some text =>
    rw [Bool.eq_iff_iff]
    simp only [isMissing, missing, Bool.or_eq_true, beq_iff_eq, strip_eq_nil, Option.all_some,
      List.all_eq_true]
    constructor
    · rintro (rfl | h)
      · exact fun c hc => (List.not_mem_nil hc).elim
      · exact h
    · exact Or.inr

/-! ### The rows below a given row -/

/-- The violations among the cells below the cells `above`. -/
def Check.violationsBelow (U : Unicode) (found : PyStr → PyStr → Bool) (check : Check) :
    (above : List Cell) → List Cell → List (Cell × ℕ)
  | _, [] => []
  | above, value :: values =>
    if check.violated U found above value then
      (value, above.length + 1) :: check.violationsBelow U found (above ++ [value]) values
    else check.violationsBelow U found (above ++ [value]) values

lemma Check.violationsBelow_eq (check : Check) (values : List Cell) : ∀ above : List Cell,
    check.violationsBelow U found above values = (values.zipIdx (above.length + 1)).filter fun row =>
      check.violated U found ((above ++ values).take (row.2 - 1)) row.1 := by
  induction values with
  | nil => exact fun _ => rfl
  | cons value values ih =>
    intro above
    have ih' := ih (above ++ [value])
    rw [List.length_append, List.length_singleton, List.append_assoc, List.singleton_append] at ih'
    rw [violationsBelow, List.zipIdx_cons, List.filter_cons, ih', Nat.add_sub_cancel, List.take_left']
    rfl

lemma Check.violationsBelow_nil (check : Check) (values : List Cell) :
    check.violationsBelow U found [] values = check.violations U found values := by
  rw [violationsBelow_eq]
  rfl

/-- **The violations are the cells that violate the check given the cells above them.** -/
theorem Check.mem_violations {check : Check} {values : List Cell} {value : Cell} {row_number : ℕ} :
    (value, row_number) ∈ check.violations U found values ↔ ∃ above below,
      values = above ++ value :: below ∧ row_number = above.length + 1 ∧
        check.violated U found above value = true := by
  simp only [violations, List.mem_filter, List.mk_mem_zipIdx_iff_le_and_getElem?_sub]
  constructor
  · rintro ⟨⟨hle, hget⟩, hv⟩
    obtain ⟨hlt, hval⟩ := List.getElem?_eq_some_iff.mp hget
    refine ⟨values.take (row_number - 1), values.drop row_number, ?_, ?_, hv⟩
    · conv_lhs => rw [← List.take_append_drop (row_number - 1) values, List.drop_eq_getElem_cons hlt,
        hval, Nat.sub_add_cancel hle]
    · rw [List.length_take]
      omega
  · rintro ⟨above, below, rfl, rfl, hv⟩
    refine ⟨⟨Nat.le_add_left _ _, ?_⟩, ?_⟩
    · rw [Nat.add_sub_cancel, List.getElem?_append_right le_rfl, Nat.sub_self, List.getElem?_cons_zero]
    · rwa [Nat.add_sub_cancel, List.take_left']
      rfl

/-- Only `unique` looks at the cells above. -/
lemma Check.violated_above {check : Check} (h : check ≠ .unique) (above : List Cell) (value : Cell) :
    check.violated U found above value = check.violated U found [] value := by
  cases check with
  | unique => exact absurd rfl h
  | _ => rfl

lemma Check.length_violationsBelow {check : Check} (h : check ≠ .unique) (values : List Cell) :
    ∀ above : List Cell, (check.violationsBelow U found above values).length =
      values.countP (check.violated U found []) := by
  induction values with
  | nil => exact fun _ => rfl
  | cons value values ih =>
    intro above
    rw [violationsBelow, violated_above h, List.countP_cons]
    split
    · rw [List.length_cons, ih]
    · rw [ih, Nat.add_zero]

/-! ### The local variables of a loop -/

/-- The variables of a loop count these violations and so many skipped cells. -/
structure Tally.Means (t : Tally) (violations : List (Cell × ℕ)) (skipped : ℕ) : Prop where
  samples : t.samples = (violations.take violationSampleLimit).map sampleOf
  violation_count : t.violation_count = violations.length
  skipped_count : t.skipped_count = skipped

lemma Tally.Means.zero : Tally.zero.Means [] 0 := ⟨rfl, rfl, rfl⟩

variable {t : Tally} {violations : List (Cell × ℕ)} {skipped : ℕ}

lemma Tally.Means.skip (h : t.Means violations skipped) : t.skip.Means violations (skipped + 1) :=
  ⟨h.samples, h.violation_count, by simp [Tally.skip, h.skipped_count]⟩

lemma Tally.Means.violate (h : t.Means violations skipped) (row_number : ℕ) (value : Cell) :
    (t.violate row_number value).Means (violations ++ [(value, row_number)]) skipped where
  samples := by
    simp only [Tally.violate, appendSample, h.samples]
    split
    · next hfull =>
      -- the list is full, and stays as it is
      simp only [List.length_map, List.length_take] at hfull
      rw [List.take_append_of_le_length (by omega)]
    · next hroom =>
      simp only [List.length_map, List.length_take, not_le] at hroom
      have hlen : violations.length < violationSampleLimit := by omega
      have hlen' : (violations ++ [(value, row_number)]).length ≤ violationSampleLimit := by
        rw [List.length_append]
        exact hlen
      rw [List.take_of_length_le hlen.le, List.take_of_length_le hlen', List.map_append]
      rfl
  violation_count := by simp [Tally.violate, h.violation_count]
  skipped_count := h.skipped_count

/-! ### The loops -/

/-- One loop for all checks, over the cells below the cells `above`. -/
def Check.tally (U : Unicode) (found : PyStr → PyStr → Bool) (check : Check) :
    (above : List Cell) → List Cell → Tally → Tally
  | _, [], t => t
  | above, value :: values, t =>
    check.tally U found (above ++ [value]) values
      (if check.skips value then t.skip
      else if check.violated U found above value then t.violate (above.length + 1) value
      else t)

/-- A skipped cell is no violation. -/
lemma Check.violated_of_skips {check : Check} {value : Cell} (h : check.skips value = true)
    (above : List Cell) : check.violated U found above value = false := by
  cases check with
  | required => cases h
  | _ =>
    have hm : missing value = true := h
    simp [violated, hm]

/-- **The loop counts the violations and the skipped cells.** -/
theorem Check.tally_means (check : Check) (values : List Cell) : ∀ (above : List Cell) {t : Tally}
    {violations : List (Cell × ℕ)} {skipped : ℕ}, t.Means violations skipped →
      (check.tally U found above values t).Means (violations ++ check.violationsBelow U found above values)
        (skipped + values.countP check.skips) := by
  induction values with
  | nil =>
    intro above t violations skipped h
    rw [violationsBelow, List.append_nil]
    exact h
  | cons value values ih =>
    intro above t violations skipped h
    rw [tally, violationsBelow, List.countP_cons]
    by_cases hs : check.skips value = true
    · have hv : check.violated U found above value = false := violated_of_skips hs above
      rw [if_pos hs, hv, if_pos hs, if_neg Bool.false_ne_true, Nat.add_comm _ 1, ← Nat.add_assoc]
      exact ih _ h.skip
    · rw [if_neg hs, if_neg hs, Nat.add_zero]
      by_cases hv : check.violated U found above value = true
      · have ih' := ih (above ++ [value]) (h.violate (above.length + 1) value)
        rw [List.append_assoc, List.singleton_append] at ih'
        rw [if_pos hv, if_pos hv]
        exact ih'
      · rw [if_neg hv, if_neg hv]
        exact ih _ h

lemma requiredLoop_eq (values : List Cell) : ∀ (above : List Cell) (t : Tally),
    requiredLoop (above.length + 1) values t = Check.required.tally U found above values t := by
  induction values with
  | nil => exact fun _ _ => rfl
  | cons value values ih =>
    intro above t
    have ih' := ih (above ++ [value])
    rw [List.length_append, List.length_singleton] at ih'
    rw [requiredLoop, isMissing_eq, Check.tally, ih']
    rfl

lemma uniqueLoop_eq (values : List Cell) : ∀ (above seen : List Cell) (t : Tally),
    (∀ value, missing value = false → (value ∈ seen ↔ value ∈ above)) →
      uniqueLoop (above.length + 1) values seen t = Check.unique.tally U found above values t := by
  induction values with
  | nil => exact fun _ _ _ _ => rfl
  | cons value values ih =>
    intro above seen t hseen
    have ih' := ih (above ++ [value])
    rw [List.length_append, List.length_singleton] at ih'
    rw [uniqueLoop, isMissing_eq, Check.tally]
    by_cases hm : missing value = true
    · rw [if_pos hm, ih' seen]
      · rw [show Check.unique.skips value = true from hm, if_pos rfl]
      · intro v hv
        have hne : v ≠ value := fun he => by rw [he, hm] at hv; cases hv
        simp [hseen v hv, hne]
    · have hm' : missing value = false := by simpa using hm
      rw [if_neg hm, show Check.unique.skips value = false from hm', if_neg Bool.false_ne_true]
      by_cases hv : value ∈ seen
      · have hva : value ∈ above := (hseen value hm').mp hv
        rw [if_pos hv, ih' seen]
        · simp [Check.violated, hm', hva]
        · intro v hv'
          by_cases he : v = value
          · simp [he, hv]
          · simp [hseen v hv', he]
      · have hva : value ∉ above := fun h => hv ((hseen value hm').mpr h)
        rw [if_neg hv, ih' (value :: seen)]
        · simp [Check.violated, hm', hva]
        · intro v hv'
          simp [hseen v hv', or_comm]

/-- A check of the text of a cell. -/
def Check.Textual (check : Check) : Prop :=
  (∀ value, check.skips value = missing value) ∧ ∀ U found above value,
    check.violated U found above value = (!missing value && !value.any (check.holds U found))

lemma nonMissingLoop_eq {check : Check} (hc : check.Textual) (values : List Cell) :
    ∀ (above : List Cell) (t : Tally), nonMissingLoop (check.holds U found) (above.length + 1) values t =
      check.tally U found above values t := by
  induction values with
  | nil => exact fun _ _ => rfl
  | cons value values ih =>
    intro above t
    have ih' := ih (above ++ [value])
    rw [List.length_append, List.length_singleton] at ih'
    rw [nonMissingLoop, isMissing_eq, Check.tally, ih', hc.1, hc.2]
    by_cases hm : missing value = true
    · rw [if_pos hm, if_pos hm]
    · rw [if_neg hm, if_neg hm]
      by_cases hp : value.any (check.holds U found) = true
      · simp [hp]
      · simp [hp, hm]

lemma regexLoop_eq {pattern : PyStr} (values : List Cell) : ∀ (above : List Cell) (t : Tally),
    regexLoop (above.length + 1) (values.zip (values.map (Option.map (found pattern)))) t =
      (Check.regex pattern).tally U found above values t := by
  induction values with
  | nil => exact fun _ _ => rfl
  | cons value values ih =>
    intro above t
    have ih' := ih (above ++ [value])
    rw [List.length_append, List.length_singleton] at ih'
    rw [List.map_cons, List.zip_cons_cons, regexLoop, isMissing_eq, Check.tally, ih']
    by_cases hm : missing value = true
    · rw [if_pos hm, show (Check.regex pattern).skips value = true from hm, if_pos rfl]
    · have hm' : missing value = false := by simpa using hm
      rw [if_neg hm, show (Check.regex pattern).skips value = false from hm', if_neg Bool.false_ne_true]
      cases value with
      | none => exact (hm rfl).elim
      | some text => simp [Check.violated, hm', Check.holds]

/-! ### The results -/

lemma Tally.Means.result (rule : RuleSpec) {values : List Cell}
    (h : t.Means (rule.check.violations U found values) (values.countP rule.check.skips)) :
    Validation.result rule (values.length - t.skipped_count) t = rule.expected U found values := by
  simp only [Validation.result, RuleSpec.expected, h.samples, h.violation_count, h.skipped_count]

lemma Check.tally_zero (check : Check) (values : List Cell) :
    (check.tally U found [] values .zero).Means (check.violations U found values)
      (values.countP check.skips) := by
  have h : (check.tally U found [] values .zero).Means ([] ++ check.violationsBelow U found [] values)
      (0 + values.countP check.skips) := check.tally_means values [] Tally.Means.zero
  rwa [List.nil_append, Nat.zero_add, violationsBelow_nil] at h

lemma evaluateRule_type {P : Polars} {rule : RuleSpec} {expected_type : ExpectedType}
    (hc : rule.check = .type expected_type) (values : List Cell) :
    evaluateRule U P values rule = .ok (rule.expected U found values) := by
  have htally : (rule.check.tally U found [] values .zero).Means (rule.check.violations U found values)
      (values.countP rule.check.skips) := rule.check.tally_zero values
  rw [hc, ← nonMissingLoop_eq ⟨fun _ => rfl, fun _ _ _ _ => rfl⟩, ← hc] at htally
  have hres := htally.result rule
  unfold evaluateRule
  rw [hc] at hres ⊢
  exact congrArg Except.ok hres

lemma evaluateRule_range {P : Polars} {rule : RuleSpec} {minimum maximum : Option Number}
    (hc : rule.check = .range minimum maximum) (values : List Cell) :
    evaluateRule U P values rule = .ok (rule.expected U found values) := by
  have htally : (rule.check.tally U found [] values .zero).Means (rule.check.violations U found values)
      (values.countP rule.check.skips) := rule.check.tally_zero values
  rw [hc, ← nonMissingLoop_eq ⟨fun _ => rfl, fun _ _ _ _ => rfl⟩, ← hc] at htally
  have hres := htally.result rule
  unfold evaluateRule
  rw [hc] at hres ⊢
  exact congrArg Except.ok hres

/-- What a rule with a valid check says of a column. -/
lemma evaluateRule_expected {P : Polars} (hP : Elementwise P found) {rule : RuleSpec}
    (hcheck : validateCheck P rule.check = .ok ()) (values : List Cell) :
    evaluateRule U P values rule = .ok (rule.expected U found values) := by
  have htally : (rule.check.tally U found [] values .zero).Means (rule.check.violations U found values)
      (values.countP rule.check.skips) := rule.check.tally_zero values
  cases hc : rule.check with
  | required =>
    rw [hc, ← requiredLoop_eq] at htally
    rw [evaluateRule, hc]
    have hskip : (requiredLoop 1 values .zero).skipped_count = 0 := by
      rw [show (1 : ℕ) = ([] : List Cell).length + 1 from rfl, htally.skipped_count]
      simp [Check.skips]
    rw [← hc] at htally
    have hres := htally.result rule
    rw [List.length_nil, Nat.zero_add, hskip, sub_zero] at hres
    exact congrArg Except.ok hres
  | unique =>
    rw [evaluateRule, hc]
    rw [hc, ← uniqueLoop_eq values [] [] _ fun _ _ => Iff.rfl, ← hc] at htally
    exact congrArg Except.ok (htally.result rule)
  | type expected_type =>
    exact evaluateRule_type hc values
  | range minimum maximum =>
    exact evaluateRule_range hc values
  | regex pattern =>
    rw [evaluateRule, hc]
    -- Polars accepts the pattern, so it answers for every cell
    have haccept : P.contains pattern [some []] ≠ none := by
      intro hn
      rw [hc, validateCheck, validateRegexPattern, hn] at hcheck
      split at hcheck <;> cases hcheck
    cases hv : P.contains pattern values with
    | none => exact (haccept (hP.pattern_alone _ _ _ hv)).elim
    | some answers =>
      obtain rfl := hP.cells _ _ _ hv
      rw [hc, ← regexLoop_eq, ← hc] at htally
      simp only [hv, List.length_map, ne_eq, not_true_eq_false, if_false]
      exact congrArg Except.ok (htally.result rule)

/-- A rule that `_validate_inputs` lets through has a valid check. -/
lemma validateInputs_check {P : Polars} {data : DataFrame} : ∀ {rules : List RuleSpec} {seen : List Uuid},
    validateInputs P data seen rules = .ok () → ∀ rule ∈ rules, validateCheck P rule.check = .ok () := by
  intro rules
  induction rules with
  | nil => exact fun _ _ h => (List.not_mem_nil h).elim
  | cons rule rules ih =>
    intro seen h
    rw [validateInputs] at h
    split at h
    · cases h
    · next hone =>
      refine List.forall_mem_cons.mpr ⟨?_, ih h⟩
      unfold validateInput at hone
      repeat' split at hone
      all_goals first
        | cases hone
        | exact hone

def cellsOf (data : DataFrame) (name : PyStr) : List Cell := ((data.getColumn name).map Series.values).getD []

lemma evaluateRules_expected {P : Polars} (hP : Elementwise P found) {data : DataFrame} :
    ∀ {rules : List RuleSpec} {rs : List RuleValidationResult},
      (∀ rule ∈ rules, validateCheck P rule.check = .ok ()) → evaluateRules U P data rules = .ok rs →
        rs = rules.map fun rule => rule.expected U found (cellsOf data rule.target_column) := by
  intro rules
  induction rules with
  | nil =>
    intro rs _ h
    cases h
    rfl
  | cons rule rules ih =>
    intro rs hchecks h
    rw [evaluateRules] at h
    split at h
    · cases h
    · next column hcol =>
      rw [evaluateRule_expected hP (hchecks rule List.mem_cons_self)] at h
      simp only at h
      split at h
      · cases h
      · next rest hrest =>
        cases h
        rw [List.map_cons, ← ih (fun r hr => hchecks r (List.mem_cons_of_mem _ hr)) hrest, cellsOf, hcol]
        rfl

/-- **The engine returns, rule by rule, the results that the rules should have.** -/
theorem validate_expected {P : Polars} (hP : Elementwise P found) {data : DataFrame}
    {rules : List RuleSpec} {e : ValidationEngineResult} (h : validate U P data rules = .ok e) :
    e.rule_results = rules.map fun rule => rule.expected U found (cellsOf data rule.target_column) := by
  unfold validate at h
  split at h
  · cases h
  · next hvalid =>
    split at h
    · cases h
    · next rs hrs =>
      cases h
      exact evaluateRules_expected hP (validateInputs_check hvalid) hrs

/-- **`evaluate_rule` returns the result that the rule should have**, for every column and every rule
that `_validate_inputs` accepts. -/
theorem evaluateRule_eq {P : Polars} (hP : Elementwise P found) {data : DataFrame} {rules : List RuleSpec}
    (hvalid : validateInputs P data [] rules = .ok ()) {rule : RuleSpec} (hrule : rule ∈ rules)
    (values : List Cell) : evaluateRule U P values rule = .ok (rule.expected U found values) :=
  evaluateRule_expected hP (validateInputs_check hvalid rule hrule) values

namespace Sample

/-- Case conversions and categories of ASCII. -/
def unicode : Unicode := ⟨fun c => c.val < 32, id, List.map PyStr.asciiLower, List.map PyStr.asciiLower⟩

/-- A pattern without special characters is found where it stands. -/
def literal (pattern text : PyStr) : Bool := text.tails.any fun t => pattern.isPrefixOf t

/-- Polars on patterns without special characters. -/
def polars : Polars := ⟨fun _ => none, fun pattern values => some (values.map (Option.map (literal pattern)))⟩

lemma elementwise : Elementwise polars literal :=
  ⟨fun _ _ _ h => (nomatch h), fun _ _ _ h => (Option.some_injective _ h).symm⟩

def cells : List Cell := [some (py "ab"), none, some (py "a"), some (py " "), some (py "ba")]

def table : DataFrame := ⟨[⟨py "c", true, cells⟩], 5, by simp [cells], by simp⟩

/-- `b` has to be found in it. -/
def rule : RuleSpec := ⟨1, py "c", .regex (py "b")⟩

lemma validInputs : validateInputs polars table [] [rule] = .ok () := by decide +kernel

end Sample

/-- One of three texts has no `b`. -/
theorem evaluateRule_eq_sample :
    evaluateRule Sample.unicode Sample.polars Sample.cells Sample.rule =
        .ok (Sample.rule.expected Sample.unicode Sample.literal Sample.cells) ∧
      Sample.rule.expected Sample.unicode Sample.literal Sample.cells =
        ⟨Sample.rule, 3, 2, 1, 2, [⟨3, some (py "a"), false⟩]⟩ :=
  ⟨evaluateRule_eq Sample.elementwise Sample.validInputs (List.mem_singleton.mpr rfl) Sample.cells,
    by decide +kernel⟩

end DataCheck.Validation
