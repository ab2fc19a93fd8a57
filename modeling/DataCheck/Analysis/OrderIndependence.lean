import DataCheck.Analysis.Service
import DataCheck.Validation.Specification
import Mathlib.Data.Fintype.Perm
import Mathlib.Data.List.FinRange
import Mathlib.Logic.Equiv.Fin.Rotate

/-!
# Order independence

The counts of a rule do not depend on the order of the rows, and the result of a rule on no other
rule and no other column.
-/

namespace DataCheck.Validation

open Lib

variable {U : Unicode} {P : Polars} {found : PyStr → PyStr → Bool} {data : DataFrame} {rules : List RuleSpec}
  {e : ValidationEngineResult}

/-! ### When the engine returns -/

/-- A rule on a column of the table, with a valid check. -/
structure Checked (P : Polars) (data : DataFrame) (rule : RuleSpec) : Prop where
  named : rule.target_column ≠ []
  column : ∃ s, data.getColumn rule.target_column = some s ∧ s.isString = true
  check : validateCheck P rule.check = .ok ()

lemma validateInput_iff {seen : List Uuid} {rule : RuleSpec} :
    validateInput P data seen rule = .ok () ↔ rule.rule_id ∉ seen ∧ Checked P data rule := by
  unfold validateInput
  constructor
  · intro h
    split at h
    · cases h
    next hseen =>
    split at h
    · cases h
    next hne =>
    split at h
    · cases h
    next s hs =>
    split at h
    · cases h
    next hstr => exact ⟨hseen, hne, ⟨s, hs, by simpa using hstr⟩, h⟩
  · rintro ⟨hseen, hne, ⟨s, hs, hstr⟩, hcheck⟩
    rw [if_neg hseen, if_neg hne, hs]
    simp only [hstr, Bool.true_eq_false, if_false, hcheck]

/-- **What `_validate_inputs` lets through does not depend on the order of the rules.** -/
theorem validateInputs_iff : ∀ {rules : List RuleSpec} {seen : List Uuid},
    validateInputs P data seen rules = .ok () ↔ (∀ r ∈ rules, Checked P data r) ∧
      (rules.map RuleSpec.rule_id).Nodup ∧ ∀ r ∈ rules, r.rule_id ∉ seen := by
  intro rules
  induction rules with
  | nil => simp [validateInputs]
  | cons rule rules ih =>
    intro seen
    simp only [validateInputs, List.forall_mem_cons, List.map_cons, List.nodup_cons]
    constructor
    · intro h
      split at h
      · cases h
      next hone =>
      obtain ⟨hseen, hrule⟩ := validateInput_iff.mp hone
      obtain ⟨hall, hnd, hnew⟩ := ih.mp h
      refine ⟨⟨hrule, hall⟩, ⟨fun hmem => ?_, hnd⟩, hseen, fun r hr hs => hnew r hr (List.mem_cons_of_mem _ hs)⟩
      obtain ⟨r, hr, he⟩ := List.mem_map.mp hmem
      exact hnew r hr (he ▸ List.mem_cons_self)
    · rintro ⟨⟨hrule, hall⟩, ⟨hid, hnd⟩, hseen, hnew⟩
      rw [validateInput_iff.mpr ⟨hseen, hrule⟩]
      refine ih.mpr ⟨hall, hnd, fun r hr hs => ?_⟩
      rcases List.mem_cons.mp hs with he | hs
      · exact hid (List.mem_map.mpr ⟨r, hr, he⟩)
      · exact hnew r hr hs

lemma evaluateRules_eq (hP : Elementwise P found) (h : ∀ r ∈ rules, Checked P data r) :
    evaluateRules U P data rules =
      .ok (rules.map fun rule => rule.expected U found (cellsOf data rule.target_column)) := by
  induction rules with
  | nil => rfl
  | cons rule rules ih =>
    obtain ⟨-, ⟨s, hs, -⟩, hcheck⟩ := h rule List.mem_cons_self
    rw [evaluateRules, hs]
    simp only [evaluateRule_expected hP hcheck, ih fun r hr => h r (List.mem_cons_of_mem _ hr), List.map_cons,
      cellsOf, hs, Option.map_some, Option.getD_some]

/-- **The engine returns exactly where its input is valid**, and then the results that the rules
should have. -/
theorem validate_iff (hP : Elementwise P found) : validate U P data rules = .ok e ↔
    ((∀ r ∈ rules, Checked P data r) ∧ (rules.map RuleSpec.rule_id).Nodup) ∧
      e = ⟨data.height, rules.map fun rule => rule.expected U found (cellsOf data rule.target_column)⟩ := by
  constructor
  · intro h
    have hres := validate_expected hP h
    obtain ⟨hrows, -⟩ := validate_ok h
    obtain ⟨n, rs⟩ := e
    refine ⟨?_, by rw [← hres, ← hrows]⟩
    unfold validate at h
    split at h
    · cases h
    next hvalid =>
    obtain ⟨hall, hnd, -⟩ := validateInputs_iff.mp hvalid
    exact ⟨hall, hnd⟩
  · rintro ⟨⟨hall, hnd⟩, rfl⟩
    rw [validate, validateInputs_iff.mpr ⟨hall, hnd, fun _ _ => List.not_mem_nil⟩]
    simp only [evaluateRules_eq hP hall]

/-! ### Violations of reordered cells -/

def distinctTexts (values : List Cell) : List Cell := (values.filter fun value => !missing value).dedup

/-- The cells that `unique` is violated at are those with a text that is not new. -/
lemma Check.unique_length_violationsBelow (values : List Cell) : ∀ above : List Cell,
    (Check.unique.violationsBelow U found above values).length +
      ((values.filter fun value => !missing value).toFinset \ above.toFinset).card =
        values.countP fun value => !missing value := by
  induction values with
  | nil => exact fun _ => by simp [violationsBelow]
  | cons value values ih =>
    intro above
    have ih' := ih (above ++ [value])
    rw [List.toFinset_append, List.toFinset_cons, List.toFinset_nil, insert_empty_eq, Finset.union_comm,
      ← Finset.insert_eq] at ih'
    rw [violationsBelow, List.countP_cons, List.filter_cons]
    by_cases hm : missing value = true
    · -- a skipped cell, which is none of the texts
      have hnot : value ∉ (values.filter fun value => !missing value).toFinset := by
        simp [hm]
      rw [Finset.sdiff_insert_of_notMem hnot] at ih'
      simpa [violated, hm] using ih'
    · have hm' : missing value = false := by simpa using hm
      by_cases hv : value ∈ above
      · -- a text that stands above
        have hmem : value ∈ above.toFinset := List.mem_toFinset.mpr hv
        rw [Finset.insert_eq_of_mem hmem] at ih'
        simp only [violated, hm', hv, Bool.not_false, decide_true, Bool.and_self, if_true, List.length_cons,
          List.toFinset_cons, Finset.insert_sdiff_of_mem _ hmem]
        omega
      · -- a new text
        have hset : insert value (values.filter fun value => !missing value).toFinset \ above.toFinset =
            insert value ((values.filter fun value => !missing value).toFinset \ insert value above.toFinset) := by
          ext v
          by_cases he : v = value
          · simp [he, hv]
          · simp [he]
        simp only [violated, hm', hv, Bool.not_false, decide_false, Bool.and_false, Bool.false_eq_true, if_false,
          if_true, List.toFinset_cons]
        rw [hset, Finset.card_insert_of_notMem (by simp)]
        omega

/-- **`unique` passes once for every distinct text.** -/
theorem Check.unique_violations (values : List Cell) :
    (Check.unique.violations U found values).length + (distinctTexts values).length =
      values.countP fun value => !missing value := by
  have h := @unique_length_violationsBelow U found values []
  rwa [violationsBelow_nil, List.toFinset_nil, Finset.sdiff_empty, List.card_toFinset] at h

/-- **Reordered cells violate a check as often.** -/
theorem Check.length_violations_perm (check : Check) {values values' : List Cell} (h : values.Perm values') :
    (check.violations U found values).length = (check.violations U found values').length := by
  by_cases hu : check = .unique
  · subst hu
    have h₁ := @unique_violations U found values
    have h₂ := @unique_violations U found values'
    have hd : (distinctTexts values).length = (distinctTexts values').length :=
      (h.filter _).dedup.length_eq
    have hc := h.countP_eq fun value => !missing value
    omega
  · rw [← violationsBelow_nil, ← violationsBelow_nil, length_violationsBelow hu, length_violationsBelow hu,
      h.countP_eq]

/-- Two results with the same counts. -/
structure RuleValidationResult.SameCounts (r r' : RuleValidationResult) : Prop where
  evaluated_count : r'.evaluated_count = r.evaluated_count
  passed_count : r'.passed_count = r.passed_count
  violation_count : r'.violation_count = r.violation_count
  skipped_count : r'.skipped_count = r.skipped_count

lemma RuleSpec.expected_perm (rule : RuleSpec) {values values' : List Cell} (h : values.Perm values') :
    (rule.expected U found values).SameCounts (rule.expected U found values') := by
  have hlen := h.length_eq
  have hskip := h.countP_eq rule.check.skips
  have hviol := @Check.length_violations_perm U found rule.check _ _ h
  constructor <;> simp only [expected, hlen, hskip, hviol]

/-! ### Reordered lists -/

/-- A list of `n` elements in the order `σ`. -/
def reorder {α : Type} {n : ℕ} (σ : Equiv.Perm (Fin n)) (l : List α) : List α :=
  (List.finRange n).filterMap fun i => l[(σ i).val]?

section Reorder

variable {α β : Type} {n : ℕ} {σ : Equiv.Perm (Fin n)} {l : List α}

lemma reorder_eq (h : l.length = n) :
    reorder σ l = List.ofFn fun i => l.get (Fin.cast h.symm (σ i)) := by
  have hget : ∀ i : Fin n, l[(σ i).val]? = some (l.get (Fin.cast h.symm (σ i))) := fun i => by
    rw [List.getElem?_eq_getElem (h ▸ (σ i).isLt)]
    rfl
  simp only [reorder, hget, List.filterMap_eq_map', ← List.ofFn_eq_map]

lemma reorder_perm (h : l.length = n) : (reorder σ l).Perm l := by
  subst h
  rw [reorder_eq rfl]
  exact (Equiv.Perm.ofFn_comp_perm σ l.get).trans (by rw [List.ofFn_get])

lemma reorder_map (f : α → β) : (reorder σ l).map f = reorder σ (l.map f) := by
  simp [reorder, List.map_filterMap]

lemma getElem?_reorder (h : l.length = n) (i : Fin n) : (reorder σ l)[i.val]? = l[(σ i).val]? := by
  subst h
  rw [reorder_eq rfl, List.getElem?_ofFn, dif_pos i.isLt, List.getElem?_eq_getElem (σ i).isLt]
  rfl

end Reorder

/-- The table with its rows in the order `σ`. -/
def permuteRows (data : DataFrame) (σ : Equiv.Perm (Fin data.height)) : DataFrame where
  columns := data.columns.map fun s => { s with values := reorder σ s.values }
  height := data.height
  length_values s hs := by
    obtain ⟨column, hcolumn, rfl⟩ := List.mem_map.mp hs
    have hlen := data.length_values column hcolumn
    exact ((reorder_perm hlen).length_eq).trans hlen
  nodup_names := by
    rw [List.map_map]
    exact data.nodup_names

variable {σ : Equiv.Perm (Fin data.height)}

lemma getColumn_permuteRows (name : PyStr) : (permuteRows data σ).getColumn name =
    (data.getColumn name).map fun s => { s with values := reorder σ s.values } := by
  rw [DataFrame.getColumn, permuteRows, List.find?_map]
  rfl

lemma cellsOf_permuteRows (name : PyStr) : (cellsOf (permuteRows data σ) name).Perm (cellsOf data name) := by
  rw [cellsOf, cellsOf, getColumn_permuteRows]
  cases hs : data.getColumn name with
  | none => exact .nil
  | some s => exact reorder_perm (data.length_values s (DataFrame.getColumn_mem hs).1)

lemma Checked.permuteRows {rule : RuleSpec} (h : Checked P data rule) : Checked P (permuteRows data σ) rule := by
  obtain ⟨hne, ⟨s, hs, hstr⟩, hcheck⟩ := h
  refine ⟨hne, ⟨{ s with values := reorder σ s.values }, ?_, hstr⟩, hcheck⟩
  rw [getColumn_permuteRows, hs]
  rfl

end DataCheck.Validation

namespace DataCheck.Analyses

open Lib Datasets Validation

variable {U : Unicode} {P : Polars} {found : PyStr → PyStr → Bool} {data data' : DataFrame}
  {rules rules' : List RuleSpec} {e e' : ValidationEngineResult}

/-- The total and the score that `_persist_analysis` computes from the results. -/
def summary (results : List RuleValidationResult) : ℤ × Option (Option ℚ) :=
  ((results.map RuleValidationResult.violation_count).sum, calculateQualityScore results)

lemma summary_perm {results results' : List RuleValidationResult} (h : results'.Perm results) :
    summary results' = summary results := by
  simp only [summary, calculateQualityScore, (h.map _).sum_eq]

lemma summary_sameCounts {results results' : List RuleValidationResult}
    (h : List.Forall₂ RuleValidationResult.SameCounts results results') :
    summary results' = summary results := by
  have hmap : ∀ f : RuleValidationResult → ℤ, (∀ r r', r.SameCounts r' → f r' = f r) →
      results'.map f = results.map f := by
    intro f hf
    induction h with
    | nil => rfl
    | cons hr _ ih => rw [List.map_cons, List.map_cons, hf _ _ hr, ih]
  simp only [summary, calculateQualityScore, hmap _ fun _ _ h => h.passed_count,
    hmap _ fun _ _ h => h.evaluated_count, hmap _ fun _ _ h => h.violation_count]

/-- The engine returns on the reordered rows what it returns on the rows, up to the samples. -/
lemma validate_permuteRows (hP : Elementwise P found) (h : validate U P data rules = .ok e)
    (σ : Equiv.Perm (Fin data.height)) : ∃ e', validate U P (permuteRows data σ) rules = .ok e' ∧
      List.Forall₂ RuleValidationResult.SameCounts e.rule_results e'.rule_results := by
  obtain ⟨⟨hall, hnd⟩, rfl⟩ := (validate_iff hP).mp h
  refine ⟨_, (validate_iff hP).mpr ⟨⟨fun r hr => (hall r hr).permuteRows, hnd⟩, rfl⟩, ?_⟩
  rw [List.forall₂_map_left_iff, List.forall₂_map_right_iff, List.forall₂_same]
  exact fun rule _ => rule.expected_perm (cellsOf_permuteRows _).symm

lemma validate_reorder (hP : Elementwise P found) (h : validate U P data rules = .ok e)
    (τ : Equiv.Perm (Fin rules.length)) : ∃ e', validate U P data (reorder τ rules) = .ok e' ∧
      e'.rule_results = reorder τ e.rule_results := by
  obtain ⟨⟨hall, hnd⟩, rfl⟩ := (validate_iff hP).mp h
  have hperm : (reorder τ rules).Perm rules := reorder_perm rfl
  refine ⟨_, (validate_iff hP).mpr ⟨⟨fun r hr => hall r (hperm.mem_iff.mp hr), ?_⟩, rfl⟩, reorder_map _⟩
  exact (hperm.map RuleSpec.rule_id).nodup_iff.mpr hnd

/-- A rule's result is for its spec and its column. -/
lemma validate_getElem? (hP : Elementwise P found) (h : validate U P data rules = .ok e) {i : ℕ}
    {rule : RuleSpec} (hi : rules[i]? = some rule) :
    e.rule_results[i]? = some (rule.expected U found (cellsOf data rule.target_column)) := by
  obtain ⟨-, rfl⟩ := (validate_iff hP).mp h
  rw [List.getElem?_map, hi]
  rfl

/-- **Quality results do not depend on any order.**  Where the engine accepts a table and its rules:
reordered rows give every rule the same counts, and reordered rules the same results in their new
order; `unique` passes once for every distinct text; a rule has the same result among any rules and on
any table where its column is the same; and the total and the score change with neither order. -/
theorem quality_order_independent (hP : Elementwise P found) (h : validate U P data rules = .ok e) :
    (∀ σ : Equiv.Perm (Fin data.height), ∃ e', validate U P (permuteRows data σ) rules = .ok e' ∧
      List.Forall₂ RuleValidationResult.SameCounts e.rule_results e'.rule_results ∧
      summary e'.rule_results = summary e.rule_results) ∧
    (∀ τ : Equiv.Perm (Fin rules.length), ∃ e', validate U P data (reorder τ rules) = .ok e' ∧
      (∀ i : Fin rules.length, e'.rule_results[i.val]? = e.rule_results[(τ i).val]?) ∧
      summary e'.rule_results = summary e.rule_results) ∧
    (∀ r ∈ e.rule_results, r.rule.check = .unique →
      r.passed_count = (distinctTexts (cellsOf data r.rule.target_column)).length) ∧
    ∀ data' rules' e', validate U P data' rules' = .ok e' → ∀ (i j : ℕ) (rule : RuleSpec),
      rules[i]? = some rule → rules'[j]? = some rule →
      data'.getColumn rule.target_column = data.getColumn rule.target_column →
        e'.rule_results[j]? = e.rule_results[i]? := by
  have hlen : e.rule_results.length = rules.length := by
    obtain ⟨-, rfl⟩ := (validate_iff hP).mp h
    exact List.length_map _
  refine ⟨fun σ => ?_, fun τ => ?_, fun r hr hu => ?_, ?_⟩
  · obtain ⟨e', he', hsame⟩ := validate_permuteRows hP h σ
    exact ⟨e', he', hsame, summary_sameCounts hsame⟩
  · obtain ⟨e', he', heq⟩ := validate_reorder hP h τ
    refine ⟨e', he', fun i => ?_, ?_⟩
    · rw [heq, getElem?_reorder hlen]
    · rw [heq]
      exact summary_perm (reorder_perm hlen)
  · obtain ⟨-, rfl⟩ := (validate_iff hP).mp h
    obtain ⟨rule, -, rfl⟩ := List.mem_map.mp hr
    have hcheck : rule.check = .unique := hu
    have hpass := @Check.unique_violations U found (cellsOf data rule.target_column)
    have hrows := List.length_eq_countP_add_countP missing (l := cellsOf data rule.target_column)
    simp only [RuleSpec.expected, hcheck, show Check.unique.skips = missing from rfl]
    simp only [Bool.not_eq_true, Bool.decide_eq_false] at hrows
    omega
  · intro data' rules' e' h' i j rule hi hj hcol
    rw [validate_getElem? hP h hi, validate_getElem? hP h' hj, cellsOf, cellsOf, hcol]

namespace Sample

/-- A pattern and the distinctness of the cells of one column. -/
def twoRules : List RuleSpec := [Validation.Sample.rule, ⟨2, py "c", .unique⟩]

def rotated : Equiv.Perm (Fin Validation.Sample.table.height) := finRotate 5

lemma checked : ∀ r ∈ twoRules, Checked Validation.Sample.polars Validation.Sample.table r := by
  have hcolumn : ∃ s, Validation.Sample.table.getColumn (py "c") = some s ∧ s.isString = true := ⟨_, rfl, rfl⟩
  intro r hr
  rcases List.mem_pair.mp hr with rfl | rfl
  · exact ⟨by decide, hcolumn, rfl⟩
  · exact ⟨by decide, hcolumn, rfl⟩

end Sample

/-- The first cell of a column goes to its end, and another row is shown. -/
theorem quality_order_independent_sample : ∃ e e',
    validate Validation.Sample.unicode Validation.Sample.polars Validation.Sample.table Sample.twoRules = .ok e ∧
    validate Validation.Sample.unicode Validation.Sample.polars
      (permuteRows Validation.Sample.table Sample.rotated) Sample.twoRules = .ok e' ∧
    e'.rule_results ≠ e.rule_results ∧ summary e'.rule_results = summary e.rule_results := by
  have h : validate Validation.Sample.unicode Validation.Sample.polars Validation.Sample.table Sample.twoRules = .ok _ :=
    (validate_iff Validation.Sample.elementwise).mpr ⟨⟨Sample.checked, by decide⟩, rfl⟩
  obtain ⟨e', he', -, hsum⟩ := (quality_order_independent Validation.Sample.elementwise h).1 Sample.rotated
  refine ⟨_, e', h, he', ?_, hsum⟩
  obtain ⟨-, rfl⟩ := (validate_iff Validation.Sample.elementwise).mp he'
  decide +kernel

end DataCheck.Analyses
