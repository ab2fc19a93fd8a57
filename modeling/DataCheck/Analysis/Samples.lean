import DataCheck.Analysis.History
import DataCheck.Validation.Specification

/-!
# Whether the samples of an analysis can be stored

The upload scanner lets U+0000 through in data cells, and a `jsonb` column does not store it.
-/

namespace DataCheck.Analyses

open Lib Shared Datasets Validation

variable {U : Unicode} {P : Polars} {found : PyStr → PyStr → Bool} {data : DataFrame}

/-- A rule that the API accepts on a table. -/
structure Requested (U : Unicode) (P : Polars) (data : DataFrame) (rule : RuleSpec) : Prop where
  configuration : ∃ c : RuleConfiguration U P, rule.check = checkOf U P c
  target_column : validateTargetColumn U rule.target_column = .ok rule.target_column
  column : rule.target_column ∈ data.names

/-- Whatever rules are evaluated, every preview can be stored, and so can the samples of every row that
`_result_models` builds. -/
def SamplesStorable (U : Unicode) (P : Polars) (data : DataFrame) : Prop :=
  ∀ rules, (∀ rule ∈ rules, Requested U P data rule) → (rules.map RuleSpec.rule_id).Nodup →
    ∀ e, validate U P data rules = .ok e →
      (∀ r ∈ e.rule_results, ∀ s ∈ r.violation_samples, (previewJson s.value_preview).storable = true) ∧
      ∀ analysis_id source as rows, resultModels analysis_id source 0 as e.rule_results = .ok rows →
        ∀ row ∈ rows, row.violation_samples.all Json.storableMembers = true

/-- The pattern `^([^\x00]{0,127}$|[^\x00]{128})`. -/
def noEarlyNul : PyStr := py "^([^\\x00]\x7b0,127\x7d$|[^\\x00]\x7b128\x7d)"

/-- What a preview shows of a text has no U+0000. -/
def PreviewClean (text : PyStr) : Prop := (0 : PyChar) ∉ text.take valuePreviewLimit

instance (text : PyStr) : Decidable (PreviewClean text) := inferInstanceAs (Decidable (_ ∉ _))

/-- What the code relies on in Polars: a cell is text of Unicode scalar values, a pattern is a predicate
on cells, and `noEarlyNul` is the predicate that it reads. -/
structure PolarsText (U : Unicode) (P : Polars) (found : PyStr → PyStr → Bool) : Prop where
  elementwise : Elementwise P found
  scalar : ∀ content frame, P.readCsv content = some frame → ∀ column ∈ frame.columns,
    ∀ text, some text ∈ column.values → ∀ c ∈ text, ¬ (0xD800 ≤ c.val ∧ c.val ≤ 0xDFFF)
  accepts : validatePolarsRegex U P noEarlyNul = .ok noEarlyNul
  finds : ∀ text, found noEarlyNul text = decide (PreviewClean text)

/-! ### Previews -/

lemma storableText_iff {s : PyStr} : storableText s = true ↔
    ∀ c ∈ s, c ≠ 0 ∧ ¬ (0xD800 ≤ c.val ∧ c.val ≤ 0xDFFF) := by
  simp only [storableText, List.all_eq_true, Bool.and_eq_true, bne_iff_ne, ne_eq, Bool.not_eq_true',
    Bool.and_eq_false_iff, decide_eq_false_iff_not, Fin.ext_iff, Fin.val_zero, not_and_or]

lemma storable_sampleJson (s : ViolationSample) :
    Json.storableMembers (sampleJson s) = (previewJson s.value_preview).storable := by
  have h : ∀ name ∈ [py "row_number", py "truncated", py "value_preview"], storableText name = true := by
    decide
  simp only [List.forall_mem_cons] at h
  simp [sampleJson, Json.storableMembers, Json.storable, h.1, h.2.1, h.2.2.1]

/-- A violation of a rule is at a cell of its column. -/
lemma violations_mem {check : Check} {values : List Cell} {row : Cell × ℕ}
    (h : row ∈ check.violations U found values) : row.1 ∈ values := by
  obtain ⟨above, below, rfl, -, -⟩ := Check.mem_violations.mp h
  simp

lemma cellsOf_mem {name : PyStr} {value : Cell} (h : value ∈ cellsOf data name) :
    ∃ column ∈ data.columns, column.name = name ∧ value ∈ column.values := by
  unfold cellsOf at h
  cases hc : data.getColumn name with
  | none =>
    rw [hc] at h
    exact (List.not_mem_nil h).elim
  | some column =>
    rw [hc] at h
    obtain ⟨hmem, hname⟩ := DataFrame.getColumn_mem hc
    exact ⟨column, hmem, hname, h⟩

/-! ### The samples of a result -/

/-- The preview of a cell whose text is clean can be stored. -/
lemma storable_sampleOf {value : Cell} {n : ℕ}
    (hclean : ∀ text, value = some text → PreviewClean text)
    (hscalar : ∀ text, value = some text → ∀ c ∈ text, ¬ (0xD800 ≤ c.val ∧ c.val ≤ 0xDFFF)) :
    (previewJson (sampleOf (value, n)).value_preview).storable = true := by
  cases value with
  | none => rfl
  | some text =>
    refine storableText_iff.mpr fun c hc => ⟨?_, hscalar text rfl c (List.mem_of_mem_take hc)⟩
    rintro rfl
    exact hclean text rfl hc

/-- The preview of a text that is not clean cannot. -/
lemma not_storable_sampleOf {text : PyStr} {n : ℕ} (h : ¬ PreviewClean text) :
    (previewJson (sampleOf (some text, n)).value_preview).storable ≠ true := by
  intro hs
  exact h fun hmem => (storableText_iff.mp hs 0 hmem).1 rfl

/-- The samples of a result of the engine are at cells of the column. -/
lemma samples_of_result (hP : Elementwise P found) {rules : List RuleSpec} {e : ValidationEngineResult}
    (h : validate U P data rules = .ok e) {r : RuleValidationResult} (hr : r ∈ e.rule_results)
    {s : ViolationSample} (hs : s ∈ r.violation_samples) :
    ∃ rule ∈ rules, ∃ row, s = sampleOf row ∧ row.1 ∈ cellsOf data rule.target_column := by
  rw [validate_expected hP h] at hr
  obtain ⟨rule, hrule, rfl⟩ := List.mem_map.mp hr
  obtain ⟨row, hrow, rfl⟩ := List.mem_map.mp hs
  exact ⟨rule, hrule, row, rfl, violations_mem (List.mem_of_mem_take hrow)⟩

lemma rows_storable {n : ℕ} {rs : List RuleValidationResult} {rows : List ValidationResult}
    (h : List.Forall₂ (RowOf n) rs rows) (hs : ∀ r ∈ rs, ∀ s ∈ r.violation_samples,
      (previewJson s.value_preview).storable = true) :
    ∀ row ∈ rows, row.violation_samples.all Json.storableMembers = true := by
  induction h with
  | nil => exact fun _ h => (List.not_mem_nil h).elim
  | cons hr _ ih =>
    refine List.forall_mem_cons.mpr ⟨?_, ih fun r hr' => hs r (List.mem_cons_of_mem _ hr')⟩
    rw [hr.violation_samples, List.all_map, List.all_eq_true]
    intro s hs'
    exact (storable_sampleJson s).trans (hs _ List.mem_cons_self s hs')

lemma missing_of_nul {text : PyStr} (h : ¬ PreviewClean text) : missing (some text) = false := by
  by_contra hm
  have hall : ∀ c ∈ text, PyStr.isSpace c = true := by simpa [missing] using hm
  have hspace := hall 0 (List.mem_of_mem_take (not_not.mp h))
  exact absurd hspace (by decide)

/-- The rule that looks for an early U+0000. -/
def nulRule (name : PyStr) : RuleSpec := ⟨0, name, .regex noEarlyNul⟩

lemma nulRule_requested (hP : PolarsText U P found) {name : PyStr}
    (hname : validateTargetColumn U name = .ok name) (hmem : name ∈ data.names) :
    Requested U P data (nulRule name) :=
  ⟨⟨.regex ⟨noEarlyNul, hP.accepts⟩, rfl⟩, hname, hmem⟩

lemma nulRule_violations (hP : PolarsText U P found) {name : PyStr} {values : List Cell} {row : Cell × ℕ}
    (h : row ∈ (nulRule name).check.violations U found values) :
    ∃ text, row.1 = some text ∧ ¬ PreviewClean text := by
  obtain ⟨above, below, -, -, hv⟩ := Check.mem_violations.mp h
  cases hval : row.1 with
  | none => simp [nulRule, Check.violated, hval, missing] at hv
  | some text =>
    have hv' : missing (some text) = false ∧ ¬ PreviewClean text := by
      simpa [nulRule, Check.violated, hval, Check.holds, hP.finds] using hv
    exact ⟨text, rfl, hv'.2⟩

lemma nulRule_finds (hP : PolarsText U P found) (name : PyStr) {text : PyStr} {values : List Cell}
    (hmem : some text ∈ values) (h : ¬ PreviewClean text) :
    (nulRule name).check.violations U found values ≠ [] := by
  obtain ⟨above, below, rfl⟩ := List.append_of_mem hmem
  refine List.ne_nil_of_mem (a := (some text, above.length + 1)) ?_
  refine Check.mem_violations.mpr ⟨above, below, rfl, rfl, ?_⟩
  simp [nulRule, Check.violated, missing_of_nul h, Check.holds, hP.finds, h]

lemma cellsOf_column {column : Series} (h : column ∈ data.columns) :
    cellsOf data column.name = column.values := by
  obtain ⟨c, hc⟩ := DataFrame.exists_getColumn (List.mem_map_of_mem (f := Series.name) h)
  obtain ⟨hmem, hname⟩ := DataFrame.getColumn_mem hc
  rw [cellsOf, hc, List.inj_on_of_nodup_map data.nodup_names hmem h hname]
  rfl

lemma nulRule_runs (hP : PolarsText U P found) (hstrings : ∀ c ∈ data.columns, c.isString = true)
    {name : PyStr} (hname : validateTargetColumn U name = .ok name) (hmem : name ∈ data.names) :
    ∃ e, validate U P data [nulRule name] = .ok e := by
  have hby : ByPattern P := ⟨hP.elementwise.pattern_alone, fun pattern values answers h => by
    rw [hP.elementwise.cells pattern values answers h, List.length_map]⟩
  obtain ⟨-, hne, hcon⟩ := validatePolarsRegex_ok hP.accepts
  refine validate_isOk hby hstrings (List.forall_mem_singleton.mpr ⟨⟨?_, hmem⟩, ?_⟩)
    (List.nodup_singleton _)
  · exact List.ne_nil_of_length_pos (validateTargetColumn_ok hname).2.1
  · show validateRegexPattern P noEarlyNul = .ok ()
    rw [validateRegexPattern, if_neg hne, if_neg hcon]

/-- **The samples of every analysis of a file can be stored exactly when no cell that a rule can look at
has a U+0000 among its first 128 characters.** -/
theorem samples_storable_iff (hP : PolarsText U P found) {content : Bytes} {s : CsvStructure}
    {frame : DataFrame} (_ : scanCsv content = .ok s)
    (hload : loadTextualCsv P content s.column_names s.row_count = .ok frame) :
    SamplesStorable U P frame ↔ ∀ column ∈ frame.columns,
      validateTargetColumn U column.name = .ok column.name →
        ∀ text, some text ∈ column.values → (0 : PyChar) ∉ text.take 128 := by
  obtain ⟨-, -, hstrings⟩ := loadTextualCsv_ok hload
  have hread := loadTextualCsv_read hload
  constructor
  · intro hall column hcolumn hname text htext hnul
    have hdirty : ¬ PreviewClean text := not_not.mpr hnul
    have hmem : column.name ∈ frame.names := List.mem_map_of_mem hcolumn
    obtain ⟨e, he⟩ := nulRule_runs hP hstrings hname hmem
    obtain ⟨hpreviews, -⟩ := hall [nulRule column.name]
      (List.forall_mem_singleton.mpr (nulRule_requested hP hname hmem)) (List.nodup_singleton _) e he
    rw [validate_expected hP.elementwise he, List.map_singleton, List.forall_mem_singleton] at hpreviews
    -- the first violation of that rule is shown
    obtain ⟨row, rest, hviolations⟩ := List.exists_cons_of_ne_nil
      (nulRule_finds hP column.name (cellsOf_column hcolumn ▸ htext) hdirty)
    obtain ⟨text', hrow, hdirty'⟩ := nulRule_violations hP (hviolations ▸ List.mem_cons_self)
    obtain ⟨value, n⟩ := row
    obtain rfl : value = some text' := hrow
    refine not_storable_sampleOf (n := n) hdirty' (hpreviews _ ?_)
    show _ ∈ List.map sampleOf (List.take violationSampleLimit ((nulRule column.name).check.violations U found
      (cellsOf frame column.name)))
    rw [hviolations]
    exact List.mem_map_of_mem List.mem_cons_self
  · intro hclean rules hrules _ e he
    have hpreviews : ∀ r ∈ e.rule_results, ∀ s ∈ r.violation_samples,
        (previewJson s.value_preview).storable = true := by
      intro r hr s hs
      obtain ⟨rule, hrule, ⟨value, n⟩, rfl, hcell⟩ := samples_of_result hP.elementwise he hr hs
      obtain ⟨column, hcolumn, hname, hvalue⟩ := cellsOf_mem hcell
      have htarget := (hrules rule hrule).target_column
      rw [← hname] at htarget
      refine storable_sampleOf ?_ ?_
      · rintro text rfl
        exact hclean column hcolumn htarget text hvalue
      · rintro text rfl
        exact hP.scalar content frame hread column hcolumn text hvalue
    refine ⟨hpreviews, fun analysis_id source as rows hrows => ?_⟩
    exact rows_storable (resultModels_ok hrows).2.1 hpreviews

namespace Sample

/-- A column with the cell `1`, and one with the cell U+0000. -/
def one : Bytes := [97, 10, 49, 10]

def nul : Bytes := [97, 10, 0, 10]

/-- A column `a` of one cell. -/
def column (text : PyStr) : DataFrame := ⟨[⟨py "a", true, [some text]⟩], 1, by simp, by simp⟩

/-- The pattern `noEarlyNul`, and patterns without special characters. -/
def find (pattern text : PyStr) : Bool :=
  if pattern = noEarlyNul then decide (PreviewClean text) else Validation.Sample.literal pattern text

/-- Polars on these files and patterns. -/
def textPolars : Polars where
  readCsv content := if content = one then some (column (py "1")) else
    if content = nul then some (column [0]) else none
  contains pattern values := some (values.map (Option.map (find pattern)))

lemma column_cells {text : PyStr} {p : PyStr → Prop} (h : p text) :
    ∀ c ∈ (column text).columns, ∀ t, some t ∈ c.values → p t := by
  intro c hc t ht
  obtain rfl := List.mem_singleton.mp hc
  obtain rfl := Option.some_injective _ (List.mem_singleton.mp ht)
  exact h

lemma polarsText : PolarsText Validation.Sample.unicode textPolars find where
  elementwise := ⟨fun _ _ _ h => (nomatch h), fun _ _ _ h => (Option.some_injective _ h).symm⟩
  scalar := by
    intro content frame h
    have hcells : frame = column (py "1") ∨ frame = column [0] := by
      simp only [textPolars] at h
      split_ifs at h <;> cases h
      · exact Or.inl rfl
      · exact Or.inr rfl
    rcases hcells with rfl | rfl
    · exact column_cells (p := fun t => ∀ c ∈ t, ¬ (0xD800 ≤ c.val ∧ c.val ≤ 0xDFFF)) fun c hc =>
        (storableText_iff.mp (by decide : storableText (py "1") = true) c hc).2
    · exact column_cells (p := fun t => ∀ c ∈ t, ¬ (0xD800 ≤ c.val ∧ c.val ≤ 0xDFFF))
        (List.forall_mem_singleton.mpr (by decide))
  accepts := by decide +kernel
  finds := fun text => by rw [find, if_pos rfl]

end Sample

/-- The samples of a file with the cell `1` can be stored. -/
theorem samples_storable_iff_sample :
    SamplesStorable Validation.Sample.unicode Sample.textPolars (Sample.column (py "1")) := by
  have hscan : scanCsv Sample.one = .ok ⟨1, [py "a"]⟩ := by decide +kernel
  exact (samples_storable_iff Sample.polarsText hscan rfl).mpr fun c hc _ =>
    Sample.column_cells (p := fun t => (0 : PyChar) ∉ t.take 128) (by decide) c hc

/-- A cell that is U+0000 is accepted, violates `type(integer)`, and its preview cannot be stored. -/
theorem not_samples_storable : ¬ ∀ (U : Unicode) (P : Polars) (found : PyStr → PyStr → Bool)
    (content : Bytes) (s : CsvStructure) (frame : DataFrame), PolarsText U P found →
      scanCsv content = .ok s → loadTextualCsv P content s.column_names s.row_count = .ok frame →
      SamplesStorable U P frame := by
  intro h
  have hrule : ∀ rule ∈ [(⟨1, py "a", .type .integer⟩ : RuleSpec)],
      Requested Validation.Sample.unicode Sample.textPolars (Sample.column [0]) rule :=
    List.forall_mem_singleton.mpr ⟨⟨.type ⟨.integer⟩, rfl⟩, rfl, by decide⟩
  obtain ⟨hpreviews, -⟩ := h Validation.Sample.unicode Sample.textPolars Sample.find Sample.nul
    ⟨1, [py "a"]⟩ (Sample.column [0]) Sample.polarsText (by decide +kernel) rfl _ hrule
    (List.nodup_singleton _) ⟨1, [⟨⟨1, py "a", .type .integer⟩, 1, 0, 1, 0, [⟨1, some [0], false⟩]⟩]⟩ rfl
  exact absurd (hpreviews _ List.mem_cons_self _ List.mem_cons_self) (by decide)

end DataCheck.Analyses
