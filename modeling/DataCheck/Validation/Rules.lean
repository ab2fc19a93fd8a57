import DataCheck.External
import DataCheck.Lib.Regex
import DataCheck.Lib.Rounding

/-!
# Rule evaluation (`validation/models.py`, `validation/rules.py`)
-/

namespace DataCheck.Validation

open Lib

def violationSampleLimit : ℕ := 20
def valuePreviewLimit : ℕ := 128

inductive ExpectedType where
  | string | integer | number | boolean | date | datetime
  deriving DecidableEq

/-- A number that a range boundary can be: an `int`, a finite `float`, an infinity or a NaN. -/
inductive Number where
  | int (n : ℤ)
  | float (x : Binary64)
  | nonfinite
  deriving DecidableEq

def Number.value : Number → ℚ
  | .int n => n
  | .float x => x.val
  | .nonfinite => 0

/-- `ValidationRuleSpec` without the rule's identifier and its column. -/
inductive Check where
  | required
  | unique
  | type (expected_type : ExpectedType)
  | range (minimum maximum : Option Number)
  | regex (pattern : PyStr)
  deriving DecidableEq

/-- `ValidationRuleSpec` -/
structure RuleSpec where
  rule_id : Uuid
  target_column : PyStr
  check : Check
  deriving DecidableEq

structure ViolationSample where
  row_number : ℕ
  value_preview : Option PyStr
  truncated : Bool
  deriving DecidableEq

structure RuleValidationResult where
  rule : RuleSpec
  evaluated_count : ℤ
  passed_count : ℤ
  violation_count : ℤ
  skipped_count : ℤ
  violation_samples : List ViolationSample
  deriving DecidableEq

/-- `ValidationInputError`, by its message. -/
inductive InputFault where
  | ruleIdsNotUnique | targetColumnEmpty | targetColumnMissing | targetColumnDtype
  | rangeWithoutBoundary | rangeNotFinite | rangeOrder | regexEmpty | regexInvalid
  deriving DecidableEq

/-- An exception of the engine: `ValidationInputError`, or the `ValueError` of a strict `zip`. -/
inductive EngineError where
  | input (f : InputFault)
  | zipLength
  deriving DecidableEq

/-! ### Cells -/

def isMissing : Option PyStr → Bool
  | none => true
  | some value => value == [] || value.strip == []

section Grammar

open Regex

def integerPattern : Regex := seq (opt (oneOf "+-")) (plus digit)

def numberPattern : Regex :=
  seq (opt (oneOf "+-"))
    (seq (alt (seq (plus digit) (opt (seq (oneOf ".") (plus digit)))) (seq (oneOf ".") (plus digit)))
      (opt (seq (oneOf "eE") (seq (opt (oneOf "+-")) (plus digit)))))

def datePattern : Regex :=
  seq (times digit 4) (seq (oneOf "-") (seq (times digit 2) (seq (oneOf "-") (times digit 2))))

def datetimePattern : Regex :=
  seq datePattern (seq (oneOf "T")
    (seq (times digit 2) (seq (oneOf ":") (seq (times digit 2) (seq (oneOf ":") (seq (times digit 2)
      (seq (opt (seq (oneOf ".") (seq digit (upTo digit 5))))
        (alt (oneOf "Z") (seq (oneOf "+-")
          (seq (times digit 2) (seq (oneOf ":") (times digit 2)))))))))))) 

end Grammar

/-- The number that a string of decimal digits writes. -/
def digitsValue (s : PyStr) : ℕ := s.foldl (fun n c => 10 * n + (c.val - 48)) 0

/-- The sign of a numeral, and the rest of it. -/
def splitSign : PyStr → ℤ × PyStr
  | [] => (1, [])
  | c :: s => if c.val = '-'.toNat then (-1, s) else if c.val = '+'.toNat then (1, s) else (1, c :: s)

/-- The number that a string of `_NUMBER_PATTERN` writes. -/
def numeralValue (s : PyStr) : ℚ :=
  let (sign, rest) := splitSign s
  let isExp : PyChar → Bool := fun c => c.val == 'e'.toNat || c.val == 'E'.toNat
  let isDot : PyChar → Bool := fun c => c.val == '.'.toNat
  let mantissa := rest.takeWhile fun c => !isExp c
  let (expSign, expDigits) := splitSign ((rest.dropWhile fun c => !isExp c).drop 1)
  let whole := mantissa.takeWhile fun c => !isDot c
  let fraction := (mantissa.dropWhile fun c => !isDot c).drop 1
  sign * digitsValue (whole ++ fraction) *
    (10 : ℚ) ^ (expSign * (digitsValue expDigits : ℤ) - fraction.length)

def parseNumber (value : PyStr) : Option Binary64 :=
  if numberPattern.fullmatch value then Binary64.ofRat (numeralValue value) else none

def daysInMonth (year month : ℕ) : ℕ :=
  if month = 2 then (if year % 4 = 0 ∧ (year % 100 ≠ 0 ∨ year % 400 = 0) then 29 else 28)
  else if month = 4 ∨ month = 6 ∨ month = 9 ∨ month = 11 then 30 else 31

/-- `date.fromisoformat` accepts a string of `_DATE_PATTERN`. -/
def dateInRange (value : PyStr) : Bool :=
  let year := digitsValue (value.take 4)
  let month := digitsValue ((value.drop 5).take 2)
  let day := digitsValue ((value.drop 8).take 2)
  1 ≤ year && 1 ≤ month && month ≤ 12 && 1 ≤ day && day ≤ daysInMonth year month

def isDate (value : PyStr) : Bool := datePattern.fullmatch value && dateInRange value

/-- `datetime.fromisoformat` accepts a string of `_DATETIME_PATTERN` with `Z` written as an offset:
the date and the time of day are in range, and the offset is less than a day. -/
def datetimeInRange (value : PyStr) : Bool :=
  let hour := digitsValue ((value.drop 11).take 2)
  let minute := digitsValue ((value.drop 14).take 2)
  let second := digitsValue ((value.drop 17).take 2)
  let offset := value.drop (value.length - 5)
  dateInRange (value.take 10) && hour < 24 && minute < 60 && second < 60 &&
    60 * digitsValue (offset.take 2) + digitsValue (offset.drop 3) < 1440

def isDatetime (value : PyStr) : Bool :=
  datetimePattern.fullmatch value &&
    datetimeInRange (value.flatMap fun c => if c.val = 'Z'.toNat then py "+00:00" else [c])

def matchesType (U : Unicode) (value : PyStr) : ExpectedType → Bool
  | .string => true
  | .integer => integerPattern.fullmatch value
  | .number => (parseNumber value).isSome
  | .boolean => U.casefold value == py "true" || U.casefold value == py "false"
  | .date => isDate value
  | .datetime => isDatetime value

def withinRange (value : PyStr) (minimum maximum : Option Number) : Bool :=
  match parseNumber value with
  | none => false
  | some parsed =>
    if minimum.any fun b => parsed.val < b.value then false
    else maximum.all fun b => parsed.val ≤ b.value

/-! ### The loops -/

def appendSample (samples : List ViolationSample) (row_number : ℕ) (value : Option PyStr) :
    List ViolationSample :=
  if violationSampleLimit ≤ samples.length then samples
  else samples ++ [{
    row_number
    value_preview := value.map fun v => v.take valuePreviewLimit
    truncated := value.any fun v => valuePreviewLimit < v.length }]

/-- The local variables of a loop over the cells. -/
structure Tally where
  samples : List ViolationSample
  violation_count : ℤ
  skipped_count : ℤ

def Tally.zero : Tally := ⟨[], 0, 0⟩

/-- `skipped_count += 1` -/
def Tally.skip (t : Tally) : Tally := { t with skipped_count := t.skipped_count + 1 }

/-- `violation_count += 1; _append_sample(samples, row_number, value)` -/
def Tally.violate (t : Tally) (row_number : ℕ) (value : Option PyStr) : Tally :=
  { t with
    violation_count := t.violation_count + 1
    samples := appendSample t.samples row_number value }

/-- The loop of `_evaluate_required`, from the row `row_number` on. -/
def requiredLoop : (row_number : ℕ) → List (Option PyStr) → Tally → Tally
  | _, [], t => t
  | row_number, value :: values, t =>
    requiredLoop (row_number + 1) values (if isMissing value then t.violate row_number value else t)

/-- The loop of `_evaluate_unique`. -/
def uniqueLoop : (row_number : ℕ) → List (Option PyStr) → (seen : List (Option PyStr)) → Tally → Tally
  | _, [], _, t => t
  | row_number, value :: values, seen, t =>
    if isMissing value then uniqueLoop (row_number + 1) values seen t.skip
    else if value ∈ seen then uniqueLoop (row_number + 1) values seen (t.violate row_number value)
    else uniqueLoop (row_number + 1) values (value :: seen) t

/-- The loop of `_evaluate_non_missing`. -/
def nonMissingLoop (passes : PyStr → Bool) : (row_number : ℕ) → List (Option PyStr) → Tally → Tally
  | _, [], t => t
  | row_number, value :: values, t =>
    nonMissingLoop passes (row_number + 1) values
      (if isMissing value then t.skip
      else if value.any passes then t
      else t.violate row_number value)

/-- The loop of `_evaluate_regex`, over the cells and what Polars says of each. -/
def regexLoop : (row_number : ℕ) → List (Option PyStr × Option Bool) → Tally → Tally
  | _, [], t => t
  | row_number, (value, matches_pattern) :: rest, t =>
    regexLoop (row_number + 1) rest
      (if isMissing value then t.skip
      else if matches_pattern ≠ some true then t.violate row_number value
      else t)

def result (rule : RuleSpec) (evaluated_count : ℤ) (t : Tally) : RuleValidationResult where
  rule
  evaluated_count
  passed_count := evaluated_count - t.violation_count
  violation_count := t.violation_count
  skipped_count := t.skipped_count
  violation_samples := t.samples

variable (U : Unicode) (P : Polars)

def evaluateRule (values : List (Option PyStr)) (rule : RuleSpec) :
    Except EngineError RuleValidationResult :=
  match rule.check with
  | .required =>
    -- nothing is skipped: the result gets `skipped_count=0`
    .ok (result rule values.length (requiredLoop 1 values .zero))
  | .unique =>
    let t := uniqueLoop 1 values [] .zero
    .ok (result rule (values.length - t.skipped_count) t)
  | .type expected_type =>
    let t := nonMissingLoop (fun value => matchesType U value expected_type) 1 values .zero
    .ok (result rule (values.length - t.skipped_count) t)
  | .range minimum maximum =>
    let t := nonMissingLoop (fun value => withinRange value minimum maximum) 1 values .zero
    .ok (result rule (values.length - t.skipped_count) t)
  | .regex pattern =>
    match P.contains pattern values with
    | none => .error (.input .regexInvalid)
    | some found =>
      if found.length ≠ values.length then .error .zipLength
      else
        let t := regexLoop 1 (values.zip found) .zero
        .ok (result rule (values.length - t.skipped_count) t)

/-! ### What the counts say -/

/-- The variables of a loop that has seen `n` cells fit together. -/
structure Tally.Ok (t : Tally) (n : ℕ) : Prop where
  violation_nonneg : 0 ≤ t.violation_count
  skipped_nonneg : 0 ≤ t.skipped_count
  total : t.violation_count + t.skipped_count ≤ n
  samples : (t.samples.length : ℤ) = min (violationSampleLimit : ℤ) t.violation_count
  row_numbers : ∀ s ∈ t.samples, 1 ≤ s.row_number

lemma Tally.Ok.zero : Tally.zero.Ok 0 := ⟨le_rfl, le_rfl, le_rfl, rfl, fun _ h => absurd h List.not_mem_nil⟩

lemma Tally.Ok.pass {t : Tally} {n : ℕ} (h : t.Ok n) : t.Ok (n + 1) :=
  ⟨h.violation_nonneg, h.skipped_nonneg, by have := h.total; push_cast; omega, h.samples, h.row_numbers⟩

lemma Tally.Ok.skip {t : Tally} {n : ℕ} (h : t.Ok n) : t.skip.Ok (n + 1) where
  violation_nonneg := h.violation_nonneg
  skipped_nonneg := by have := h.skipped_nonneg; simp only [Tally.skip]; omega
  total := by have := h.total; simp only [Tally.skip]; push_cast; omega
  samples := h.samples
  row_numbers := h.row_numbers

lemma Tally.Ok.violate {t : Tally} {n row : ℕ} (h : t.Ok n) (hrow : 1 ≤ row) (value : Option PyStr) :
    (t.violate row value).Ok (n + 1) where
  violation_nonneg := by have := h.violation_nonneg; simp only [Tally.violate]; omega
  skipped_nonneg := h.skipped_nonneg
  total := by have := h.total; simp only [Tally.violate]; push_cast; omega
  samples := by
    have hs := h.samples
    have hv := h.violation_nonneg
    simp only [Tally.violate, appendSample]
    split
    · omega
    · simp only [List.length_append, List.length_singleton]
      push_cast
      omega
  row_numbers := by
    simp only [Tally.violate, appendSample]
    split
    · exact h.row_numbers
    · intro s hs
      rcases List.mem_append.mp hs with hs | hs
      · exact h.row_numbers s hs
      · rw [List.mem_singleton.mp hs]
        exact hrow

lemma requiredLoop_ok (values : List (Option PyStr)) :
    ∀ {row n : ℕ} {t : Tally}, 1 ≤ row → t.Ok n → t.skipped_count = 0 →
      (requiredLoop row values t).Ok (n + values.length) ∧
        (requiredLoop row values t).skipped_count = 0 := by
  induction values with
  | nil => exact fun _ h h0 => ⟨h, h0⟩
  | cons value values ih =>
    intro row n t hrow h h0
    rw [requiredLoop, List.length_cons, show n + (values.length + 1) = n + 1 + values.length by omega]
    split
    · exact ih (by omega) (h.violate hrow value) h0
    · exact ih (by omega) h.pass h0

lemma uniqueLoop_ok (values : List (Option PyStr)) :
    ∀ {row n : ℕ} {seen : List (Option PyStr)} {t : Tally}, 1 ≤ row → t.Ok n →
      (uniqueLoop row values seen t).Ok (n + values.length) := by
  induction values with
  | nil => exact fun _ h => h
  | cons value values ih =>
    intro row n seen t hrow h
    rw [uniqueLoop, List.length_cons, show n + (values.length + 1) = n + 1 + values.length by omega]
    split
    · exact ih (by omega) h.skip
    · split
      · exact ih (by omega) (h.violate hrow value)
      · exact ih (by omega) h.pass

lemma nonMissingLoop_ok (passes : PyStr → Bool) (values : List (Option PyStr)) :
    ∀ {row n : ℕ} {t : Tally}, 1 ≤ row → t.Ok n →
      (nonMissingLoop passes row values t).Ok (n + values.length) := by
  induction values with
  | nil => exact fun _ h => h
  | cons value values ih =>
    intro row n t hrow h
    rw [nonMissingLoop, List.length_cons,
      show n + (values.length + 1) = n + 1 + values.length by omega]
    split
    · exact ih (by omega) h.skip
    · split
      · exact ih (by omega) h.pass
      · exact ih (by omega) (h.violate hrow value)

lemma regexLoop_ok (cells : List (Option PyStr × Option Bool)) :
    ∀ {row n : ℕ} {t : Tally}, 1 ≤ row → t.Ok n → (regexLoop row cells t).Ok (n + cells.length) := by
  induction cells with
  | nil => exact fun _ h => h
  | cons cell cells ih =>
    intro row n t hrow h
    rw [regexLoop, List.length_cons, show n + (cells.length + 1) = n + 1 + cells.length by omega]
    split
    · exact ih (by omega) h.skip
    · split
      · exact ih (by omega) (h.violate hrow _)
      · exact ih (by omega) h.pass

/-- The counts of a result for a column of `n` cells fit together. -/
structure RuleValidationResult.Balanced (r : RuleValidationResult) (n : ℕ) : Prop where
  rows : r.evaluated_count + r.skipped_count = n
  balance : r.evaluated_count = r.passed_count + r.violation_count
  passed_nonneg : 0 ≤ r.passed_count
  violation_nonneg : 0 ≤ r.violation_count
  skipped_nonneg : 0 ≤ r.skipped_count
  samples : (r.violation_samples.length : ℤ) = min (violationSampleLimit : ℤ) r.violation_count
  row_numbers : ∀ s ∈ r.violation_samples, 1 ≤ s.row_number

lemma balanced_result {rule : RuleSpec} {n : ℕ} {t : Tally} {e : ℤ} (h : t.Ok n)
    (he : e = n - t.skipped_count) : (result rule e t).Balanced n where
  rows := by simp only [result]; omega
  balance := by simp only [result]; omega
  passed_nonneg := by have := h.total; simp only [result]; omega
  violation_nonneg := h.violation_nonneg
  skipped_nonneg := h.skipped_nonneg
  samples := h.samples
  row_numbers := h.row_numbers

variable {U P}

/-- **The counts of every rule fit together**: rows are evaluated or skipped, evaluated rows pass or
violate, and there are as many samples as violations, up to the limit. -/
theorem evaluateRule_balanced {values : List (Option PyStr)} {rule : RuleSpec}
    {r : RuleValidationResult} (h : evaluateRule U P values rule = .ok r) :
    r.rule = rule ∧ r.Balanced values.length := by
  unfold evaluateRule at h
  have hz := Tally.Ok.zero
  cases hc : rule.check with rw [hc] at h
  | required =>
    cases h
    obtain ⟨hok, hs⟩ := requiredLoop_ok values le_rfl hz rfl
    rw [Nat.zero_add] at hok
    exact ⟨rfl, balanced_result hok (by omega)⟩
  | unique =>
    cases h
    have hok : (uniqueLoop 1 values [] Tally.zero).Ok (0 + values.length) := uniqueLoop_ok values le_rfl hz
    rw [Nat.zero_add] at hok
    exact ⟨rfl, balanced_result hok rfl⟩
  | type expected_type =>
    cases h
    have hok := nonMissingLoop_ok (fun value => matchesType U value expected_type) values le_rfl hz
    rw [Nat.zero_add] at hok
    exact ⟨rfl, balanced_result hok rfl⟩
  | range minimum maximum =>
    cases h
    have hok := nonMissingLoop_ok (fun value => withinRange value minimum maximum) values le_rfl hz
    rw [Nat.zero_add] at hok
    exact ⟨rfl, balanced_result hok rfl⟩
  | regex pattern =>
    simp only at h
    split at h
    · cases h
    · next found hf =>
      split at h
      · cases h
      · next hlen =>
        cases h
        have hok := regexLoop_ok (values.zip found) le_rfl hz
        have hl : (values.zip found).length = values.length := by
          rw [List.length_zip]
          omega
        rw [Nat.zero_add, hl] at hok
        exact ⟨rfl, balanced_result hok rfl⟩

end DataCheck.Validation
