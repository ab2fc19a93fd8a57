import DataCheck.Validation.Rules

/-!
# The quality score (`analysis/score.py`)
-/

namespace DataCheck.Analyses

open Lib Validation

/-- `100 * passed / evaluated` with 40 significant digits, then with two decimals; `none` is
`decimal.InvalidOperation`. -/
def scoreOf (passed evaluated : ℤ) : Option ℚ :=
  Decimal.quantize 40 (Decimal.roundSig 40 (Decimal.roundSig 40 (100 * passed) / evaluated))

/-- The score of the total counts; no score where nothing was evaluated. -/
def qualityScore (passed evaluated : ℤ) : Option (Option ℚ) :=
  if evaluated = 0 then some none else (scoreOf passed evaluated).map some

/-- `calculate_quality_score`; `none` is `decimal.InvalidOperation`. -/
def calculateQualityScore (results : List RuleValidationResult) : Option (Option ℚ) :=
  qualityScore (results.map RuleValidationResult.passed_count).sum
    (results.map RuleValidationResult.evaluated_count).sum

/-! ### The score is the ratio, rounded once -/

variable {p e : ℤ}

/-- Nothing is rounded in `Decimal(100) * Decimal(passed)`. -/
lemma roundSig_hundred (hp : 0 ≤ p) (hlt : p < 2 ^ 63) : Decimal.roundSig 40 (100 * p) = 100 * p := by
  have h : |(100 * p : ℚ)| < 10 ^ (21 : ℤ) := by
    have hp' : (0 : ℚ) ≤ p := by exact_mod_cast hp
    have hlt' : (p : ℚ) < 2 ^ 63 := by exact_mod_cast hlt
    rw [abs_of_nonneg (by linarith)]
    norm_num at hlt' ⊢
    linarith
  have hle : Decimal.lastDigit 40 (100 * p : ℚ) ≤ 21 - 40 := Decimal.lastDigit_le (by norm_num) h
  exact Decimal.roundSig_eq_self (n := 100 * p) (d := 0) (by push_cast; ring) (hle.trans (by norm_num))

/-- A positive multiple of `1 / (2 * e)` is greater than what rounding to 40 digits can add. -/
lemma lt_of_grid {a : ℚ} {n : ℤ} (he : 0 < e) (hlt : e < 2 ^ 63) (ha : 0 < a) (hn : a * (2 * e) = n) :
    (1 : ℚ) / 10 ^ 35 < a := by
  have he' : (0 : ℚ) < 2 * e := by exact_mod_cast (by omega : 0 < 2 * e)
  have hlt' : (e : ℚ) < 2 ^ 63 := by exact_mod_cast hlt
  have hn1 : 1 ≤ n := by
    have h : (0 : ℚ) < n := hn ▸ mul_pos ha he'
    exact_mod_cast h
  have hn1' : (1 : ℚ) ≤ a * (2 * e) := by
    rw [hn]
    exact_mod_cast hn1
  by_contra hle
  have h : a * (2 * e) ≤ 1 / 10 ^ 35 * (2 * e) := mul_le_mul_of_nonneg_right (not_lt.mp hle) he'.le
  norm_num at h hlt'
  linarith

/-- The quotient is rounded by far less than its distance from the next tie, unless it is a tie, which
is not rounded at all. -/
lemma floor_roundSig {q : ℚ} (hq : 0 ≤ q) (hle : q ≤ 100) (he : 0 < e) (hlt : e < 2 ^ 63) {n : ℤ}
    (hn : q * e = n) : ⌊100 * Decimal.roundSig 40 q + 1 / 2⌋ = ⌊100 * q + 1 / 2⌋ := by
  have habs : |q| < 10 ^ (3 : ℤ) := by
    rw [abs_of_nonneg hq]
    exact hle.trans_lt (by norm_num)
  have hdigit : Decimal.lastDigit 40 q ≤ -37 :=
    (Decimal.lastDigit_le (by norm_num) habs).trans (by norm_num)
  obtain ⟨k, hk⟩ : ∃ k, k = ⌊100 * q + 1 / 2⌋ := ⟨_, rfl⟩
  obtain ⟨hlo, hhi⟩ := Int.floor_eq_iff.mp hk.symm
  rcases hlo.eq_or_lt with htie | hlo
  · -- a tie has three decimals
    have hthree : q = ((5 * (2 * k - 1) : ℤ) : ℚ) * 10 ^ (-3 : ℤ) := by
      push_cast
      norm_num
      linarith
    rw [Decimal.roundSig_eq_self hthree (hdigit.trans (by norm_num))]
  · -- elsewhere both neighbouring ties are further away
    have hround : |Decimal.roundSig 40 q - q| ≤ 1 / 10 ^ 37 / 2 := by
      refine (Decimal.abs_roundSig_sub_le 40 q).trans ?_
      have hpow : (10 : ℚ) ^ Decimal.lastDigit 40 q ≤ 10 ^ (-37 : ℤ) :=
        zpow_le_zpow_right₀ (by norm_num) hdigit
      rw [show (10 : ℚ) ^ (-37 : ℤ) = 1 / 10 ^ 37 by norm_num] at hpow
      exact div_le_div_of_nonneg_right hpow (by norm_num)
    have hbelow := lt_of_grid (n := 200 * n + e - 2 * k * e) he hlt (sub_pos.mpr hlo)
      (by push_cast; rw [← hn]; ring)
    have habove := lt_of_grid (n := 2 * (k + 1) * e - 200 * n - e) he hlt (sub_pos.mpr hhi)
      (by push_cast; rw [← hn]; ring)
    obtain ⟨h₁, h₂⟩ := abs_le.mp hround
    norm_num at hbelow habove h₁ h₂
    rw [← hk, Int.floor_eq_iff]
    constructor <;> linarith

lemma scoreOf_eq (hp : 0 ≤ p) (hpe : p ≤ e) (he : 0 < e) (hlt : e < 2 ^ 63) :
    scoreOf p e = some ((⌊(10000 * p / e + 1 / 2 : ℚ)⌋ : ℚ) / 100) ∧
      (0 : ℚ) ≤ ⌊(10000 * p / e + 1 / 2 : ℚ)⌋ ∧ (⌊(10000 * p / e + 1 / 2 : ℚ)⌋ : ℚ) ≤ 10000 := by
  have he' : (0 : ℚ) < e := by exact_mod_cast he
  have hp' : (0 : ℚ) ≤ p := by exact_mod_cast hp
  have hpe' : (p : ℚ) ≤ e := by exact_mod_cast hpe
  have hq0 : (0 : ℚ) ≤ 100 * p / e := by positivity
  have hq1 : (100 * p / e : ℚ) ≤ 100 := by
    rw [div_le_iff₀ he']
    linarith
  have hfloor := floor_roundSig hq0 hq1 he hlt (n := 100 * p)
    (by push_cast; rw [div_mul_cancel₀ _ he'.ne'])
  have hscale : (100 * (100 * p / e) : ℚ) = 10000 * p / e := by ring
  rw [hscale] at hfloor
  have hk0 : (0 : ℤ) ≤ ⌊(10000 * p / e + 1 / 2 : ℚ)⌋ := Int.floor_nonneg.mpr (by rw [← hscale]; linarith)
  have hk1 : ⌊(10000 * p / e + 1 / 2 : ℚ)⌋ ≤ 10000 := by
    have h : (⌊(10000 * p / e + 1 / 2 : ℚ)⌋ : ℚ) < 10001 :=
      (Int.floor_le _).trans_lt (by rw [← hscale]; linarith)
    have h' : ⌊(10000 * p / e + 1 / 2 : ℚ)⌋ < 10001 := by exact_mod_cast h
    omega
  have hr0 := Decimal.roundSig_nonneg 40 hq0
  have hh : Decimal.hundredths (Decimal.roundSig 40 (100 * p / e : ℚ)) = ⌊(10000 * p / e + 1 / 2 : ℚ)⌋ := by
    rw [Decimal.hundredths, if_pos hr0, hfloor]
  refine ⟨?_, by exact_mod_cast hk0, by exact_mod_cast hk1⟩
  rw [scoreOf, roundSig_hundred hp (hpe.trans_lt hlt), Decimal.quantize, hh, if_pos]
  rw [abs_of_nonneg hk0]
  exact hk1.trans_lt (by norm_num)

/-- **The score is `100 * P / E` rounded half-up to hundredths.** -/
theorem calculateQualityScore_eq {results : List RuleValidationResult}
    (hcounts : ∀ r ∈ results, 0 ≤ r.passed_count ∧ r.passed_count ≤ r.evaluated_count)
    (hlt : (results.map RuleValidationResult.evaluated_count).sum < 2 ^ 63) :
    let passed := (results.map RuleValidationResult.passed_count).sum
    let evaluated := (results.map RuleValidationResult.evaluated_count).sum
    let score : ℚ := ⌊(10000 * passed / evaluated + 1 / 2 : ℚ)⌋ / 100
    (calculateQualityScore results = some none ↔ evaluated = 0) ∧
      (evaluated ≠ 0 → calculateQualityScore results = some (some score) ∧ 0 ≤ score ∧ score ≤ 100) := by
  intro passed evaluated score
  have hp : 0 ≤ passed := List.sum_nonneg fun n hn => by
    obtain ⟨r, hr, rfl⟩ := List.mem_map.mp hn
    exact (hcounts r hr).1
  have hpe : passed ≤ evaluated := List.sum_le_sum fun r hr => (hcounts r hr).2
  have hsome : evaluated ≠ 0 →
      calculateQualityScore results = some (some score) ∧ 0 ≤ score ∧ score ≤ 100 := by
    intro hne
    obtain ⟨hscore, h0, h1⟩ := scoreOf_eq hp hpe (lt_of_le_of_ne (hp.trans hpe) hne.symm) hlt
    refine ⟨?_, by positivity, ?_⟩
    · rw [calculateQualityScore, qualityScore, if_neg hne, hscore]
      rfl
    · rw [div_le_iff₀ (by norm_num)]
      linarith
  refine ⟨⟨fun h => ?_, fun h => ?_⟩, hsome⟩
  · by_contra hne
    rw [(hsome hne).1] at h
    cases h
  · rw [calculateQualityScore, qualityScore, if_pos h]

/-- The results of two rules: two cells out of three, and four out of four. -/
def sampleResults : List RuleValidationResult :=
  [⟨⟨1, py "a", .unique⟩, 3, 2, 1, 0, []⟩, ⟨⟨2, py "a", .required⟩, 4, 4, 0, 0, []⟩]

/-- Six cells out of seven. -/
theorem calculateQualityScore_eq_sample : ∃ score,
    calculateQualityScore sampleResults = some (some score) ∧ 0 ≤ score ∧ score ≤ 100 := by
  have h := @calculateQualityScore_eq sampleResults (by decide) (by decide)
  exact ⟨_, h.2 (by decide)⟩

end DataCheck.Analyses
