import Mathlib.Data.Int.Log
import Mathlib.Data.Rat.Floor
import Mathlib.Algebra.Order.Archimedean.Basic
import Mathlib.Tactic.Linarith
import Mathlib.Tactic.Positivity
import Mathlib.Tactic.Ring
import Mathlib.Tactic.FieldSimp
import Mathlib.Tactic.NormNum

/-!
# Rounded numbers

The two number formats of a Python program that are not exact: IEEE 754 binary64 (`float`), and
decimals of a given precision (`decimal`).  A finite number is its rational value, and every
operation is the exact one, rounded.
-/

namespace DataCheck.Lib

/-- The nearest integer; the even one of two that are equally near. -/
def roundHalfEven (q : ℚ) : ℤ :=
  if q - ⌊q⌋ < 1 / 2 then ⌊q⌋
  else if 1 / 2 < q - ⌊q⌋ then ⌊q⌋ + 1
  else if ⌊q⌋ % 2 = 0 then ⌊q⌋ else ⌊q⌋ + 1

@[simp] lemma roundHalfEven_intCast (n : ℤ) : roundHalfEven n = n := by
  simp [roundHalfEven]

lemma roundHalfEven_eq_floor_or (q : ℚ) :
    roundHalfEven q = ⌊q⌋ ∨ roundHalfEven q = ⌊q⌋ + 1 ∧ (⌊q⌋ : ℚ) ≠ q := by
  unfold roundHalfEven
  split_ifs with h1
  · exact Or.inl rfl
  · exact Or.inr ⟨rfl, fun h => by rw [h] at h1; norm_num at h1⟩
  · exact Or.inl rfl
  · exact Or.inr ⟨rfl, fun h => by rw [h] at h1; norm_num at h1⟩

/-- Rounding does not leave an interval with integer ends. -/
lemma roundHalfEven_le {q : ℚ} {n : ℤ} (h : q ≤ n) : roundHalfEven q ≤ n := by
  have hf : ⌊q⌋ ≤ n := by exact_mod_cast (Int.floor_le q).trans h
  rcases roundHalfEven_eq_floor_or q with hr | ⟨hr, hne⟩
  · rw [hr]; exact hf
  · rw [hr]
    rcases hf.lt_or_eq with hlt | heq
    · omega
    · refine absurd (le_antisymm (Int.floor_le q) ?_) hne
      rw [heq]; exact h

lemma le_roundHalfEven {q : ℚ} {n : ℤ} (h : (n : ℚ) ≤ q) : n ≤ roundHalfEven q := by
  have hf : n ≤ ⌊q⌋ := Int.le_floor.mpr h
  rcases roundHalfEven_eq_floor_or q with hr | ⟨hr, -⟩ <;> omega

/-- Rounding moves a number by half at most. -/
lemma abs_roundHalfEven_sub_le (q : ℚ) : |(roundHalfEven q : ℚ) - q| ≤ 1 / 2 := by
  have hlo := Int.floor_le q
  have hhi := Int.lt_floor_add_one q
  unfold roundHalfEven
  split_ifs <;> push_cast <;> rw [abs_le] <;> constructor <;> linarith

/-- Rounding reaches an even integer from half below it on. -/
lemma roundHalfEven_lt_iff {n : ℤ} (hn : n % 2 = 0) {q : ℚ} : roundHalfEven q < n ↔ q < n - 1 / 2 := by
  have hnear := abs_le.mp (abs_roundHalfEven_sub_le q)
  constructor
  · intro h
    by_contra hge
    have hfl : n - 1 ≤ ⌊q⌋ := Int.le_floor.mpr (by push_cast; linarith)
    unfold roundHalfEven at h
    have hlo : ⌊q⌋ = n - 1 → (⌊q⌋ : ℚ) = n - 1 := fun he => by rw [he]; push_cast; rfl
    split_ifs at h with h1 h2 h3
    · have he : ⌊q⌋ = n - 1 := by omega
      rw [hlo he] at h1
      linarith
    · omega
    · have he : ⌊q⌋ = n - 1 := by omega
      omega
    · omega
  · intro h
    have hlt : (roundHalfEven q : ℚ) < n := by linarith
    exact_mod_cast hlt

lemma lt_roundHalfEven_iff {n : ℤ} (hn : n % 2 = 0) {q : ℚ} : n < roundHalfEven q ↔ n + 1 / 2 < q := by
  have hnear := abs_le.mp (abs_roundHalfEven_sub_le q)
  constructor
  · intro h
    by_contra hge
    have hfl : ⌊q⌋ ≤ n := by
      have hlt : ⌊q⌋ < n + 1 := Int.floor_lt.mpr (by push_cast; linarith)
      omega
    unfold roundHalfEven at h
    have hlo : ⌊q⌋ = n → (⌊q⌋ : ℚ) = n := fun he => by rw [he]
    split_ifs at h with h1 h2 h3
    · omega
    · have he : ⌊q⌋ = n := by omega
      rw [hlo he] at h2
      linarith
    · omega
    · have he : ⌊q⌋ = n := by omega
      omega
  · intro h
    have hlt : (n : ℚ) < roundHalfEven q := by linarith
    exact_mod_cast hlt

/-! ### binary64 -/

/-- The finite values of a binary64 number. -/
def IsBinary64 (q : ℚ) : Prop :=
  ∃ m e : ℤ, |m| < 2 ^ 53 ∧ -1074 ≤ e ∧ e ≤ 971 ∧ q = m * 2 ^ e

/-- A finite `float`, by its value. -/
structure Binary64 where
  val : ℚ
  ok : IsBinary64 val

namespace Binary64

@[ext] lemma ext {x y : Binary64} (h : x.val = y.val) : x = y := by
  cases x; cases y; cases h; rfl

instance : DecidableEq Binary64 := fun x y =>
  decidable_of_iff (x.val = y.val) ⟨ext, fun h => h ▸ rfl⟩

/-- The exponent of the last place of the binary64 numbers near `q`. -/
def lastPlace (q : ℚ) : ℤ := max (Int.log 2 |q| - 52) (-1074)

/-- `q` rounded to the last place of its neighbourhood. -/
def nearest (q : ℚ) : ℚ := roundHalfEven (q / 2 ^ lastPlace q) * 2 ^ lastPlace q

lemma abs_lt_lastPlace (q : ℚ) : |q| < 2 ^ (53 + lastPlace q) := by
  have h1 : |q| < (2 : ℚ) ^ (Int.log 2 |q| + 1) := by
    exact_mod_cast Int.lt_zpow_succ_log_self (R := ℚ) (b := 2) (by norm_num) |q|
  refine h1.trans_le (zpow_le_zpow_right₀ (by norm_num) ?_)
  unfold lastPlace
  omega

lemma abs_div_lastPlace_le (q : ℚ) : |q / 2 ^ lastPlace q| ≤ 2 ^ 53 := by
  have hp : (0 : ℚ) < 2 ^ lastPlace q := zpow_pos (by norm_num) _
  rw [abs_div, abs_of_pos hp, div_le_iff₀ hp]
  have h := abs_lt_lastPlace q
  rw [zpow_add₀ (by norm_num)] at h
  exact_mod_cast h.le

lemma abs_round_le (q : ℚ) : |roundHalfEven (q / 2 ^ lastPlace q)| ≤ 2 ^ 53 := by
  have h := abs_le.mp (abs_div_lastPlace_le q)
  refine abs_le.mpr ⟨le_roundHalfEven ?_, roundHalfEven_le ?_⟩
  · push_cast; exact h.1
  · push_cast; exact h.2

/-- Above the smallest exponent the rounded number has all its 53 digits. -/
lemma le_abs_round {q : ℚ} (hq : q ≠ 0) (h : -1074 < lastPlace q) :
    2 ^ 52 ≤ |roundHalfEven (q / 2 ^ lastPlace q)| := by
  have hlog : Int.log 2 |q| = 52 + lastPlace q := by
    unfold lastPlace at h ⊢
    omega
  have h1 : (2 : ℚ) ^ (52 + lastPlace q) ≤ |q| := by
    rw [← hlog]
    exact_mod_cast Int.zpow_log_le_self (R := ℚ) (b := 2) (by norm_num) (abs_pos.mpr hq)
  have hp : (0 : ℚ) < 2 ^ lastPlace q := zpow_pos (by norm_num) _
  have h2 : (2 : ℚ) ^ 52 ≤ |q / 2 ^ lastPlace q| := by
    rw [abs_div, abs_of_pos hp, le_div_iff₀ hp]
    rw [zpow_add₀ (by norm_num)] at h1
    exact_mod_cast h1
  rcases le_abs.mp h2 with h3 | h3
  · exact (le_roundHalfEven (by push_cast; exact h3)).trans (le_abs_self _)
  · have h4 : roundHalfEven (q / 2 ^ lastPlace q) ≤ -2 ^ 52 :=
      roundHalfEven_le (by push_cast; linarith)
    exact (by omega : (2 : ℤ) ^ 52 ≤ -_).trans (neg_le_abs _)

/-- A number rounded to the last place is a binary64 number, unless it overflows. -/
theorem isBinary64_nearest {q : ℚ} (h : |nearest q| < 2 ^ 1024) : IsBinary64 (nearest q) := by
  unfold nearest at h ⊢
  have hm := abs_round_le q
  have hp : (0 : ℚ) < 2 ^ lastPlace q := zpow_pos (by norm_num) _
  have hlo : -1074 ≤ lastPlace q := le_max_right _ _
  -- a value of at least `2 ^ k` last places bounds the exponent
  have hexp : ∀ k : ℕ, 2 ^ k ≤ |roundHalfEven (q / 2 ^ lastPlace q)| → k + lastPlace q < 1024 := by
    intro k hk
    rw [abs_mul, abs_of_pos hp] at h
    have hk' : (2 : ℚ) ^ k ≤ |(roundHalfEven (q / 2 ^ lastPlace q) : ℚ)| := by exact_mod_cast hk
    have h2 : (2 : ℚ) ^ ((k : ℤ) + lastPlace q) < 2 ^ (1024 : ℤ) := by
      rw [zpow_add₀ (by norm_num), zpow_natCast]
      exact_mod_cast (mul_le_mul_of_nonneg_right hk' hp.le).trans_lt h
    exact (zpow_lt_zpow_iff_right₀ (by norm_num)).mp h2
  rcases hm.lt_or_eq with hlt | heq
  · refine ⟨_, lastPlace q, hlt, hlo, ?_, rfl⟩
    rcases eq_or_ne q 0 with rfl | hq
    · simp [lastPlace]
    · rcases hlo.lt_or_eq with hlo' | hlo'
      · have := hexp 52 (le_abs_round hq hlo')
        omega
      · omega
  · -- rounding up to the next power of two
    have he := hexp 53 heq.ge
    rcases (abs_eq (by norm_num)).mp heq with hr | hr
    · refine ⟨2 ^ 52, lastPlace q + 1, by norm_num, by omega, by omega, ?_⟩
      rw [hr, zpow_add_one₀ (by norm_num)]
      push_cast
      ring
    · refine ⟨-2 ^ 52, lastPlace q + 1, by norm_num, by omega, by omega, ?_⟩
      rw [hr, zpow_add_one₀ (by norm_num)]
      push_cast
      ring

/-- The `float` nearest to a number; `none` where it overflows. -/
def ofRat (q : ℚ) : Option Binary64 :=
  if h : |nearest q| < 2 ^ 1024 then some ⟨nearest q, isBinary64_nearest h⟩ else none

/-- Rounding leaves a binary64 number. -/
lemma nearest_eq_self {q : ℚ} (h : IsBinary64 q) : nearest q = q := by
  obtain ⟨m, e, hm, he, -, hq⟩ := h
  rcases eq_or_ne q 0 with h0 | h0
  · simp [nearest, roundHalfEven, h0]
  have hpe : (0 : ℚ) < 2 ^ e := zpow_pos (by norm_num) _
  have habs : |q| < 2 ^ (53 + e) := by
    rw [hq, abs_mul, abs_of_pos hpe, zpow_add₀ (by norm_num)]
    refine mul_lt_mul_of_pos_right ?_ hpe
    exact_mod_cast hm
  have hle : lastPlace q ≤ e := by
    have h1 : (2 : ℚ) ^ Int.log 2 |q| ≤ |q| := by
      exact_mod_cast Int.zpow_log_le_self (R := ℚ) (b := 2) (by norm_num) (abs_pos.mpr h0)
    have := (zpow_lt_zpow_iff_right₀ (by norm_num : (1 : ℚ) < 2)).mp (h1.trans_lt habs)
    exact max_le (by omega) he
  -- a whole number of last places
  have hp : (2 : ℚ) ^ lastPlace q ≠ 0 := (zpow_pos (by norm_num) _).ne'
  have hint : q / 2 ^ lastPlace q = ((m * 2 ^ (e - lastPlace q).toNat : ℤ) : ℚ) := by
    rw [div_eq_iff hp]
    push_cast
    rw [← zpow_natCast, Int.toNat_of_nonneg (by omega), mul_assoc, ← zpow_add₀ (by norm_num),
      sub_add_cancel, ← hq]
  unfold nearest
  rw [hint, roundHalfEven_intCast, ← hint, div_mul_cancel₀ _ hp]

lemma abs_lt_of_isBinary64 {q : ℚ} (h : IsBinary64 q) : |q| < 2 ^ 1024 := by
  obtain ⟨m, e, hm, -, he, hq⟩ := h
  have hpe : (0 : ℚ) < 2 ^ e := zpow_pos (by norm_num) _
  have hm' : |(m : ℚ)| < 2 ^ 53 := by exact_mod_cast hm
  have he' : (2 : ℚ) ^ e ≤ 2 ^ (971 : ℕ) := by
    rw [← zpow_natCast]
    exact zpow_le_zpow_right₀ (by norm_num) he
  rw [hq, abs_mul, abs_of_pos hpe]
  calc |(m : ℚ)| * 2 ^ e < 2 ^ 53 * 2 ^ e := mul_lt_mul_of_pos_right hm' hpe
    _ ≤ 2 ^ 53 * 2 ^ 971 := mul_le_mul_of_nonneg_left he' (by norm_num)
    _ = 2 ^ 1024 := by rw [← pow_add]

lemma abs_nearest (q : ℚ) : |nearest q| = |(roundHalfEven (q / 2 ^ lastPlace q) : ℚ)| * 2 ^ lastPlace q := by
  have hp : (0 : ℚ) < 2 ^ lastPlace q := zpow_pos (by norm_num) _
  rw [nearest, abs_mul, abs_of_pos hp]

/-- The powers around the largest number, as multiples of one. -/
lemma exists_unit : ∃ u : ℚ, 0 < u ∧ (2 : ℚ) ^ 970 = u ∧ (2 : ℚ) ^ 1024 = 2 ^ 54 * u ∧
    (2 : ℚ) ^ (970 : ℤ) = u ∧ (2 : ℚ) ^ (971 : ℤ) = 2 * u ∧ (2 : ℚ) ^ (972 : ℤ) = 2 ^ 2 * u ∧
      (2 : ℚ) ^ (1023 : ℤ) = 2 ^ 53 * u := by
  have hz : ∀ n : ℕ, (2 : ℚ) ^ (n : ℤ) = 2 ^ n := zpow_natCast 2
  refine ⟨2 ^ 970, pow_pos (by norm_num) _, rfl, pow_add 2 54 970, hz 970, ?_, ?_, ?_⟩
  · exact (hz 971).trans (pow_succ' 2 970)
  · exact (hz 972).trans (pow_add 2 2 970)
  · exact (hz 1023).trans (pow_add 2 53 970)

/-- **A number overflows from half a last place below `2 ^ 1024` on.** -/
theorem ofRat_isSome_iff {q : ℚ} : (ofRat q).isSome = true ↔ |q| < 2 ^ 1024 - 2 ^ 970 := by
  have hov : (ofRat q).isSome = true ↔ |nearest q| < 2 ^ 1024 := by
    unfold ofRat
    split <;> next h => simp [h]
  have hp : (0 : ℚ) < 2 ^ lastPlace q := zpow_pos (by norm_num) _
  obtain ⟨u, hu, hunit, h1024, h970, h971, h972, h1023⟩ := exists_unit
  rw [hov, abs_nearest, h1024, hunit]
  rcases lt_trichotomy (lastPlace q) 971 with hlt | heq | hgt
  · -- far below the largest number
    have hpow : (2 : ℚ) ^ lastPlace q ≤ 2 ^ (970 : ℤ) := zpow_le_zpow_right₀ (by norm_num) (by omega)
    have hq : |q| < 2 ^ (1023 : ℤ) :=
      (abs_lt_lastPlace q).trans_le (zpow_le_zpow_right₀ (by norm_num) (by omega))
    have hround : |(roundHalfEven (q / 2 ^ lastPlace q) : ℚ)| ≤ 2 ^ 53 := by exact_mod_cast abs_round_le q
    have hmul := mul_le_mul hround hpow hp.le (by positivity)
    rw [h970] at hmul
    rw [h1023] at hq
    exact iff_of_true (by linarith only [hu, hmul]) (by linarith only [hu, hq])
  · -- the largest last place
    have hu' : 0 < 2 * u := by positivity
    rw [heq, h971]
    have hround : |(roundHalfEven (q / (2 * u)) : ℚ)| * (2 * u) < 2 ^ 54 * u ↔
        |roundHalfEven (q / (2 * u))| < 2 ^ 53 := by
      rw [show (2 : ℚ) ^ 54 * u = 2 ^ 53 * (2 * u) by ring, mul_lt_mul_iff_left₀ hu']
      exact_mod_cast Iff.rfl
    rw [hround, abs_lt, roundHalfEven_lt_iff (by norm_num), lt_roundHalfEven_iff (by norm_num), abs_lt,
      div_lt_iff₀ hu', lt_div_iff₀ hu']
    push_cast
    constructor
    · rintro ⟨hlo, hhi⟩
      constructor <;> linarith only [hlo, hhi]
    · rintro ⟨hlo, hhi⟩
      constructor <;> linarith only [hlo, hhi]
  · -- a rounded number with 53 digits is too large
    have hne : q ≠ 0 := by
      rintro rfl
      simp [lastPlace] at hgt
    have hlog : Int.log 2 |q| = 52 + lastPlace q := by
      unfold lastPlace at hgt ⊢
      omega
    have hround : (2 : ℚ) ^ 52 ≤ |(roundHalfEven (q / 2 ^ lastPlace q) : ℚ)| := by
      exact_mod_cast le_abs_round hne (by omega)
    have hpow : (2 : ℚ) ^ (972 : ℤ) ≤ 2 ^ lastPlace q := zpow_le_zpow_right₀ (by norm_num) (by omega)
    have hq : (2 : ℚ) ^ (52 + (972 : ℤ)) ≤ |q| := by
      have h1 : (2 : ℚ) ^ Int.log 2 |q| ≤ |q| := by
        exact_mod_cast Int.zpow_log_le_self (R := ℚ) (b := 2) (by norm_num) (abs_pos.mpr hne)
      exact (zpow_le_zpow_right₀ (by norm_num) (by omega)).trans h1
    rw [zpow_add₀ (by norm_num), h972] at hq
    rw [h972] at hpow
    have hmul := mul_le_mul hround hpow (by positivity) (by positivity)
    exact iff_of_false (by linarith only [hu, hmul]) (by linarith only [hu, hq])

/-- **The float nearest to the value of a float is that float.** -/
@[simp] theorem ofRat_val (x : Binary64) : ofRat x.val = some x := by
  have hn := nearest_eq_self x.ok
  have hov : |nearest x.val| < 2 ^ 1024 := by
    rw [hn]
    exact abs_lt_of_isBinary64 x.ok
  rw [ofRat, dif_pos hov]
  exact congrArg some (ext hn)

end Binary64

/-! ### decimal -/

namespace Decimal

/-- `q` rounded half-even to `prec` significant digits. -/
def roundSig (prec : ℕ) (q : ℚ) : ℚ :=
  let e := Int.log 10 |q| - (prec - 1)
  roundHalfEven (q / 10 ^ e) * 10 ^ e

/-- The exponent of the last of `prec` digits. -/
def lastDigit (prec : ℕ) (q : ℚ) : ℤ := Int.log 10 |q| - (prec - 1)

/-- Rounding moves a number by half a last digit at most. -/
lemma abs_roundSig_sub_le (prec : ℕ) (q : ℚ) : |roundSig prec q - q| ≤ 10 ^ lastDigit prec q / 2 := by
  have hp : (0 : ℚ) < 10 ^ lastDigit prec q := zpow_pos (by norm_num) _
  have h := abs_roundHalfEven_sub_le (q / 10 ^ lastDigit prec q)
  have he : roundSig prec q - q =
      (roundHalfEven (q / 10 ^ lastDigit prec q) - q / 10 ^ lastDigit prec q) * 10 ^ lastDigit prec q := by
    rw [sub_mul, div_mul_cancel₀ _ hp.ne']
    rfl
  rw [he, abs_mul, abs_of_pos hp]
  linarith [mul_le_mul_of_nonneg_right h hp.le]

lemma roundSig_nonneg (prec : ℕ) {q : ℚ} (hq : 0 ≤ q) : 0 ≤ roundSig prec q := by
  have hp : (0 : ℚ) < 10 ^ lastDigit prec q := zpow_pos (by norm_num) _
  have h : 0 ≤ roundHalfEven (q / 10 ^ lastDigit prec q) :=
    le_roundHalfEven (by rw [Int.cast_zero]; exact div_nonneg hq hp.le)
  exact mul_nonneg (by exact_mod_cast h) hp.le

/-- A whole number of last digits, or of greater powers of ten, stays as it is. -/
lemma roundSig_eq_self {prec : ℕ} {q : ℚ} {n d : ℤ} (h : q = n * 10 ^ d) (hd : lastDigit prec q ≤ d) :
    roundSig prec q = q := by
  have hp : (0 : ℚ) < 10 ^ lastDigit prec q := zpow_pos (by norm_num) _
  have hq : q / 10 ^ lastDigit prec q = ((n * 10 ^ (d - lastDigit prec q).toNat : ℤ) : ℚ) := by
    rw [div_eq_iff hp.ne']
    push_cast
    rw [← zpow_natCast, Int.toNat_of_nonneg (by omega), mul_assoc, ← zpow_add₀ (by norm_num),
      sub_add_cancel, ← h]
  have he : roundSig prec q = roundHalfEven (q / 10 ^ lastDigit prec q) * 10 ^ lastDigit prec q := rfl
  rw [he, hq, roundHalfEven_intCast, ← hq, div_mul_cancel₀ _ hp.ne']

/-- The last digit of a number below a power of ten. -/
lemma lastDigit_le {prec : ℕ} {q : ℚ} {k : ℤ} (hk : 1 ≤ k) (h : |q| < 10 ^ k) :
    lastDigit prec q ≤ k - prec := by
  unfold lastDigit
  rcases eq_or_ne q 0 with rfl | hq
  · rw [abs_zero, Int.log_zero_right]
    omega
  · have hlog : Int.log 10 |q| < k :=
      (Int.lt_zpow_iff_log_lt (by norm_num) (abs_pos.mpr hq)).mp (by exact_mod_cast h)
    omega

/-- `q` as a whole number of hundredths, rounded half-up (away from zero on a tie). -/
def hundredths (q : ℚ) : ℤ := if 0 ≤ q then ⌊100 * q + 1 / 2⌋ else -⌊100 * -q + 1 / 2⌋

/-- `q.quantize(Decimal("0.01"), rounding=ROUND_HALF_UP)` in a context of `prec` digits; `none` is
`InvalidOperation`. -/
def quantize (prec : ℕ) (q : ℚ) : Option ℚ :=
  if |hundredths q| < 10 ^ prec then some (hundredths q / 100) else none

@[simp] lemma hundredths_div (n : ℤ) : hundredths ((n : ℚ) / 100) = n := by
  have hfloor : ∀ m : ℤ, ⌊100 * ((m : ℚ) / 100) + 1 / 2⌋ = m := by
    intro m
    rw [mul_div_cancel₀ _ (by norm_num), Int.floor_eq_iff]
    constructor <;> linarith
  unfold hundredths
  split
  · exact hfloor n
  · rw [← neg_div, ← Int.cast_neg, hfloor, neg_neg]

/-- What a column of two decimals gives back. -/
def twoDecimals (q : ℚ) : ℚ := hundredths q / 100

/-- **A quantized number is given back as it is.** -/
theorem twoDecimals_quantize {prec : ℕ} {q s : ℚ} (h : quantize prec q = some s) :
    twoDecimals s = s := by
  unfold quantize at h
  split at h
  · cases h
    rw [twoDecimals, hundredths_div]
  · cases h

end Decimal

end DataCheck.Lib
