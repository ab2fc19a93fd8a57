import DataCheck.Validation.Specification

/-!
# The grammars of types and ranges

Which texts pass a type rule or a range rule, and how the rules are ordered.
-/

namespace DataCheck.Validation

open Lib

/-! ### ASCII -/

def IsAscii (text : PyStr) : Prop := ∀ c ∈ text, c.val < 128

instance (text : PyStr) : Decidable (IsAscii text) := List.decidableBAll (fun c : PyChar => c.val < 128) text

/-- The characters outside ASCII whose full case folding is ASCII, with their foldings. -/
def asciiFoldings : List (PyChar × PyStr) :=
  [(0xDF, py "ss"), (0x17F, py "s"), (0x1E9E, py "ss"), (0x212A, py "k"), (0xFB00, py "ff"),
    (0xFB01, py "fi"), (0xFB02, py "fl"), (0xFB03, py "ffi"), (0xFB04, py "ffl"), (0xFB05, py "st"),
    (0xFB06, py "st")]

/-- `casefold` is full case folding, character by character: an ASCII letter becomes small, and a
folding of any other character that is ASCII is listed. -/
structure CaseFolds (U : Unicode) (fold : PyChar → PyStr) : Prop where
  casefold : ∀ s, U.casefold s = s.flatMap fold
  ascii : ∀ c, c.val < 128 → fold c = [PyStr.asciiLower c]
  listed : ∀ c, 128 ≤ c.val → IsAscii (fold c) → (c, fold c) ∈ asciiFoldings
  folds : ∀ p ∈ asciiFoldings, fold p.1 = p.2

/-- "falſe", whose fourth letter is U+017F. -/
def longSFalse : PyStr := [102, 97, 108, 0x17F, 101]

/-- The types that have an ASCII grammar. -/
structure StrictAscii (U : Unicode) (text : PyStr) : Prop where
  types : ∀ t, t ≠ ExpectedType.string → matchesType U text t = true → IsAscii text
  ranges : ∀ minimum maximum, validateRange minimum maximum = .ok () →
    withinRange text minimum maximum = true → IsAscii text
  boolean : matchesType U text .boolean = true ↔
    text.map PyStr.asciiLower = py "true" ∨ text.map PyStr.asciiLower = py "false"

variable {U : Unicode} {fold : PyChar → PyStr} {text : PyStr}

section Patterns

open Regex

lemma within_oneOf {s : String} (h : IsAscii (py s)) : Within (fun c => c.val < 128) (oneOf s) :=
  fun c hc => h c (by simpa using hc)

lemma within_digit : Within (fun c => c.val < 128) digit := by
  intro c hc
  simp only [Bool.and_eq_true, decide_eq_true_eq] at hc
  omega

lemma within_integerPattern : Within (fun c => c.val < 128) integerPattern :=
  ⟨⟨within_oneOf (by decide), trivial⟩, within_digit, within_digit⟩

lemma within_numberPattern : Within (fun c => c.val < 128) numberPattern := by
  have hd : Within (fun c => c.val < 128) (plus digit) := ⟨within_digit, within_digit⟩
  have hsign : Within (fun c => c.val < 128) (opt (oneOf "+-")) := ⟨within_oneOf (by decide), trivial⟩
  have hdot : Within (fun c => c.val < 128) (oneOf ".") := within_oneOf (by decide)
  exact ⟨hsign, ⟨⟨hd, ⟨hdot, hd⟩, trivial⟩, hdot, hd⟩, ⟨within_oneOf (by decide), hsign, hd⟩, trivial⟩

lemma within_datePattern : Within (fun c => c.val < 128) datePattern := by
  have hdash : Within (fun c => c.val < 128) (oneOf "-") := within_oneOf (by decide)
  exact ⟨within_times within_digit 4, hdash, within_times within_digit 2, hdash, within_times within_digit 2⟩

lemma within_datetimePattern : Within (fun c => c.val < 128) datetimePattern := by
  have hd := within_times within_digit 2
  have hcolon : Within (fun c => c.val < 128) (oneOf ":") := within_oneOf (by decide)
  exact ⟨within_datePattern, within_oneOf (by decide), hd, hcolon, hd, hcolon, hd,
    ⟨⟨within_oneOf (by decide), within_digit, within_upTo within_digit 5⟩, trivial⟩,
    within_oneOf (by decide), within_oneOf (by decide), hd, hcolon, hd⟩

end Patterns

lemma isAscii_of_parseNumber {x : Binary64} (h : parseNumber text = some x) : IsAscii text := by
  unfold parseNumber at h
  split at h
  · next hm => exact (Regex.fullmatch_iff.mp hm).within within_numberPattern
  · cases h

lemma isAscii_of_withinRange {minimum maximum : Option Number}
    (h : withinRange text minimum maximum = true) : IsAscii text := by
  unfold withinRange at h
  split at h
  · cases h
  · next hp => exact isAscii_of_parseNumber hp

/-! ### Booleans -/

lemma CaseFolds.eq_nil (hU : CaseFolds U fold) (h : text.flatMap fold = []) : text = [] := by
  cases text with
  | nil => rfl
  | cons c text =>
    -- nothing is folded to nothing
    have hc : fold c = [] := (List.append_eq_nil_iff.mp h).1
    by_cases hlt : c.val < 128
    · rw [hU.ascii c hlt] at hc
      cases hc
    · have hlisted := hU.listed c (Nat.not_lt.mp hlt) (by simp [hc, IsAscii])
      have hne : ∀ p ∈ asciiFoldings, p.2 ≠ [] := by decide
      exact absurd hc (hne _ hlisted)

/-- A text that is folded to an ASCII text, up to the place where a listed folding can begin. -/
lemma CaseFolds.split (hU : CaseFolds U fold) {t : PyStr} : ∀ {x text : PyStr}, IsAscii (x ++ t) →
    (∀ i < x.length, ∀ p ∈ asciiFoldings, ¬ p.2 <+: (x ++ t).drop i) → text.flatMap fold = x ++ t →
      ∃ a b, text = a ++ b ∧ IsAscii a ∧ a.map PyStr.asciiLower = x ∧ b.flatMap fold = t := by
  intro x
  induction x with
  | nil => exact fun {text} _ _ h => ⟨[], text, rfl, by simp [IsAscii], rfl, h⟩
  | cons y x ih =>
    intro text hascii hno h
    cases text with
    | nil => cases h
    | cons c text =>
      rw [List.flatMap_cons] at h
      by_cases hc : c.val < 128
      · rw [hU.ascii c hc] at h
        obtain ⟨rfl, htext⟩ := List.cons.inj h
        have hascii' : IsAscii (x ++ t) := fun c hc => hascii c (List.mem_cons_of_mem _ hc)
        obtain ⟨a, b, rfl, ha, rfl, hb⟩ := ih hascii' (fun i hi => hno (i + 1) (Nat.succ_lt_succ hi)) htext
        exact ⟨c :: a, b, rfl, List.forall_mem_cons.mpr ⟨hc, ha⟩, rfl, hb⟩
      · -- a listed folding would begin here
        have hpre : fold c <+: y :: (x ++ t) := ⟨_, h⟩
        have hfold : IsAscii (fold c) := fun d hd => hascii d (hpre.subset hd)
        exact absurd hpre (hno 0 (Nat.succ_pos _) _ (hU.listed c (Nat.not_lt.mp hc) hfold))

lemma CaseFolds.eq_true (hU : CaseFolds U fold) (h : text.flatMap fold = py "true") :
    IsAscii text ∧ text.map PyStr.asciiLower = py "true" := by
  obtain ⟨a, b, rfl, ha, hmap, hb⟩ := hU.split (x := py "true") (t := []) (by decide) (by decide) h
  obtain rfl : b = [] := hU.eq_nil hb
  simpa using ⟨ha, hmap⟩

lemma CaseFolds.eq_false (hU : CaseFolds U fold) (h : text.flatMap fold = py "false") :
    IsAscii text ∧ text.map PyStr.asciiLower = py "false" ∨ text.map PyStr.asciiLower = longSFalse := by
  -- only the fourth letter can be another one
  obtain ⟨a, b, rfl, ha, hmap, hb⟩ := hU.split (x := py "fal") (t := py "se") (by decide) (by decide) h
  cases b with
  | nil => cases hb
  | cons c b =>
    rw [List.flatMap_cons] at hb
    have hrest : ∀ {d}, [d] ++ b.flatMap fold = py "se" →
        d = 115 ∧ IsAscii b ∧ b.map PyStr.asciiLower = py "e" := by
      intro d hd
      obtain ⟨rfl, hrest⟩ := List.cons.inj hd
      obtain ⟨b, b', rfl, hascii, hmap, hb'⟩ := hU.split (x := py "e") (t := []) (by decide) (by decide) hrest
      obtain rfl : b' = [] := hU.eq_nil hb'
      exact ⟨rfl, by simpa using ⟨hascii, hmap⟩⟩
    by_cases hc : c.val < 128
    · rw [hU.ascii c hc] at hb
      obtain ⟨hd, hb, hmapb⟩ := hrest hb
      refine Or.inl ⟨List.forall_mem_append.mpr ⟨ha, List.forall_mem_cons.mpr ⟨hc, hb⟩⟩, ?_⟩
      rw [List.map_append, List.map_cons, hmap, hd, hmapb]
      rfl
    · have hpre : fold c <+: py "se" := ⟨_, hb⟩
      have hfold : IsAscii (fold c) := fun d hd => (by decide : IsAscii (py "se")) d (hpre.subset hd)
      have hlisted := hU.listed c (Nat.not_lt.mp hc) hfold
      have hs : ∀ p ∈ asciiFoldings, p.2 <+: py "se" → p.1 = 0x17F ∧ p.2 = [115] := by decide
      obtain ⟨rfl, hfolded⟩ := hs _ hlisted hpre
      rw [show fold 0x17F = [115] from hfolded] at hb
      obtain ⟨-, -, hmapb⟩ := hrest hb
      refine Or.inr ?_
      rw [List.map_append, List.map_cons, hmap, hmapb]
      rfl

lemma CaseFolds.fold_lower (hU : CaseFolds U fold) (c : PyChar) : fold (PyStr.asciiLower c) = fold c := by
  by_cases hc : c.val < 128
  · rw [hU.ascii c hc, hU.ascii _ (PyStr.asciiLower_lt hc), PyStr.asciiLower_asciiLower]
  · rw [PyStr.asciiLower, dif_neg (by omega)]

/-- **The texts of type boolean**: "true", "false" and "falſe", with ASCII letters in any case. -/
theorem matchesType_boolean (hU : CaseFolds U fold) : matchesType U text .boolean = true ↔
    text.map PyStr.asciiLower = py "true" ∨ text.map PyStr.asciiLower = py "false" ∨
      text.map PyStr.asciiLower = longSFalse := by
  have hlower : (text.map PyStr.asciiLower).flatMap fold = text.flatMap fold := by
    rw [List.flatMap_map]
    exact List.flatMap_congr fun c _ => hU.fold_lower c
  have hself : ∀ {s : PyStr}, IsAscii s → s.map PyStr.asciiLower = s → s.flatMap fold = s := by
    intro s hascii hs
    calc s.flatMap fold = s.flatMap fun c => [PyStr.asciiLower c] := List.flatMap_congr fun c hc => hU.ascii c (hascii c hc)
      _ = s.map PyStr.asciiLower := List.map_eq_flatMap.symm
      _ = s := hs
  simp only [matchesType, Bool.or_eq_true, beq_iff_eq, hU.casefold]
  constructor
  · rintro (h | h)
    · exact Or.inl (hU.eq_true h).2
    · exact Or.inr ((hU.eq_false h).imp_left And.right)
  · rw [← hlower]
    rintro (h | h | h)
    · rw [h]
      exact Or.inl (hself (by decide) (by decide))
    · rw [h]
      exact Or.inr (hself (by decide) (by decide))
    · have hs : fold 0x17F = [115] := hU.folds (0x17F, py "s") (by decide)
      rw [h]
      refine Or.inr ?_
      simp only [longSFalse, List.flatMap_cons, List.flatMap_nil, hs, hU.ascii 102 (by decide), hU.ascii 97 (by decide),
        hU.ascii 108 (by decide), hU.ascii 101 (by decide)]
      decide

/-- **Types and ranges have ASCII grammars, but for one text.**  What passes a type rule other than
`string`, or a range rule, is ASCII, and `boolean` means "true" or "false", exactly if the text is not
"falſe". -/
theorem strictAscii_iff (hU : CaseFolds U fold) : StrictAscii U text ↔ text.map PyStr.asciiLower ≠ longSFalse := by
  constructor
  · intro h hs
    -- "falſe" passes, but is not ASCII
    have hpass : matchesType U text .boolean = true := (matchesType_boolean hU).mpr (Or.inr (Or.inr hs))
    have hascii : ∀ c ∈ text.map PyStr.asciiLower, c.val < 128 :=
      List.forall_mem_map.mpr fun c hc => PyStr.asciiLower_lt (h.types .boolean (by simp) hpass c hc)
    rw [hs] at hascii
    exact absurd (hascii 0x17F (by decide)) (by decide)
  · intro hne
    have hbool : matchesType U text .boolean = true ↔
        text.map PyStr.asciiLower = py "true" ∨ text.map PyStr.asciiLower = py "false" := by
      rw [matchesType_boolean hU]
      simp only [hne, or_false]
    refine ⟨fun t ht hpass => ?_, fun _ _ _ => isAscii_of_withinRange, hbool⟩
    cases t with
    | string => exact absurd rfl ht
    | integer => exact (Regex.fullmatch_iff.mp hpass).within within_integerPattern
    | number =>
      obtain ⟨x, hx⟩ := Option.isSome_iff_exists.mp hpass
      exact isAscii_of_parseNumber hx
    | boolean =>
      simp only [matchesType, Bool.or_eq_true, beq_iff_eq, hU.casefold] at hpass
      rcases hpass with h | h
      · exact (hU.eq_true h).1
      · exact ((hU.eq_false h).resolve_right hne).1
    | date => exact (Regex.fullmatch_iff.mp (Bool.and_eq_true_iff.mp hpass).1).within within_datePattern
    | datetime => exact (Regex.fullmatch_iff.mp (Bool.and_eq_true_iff.mp hpass).1).within within_datetimePattern

namespace Sample

/-- Full case folding on ASCII and on the characters that it makes ASCII. -/
def foldChar (c : PyChar) : PyStr :=
  if c.val < 128 then [PyStr.asciiLower c]
  else ((asciiFoldings.find? fun p => p.1 = c).map Prod.snd).getD [c]

def folding : Unicode := { unicode with casefold := List.flatMap foldChar }

lemma caseFolds : CaseFolds folding foldChar where
  casefold _ := rfl
  ascii c hc := if_pos hc
  listed c hc hascii := by
    have hfold : foldChar c = ((asciiFoldings.find? fun p => p.1 = c).map Prod.snd).getD [c] :=
      if_neg (Nat.not_lt.mpr hc)
    rw [hfold] at hascii ⊢
    cases hl : asciiFoldings.find? fun p => p.1 = c with
    | none =>
      rw [hl] at hascii
      exact absurd (hascii c List.mem_cons_self) (Nat.not_lt.mpr hc)
    | some p =>
      obtain rfl : p.1 = c := by simpa using List.find?_some hl
      exact List.mem_of_find?_eq_some hl
  folds := by decide

end Sample

/-- A date. -/
theorem strictAscii_iff_sample : StrictAscii Sample.folding (py "2024-02-29") :=
  (strictAscii_iff Sample.caseFolds).mpr (by decide)

/-- "falſe" passes type boolean. -/
theorem not_strictAscii : CaseFolds Sample.folding Sample.foldChar ∧
    matchesType Sample.folding longSFalse .boolean = true ∧ ¬ StrictAscii Sample.folding longSFalse :=
  ⟨Sample.caseFolds, by decide, fun h => absurd (h.types .boolean (by decide) (by decide)) (by decide)⟩

/-! ### Integers and numbers -/

section Numerals

open Regex

variable {v digits : PyStr}

/-- `[0-9]`, as a test. -/
abbrev isDigit (c : PyChar) : Bool := 48 ≤ c.val && c.val ≤ 57

/-- The texts of type integer: a sign or none, and digits. -/
lemma integer_iff : integerPattern.fullmatch v = true ↔ ∃ sign digits, v = sign ++ digits ∧
    (sign = [] ∨ sign = py "+" ∨ sign = py "-") ∧ digits ≠ [] ∧ ∀ c ∈ digits, isDigit c = true := by
  rw [fullmatch_iff, integerPattern, matches_seq]
  constructor
  · rintro ⟨sign, digits, rfl, hsign, hdigits⟩
    refine ⟨sign, digits, rfl, ?_, matches_plus_cls.mp hdigits⟩
    rcases matches_opt.mp hsign with h | h
    · obtain ⟨c, rfl, hc⟩ := matches_cls.mp h
      have hmem : c = 43 ∨ c = 45 := by simpa [py] using hc
      rcases hmem with rfl | rfl
      · exact Or.inr (Or.inl rfl)
      · exact Or.inr (Or.inr rfl)
    · exact Or.inl h
  · rintro ⟨sign, digits, rfl, hsign, hne, hall⟩
    refine ⟨sign, digits, rfl, matches_opt.mpr ?_, matches_plus_cls.mpr ⟨hne, hall⟩⟩
    rcases hsign with rfl | rfl | rfl
    · exact Or.inr rfl
    · exact Or.inl (.cls (by decide))
    · exact Or.inl (.cls (by decide))

lemma number_of_integer (h : integerPattern.fullmatch v = true) : numberPattern.fullmatch v = true := by
  rw [fullmatch_iff, integerPattern, matches_seq] at h
  obtain ⟨sign, digits, rfl, hsign, hdigits⟩ := h
  have hwhole : Matches (seq (plus digit) (opt (seq (oneOf ".") (plus digit)))) (digits ++ []) :=
    .seq hdigits (matches_opt.mpr (Or.inr rfl))
  have hexp : Matches (opt (seq (oneOf "eE") (seq (opt (oneOf "+-")) (plus digit)))) [] :=
    matches_opt.mpr (Or.inr rfl)
  rw [List.append_nil] at hwhole
  rw [fullmatch_iff, numberPattern, ← List.append_nil digits]
  exact .seq hsign (.seq (.left hwhole) hexp)

/-- The integer that a text of type integer writes. -/
def integerValue (v : PyStr) : ℤ := (splitSign v).1 * digitsValue (splitSign v).2

lemma splitSign_integer (h : integerPattern.fullmatch v = true) : ∀ c ∈ (splitSign v).2, isDigit c = true := by
  obtain ⟨sign, digits, rfl, hsign, hne, hall⟩ := integer_iff.mp h
  rcases hsign with rfl | rfl | rfl
  · -- a digit is no sign
    obtain ⟨c, digits, rfl⟩ := List.exists_cons_of_ne_nil hne
    have hc : isDigit c = true := hall c List.mem_cons_self
    simp only [isDigit, Bool.and_eq_true, decide_eq_true_eq] at hc
    have hminus : c.val ≠ '-'.toNat := by
      rw [show '-'.toNat = 45 from rfl]
      omega
    have hplus : c.val ≠ '+'.toNat := by
      rw [show '+'.toNat = 43 from rfl]
      omega
    rw [List.nil_append, splitSign, if_neg hminus, if_neg hplus]
    exact hall
  · exact hall
  · exact hall

lemma numeralValue_integer (h : integerPattern.fullmatch v = true) : numeralValue v = integerValue v := by
  have hdigit := splitSign_integer h
  obtain ⟨sign, digits, hs⟩ : ∃ sign digits, splitSign v = (sign, digits) := ⟨_, _, rfl⟩
  rw [hs] at hdigit
  -- among digits there is neither an exponent nor a point
  have hexp : ∀ c ∈ digits, (!(c.val == 'e'.toNat || c.val == 'E'.toNat)) = true := fun c hc => by
    have := hdigit c hc
    simp only [isDigit, Bool.and_eq_true, decide_eq_true_eq] at this
    simp only [show 'e'.toNat = 101 from rfl, show 'E'.toNat = 69 from rfl, Bool.not_eq_true', Bool.or_eq_false_iff,
      beq_eq_false_iff_ne]
    omega
  have hdot : ∀ c ∈ digits, (!(c.val == '.'.toNat)) = true := fun c hc => by
    have := hdigit c hc
    simp only [isDigit, Bool.and_eq_true, decide_eq_true_eq] at this
    simp only [show '.'.toNat = 46 from rfl, Bool.not_eq_true', beq_eq_false_iff_ne]
    omega
  have hmantissa := List.takeWhile_eq_self_iff.mpr hexp
  have hexponent := List.dropWhile_eq_nil_iff.mpr hexp
  have hwhole := List.takeWhile_eq_self_iff.mpr hdot
  have hfraction := List.dropWhile_eq_nil_iff.mpr hdot
  have hnone : splitSign [] = (1, []) := rfl
  simp only [numeralValue, integerValue, hs, hmantissa, hexponent, hwhole, hfraction, List.drop_nil, hnone,
    List.append_nil, List.length_nil, show digitsValue [] = 0 from rfl, Nat.cast_zero, mul_zero, sub_zero, zpow_zero,
    mul_one, Int.cast_mul, Int.cast_natCast]

/-- **What passes type integer passes type number unless it overflows.** -/
theorem number_of_integer_iff (h : matchesType U v .integer = true) :
    matchesType U v .number = true ↔ |integerValue v| < 2 ^ 1024 - 2 ^ 970 := by
  have hv : parseNumber v = Binary64.ofRat (integerValue v) := by
    rw [parseNumber, if_pos (number_of_integer h), numeralValue_integer h]
  rw [matchesType, hv, Binary64.ofRat_isSome_iff]
  exact_mod_cast Iff.rfl

end Numerals

/-! ### Checks of the text, compared on a column -/

/-- The second check lets pass what the first lets pass, on the cells of a column. -/
def Check.Weaker (U : Unicode) (found : PyStr → PyStr → Bool) (values : List Cell) (strong weak : Check) : Prop :=
  ∀ text, some text ∈ values → strong.holds U found text = true → weak.holds U found text = true

variable {found : PyStr → PyStr → Bool} {values : List Cell} {strong weak : RuleSpec}

/-- Two checks of the text look at the same cells. -/
lemma RuleSpec.expected_rows (hs : strong.check.Textual) (hw : weak.check.Textual) :
    (weak.expected U found values).evaluated_count = (strong.expected U found values).evaluated_count ∧
      (weak.expected U found values).skipped_count = (strong.expected U found values).skipped_count := by
  have hskip : weak.check.skips = strong.check.skips := funext fun value => (hw.1 value).trans (hs.1 value).symm
  simp only [expected, hskip, and_self]

lemma Check.Textual.ne_unique {check : Check} (h : check.Textual) : check ≠ .unique := by
  rintro rfl
  have hdup := h.2 Sample.unicode Sample.literal [some (py "a")] (some (py "a"))
  exact absurd hdup (by decide)

/-- A weaker check of the text has at most as many violations. -/
lemma RuleSpec.expected_violations_le (hs : strong.check.Textual) (hw : weak.check.Textual)
    (h : Check.Weaker U found values strong.check weak.check) :
    (weak.expected U found values).violation_count ≤ (strong.expected U found values).violation_count := by
  have hlen : (weak.check.violations U found values).length ≤ (strong.check.violations U found values).length := by
    rw [← Check.violationsBelow_nil, ← Check.violationsBelow_nil, Check.length_violationsBelow hw.ne_unique,
      Check.length_violationsBelow hs.ne_unique]
    refine List.countP_mono_left fun value hvalue hv => ?_
    rw [hw.2, Bool.and_eq_true] at hv
    rw [hs.2, Bool.and_eq_true]
    refine ⟨hv.1, ?_⟩
    cases value with
    | none => exact hv.2
    | some text =>
      simp only [Option.any_some, Bool.not_eq_true'] at hv ⊢
      by_contra hpass
      rw [h text hvalue (by simpa using hpass)] at hv
      exact absurd hv.2 (by decide)
  simp only [expected]
  exact_mod_cast hlen

lemma Check.textual_type (t : ExpectedType) : (Check.type t).Textual := ⟨fun _ => rfl, fun _ _ _ _ => rfl⟩

lemma Check.textual_range (minimum maximum : Option Number) : (Check.range minimum maximum).Textual :=
  ⟨fun _ => rfl, fun _ _ _ _ => rfl⟩

/-- **Integers are numbers unless they overflow.**  A text of type integer passes type number exactly if
its value is below `2 ^ 1024 - 2 ^ 970`.  On a column, a rule of type number evaluates and skips as many
cells as one of type integer, and where no text of type integer overflows it has at most as many
violations. -/
theorem integers_are_numbers (U : Unicode) (P : Polars) :
    (∀ v, matchesType U v .integer = true →
      (matchesType U v .number = true ↔ |integerValue v| < 2 ^ 1024 - 2 ^ 970)) ∧
    ∀ (values : List Cell) (integer number : RuleSpec), integer.check = .type .integer →
      number.check = .type .number → ∃ r r', evaluateRule U P values integer = .ok r ∧
        evaluateRule U P values number = .ok r' ∧ r'.evaluated_count = r.evaluated_count ∧
        r'.skipped_count = r.skipped_count ∧
        ((∀ v, some v ∈ values → matchesType U v .integer = true → |integerValue v| < 2 ^ 1024 - 2 ^ 970) →
          r'.violation_count ≤ r.violation_count) := by
  refine ⟨fun v => number_of_integer_iff, fun values integer number hi hn => ?_⟩
  have hs : integer.check.Textual := hi ▸ Check.textual_type .integer
  have hw : number.check.Textual := hn ▸ Check.textual_type .number
  obtain ⟨heval, hskip⟩ := @RuleSpec.expected_rows U Sample.literal values _ _ hs hw
  refine ⟨_, _, @evaluateRule_type U Sample.literal P _ _ hi values, evaluateRule_type hn values, heval, hskip,
    fun hsmall => RuleSpec.expected_violations_le hs hw fun text htext hpass => ?_⟩
  rw [hi] at hpass
  rw [hn]
  have hinteger : matchesType U text .integer = true := hpass
  exact (number_of_integer_iff hinteger).mpr (hsmall text htext hinteger)

namespace Sample

def anyNumber : RuleSpec := ⟨3, py "c", .type .number⟩

def anyInteger : RuleSpec := ⟨4, py "c", .type .integer⟩

/-- Three quantities, one of which is no integer. -/
def quantities : List Cell := [some (py "7"), none, some (py "1.5"), some (py "-12")]

end Sample

/-- An integer is a number, and no more quantities violate the rule for numbers. -/
theorem integers_are_numbers_sample : matchesType Sample.unicode (py "-12") .number = true ∧
    ∃ r r', evaluateRule Sample.unicode Sample.polars Sample.quantities Sample.anyInteger = .ok r ∧
      evaluateRule Sample.unicode Sample.polars Sample.quantities Sample.anyNumber = .ok r' ∧
      r'.violation_count ≤ r.violation_count := by
  obtain ⟨htext, hcolumn⟩ := integers_are_numbers Sample.unicode Sample.polars
  obtain ⟨r, r', hr, hr', -, -, hle⟩ := hcolumn Sample.quantities Sample.anyInteger Sample.anyNumber rfl rfl
  refine ⟨(htext (py "-12") (by decide +kernel)).mpr (by decide +kernel), r, r', hr, hr', hle fun v hv _ => ?_⟩
  simp only [Sample.quantities, List.mem_cons, Option.some.injEq, reduceCtorEq, List.not_mem_nil, or_false, false_or] at hv
  rcases hv with rfl | rfl | rfl <;> decide +kernel

def hugeNumeral : PyStr := 49 :: List.replicate 309 48

/-- A one and 309 zeros are an integer, but no number. -/
theorem not_integers_are_numbers : matchesType Sample.unicode hugeNumeral .integer = true ∧
    matchesType Sample.unicode hugeNumeral .number = false := by
  decide +kernel

/-! ### Ranges -/

/-- The values of a range; an absent boundary bounds nothing. -/
def InRange (minimum maximum : Option Number) (x : ℚ) : Prop :=
  (∀ a ∈ minimum, a.value ≤ x) ∧ ∀ b ∈ maximum, x ≤ b.value

/-- **A number passes a range rule exactly if it lies in the range.** -/
theorem withinRange_iff {minimum maximum : Option Number} {x : Binary64} (h : parseNumber text = some x) :
    withinRange text minimum maximum = true ↔ InRange minimum maximum x.val := by
  rw [withinRange, h, InRange]
  cases minimum <;> cases maximum <;> simp [not_lt]

/-- A text that passes a range rule is a number. -/
lemma number_of_withinRange {minimum maximum : Option Number} (h : withinRange text minimum maximum = true) :
    ∃ x, parseNumber text = some x := by
  unfold withinRange at h
  split at h
  · cases h
  · next x hx => exact ⟨x, hx⟩

/-- A range rule with accepted boundaries. -/
structure RuleSpec.IsRange (rule : RuleSpec) (minimum maximum : Option Number) : Prop where
  check : rule.check = .range minimum maximum
  accepted : validateRange minimum maximum = .ok ()

/-- **Range rules are monotone.**  A number passes a range rule exactly if it lies in the range.  Where a
range lies in another, what passes its rule passes the rule of the other and is a number; on a column the
three rules evaluate and skip as many cells, and the weaker the rule, the fewer its violations. -/
theorem range_rules_monotone (U : Unicode) (P : Polars) {narrow wide number : RuleSpec}
    {min₁ max₁ min₂ max₂ : Option Number} (hnarrow : narrow.IsRange min₁ max₁) (hwide : wide.IsRange min₂ max₂)
    (hnumber : number.check = .type .number) (hnested : ∀ x, InRange min₁ max₁ x → InRange min₂ max₂ x) :
    (∀ text x, parseNumber text = some x →
      (withinRange text min₁ max₁ = true ↔ InRange min₁ max₁ x.val)) ∧
    (∀ text, withinRange text min₁ max₁ = true →
      withinRange text min₂ max₂ = true ∧ matchesType U text .number = true) ∧
    ∀ values : List Cell, ∃ r₁ r₂ r₃, evaluateRule U P values narrow = .ok r₁ ∧
      evaluateRule U P values wide = .ok r₂ ∧ evaluateRule U P values number = .ok r₃ ∧
      r₂.evaluated_count = r₁.evaluated_count ∧ r₃.evaluated_count = r₁.evaluated_count ∧
      r₂.skipped_count = r₁.skipped_count ∧ r₃.skipped_count = r₁.skipped_count ∧
      r₃.violation_count ≤ r₂.violation_count ∧ r₂.violation_count ≤ r₁.violation_count := by
  have hpass : ∀ text, withinRange text min₁ max₁ = true → withinRange text min₂ max₂ = true := by
    intro text h
    obtain ⟨x, hx⟩ := number_of_withinRange h
    exact (withinRange_iff hx).mpr (hnested x.val ((withinRange_iff hx).mp h))
  have hnum : ∀ {minimum maximum : Option Number} text, withinRange text minimum maximum = true →
      matchesType U text .number = true := by
    intro _ _ text h
    obtain ⟨x, hx⟩ := number_of_withinRange h
    rw [matchesType, hx]
    rfl
  refine ⟨fun text x hx => withinRange_iff hx, fun text h => ⟨hpass text h, hnum text h⟩, fun values => ?_⟩
  have h₁ : narrow.check.Textual := hnarrow.check ▸ Check.textual_range _ _
  have h₂ : wide.check.Textual := hwide.check ▸ Check.textual_range _ _
  have h₃ : number.check.Textual := hnumber ▸ Check.textual_type _
  obtain ⟨heval₂, hskip₂⟩ := @RuleSpec.expected_rows U Sample.literal values _ _ h₁ h₂
  obtain ⟨heval₃, hskip₃⟩ := @RuleSpec.expected_rows U Sample.literal values _ _ h₁ h₃
  refine ⟨_, _, _, evaluateRule_range hnarrow.check values, evaluateRule_range hwide.check values,
    evaluateRule_type hnumber values, heval₂, heval₃, hskip₂, hskip₃, ?_, ?_⟩
  · refine RuleSpec.expected_violations_le h₂ h₃ fun text _ h => ?_
    rw [hwide.check] at h
    rw [hnumber]
    exact hnum text h
  · refine RuleSpec.expected_violations_le h₁ h₂ fun text _ h => ?_
    rw [hnarrow.check] at h
    rw [hwide.check]
    exact hpass text h

namespace Sample

def upToTen : RuleSpec := ⟨1, py "c", .range (some (.int 0)) (some (.int 10))⟩

def fromZero : RuleSpec := ⟨2, py "c", .range (some (.int 0)) none⟩

def amounts : List Cell := [some (py "5"), some (py "-1"), some (py "x"), none, some (py "2e1")]

lemma isRange_upToTen : upToTen.IsRange (some (.int 0)) (some (.int 10)) := ⟨rfl, by decide +kernel⟩

lemma isRange_fromZero : fromZero.IsRange (some (.int 0)) none := ⟨rfl, by decide +kernel⟩

end Sample

/-- The numbers from 0 to 10 are among those from 0 on. -/
theorem range_rules_monotone_sample : ∃ r₁ r₂ r₃,
    evaluateRule Sample.unicode Sample.polars Sample.amounts Sample.upToTen = .ok r₁ ∧
    evaluateRule Sample.unicode Sample.polars Sample.amounts Sample.fromZero = .ok r₂ ∧
    evaluateRule Sample.unicode Sample.polars Sample.amounts Sample.anyNumber = .ok r₃ ∧
    r₃.violation_count ≤ r₂.violation_count ∧ r₂.violation_count ≤ r₁.violation_count := by
  obtain ⟨r₁, r₂, r₃, h₁, h₂, h₃, -, -, -, -, hle⟩ :=
    (range_rules_monotone Sample.unicode Sample.polars Sample.isRange_upToTen Sample.isRange_fromZero
      (show Sample.anyNumber.check = .type .number from rfl) fun x hx => ⟨hx.1, by simp⟩).2.2 Sample.amounts
  exact ⟨r₁, r₂, r₃, h₁, h₂, h₃, hle⟩

end DataCheck.Validation
