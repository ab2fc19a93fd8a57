import DataCheck.Lib.Regex
import Mathlib.Data.Nat.Digits.Defs

/-!
# Integers in texts

`int()` of an ASCII text, and the digits of a number.
-/

namespace DataCheck.Lib.PyStr

def isDigit (c : PyChar) : Bool := 48 ≤ c.val && c.val ≤ 57

/-- The number that ASCII digits write. -/
def decimal (s : PyStr) : ℕ := Nat.ofDigits 10 (s.reverse.map fun c => c.val - 48)

/-- The whitespace that `int()` leaves out at both ends of an ASCII text. -/
def isBlank (c : PyChar) : Bool := (9 ≤ c.val && c.val ≤ 13) || c.val == 32

/-- Digits with single underscores between them. -/
def digitsPattern : Regex := .seq .digit (.star (.seq (.opt (.oneOf "_")) .digit))

/-- `sys.get_int_max_str_digits()` -/
def maxStrDigits : ℕ := 4300

/-- `int(s)` of an unsigned ASCII text without whitespace around it. -/
def natural (s : PyStr) : Option ℕ :=
  let digits := s.filter isDigit
  if digitsPattern.fullmatch s && digits.length ≤ maxStrDigits then some (decimal digits) else none

/-- `int(s)` of an ASCII text; `none` is a `ValueError`. -/
def int (s : PyStr) : Option ℤ :=
  match ((s.dropWhile isBlank).reverse.dropWhile isBlank).reverse with
  | [] => none
  | c :: s =>
    if c = 45 then (natural s).map fun n => -(n : ℤ)
    else if c = 43 then (natural s).map Nat.cast
    else (natural (c :: s)).map Nat.cast

example : int (py " +10_551\n") = some 10551 ∧ int (py "1__0") = none := by decide

/-! ### Writing a number -/

/-- The digits of `n`: `str(n)` in base 10, `"%x" % n` in base 16. -/
def inBase (b n : ℕ) : PyStr := (Nat.toDigits b n).map fun c => Fin.ofNat _ c.toNat

def isHexDigit (c : PyChar) : Bool :=
  (48 ≤ c.val && c.val ≤ 57) || (65 ≤ c.val && c.val ≤ 70) || (97 ≤ c.val && c.val ≤ 102)

def hexValue (c : PyChar) : ℕ :=
  if c.val ≤ 57 then c.val - 48 else if c.val ≤ 70 then c.val - 55 else c.val - 87

/-- The number that ASCII hexadecimal digits write. -/
def hexadecimal (s : PyStr) : ℕ := Nat.ofDigits 16 (s.reverse.map hexValue)

def digitChar (n : ℕ) : PyChar := Fin.ofNat _ (Nat.digitChar n).toNat

lemma inBase_eq {b : ℕ} (hb : 1 < b) (n : ℕ) :
    inBase b n = if n < b then [digitChar n] else inBase b (n / b) ++ [digitChar (n % b)] := by
  rw [inBase, Nat.toDigits_eq_if hb]
  split
  · rfl
  · rw [List.map_append]
    rfl

lemma mem_inBase {b : ℕ} (hb : 1 < b) {c : PyChar} :
    ∀ {n : ℕ}, c ∈ inBase b n → ∃ d < b, c = digitChar d := by
  intro n
  induction n using Nat.strongRecOn with
  | ind n ih =>
    intro h
    rw [inBase_eq hb] at h
    split at h
    · next hn => exact ⟨n, hn, List.mem_singleton.mp h⟩
    · next hn =>
      rcases List.mem_append.mp h with h | h
      · exact ih _ (Nat.div_lt_self (by omega) hb) h
      · exact ⟨n % b, Nat.mod_lt _ (by omega), List.mem_singleton.mp h⟩

lemma inBase_ne_nil {b n : ℕ} : inBase b n ≠ [] := by
  simp [inBase]

lemma length_inBase_le {b n k : ℕ} (hb : 1 < b) (hk : 0 < k) (h : n < b ^ k) : (inBase b n).length ≤ k := by
  rw [inBase, List.length_map]
  exact (Nat.length_toDigits_le_iff hb hk).mpr h

lemma ofDigits_inBase {b : ℕ} (hb : 1 < b) {value : PyChar → ℕ} (hv : ∀ d < b, value (digitChar d) = d) (n : ℕ) :
    Nat.ofDigits b ((inBase b n).reverse.map value) = n := by
  induction n using Nat.strongRecOn with
  | ind n ih =>
    rw [inBase_eq hb]
    split
    · next hn => simp [hv n hn]
    · rw [List.reverse_append, List.reverse_singleton, List.singleton_append, List.map_cons, Nat.ofDigits_cons,
        ih _ (Nat.div_lt_self (by omega) hb), hv _ (Nat.mod_lt _ (by omega)), Nat.mod_add_div]

lemma decimal_inBase (n : ℕ) : decimal (inBase 10 n) = n := ofDigits_inBase (by omega) (by decide) n

lemma hexadecimal_inBase (n : ℕ) : hexadecimal (inBase 16 n) = n := ofDigits_inBase (by omega) (by decide) n

lemma isDigit_inBase {n : ℕ} : ∀ c ∈ inBase 10 n, isDigit c = true := by
  intro c hc
  obtain ⟨d, hd, rfl⟩ := mem_inBase (by omega) hc
  clear hc
  revert d
  decide

/-- A hexadecimal digit of `inBase` is in lower case. -/
lemma isHexDigit_inBase {n : ℕ} : ∀ c ∈ inBase 16 n, isHexDigit c = true ∧ asciiLower c = c := by
  intro c hc
  obtain ⟨d, hd, rfl⟩ := mem_inBase (by omega) hc
  clear hc
  revert d
  decide

end DataCheck.Lib.PyStr
