import Mathlib.Data.List.Basic
import Mathlib.Data.List.TakeWhile

/-!
# Python text

A Python `str` is a list of code points, lone surrogates included; a `bytes` is a list of octets.
Only the string operations a program needs are here, each as the language reference gives it.
-/

namespace DataCheck.Lib

/-- A code point of a `str`: any of U+0000 .. U+10FFFF, surrogates included. -/
abbrev PyChar := Fin 0x110000

/-- A Python `str`. -/
abbrev PyStr := List PyChar

-- Found by search too, at every literal and every comparison; a constant keeps the definitions free of the search.
instance neZero_codePoints : @NeZero ℕ Zero.ofOfNat0 0x110000 := ⟨by decide⟩
instance PyChar.lawfulBEq : LawfulBEq PyChar := inferInstance
instance PyStr.lawfulBEq : LawfulBEq PyStr := inferInstance
instance PyStr.lawfulBEq_option : LawfulBEq (Option PyStr) := inferInstance

/-- A Python `bytes`. -/
abbrev Bytes := List UInt8

lemma toNat_lt_codePoints (x : UInt8) : x.toNat < 0x110000 := by
  have := x.toNat_lt
  omega

/-- The `str` of a literal. -/
def py (s : String) : PyStr :=
  s.toList.map fun c => ⟨c.toNat, by
    have h : c.val.toNat < 0xD800 ∨ 0xDFFF < c.val.toNat ∧ c.val.toNat < 0x110000 := c.valid
    show c.val.toNat < _
    omega⟩

/-- What can be decided of the characters of a literal. -/
lemma forall_mem_py {s : String} {q : PyChar → Prop} [DecidablePred q] (h : ((py s).all fun c => decide (q c)) = true) :
    ∀ c ∈ py s, q c :=
  fun c hc => of_decide_eq_true (List.all_eq_true.mp h c hc)

namespace PyStr

/-- `str.isspace` of one character: the whitespace of Unicode, and the separators U+001C .. U+001F. -/
def isSpace (c : PyChar) : Bool :=
  (9 ≤ c.val && c.val ≤ 13) || (28 ≤ c.val && c.val ≤ 32) || c.val == 0x85 || c.val == 0xA0 ||
    c.val == 0x1680 || (0x2000 ≤ c.val && c.val ≤ 0x200A) || c.val == 0x2028 || c.val == 0x2029 ||
    c.val == 0x202F || c.val == 0x205F || c.val == 0x3000

/-- `str.strip()`. -/
def strip (s : PyStr) : PyStr := ((s.dropWhile isSpace).reverse.dropWhile isSpace).reverse

/-- `str.lower()` on one ASCII character; every other character is left as it is. -/
def asciiLower (c : PyChar) : PyChar :=
  if h : 65 ≤ c.val ∧ c.val ≤ 90 then ⟨c.val + 32, by omega⟩ else c

lemma asciiLower_lt {c : PyChar} (hc : c.val < 128) : (asciiLower c).val < 128 := by
  unfold asciiLower
  split
  · show c.val + 32 < 128
    omega
  · exact hc

lemma asciiLower_asciiLower (c : PyChar) : asciiLower (asciiLower c) = asciiLower c := by
  unfold asciiLower
  split
  · rw [dif_neg]
    show ¬ (65 ≤ c.val + 32 ∧ c.val + 32 ≤ 90)
    omega
  · rfl

lemma lower_lower (s : PyStr) : (s.map asciiLower).map asciiLower = s.map asciiLower := by
  simp [asciiLower_asciiLower]

lemma asciiLower_eq_iff {c d : PyChar} (hd : d.val < 65 ∨ 90 < d.val ∧ d.val < 97 ∨ 122 < d.val) :
    asciiLower c = d ↔ c = d := by
  unfold asciiLower
  split
  · simp only [Fin.ext_iff]
    constructor
    · intro h
      have h : c.val + 32 = d.val := h
      omega
    · omega
  · rfl

/-- `s.split(sep)` for a one-character separator. -/
def split (sep : PyChar) : PyStr → List PyStr
  | [] => [[]]
  | c :: s => if c = sep then [] :: split sep s else
    match split sep s with
    | [] => [[c]]
    | w :: ws => (c :: w) :: ws

lemma split_ne_nil {sep : PyChar} {s : PyStr} : split sep s ≠ [] := by
  cases s with
  | nil => simp [split]
  | cons c s =>
    rw [split]
    split
    · simp
    · split <;> simp

lemma split_eq_singleton {sep : PyChar} {s a : PyStr} (h : split sep s = [a]) : s = a := by
  induction s generalizing a with
  | nil => simpa [split] using h
  | cons c s ih =>
    rw [split] at h
    split at h
    · exact absurd (List.cons.inj h).2 split_ne_nil
    · split at h
      · next hs => exact absurd hs split_ne_nil
      · next w ws hs =>
        obtain ⟨rfl, rfl⟩ := List.cons.inj h
        rw [ih hs]

/-- Two pieces are what is before and after the separator. -/
lemma split_eq_pair {sep : PyChar} {s a b : PyStr} (h : split sep s = [a, b]) : s = a ++ sep :: b := by
  induction s generalizing a with
  | nil => simp [split] at h
  | cons c s ih =>
    rw [split] at h
    split at h
    · next hc =>
      obtain ⟨rfl, hs⟩ := List.cons.inj h
      rw [split_eq_singleton hs, hc]
      rfl
    · split at h
      · simp at h
      · next w ws hs =>
        obtain ⟨rfl, rfl⟩ := List.cons.inj h
        rw [ih hs]
        rfl

variable {sep : PyChar} {s a b : PyStr}

lemma split_of_not_mem (h : sep ∉ s) : split sep s = [s] := by
  induction s with
  | nil => rfl
  | cons c s ih =>
    obtain ⟨hc, hs⟩ := List.ne_and_not_mem_of_not_mem_cons h
    rw [split, if_neg (Ne.symm hc), ih hs]

lemma split_append (h : sep ∉ a) : split sep (a ++ sep :: b) = a :: split sep b := by
  induction a with
  | nil => simp [split]
  | cons c a ih =>
    obtain ⟨hc, ha⟩ := List.ne_and_not_mem_of_not_mem_cons h
    rw [List.cons_append, split, if_neg (Ne.symm hc), ih ha]

/-- The pieces of a text whose characters are changed, but not the separators. -/
lemma split_map {f : PyChar → PyChar} (hf : ∀ c, f c = sep ↔ c = sep) :
    split sep (s.map f) = (split sep s).map (List.map f) := by
  induction s with
  | nil => rfl
  | cons c s ih =>
    simp only [List.map_cons, split, hf, ih]
    split
    · rfl
    · cases hs : split sep s with
      | nil => rfl
      | cons w ws => rfl

/-- What holds of the separator and of every character of every piece holds of every character. -/
lemma forall_mem_of_split {q : PyChar → Prop} (hsep : q sep) :
    ∀ {s : PyStr}, (∀ w ∈ split sep s, ∀ c ∈ w, q c) → ∀ c ∈ s, q c
  | [], _ => by simp
  | c :: s, h => by
    rw [split] at h
    split at h
    · next hc =>
      exact List.forall_mem_cons.mpr ⟨hc ▸ hsep, forall_mem_of_split hsep fun w hw => h w (List.mem_cons_of_mem _ hw)⟩
    · split at h
      · next hs => exact absurd hs split_ne_nil
      · next v ws hs =>
        have hv := h _ List.mem_cons_self
        refine List.forall_mem_cons.mpr ⟨hv c List.mem_cons_self, forall_mem_of_split hsep fun w hw => ?_⟩
        rw [hs] at hw
        rcases List.mem_cons.mp hw with rfl | hw
        · exact fun d hd => hv d (List.mem_cons_of_mem _ hd)
        · exact h w (List.mem_cons_of_mem _ hw)

/-- `sep.join(parts)` for a one-character separator. -/
def join (sep : PyChar) : List PyStr → PyStr
  | [] => []
  | [w] => w
  | w :: v :: ws => w ++ sep :: join sep (v :: ws)

lemma split_join : ∀ {ws : List PyStr}, ws ≠ [] → (∀ w ∈ ws, sep ∉ w) → split sep (join sep ws) = ws
  | [], h, _ => absurd rfl h
  | [w], _, h => split_of_not_mem (h w List.mem_cons_self)
  | w :: v :: ws, _, h => by
    rw [join, split_append (h w List.mem_cons_self),
      split_join (List.cons_ne_nil _ _) fun u hu => h u (List.mem_cons_of_mem _ hu)]

lemma mem_join {c : PyChar} : ∀ {ws : List PyStr}, c ∈ join sep ws → c = sep ∨ ∃ w ∈ ws, c ∈ w
  | [], h => absurd h List.not_mem_nil
  | [w], h => Or.inr ⟨w, List.mem_cons_self, h⟩
  | w :: v :: ws, h => by
    rcases List.mem_append.mp h with h | h
    · exact Or.inr ⟨w, List.mem_cons_self, h⟩
    rcases List.mem_cons.mp h with h | h
    · exact Or.inl h
    obtain h | ⟨u, hu, hc⟩ := mem_join h
    · exact Or.inl h
    · exact Or.inr ⟨u, List.mem_cons_of_mem _ hu, hc⟩

lemma sep_mem_join : ∀ {ws : List PyStr}, 2 ≤ ws.length → sep ∈ join sep ws
  | [], h => absurd h (by simp)
  | [_], h => absurd h (by simp)
  | _ :: _ :: _, _ => List.mem_append_right _ List.mem_cons_self

/-! ### The parts of `s.partition(sep)` and `s.rpartition(sep)` -/

/-- `s.partition(sep)[0]` -/
def before (sep : PyChar) (s : PyStr) : PyStr := s.takeWhile (· ≠ sep)

/-- `s.partition(sep)[2]` -/
def after (sep : PyChar) (s : PyStr) : PyStr := (s.dropWhile (· ≠ sep)).drop 1

/-- `s.rpartition(sep)[0]` -/
def beforeLast (sep : PyChar) (s : PyStr) : PyStr := (after sep s.reverse).reverse

/-- `s.rpartition(sep)[2]` -/
def afterLast (sep : PyChar) (s : PyStr) : PyStr := (before sep s.reverse).reverse

lemma before_eq_self (h : sep ∉ s) : before sep s = s :=
  List.takeWhile_eq_self_iff.mpr fun c hc => by simpa using fun he : c = sep => h (he ▸ hc)

lemma after_eq_nil (h : sep ∉ s) : after sep s = [] := by
  have hdrop : s.dropWhile (· ≠ sep) = [] :=
    List.dropWhile_eq_nil_iff.mpr fun c hc => by simpa using fun he : c = sep => h (he ▸ hc)
  rw [after, hdrop, List.drop_nil]

lemma before_append (h : sep ∉ a) : before sep (a ++ sep :: b) = a := by
  rw [before, List.takeWhile_append_of_pos fun c hc => by simpa using fun he : c = sep => h (he ▸ hc)]
  simp

lemma after_append (h : sep ∉ a) : after sep (a ++ sep :: b) = b := by
  rw [after, List.dropWhile_append_of_pos fun c hc => by simpa using fun he : c = sep => h (he ▸ hc)]
  simp

lemma afterLast_eq_self (h : sep ∉ s) : afterLast sep s = s := by
  rw [afterLast, before_eq_self fun hs => h (List.mem_reverse.mp hs), List.reverse_reverse]

lemma not_mem_before : sep ∉ before sep s := fun h => by simpa using List.mem_takeWhile_imp h

/-- A text is its two parts around the first separator. -/
lemma before_after (h : sep ∈ s) : before sep s ++ sep :: after sep s = s := by
  obtain ⟨a, b, rfl, ha⟩ := List.eq_append_cons_of_mem h
  rw [before_append ha, after_append ha]

lemma mem_of_mem_before {c : PyChar} (h : c ∈ before sep s) : c ∈ s := (List.takeWhile_sublist _).mem h

lemma mem_of_mem_after {c : PyChar} (h : c ∈ after sep s) : c ∈ s :=
  (List.dropWhile_sublist _).mem ((List.drop_sublist _ _).mem h)

variable {f : PyChar → PyChar}

lemma before_map (hf : ∀ c, f c = sep ↔ c = sep) : before sep (s.map f) = (before sep s).map f := by
  rw [before, before, List.takeWhile_map]
  simp [Function.comp_def, hf]

lemma after_map (hf : ∀ c, f c = sep ↔ c = sep) : after sep (s.map f) = (after sep s).map f := by
  rw [after, after, List.dropWhile_map, List.map_drop]
  simp [Function.comp_def, hf]

lemma mem_map_iff (hf : ∀ c, f c = sep ↔ c = sep) : sep ∈ s.map f ↔ sep ∈ s := by
  simp [hf]

/-! ### Stripped texts -/

lemma strip_eq_self_iff :
    strip s = s ↔ (∀ c ∈ s.head?, isSpace c = false) ∧ ∀ c ∈ s.getLast?, isSpace c = false := by
  have hdrop : ∀ t : PyStr, t.dropWhile isSpace = t ↔ ∀ c ∈ t.head?, isSpace c = false := by
    intro t
    cases t with
    | nil => simp
    | cons c t => simp [List.dropWhile_eq_self_iff]
  constructor
  · intro h
    have hlen := congrArg List.length h
    rw [strip, List.length_reverse] at hlen
    have hone := (List.dropWhile_sublist isSpace (l := s)).length_le
    have htwo := (List.dropWhile_sublist isSpace (l := (s.dropWhile isSpace).reverse)).length_le
    rw [List.length_reverse] at htwo
    have hhead : s.dropWhile isSpace = s := (List.dropWhile_sublist _).eq_of_length (by omega)
    refine ⟨(hdrop s).mp hhead, ?_⟩
    rw [hhead] at hlen htwo
    have hlast : s.reverse.dropWhile isSpace = s.reverse :=
      (List.dropWhile_sublist _).eq_of_length (by rw [List.length_reverse]; omega)
    simpa using (hdrop s.reverse).mp hlast
  · rintro ⟨hhead, hlast⟩
    rw [strip, (hdrop s).mpr hhead, (hdrop s.reverse).mpr (by simpa using hlast), List.reverse_reverse]

lemma strip_eq_self (h : ∀ c ∈ s, isSpace c = false) : strip s = s :=
  strip_eq_self_iff.mpr ⟨fun c hc => h c (List.mem_of_mem_head? hc), fun c hc => h c (List.mem_of_getLast? hc)⟩

end PyStr

/-- At most `fuel` successive reads of `n` bytes from a stream that holds `b`. -/
def readsOf (n : ℕ) : ℕ → Bytes → List Bytes
  | 0, _ => []
  | _ + 1, [] => []
  | fuel + 1, x :: b => (x :: b).take n :: readsOf n fuel ((x :: b).drop n)

/-- The successive reads of `n` bytes from a stream that holds `b`, up to its end. -/
def chunks (n : ℕ) (b : Bytes) : List Bytes := readsOf n b.length b

lemma readsOf_flatten {n : ℕ} (hn : 0 < n) :
    ∀ (fuel : ℕ) (b : Bytes), b.length ≤ fuel → (readsOf n fuel b).flatten = b := by
  intro fuel
  induction fuel with
  | zero =>
    intro b hb
    rw [List.length_eq_zero_iff.mp (Nat.le_zero.mp hb)]
    rfl
  | succ fuel ih =>
    intro b hb
    cases b with
    | nil => rfl
    | cons x b =>
      have hd : ((x :: b).drop n).length ≤ fuel := by
        simp only [List.length_drop, List.length_cons] at hb ⊢
        omega
      rw [readsOf, List.flatten_cons, ih _ hd, List.take_append_drop]

/-- The reads of a stream are its bytes. -/
theorem chunks_flatten {n : ℕ} (hn : 0 < n) (b : Bytes) : (chunks n b).flatten = b :=
  readsOf_flatten hn b.length b (Nat.le_refl _)

end DataCheck.Lib
