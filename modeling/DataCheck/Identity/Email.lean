import DataCheck.Lib.Regex

/-!
# Addresses (`identity/email.py`)
-/

namespace DataCheck.Identity

open Lib

/-- `EmailPolicyError`, by its message. -/
inductive EmailPolicyError where
  | ascii | maximum | separator | localLength | dotAtom | domainLength | domainLabels
  deriving DecidableEq

/-- The atoms of `_LOCAL_PART_PATTERN`. -/
def atomPattern : Regex := .plus (.alnumOr "!#$%&'*+-/=?^_`\x7b|\x7d~")

def localPartPattern : Regex := .seq atomPattern (.star (.seq (.oneOf ".") atomPattern))

def domainLabelPattern : Regex :=
  .seq (.alnumOr "") (.opt (.seq (.upTo (.alnumOr "-") 61) (.alnumOr "")))

structure CanonicalEmail where
  email : PyStr
  email_normalized : PyStr
  deriving DecidableEq

/-- `canonicalize_email`.  Past the first check every character is ASCII, so `lower` and the length in
bytes are those of ASCII. -/
def canonicalizeEmail (value : PyStr) : Except EmailPolicyError CanonicalEmail :=
  let stripped := PyStr.strip value
  if stripped.any fun c => 128 ≤ c.val then .error .ascii
  else if 254 < stripped.length then .error .maximum
  else match PyStr.split 64 stripped with
    -- exactly one "@"
    | [local_part, domain] =>
      if local_part.length < 1 || 64 < local_part.length then .error .localLength
      else if !localPartPattern.fullmatch local_part then .error .dotAtom
      else if domain.length < 1 || 253 < domain.length then .error .domainLength
      else
        let labels := PyStr.split 46 domain
        if labels.length < 2 || labels.any (fun label => !domainLabelPattern.fullmatch label) then
          .error .domainLabels
        else
          let stored := local_part ++ 64 :: domain.map PyStr.asciiLower
          .ok ⟨stored, stored.map PyStr.asciiLower⟩
    | _ => .error .separator

example : canonicalizeEmail (py " A.b@Ex.Org\n") = .ok ⟨py "A.b@ex.org", py "a.b@ex.org"⟩ := by
  decide +kernel

/-! ### Plain characters -/

def IsPlain (c : PyChar) : Prop := c.val < 128 ∧ PyStr.isSpace c = false ∧ c ≠ 64

instance (c : PyChar) : Decidable (IsPlain c) := by
  unfold IsPlain
  infer_instance

lemma within_alnumOr {s : String} (hs : ∀ c ∈ py s, IsPlain c) : (Regex.alnumOr s).Within IsPlain := by
  intro c hc
  simp only [Bool.or_eq_true, Bool.and_eq_true, decide_eq_true_eq, List.contains_iff_mem] at hc
  rcases hc with hc | hc
  · refine ⟨by omega, ?_, ?_⟩
    · simp only [PyStr.isSpace, Bool.or_eq_false_iff, Bool.and_eq_false_iff, decide_eq_false_iff_not, beq_eq_false_iff_ne]
      omega
    · rintro rfl
      revert hc
      decide
  · exact hs c hc

lemma plain_atom : ∀ c ∈ py "!#$%&'*+-/=?^_`\x7b|\x7d~", IsPlain c :=
  forall_mem_py (by decide)

lemma within_localPartPattern : localPartPattern.Within IsPlain := by
  have hatom : atomPattern.Within IsPlain :=
    ⟨within_alnumOr plain_atom, within_alnumOr plain_atom⟩
  refine ⟨hatom, fun c hc => ?_, hatom⟩
  obtain rfl : c = 46 := by simpa [py] using hc
  decide

lemma within_domainLabelPattern : domainLabelPattern.Within IsPlain := by
  have hletter : (Regex.alnumOr "").Within IsPlain := within_alnumOr (by simp [py])
  have hinner : (Regex.alnumOr "-").Within IsPlain := within_alnumOr (forall_mem_py (by decide))
  exact ⟨hletter, ⟨Regex.within_upTo hinner 61, hletter⟩, trivial⟩

/-! ### The language of addresses -/

/-- What `canonicalize_email` accepts before and after the "@". -/
structure IsAddress (local_part domain : PyStr) : Prop where
  length : (local_part ++ 64 :: domain).length ≤ 254
  localLength : 1 ≤ local_part.length ∧ local_part.length ≤ 64
  dotAtom : localPartPattern.fullmatch local_part = true
  domainLength : 1 ≤ domain.length ∧ domain.length ≤ 253
  labels : 2 ≤ (PyStr.split 46 domain).length
  label : ∀ label ∈ PyStr.split 46 domain, domainLabelPattern.fullmatch label = true

variable {value local_part domain l d : PyStr} {c : CanonicalEmail}

lemma IsAddress.plain_local (h : IsAddress l d) : ∀ c ∈ l, IsPlain c :=
  (Regex.fullmatch_iff.mp h.dotAtom).within within_localPartPattern

lemma IsAddress.plain_domain (h : IsAddress l d) : ∀ c ∈ d, IsPlain c :=
  PyStr.forall_mem_of_split (by decide) fun w hw =>
    (Regex.fullmatch_iff.mp (h.label w hw)).within within_domainLabelPattern

lemma IsAddress.split (h : IsAddress l d) : PyStr.split 64 (l ++ 64 :: d) = [l, d] := by
  rw [PyStr.split_append fun hm => (h.plain_local 64 hm).2.2 rfl,
    PyStr.split_of_not_mem fun hm => (h.plain_domain 64 hm).2.2 rfl]

/-- An address is ASCII, and no whitespace is in it. -/
lemma IsAddress.chars (h : IsAddress l d) : ∀ c ∈ l ++ 64 :: d, c.val < 128 ∧ PyStr.isSpace c = false :=
  List.forall_mem_append.mpr ⟨fun c hc => ⟨(h.plain_local c hc).1, (h.plain_local c hc).2.1⟩,
    List.forall_mem_cons.mpr ⟨by decide, fun c hc => ⟨(h.plain_domain c hc).1, (h.plain_domain c hc).2.1⟩⟩⟩

lemma IsAddress.strip (h : IsAddress l d) : PyStr.strip (l ++ 64 :: d) = l ++ 64 :: d :=
  PyStr.strip_eq_self fun c hc => (h.chars c hc).2

/-- The two forms of an address that are stored. -/
def canonicalOf (local_part domain : PyStr) : CanonicalEmail :=
  ⟨local_part ++ 64 :: domain.map PyStr.asciiLower, (local_part ++ 64 :: domain.map PyStr.asciiLower).map PyStr.asciiLower⟩

/-- **What is accepted, and with which result.** -/
theorem canonicalizeEmail_eq_ok : canonicalizeEmail value = .ok c ↔
    ∃ l d, PyStr.strip value = l ++ 64 :: d ∧ IsAddress l d ∧ c = canonicalOf l d := by
  constructor
  · intro h
    simp only [canonicalizeEmail] at h
    split at h
    · cases h
    split at h
    · cases h
    next hlen =>
    split at h
    · next l d hsplit =>
      split at h
      · cases h
      next hlocal =>
      split at h
      · cases h
      next hatom =>
      split at h
      · cases h
      next hdomain =>
      split at h
      · cases h
      next hlabels =>
      cases h
      have hstripped := PyStr.split_eq_pair hsplit
      simp only [Bool.or_eq_true, decide_eq_true_eq, not_or, Nat.not_lt] at hlocal hdomain hlabels
      refine ⟨l, d, hstripped, ⟨?_, hlocal, by simpa using hatom, hdomain, hlabels.1, ?_⟩, rfl⟩
      · rw [← hstripped]
        omega
      · simpa using hlabels.2
    · cases h
  · rintro ⟨l, d, hstripped, h, rfl⟩
    have hascii : ¬ ((l ++ 64 :: d).any fun c => 128 ≤ c.val) = true := by
      simp only [List.any_eq_true, decide_eq_true_eq, not_exists, not_and, Nat.not_le]
      exact fun c hc => (h.chars c hc).1
    simp only [canonicalizeEmail, hstripped, h.split]
    rw [if_neg hascii, if_neg (Nat.not_lt.mpr h.length), if_neg, if_neg, if_neg, if_neg]
    · rfl
    · simpa using ⟨h.labels, h.label⟩
    · simp only [Bool.or_eq_true, decide_eq_true_eq, not_or, Nat.not_lt]
      exact h.domainLength
    · simpa using h.dotAtom
    · simp only [Bool.or_eq_true, decide_eq_true_eq, not_or, Nat.not_lt]
      exact h.localLength

/-! ### Upper and lower case -/

lemma folds_alnumOr {t : String} (ht : ∀ c ∈ py t, c.val < 65 ∨ 90 < c.val ∧ c.val < 97 ∨ 122 < c.val) :
    (Regex.alnumOr t).Folds PyStr.asciiLower := by
  have hmem : ∀ c, PyStr.asciiLower c ∈ py t ↔ c ∈ py t := by
    intro c
    constructor
    · intro h
      rwa [(PyStr.asciiLower_eq_iff (ht _ h)).mp rfl]
    · intro h
      rwa [(PyStr.asciiLower_eq_iff (ht c h)).mpr rfl]
  intro c
  rw [Bool.eq_iff_iff]
  simp only [Bool.or_eq_true, Bool.and_eq_true, decide_eq_true_eq, List.contains_iff_mem, hmem]
  refine or_congr_left ?_
  by_cases hc : 65 ≤ c.val ∧ c.val ≤ 90
  · have hlower : (PyStr.asciiLower c).val = c.val + 32 := by rw [PyStr.asciiLower, dif_pos hc]
    rw [hlower]
    omega
  · rw [PyStr.asciiLower, dif_neg hc]

lemma folds_localPartPattern : localPartPattern.Folds PyStr.asciiLower := by
  have hatom : (Regex.alnumOr "!#$%&'*+-/=?^_`\x7b|\x7d~").Folds PyStr.asciiLower :=
    folds_alnumOr (forall_mem_py (by decide))
  have hdot : (Regex.oneOf ".").Folds PyStr.asciiLower := by
    intro c
    rw [Bool.eq_iff_iff]
    simpa [py] using PyStr.asciiLower_eq_iff (c := c) (d := 46) (by decide)
  exact ⟨⟨hatom, hatom⟩, hdot, hatom, hatom⟩

lemma folds_domainLabelPattern : domainLabelPattern.Folds PyStr.asciiLower := by
  have hletter : (Regex.alnumOr "").Folds PyStr.asciiLower := folds_alnumOr (by simp [py])
  have hinner : (Regex.alnumOr "-").Folds PyStr.asciiLower := folds_alnumOr (forall_mem_py (by decide))
  exact ⟨hletter, ⟨Regex.folds_upTo hinner 61, hletter⟩, trivial⟩

/-- The case of letters does not matter. -/
lemma isAddress_lower : IsAddress (l.map PyStr.asciiLower) (d.map PyStr.asciiLower) ↔ IsAddress l d := by
  have hlabels : PyStr.split 46 (d.map PyStr.asciiLower) = (PyStr.split 46 d).map (List.map PyStr.asciiLower) :=
    PyStr.split_map fun c => PyStr.asciiLower_eq_iff (by decide)
  have hlen : (l.map PyStr.asciiLower ++ 64 :: d.map PyStr.asciiLower).length = (l ++ 64 :: d).length := by simp
  constructor
  · rintro ⟨length, localLength, dotAtom, domainLength, labels, label⟩
    rw [hlen] at length
    rw [hlabels] at labels label
    rw [folds_localPartPattern.fullmatch_map] at dotAtom
    rw [List.length_map] at localLength domainLength labels
    refine ⟨length, localLength, dotAtom, domainLength, labels, fun w hw => ?_⟩
    rw [← folds_domainLabelPattern.fullmatch_map]
    exact label _ (List.mem_map_of_mem hw)
  · rintro ⟨length, localLength, dotAtom, domainLength, labels, label⟩
    refine ⟨by rwa [hlen], by rwa [List.length_map], by rwa [folds_localPartPattern.fullmatch_map],
      by rwa [List.length_map], by rwa [hlabels, List.length_map], ?_⟩
    rw [hlabels]
    refine List.forall_mem_map.mpr fun w hw => ?_
    rw [folds_domainLabelPattern.fullmatch_map]
    exact label w hw

/-- Two texts that differ only in the case of ASCII letters. -/
def SameLetters (s t : PyStr) : Prop := s.map PyStr.asciiLower = t.map PyStr.asciiLower

/-- An address with letters in another case is an address. -/
lemma IsAddress.of_sameLetters {t : PyStr} (h : IsAddress l d) (ht : SameLetters t (l ++ 64 :: d)) :
    ∃ l' d', t = l' ++ 64 :: d' ∧ IsAddress l' d' := by
  rw [SameLetters, List.map_append, List.map_cons, List.map_eq_append_iff] at ht
  obtain ⟨l', t, rfl, hl, ht⟩ := ht
  obtain ⟨c, d', rfl, hc, hd⟩ := List.map_eq_cons_iff.mp ht
  obtain rfl : c = 64 := (PyStr.asciiLower_eq_iff (by decide)).mp hc
  refine ⟨l', d', rfl, isAddress_lower.mp ?_⟩
  rw [hl, hd]
  exact isAddress_lower.mpr h

/-! ### Atoms and labels -/

/-- Atoms that follow one another after single separators are not empty. -/
lemma ne_nil_of_separated {sep : PyChar} {p q : PyChar → Bool} (hsep : ∀ c, q c = true → c = sep) (hp : p sep = false)
    {w : PyStr} (h : Regex.Matches (.star (.seq (.cls q) (.plus (.cls p)))) w) :
    ∀ a : PyStr, a ≠ [] → sep ∉ a → ∀ atom ∈ PyStr.split sep (a ++ w), atom ≠ [] := by
  generalize hr : Regex.star (.seq (.cls q) (.plus (.cls p))) = r at h
  induction h with
  | done =>
    intro a ha hmem
    rw [List.append_nil, PyStr.split_of_not_mem hmem]
    simpa using ha
  | @more r' b w hb hw _ ih =>
    intro a ha hmem
    cases hr
    obtain ⟨b₁, b₂, rfl, h₁, h₂⟩ := Regex.matches_seq.mp hb
    obtain ⟨c, rfl, hc⟩ := Regex.matches_cls.mp h₁
    obtain rfl := hsep c hc
    obtain ⟨hne, hall⟩ := Regex.matches_plus_cls.mp h₂
    rw [List.singleton_append, List.cons_append, PyStr.split_append hmem]
    refine List.forall_mem_cons.mpr ⟨ha, ih rfl b₂ hne fun hm => ?_⟩
    rw [hall _ hm] at hp
    cases hp
  | _ => cases hr

lemma atom_ne_nil (h : localPartPattern.fullmatch l = true) : ∀ atom ∈ PyStr.split 46 l, atom ≠ [] := by
  rw [Regex.fullmatch_iff, localPartPattern, Regex.matches_seq] at h
  obtain ⟨a, w, rfl, ha, hw⟩ := h
  obtain ⟨hne, hall⟩ := Regex.matches_plus_cls.mp ha
  have hdot : ∀ c, (py ".").contains c = true → c = 46 := by simp [py]
  refine ne_nil_of_separated hdot (by decide) hw a hne fun hm => ?_
  exact absurd (hall 46 hm) (by decide)

/-- A label that is not empty or too long, and has no hyphen at an end. -/
structure IsLabel (label : PyStr) : Prop where
  ne_nil : label ≠ []
  length : label.length ≤ 63
  first : label.head? ≠ some 45
  last : label.getLast? ≠ some 45

lemma isLabel_of_fullmatch {w : PyStr} (h : domainLabelPattern.fullmatch w = true) : IsLabel w := by
  rw [Regex.fullmatch_iff, domainLabelPattern, Regex.matches_seq] at h
  obtain ⟨a, b, rfl, ha, hb⟩ := h
  -- a hyphen is no letter and no digit
  have hhyphen : ∀ {a : PyStr}, Regex.Matches (.alnumOr "") a → ∃ c, a = [c] ∧ c ≠ 45 := by
    intro a ha
    obtain ⟨c, rfl, hc⟩ := Regex.matches_cls.mp ha
    refine ⟨c, rfl, ?_⟩
    rintro rfl
    exact absurd hc (by decide)
  obtain ⟨c, rfl, hc⟩ := hhyphen ha
  rcases Regex.matches_opt.mp hb with hb | rfl
  · obtain ⟨b, e, rfl, hm, he⟩ := Regex.matches_seq.mp hb
    obtain ⟨d, rfl, hd⟩ := hhyphen he
    have hlen := (Regex.matches_upTo_cls.mp hm).1
    refine ⟨List.cons_ne_nil _ _, ?_, ?_, ?_⟩
    · simp only [List.singleton_append, List.length_cons, List.length_append, List.length_nil]
      omega
    · simpa using hc
    · rw [← List.append_assoc, List.getLast?_concat]
      simpa using hd
  · exact ⟨List.cons_ne_nil _ _, by simp, by simpa using hc, by simpa using hc⟩

/-- One "@", no empty atom before it, and only proper labels after it. -/
def WellFormed (address : PyStr) : Prop :=
  ∃ l d, PyStr.split 64 address = [l, d] ∧ (∀ atom ∈ PyStr.split 46 l, atom ≠ []) ∧
    ∀ label ∈ PyStr.split 46 d, IsLabel label

lemma IsAddress.wellFormed (h : IsAddress l d) : WellFormed (l ++ 64 :: d) :=
  ⟨l, d, h.split, atom_ne_nil h.dotAtom, fun w hw => isLabel_of_fullmatch (h.label w hw)⟩

/-! ### Canonical forms -/

/-- What the table asks of an address. -/
structure Storable (address : PyStr) : Prop where
  ascii : ∀ c ∈ address, c.val < 128
  length : 3 ≤ address.length ∧ address.length ≤ 254

lemma IsAddress.storable (h : IsAddress l d) : Storable (l ++ 64 :: d) := by
  refine ⟨fun c hc => (h.chars c hc).1, ?_, h.length⟩
  have hl := h.localLength.1
  have hd := h.domainLength.1
  simp only [List.length_append, List.length_cons]
  omega

lemma IsAddress.lowerDomain (h : IsAddress l d) : IsAddress l (d.map PyStr.asciiLower) := by
  rw [← isAddress_lower] at h ⊢
  rwa [PyStr.lower_lower]

/-- What an address that is accepted looks like. -/
structure CanonicalEmail.Canonical (c : CanonicalEmail) : Prop where
  ascii : ∀ x ∈ c.email, x.val < 128
  length : 3 ≤ c.email.length ∧ c.email.length ≤ 254
  normalized : c.email_normalized = c.email.map PyStr.asciiLower

/-- **An address that is accepted is ASCII, and of a length that the table accepts.** -/
theorem canonicalizeEmail_ok {value : PyStr} {c : CanonicalEmail} (hv : canonicalizeEmail value = .ok c) :
    c.Canonical := by
  obtain ⟨l, d, -, h, rfl⟩ := canonicalizeEmail_eq_ok.mp hv
  exact ⟨h.lowerDomain.storable.ascii, h.lowerDomain.storable.length, rfl⟩

lemma canonicalizeEmail_address (h : IsAddress l d) : canonicalizeEmail (l ++ 64 :: d) = .ok (canonicalOf l d) :=
  canonicalizeEmail_eq_ok.mpr ⟨l, d, h.strip, h, rfl⟩

lemma canonicalOf_normalized : (canonicalOf l d).email_normalized =
    l.map PyStr.asciiLower ++ 64 :: d.map PyStr.asciiLower := by
  have hat : PyStr.asciiLower 64 = 64 := by decide
  rw [canonicalOf, List.map_append, List.map_cons, PyStr.lower_lower, hat]

lemma canonicalOf_normalized_eq : (canonicalOf l d).email_normalized = (l ++ 64 :: d).map PyStr.asciiLower := by
  have hat : PyStr.asciiLower 64 = 64 := by decide
  rw [canonicalOf_normalized, List.map_append, List.map_cons, hat]

/-- **Both forms are canonical.**  An accepted text and the two forms of its result are addresses of the
same language; each form is accepted with itself as the result, and both fit the table. -/
theorem canonical_forms (hv : canonicalizeEmail value = .ok c) :
    canonicalizeEmail c.email = .ok c ∧
    canonicalizeEmail c.email_normalized = .ok ⟨c.email_normalized, c.email_normalized⟩ ∧
    (Storable c.email ∧ Storable c.email_normalized) ∧
    c.email_normalized.map PyStr.asciiLower = c.email_normalized ∧
    WellFormed (PyStr.strip value) ∧ WellFormed c.email ∧ WellFormed c.email_normalized := by
  obtain ⟨l, d, hs, h, rfl⟩ := canonicalizeEmail_eq_ok.mp hv
  have hstored := h.lowerDomain
  have hnormal : IsAddress (l.map PyStr.asciiLower) (d.map PyStr.asciiLower) := isAddress_lower.mpr h
  rw [canonicalOf_normalized, hs]
  refine ⟨?_, ?_, ⟨hstored.storable, hnormal.storable⟩, ?_, h.wellFormed, hstored.wellFormed, hnormal.wellFormed⟩
  · have hsame : canonicalOf l (d.map PyStr.asciiLower) = canonicalOf l d := by rw [canonicalOf, canonicalOf, PyStr.lower_lower]
    exact (canonicalizeEmail_address hstored).trans (congrArg Except.ok hsame)
  · have hsame : canonicalOf (l.map PyStr.asciiLower) (d.map PyStr.asciiLower) =
        ⟨(canonicalOf l d).email_normalized, (canonicalOf l d).email_normalized⟩ := by
      refine (CanonicalEmail.mk.injEq _ _ _ _).mpr ⟨?_, ?_⟩
      · rw [PyStr.lower_lower, canonicalOf_normalized]
      · rw [PyStr.lower_lower, canonicalOf_normalized, List.map_append, List.map_cons, PyStr.lower_lower, PyStr.lower_lower]
        rfl
    rw [← canonicalOf_normalized, ← hsame, canonicalOf_normalized]
    exact canonicalizeEmail_address hnormal
  · rw [← canonicalOf_normalized, canonicalOf_normalized_eq, PyStr.lower_lower]

/-- The letters of an accepted text decide the normalized form. -/
lemma normalized_eq (h : canonicalizeEmail value = .ok c) :
    c.email_normalized = (PyStr.strip value).map PyStr.asciiLower := by
  obtain ⟨l, d, hs, -, rfl⟩ := canonicalizeEmail_eq_ok.mp h
  rw [hs, canonicalOf_normalized_eq]

/-- **Addresses are identified exactly up to case and padding.**  Both forms of an accepted address are
canonical; texts whose stripped forms have the same letters are accepted together; and accepted texts have
one normalized form exactly if their stripped forms have the same letters. -/
theorem addresses_identified :
    (∀ v c, canonicalizeEmail v = .ok c →
      canonicalizeEmail c.email = .ok c ∧
      canonicalizeEmail c.email_normalized = .ok ⟨c.email_normalized, c.email_normalized⟩ ∧
      (Storable c.email ∧ Storable c.email_normalized) ∧
      c.email_normalized.map PyStr.asciiLower = c.email_normalized ∧
      WellFormed (PyStr.strip v) ∧ WellFormed c.email ∧ WellFormed c.email_normalized) ∧
    (∀ v w, SameLetters (PyStr.strip v) (PyStr.strip w) →
      ((∃ c, canonicalizeEmail v = .ok c) ↔ ∃ c, canonicalizeEmail w = .ok c)) ∧
    ∀ v w c e, canonicalizeEmail v = .ok c → canonicalizeEmail w = .ok e →
      (c.email_normalized = e.email_normalized ↔ SameLetters (PyStr.strip v) (PyStr.strip w)) := by
  have haccept : ∀ v w, SameLetters (PyStr.strip v) (PyStr.strip w) →
      (∃ c, canonicalizeEmail v = .ok c) → ∃ c, canonicalizeEmail w = .ok c := by
    rintro v w hvw ⟨c, hc⟩
    obtain ⟨l, d, hs, h, -⟩ := canonicalizeEmail_eq_ok.mp hc
    rw [hs] at hvw
    obtain ⟨l', d', hs', h'⟩ := h.of_sameLetters hvw.symm
    exact ⟨_, canonicalizeEmail_eq_ok.mpr ⟨l', d', hs', h', rfl⟩⟩
  refine ⟨fun v c => canonical_forms, fun v w h => ⟨haccept v w h, haccept w v h.symm⟩, fun v w c e hc he => ?_⟩
  rw [normalized_eq hc, normalized_eq he, SameLetters]

end DataCheck.Identity
