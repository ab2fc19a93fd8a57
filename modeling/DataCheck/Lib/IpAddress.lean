import DataCheck.Lib.Numerals
import Mathlib.Data.List.Nodup

/-!
# IP addresses

`ipaddress.ip_address` of an ASCII text and the compressed form of an address, as in CPython 3.13.
-/

namespace DataCheck.Lib

open PyStr

/-! ### IPv4 -/

/-- `ipaddress.IPv4Address`, by its octets. -/
structure IPv4Address where
  a : Fin 256
  b : Fin 256
  c : Fin 256
  d : Fin 256
deriving DecidableEq

/-- `IPv4Address._parse_octet` -/
def parseOctet (s : PyStr) : Option (Fin 256) :=
  if s = [] then none
  else if !s.all isDigit then none
  else if 3 < s.length then none
  else if s ≠ py "0" ∧ s.head? = some 48 then none
  else if h : decimal s < 256 then some ⟨decimal s, h⟩ else none

def ofOctets : List PyStr → Option IPv4Address
  | [a, b, c, d] => do return ⟨← parseOctet a, ← parseOctet b, ← parseOctet c, ← parseOctet d⟩
  | _ => none

/-- `IPv4Address(s)`; `none` is an `AddressValueError`. -/
def ipv4Address (s : PyStr) : Option IPv4Address :=
  if 47 ∈ s then none else ofOctets (split 46 s)

def IPv4Address.texts (ip : IPv4Address) : List PyStr :=
  [inBase 10 ip.a, inBase 10 ip.b, inBase 10 ip.c, inBase 10 ip.d]

/-- `str(ip)` -/
def IPv4Address.str (ip : IPv4Address) : PyStr := join 46 ip.texts

/-! ### IPv6 -/

abbrev Hextet := Fin 65536

/-- A zone of an IPv6 address. -/
abbrev ScopeId := {s : PyStr // s ≠ [] ∧ 37 ∉ s ∧ 47 ∉ s}

/-- `ipaddress.IPv6Address`, by its hextets. -/
structure IPv6Address where
  hextets : List Hextet
  scope_id : Option ScopeId
  length_hextets : hextets.length = 8
deriving DecidableEq

/-- `IPv6Address._split_scope_id`; the texts that hold a slash are refused before. -/
def splitScopeId (s : PyStr) : Option (PyStr × Option ScopeId) :=
  if 37 ∉ s then some (s, none)
  else if h : after 37 s ≠ [] ∧ 37 ∉ after 37 s ∧ 47 ∉ after 37 s then
    some (before 37 s, some ⟨after 37 s, h⟩)
  else none

/-- `IPv6Address._parse_hextet` -/
def parseHextet (s : PyStr) : Option Hextet :=
  if !s.all isHexDigit then none
  else if 4 < s.length then none
  else if s = [] then none
  else some (Fin.ofNat _ (hexadecimal s))

/-- The two hextets of an IPv4 address. -/
def IPv4Address.hextets (ip : IPv4Address) : List Hextet :=
  [⟨256 * ip.a.val + ip.b.val, by omega⟩, ⟨256 * ip.c.val + ip.d.val, by omega⟩]

/-- `"%x" % hextet` -/
def hex (h : Hextet) : PyStr := inBase 16 h

/-- An IPv4 address at the end is written as two hextets. -/
def expandIPv4 (parts : List PyStr) : Option (List PyStr) :=
  match parts.getLast? with
  | none => some parts
  | some last =>
    if 46 ∈ last then (ipv4Address last).map fun ip => parts.dropLast ++ ip.hextets.map hex
    else some parts

/-- The places of `::`. -/
def skipIndexes (parts : List PyStr) : List ℕ :=
  (List.range parts.length).filter fun i => 1 ≤ i ∧ i + 1 < parts.length ∧ parts[i]? = some []

/-- The parts on one side of `::`; an empty one at the end of the address stands alone. -/
def sideParts (endIsEmpty : Bool) (parts : List PyStr) : Option (List PyStr) :=
  if endIsEmpty then if parts.length = 1 then some [] else none else some parts

/-- The hextets that `parts` write. -/
def hextetsOf (parts : List PyStr) : Option (List Hextet) :=
  if 9 < parts.length then none else
  match skipIndexes parts with
  | [] => if parts.length = 8 then parts.mapM parseHextet else none
  | [i] => do
    let hi ← sideParts (parts.head? = some []) (parts.take i)
    let lo ← sideParts (parts.getLast? = some []) (parts.drop (i + 1))
    if 8 < hi.length + lo.length + 1 then none else
    return (← hi.mapM parseHextet) ++ List.replicate (8 - (hi.length + lo.length)) 0 ++ (← lo.mapM parseHextet)
  | _ => none

/-- `IPv6Address._ip_int_from_string`; its bounds on the whole text and on the number of pieces only
choose the message. -/
def ipFromString (s : PyStr) : Option {l : List Hextet // l.length = 8} := do
  if (split 58 s).length < 3 then none else
  let hextets ← hextetsOf (← expandIPv4 (split 58 s))
  if h : hextets.length = 8 then some ⟨hextets, h⟩ else none

/-- `IPv6Address(s)`; `none` is an `AddressValueError`. -/
def ipv6Address (s : PyStr) : Option IPv6Address := do
  if 47 ∈ s then none else
  let (addr, scope_id) ← splitScopeId s
  let hextets ← ipFromString addr
  return ⟨hextets.1, scope_id, hextets.2⟩

/-- The loop of `_compress_hextets`: the first longest run of zeros, by its start and its length, where
`index` hextets are behind, the last `len` of them zeros. -/
def longestZeros : List Hextet → (index len best_start best_len : ℕ) → ℕ × ℕ
  | [], _, _, best_start, best_len => (best_start, best_len)
  | h :: hs, index, len, best_start, best_len =>
    if h = 0 then
      if best_len < len + 1 then longestZeros hs (index + 1) (len + 1) (index - len) (len + 1)
      else longestZeros hs (index + 1) (len + 1) best_start best_len
    else longestZeros hs (index + 1) 0 best_start best_len

def compressHextets (hextets : List Hextet) : List PyStr :=
  let (start, len) := longestZeros hextets 0 0 0 0
  let texts := hextets.map hex
  if 1 < len then
    (if start = 0 then [[]] else []) ++ texts.take start ++ [] ::
      (texts.drop (start + len) ++ if start + len = hextets.length then [[]] else [])
  else texts

/-- `_string_from_ip_int` -/
def stringFromIp (hextets : List Hextet) : PyStr := join 58 (compressHextets hextets)

namespace IPv6Address

/-- `ip.ipv4_mapped` -/
def ipv4Mapped (ip : IPv6Address) : Option IPv4Address :=
  match ip.hextets with
  | [0, 0, 0, 0, 0, 65535, x, y] =>
    some ⟨Fin.ofNat _ (x / 256), Fin.ofNat _ x, Fin.ofNat _ (y / 256), Fin.ofNat _ y⟩
  | _ => none

/-- `str(ip)` without the zone. -/
def address (ip : IPv6Address) : PyStr :=
  match ip.ipv4Mapped with
  | none => stringFromIp ip.hextets
  | some ipv4_mapped => stringFromIp [0, 0, 0, 0, 0, 0, 0, 65535] ++ 58 :: ipv4_mapped.str

/-- `str(ip)` -/
def str (ip : IPv6Address) : PyStr :=
  match ip.scope_id with
  | none => ip.address
  | some scope_id => ip.address ++ 37 :: scope_id.1

end IPv6Address

/-! ### Both -/

/-- An address; those of different versions are different. -/
inductive IpAddress where
  | v4 (ip : IPv4Address)
  | v6 (ip : IPv6Address)
deriving DecidableEq

/-- `ipaddress.ip_address(s)`; `none` is a `ValueError`. -/
def ipAddress (s : PyStr) : Option IpAddress :=
  match ipv4Address s with
  | some ip => some (.v4 ip)
  | none => (ipv6Address s).map .v6

/-- `ip.compressed` -/
def IpAddress.compressed : IpAddress → PyStr
  | .v4 ip => ip.str
  | .v6 ip => ip.str

/-! ### What is written is read -/

lemma mapM_map {α β : Type} {f : β → Option α} {g : α → β} {l : List α} (h : ∀ x ∈ l, f (g x) = some x) :
    (l.map g).mapM f = some l := by
  induction l with
  | nil => rfl
  | cons x l ih =>
    rw [List.map_cons, List.mapM_cons, h x List.mem_cons_self, ih fun y hy => h y (List.mem_cons_of_mem _ hy)]
    rfl

lemma parseOctet_inBase : ∀ n : Fin 256, parseOctet (inBase 10 n) = some n := by
  decide +kernel

lemma IPv4Address.mem_texts {ip : IPv4Address} {w : PyStr} (h : w ∈ ip.texts) : ∃ n : Fin 256, w = inBase 10 n := by
  simp only [texts, List.mem_cons, List.not_mem_nil, or_false] at h
  rcases h with rfl | rfl | rfl | rfl <;> exact ⟨_, rfl⟩

lemma IPv4Address.mem_str {ip : IPv4Address} {c : PyChar} (h : c ∈ ip.str) : c = 46 ∨ isDigit c = true := by
  obtain h | ⟨w, hw, hc⟩ := mem_join h
  · exact Or.inl h
  obtain ⟨n, rfl⟩ := mem_texts hw
  exact Or.inr (isDigit_inBase c hc)

lemma not_mem_of_isDigit {s : PyStr} {c : PyChar} (hc : isDigit c = false) (hs : ∀ d ∈ s, isDigit d = true) : c ∉ s :=
  fun h => by rw [hs c h] at hc; cases hc

/-- The text of an IPv4 address is read as that address. -/
lemma ipv4Address_str (ip : IPv4Address) : ipv4Address ip.str = some ip := by
  have hslash : 47 ∉ ip.str := fun h => by
    rcases IPv4Address.mem_str h with h | h
    · cases h
    · cases h
  have hsplit : split 46 ip.str = ip.texts := by
    refine split_join (List.cons_ne_nil _ _) fun w hw => ?_
    obtain ⟨n, rfl⟩ := IPv4Address.mem_texts hw
    exact not_mem_of_isDigit rfl isDigit_inBase
  rw [ipv4Address, if_neg hslash, hsplit, IPv4Address.texts, ofOctets]
  simp only [parseOctet_inBase]
  rfl

lemma hex_ne_nil {h : Hextet} : hex h ≠ [] := inBase_ne_nil

lemma mem_hex {h : Hextet} {c : PyChar} (hc : c ∈ hex h) : isHexDigit c = true ∧ asciiLower c = c :=
  isHexDigit_inBase c hc

lemma not_mem_hex {h : Hextet} {c : PyChar} (hc : isHexDigit c = false) : c ∉ hex h :=
  fun hmem => by rw [(mem_hex hmem).1] at hc; cases hc

lemma parseHextet_hex (h : Hextet) : parseHextet (hex h) = some h := by
  have hall : (hex h).all isHexDigit = true := List.all_eq_true.mpr fun c hc => (mem_hex hc).1
  have hlen : (hex h).length ≤ 4 := length_inBase_le (by omega) (by omega) h.isLt
  rw [parseHextet, hall, if_neg (by simp), if_neg (by omega), if_neg hex_ne_nil, hex, hexadecimal_inBase]
  exact congrArg some (Fin.ext (Nat.mod_eq_of_lt h.isLt))

/-- `n` zeros stand in `l` from `start` on. -/
def ZerosAt (l : List Hextet) (start n : ℕ) : Prop :=
  ∃ a b, l = a ++ List.replicate n 0 ++ b ∧ a.length = start

lemma longestZeros_zerosAt : ∀ {hs behind : List Hextet} {index len best_start best_len : ℕ},
    behind.length = index → (∃ a, behind = a ++ List.replicate len 0) →
    ZerosAt (behind ++ hs) best_start best_len →
    ZerosAt (behind ++ hs) (longestZeros hs index len best_start best_len).1
      (longestZeros hs index len best_start best_len).2
  | [], _, _, _, _, _, _, _, hbest => hbest
  | h :: hs, behind, index, len, best_start, best_len, hindex, hrun, hbest => by
    have happend : behind ++ h :: hs = behind ++ [h] ++ hs := by simp
    have hlength : (behind ++ [h]).length = index + 1 := by simp [hindex]
    rw [longestZeros]
    rw [happend] at hbest ⊢
    split
    · next hzero =>
      obtain ⟨a, rfl⟩ := hrun
      have hmore : a ++ List.replicate len 0 ++ [h] = a ++ List.replicate (len + 1) 0 := by
        rw [hzero, List.replicate_succ', List.append_assoc]
      have hrun' : ∃ a', a ++ List.replicate len 0 ++ [h] = a' ++ List.replicate (len + 1) 0 := ⟨a, hmore⟩
      split
      · refine longestZeros_zerosAt hlength hrun' ⟨a, hs, by rw [hmore], ?_⟩
        simp only [List.length_append, List.length_replicate] at hindex
        omega
      · exact longestZeros_zerosAt hlength hrun' hbest
    · exact longestZeros_zerosAt hlength ⟨behind ++ [h], by simp⟩ hbest

/-- The texts of the hextets on one side of `::`. -/
def sideTexts (hs : List Hextet) : List PyStr := if hs = [] then [[]] else hs.map hex

lemma sideTexts_ne_nil {hs : List Hextet} : sideTexts hs ≠ [] := by
  unfold sideTexts
  split
  · simp
  · next h => simpa using h

lemma compressHextets_cases (hextets : List Hextet) :
    compressHextets hextets = hextets.map hex ∨
    ∃ a b n, 0 < n ∧ hextets = a ++ List.replicate n 0 ++ b ∧
      compressHextets hextets = sideTexts a ++ [] :: sideTexts b := by
  have hzeros : ZerosAt hextets (longestZeros hextets 0 0 0 0).1 (longestZeros hextets 0 0 0 0).2 :=
    @longestZeros_zerosAt hextets [] 0 0 0 0 rfl ⟨[], rfl⟩ ⟨[], hextets, rfl, rfl⟩
  unfold compressHextets
  generalize longestZeros hextets 0 0 0 0 = run at hzeros ⊢
  obtain ⟨start, len⟩ := run
  obtain ⟨a, b, hl, hstart⟩ := hzeros
  simp only at hl hstart ⊢
  split
  · next hlen =>
    refine Or.inr ⟨a, b, len, by omega, hl, ?_⟩
    subst hl hstart
    have htake : ((a ++ List.replicate len 0 ++ b).map hex).take a.length = a.map hex := by
      simp
    have hdrop : ((a ++ List.replicate len 0 ++ b).map hex).drop (a.length + len) = b.map hex := by
      rw [← List.map_drop, List.drop_left' (by simp)]
    have hend : a.length + len = (a ++ List.replicate len 0 ++ b).length ↔ b = [] := by
      simp [List.length_eq_zero_iff]
    rw [htake, hdrop, sideTexts, sideTexts]
    simp only [hend, List.length_eq_zero_iff]
    cases a <;> cases b <;> simp
  · exact Or.inl rfl

lemma skipIndexes_eq_nil {parts : List PyStr} (h : [] ∉ parts) : skipIndexes parts = [] := by
  refine List.filter_eq_nil_iff.mpr fun i _ => ?_
  simp only [decide_eq_true_eq]
  exact fun hi => h (List.mem_of_getElem? hi.2.2)

lemma nil_not_mem_map_hex {hs : List Hextet} : [] ∉ hs.map hex := by
  rw [List.mem_map]
  rintro ⟨h, -, he⟩
  exact hex_ne_nil he

/-- An empty piece of one side is its only piece. -/
lemma sideTexts_getElem? {hs : List Hextet} {i : ℕ} (h : (sideTexts hs)[i]? = some []) :
    i = 0 ∧ (sideTexts hs).length = 1 := by
  unfold sideTexts at h ⊢
  split at h
  · next he =>
    rw [if_pos he]
    obtain ⟨hi, -⟩ := List.getElem?_eq_some_iff.mp h
    exact ⟨Nat.lt_one_iff.mp hi, rfl⟩
  · exact absurd (List.mem_of_getElem? h) nil_not_mem_map_hex

lemma skipIndexes_sides {a b : List Hextet} :
    skipIndexes (sideTexts a ++ [] :: sideTexts b) = [(sideTexts a).length] := by
  have hlen : (sideTexts a ++ [] :: sideTexts b).length = (sideTexts a).length + 1 + (sideTexts b).length := by
    simp only [List.length_append, List.length_cons]
    omega
  have ha := List.length_pos_iff.mpr (@sideTexts_ne_nil a)
  have hb := List.length_pos_iff.mpr (@sideTexts_ne_nil b)
  have hiff : ∀ i, (1 ≤ i ∧ i + 1 < (sideTexts a ++ [] :: sideTexts b).length ∧
      (sideTexts a ++ [] :: sideTexts b)[i]? = some []) ↔ i = (sideTexts a).length := by
    intro i
    constructor
    · rintro ⟨hone, hlast, hi⟩
      rw [hlen] at hlast
      rcases Nat.lt_trichotomy i (sideTexts a).length with hlt | heq | hgt
      · rw [List.getElem?_append_left hlt] at hi
        have := sideTexts_getElem? hi
        omega
      · exact heq
      · obtain ⟨j, rfl⟩ : ∃ j, i = (sideTexts a).length + (j + 1) := ⟨i - (sideTexts a).length - 1, by omega⟩
        rw [List.getElem?_append_right (by omega), Nat.add_sub_cancel_left, List.getElem?_cons_succ] at hi
        have := sideTexts_getElem? hi
        omega
    · rintro rfl
      refine ⟨ha, by omega, ?_⟩
      rw [List.getElem?_append_right (Nat.le_refl _), Nat.sub_self, List.getElem?_cons_zero]
  simp only [skipIndexes, hiff]
  have hmem : (sideTexts a).length ∈ List.range (sideTexts a ++ [] :: sideTexts b).length :=
    List.mem_range.mpr (by omega)
  have hcount := List.count_eq_one_of_mem List.nodup_range hmem
  have hfilter := @List.filter_beq _ _ _ (List.range (sideTexts a ++ [] :: sideTexts b).length) (sideTexts a).length
  rw [hcount] at hfilter
  exact hfilter

lemma sideParts_sideTexts {hs : List Hextet} {e : Bool} (he : e = decide (hs = [])) :
    sideParts e (sideTexts hs) = some (hs.map hex) := by
  subst he
  by_cases h : hs = []
  · simp [sideParts, sideTexts, h]
  · simp [sideParts, sideTexts, h]

lemma head?_sides {a : List Hextet} {parts : List PyStr} :
    (sideTexts a ++ parts).head? = some [] ↔ a = [] := by
  cases a with
  | nil => simp [sideTexts]
  | cons h hs => simp [sideTexts, hex_ne_nil]

lemma getLast?_sides {b : List Hextet} {parts : List PyStr} :
    (parts ++ sideTexts b).getLast? = some [] ↔ b = [] := by
  unfold sideTexts
  rcases List.eq_nil_or_concat b with rfl | ⟨hs, h, rfl⟩
  · simp
  · simp [hex_ne_nil]

/-- Zeros for `::`. -/
lemma hextetsOf_sides {a b : List Hextet} {n : ℕ} (hn : 0 < n) (hlen : a.length + n + b.length = 8) :
    hextetsOf (sideTexts a ++ [] :: sideTexts b) = some (a ++ List.replicate n 0 ++ b) := by
  have hside : ∀ hs : List Hextet, (sideTexts hs).length ≤ hs.length + 1 ∧ (hs ≠ [] → (sideTexts hs).length = hs.length) := by
    intro hs
    unfold sideTexts
    split
    · next h => simp [h]
    · simp
  have ha := hside a
  have hb := hside b
  have hshort : ¬ 9 < (sideTexts a ++ [] :: sideTexts b).length := by
    simp only [List.length_append, List.length_cons]
    by_cases hane : a = []
    · by_cases hbne : b = []
      · simp only [hane, hbne, List.length_nil] at ha hb ⊢
        omega
      · have := hb.2 hbne
        omega
    · have := ha.2 hane
      omega
  have htake : (sideTexts a ++ [] :: sideTexts b).take (sideTexts a).length = sideTexts a := List.take_left' rfl
  have hdrop : (sideTexts a ++ [] :: sideTexts b).drop ((sideTexts a).length + 1) = sideTexts b := by
    rw [List.append_cons, List.drop_left' (by simp)]
  have hhi : sideParts (decide ((sideTexts a ++ [] :: sideTexts b).head? = some [])) (sideTexts a) = some (a.map hex) :=
    sideParts_sideTexts (by simp only [head?_sides])
  have hlo : sideParts (decide ((sideTexts a ++ [] :: sideTexts b).getLast? = some [])) (sideTexts b) =
      some (b.map hex) :=
    sideParts_sideTexts (by rw [List.append_cons]; simp only [getLast?_sides])
  rw [hextetsOf, if_neg hshort, skipIndexes_sides]
  simp only [htake, hdrop, hhi, hlo, Option.bind_eq_bind, Option.bind_some, List.length_map]
  rw [if_neg (by omega), mapM_map fun h _ => parseHextet_hex h, mapM_map fun h _ => parseHextet_hex h]
  have hzeros : 8 - (a.length + b.length) = n := by omega
  rw [hzeros]
  rfl

lemma hextetsOf_map {hextets : List Hextet} (hlen : hextets.length = 8) :
    hextetsOf (hextets.map hex) = some hextets := by
  have hshort : ¬ 9 < (hextets.map hex).length := by
    rw [List.length_map]
    omega
  rw [hextetsOf, if_neg hshort, skipIndexes_eq_nil nil_not_mem_map_hex]
  simp only [List.length_map, hlen, if_true]
  exact mapM_map fun h _ => parseHextet_hex h

lemma hextetsOf_compressHextets {hextets : List Hextet} (hlen : hextets.length = 8) :
    hextetsOf (compressHextets hextets) = some hextets := by
  obtain h | ⟨a, b, n, hn, hl, h⟩ := compressHextets_cases hextets
  · rw [h, hextetsOf_map hlen]
  · rw [hl] at hlen
    simp only [List.length_append, List.length_replicate] at hlen
    rw [h, hextetsOf_sides hn hlen, hl]

lemma mem_sideTexts {hs : List Hextet} {w : PyStr} (h : w ∈ sideTexts hs) : w = [] ∨ ∃ x, w = hex x := by
  unfold sideTexts at h
  split at h
  · exact Or.inl (List.mem_singleton.mp h)
  · obtain ⟨x, -, rfl⟩ := List.mem_map.mp h
    exact Or.inr ⟨x, rfl⟩

lemma mem_compressHextets {hextets : List Hextet} {w : PyStr} (h : w ∈ compressHextets hextets) :
    w = [] ∨ ∃ x, w = hex x := by
  obtain he | ⟨a, b, n, -, -, he⟩ := compressHextets_cases hextets
  · rw [he] at h
    obtain ⟨x, -, rfl⟩ := List.mem_map.mp h
    exact Or.inr ⟨x, rfl⟩
  · rw [he] at h
    rcases List.mem_append.mp h with h | h
    · exact mem_sideTexts h
    rcases List.mem_cons.mp h with rfl | h
    · exact Or.inl rfl
    · exact mem_sideTexts h

lemma not_mem_compressHextets {hextets : List Hextet} {c : PyChar} (hc : isHexDigit c = false) :
    ∀ w ∈ compressHextets hextets, c ∉ w := by
  intro w hw
  obtain rfl | ⟨x, rfl⟩ := mem_compressHextets hw
  · exact List.not_mem_nil
  · exact not_mem_hex hc

lemma three_le_compressHextets {hextets : List Hextet} (hlen : hextets.length = 8) :
    3 ≤ (compressHextets hextets).length := by
  obtain h | ⟨a, b, n, -, -, h⟩ := compressHextets_cases hextets
  · rw [h, List.length_map]
    omega
  · have ha := List.length_pos_iff.mpr (@sideTexts_ne_nil a)
    have hb := List.length_pos_iff.mpr (@sideTexts_ne_nil b)
    rw [h, List.length_append, List.length_cons]
    omega

lemma expandIPv4_eq_self {parts : List PyStr} (h : ∀ w ∈ parts, 46 ∉ w) : expandIPv4 parts = some parts := by
  unfold expandIPv4
  split
  · rfl
  · next last hlast => rw [if_neg (h last (List.mem_of_getLast? hlast))]

lemma ipFromString_join {parts parts' : List PyStr} {hextets : List Hextet} (hthree : 3 ≤ parts.length)
    (hcolon : ∀ w ∈ parts, 58 ∉ w) (hexpand : expandIPv4 parts = some parts')
    (hread : hextetsOf parts' = some hextets) (hlen : hextets.length = 8) :
    ipFromString (join 58 parts) = some ⟨hextets, hlen⟩ := by
  have hne : parts ≠ [] := by
    rintro rfl
    simp at hthree
  unfold ipFromString
  rw [split_join hne hcolon, if_neg (by omega), hexpand]
  simp only [Option.bind_eq_bind, Option.bind_some, hread]
  rw [dif_pos hlen]

lemma ipFromString_stringFromIp {hextets : List Hextet} (hlen : hextets.length = 8) :
    ipFromString (stringFromIp hextets) = some ⟨hextets, hlen⟩ :=
  ipFromString_join (three_le_compressHextets hlen) (not_mem_compressHextets rfl)
    (expandIPv4_eq_self (not_mem_compressHextets rfl)) (hextetsOf_compressHextets hlen) hlen

lemma compressHextets_mapped : compressHextets [0, 0, 0, 0, 0, 0, 0, 65535] = [[], [], hex 65535] := by
  decide +kernel

lemma ipFromString_mapped (ip : IPv4Address) :
    ipFromString (stringFromIp [0, 0, 0, 0, 0, 0, 0, 65535] ++ 58 :: ip.str) =
      some ⟨[0, 0, 0, 0, 0, 65535] ++ ip.hextets, rfl⟩ := by
  have hjoin : stringFromIp [0, 0, 0, 0, 0, 0, 0, 65535] ++ 58 :: ip.str = join 58 [[], [], hex 65535, ip.str] := by
    rw [stringFromIp, compressHextets_mapped]
    simp [join]
  have hdot : 46 ∈ ip.str := by simp [IPv4Address.str, IPv4Address.texts, join]
  have hcolon : 58 ∉ ip.str := fun h => by
    rcases IPv4Address.mem_str h with h | h
    · cases h
    · cases h
  have hsides : [[], [], hex 65535] ++ ip.hextets.map hex = sideTexts [] ++ [] :: sideTexts (65535 :: ip.hextets) := rfl
  rw [hjoin]
  refine @ipFromString_join _ ([[], [], hex 65535] ++ ip.hextets.map hex) _ (by simp) ?_ ?_ ?_ rfl
  · intro w hw
    simp only [List.mem_cons, List.not_mem_nil, or_false] at hw
    rcases hw with rfl | rfl | rfl | rfl
    · exact List.not_mem_nil
    · exact List.not_mem_nil
    · exact not_mem_hex rfl
    · exact hcolon
  · have hlast : [[], [], hex 65535, ip.str].getLast? = some ip.str := rfl
    rw [expandIPv4, hlast]
    simp only [if_pos hdot, ipv4Address_str]
    rfl
  · rw [hsides, hextetsOf_sides (n := 5) (by omega) rfl]
    rfl

namespace IPv6Address

lemma hextets_of_mapped {ip : IPv6Address} {ipv4_mapped : IPv4Address} (h : ip.ipv4Mapped = some ipv4_mapped) :
    ip.hextets = [0, 0, 0, 0, 0, 65535] ++ ipv4_mapped.hextets := by
  unfold ipv4Mapped at h
  split at h
  · next x y he =>
    cases h
    rw [he]
    simp only [IPv4Address.hextets, List.cons_append, List.nil_append, List.cons.injEq, true_and, and_true,
      Fin.ext_iff, Fin.val_ofNat]
    omega
  · cases h

lemma ipFromString_address (ip : IPv6Address) : ipFromString ip.address = some ⟨ip.hextets, ip.length_hextets⟩ := by
  unfold address
  split
  · exact ipFromString_stringFromIp ip.length_hextets
  · next ipv4_mapped h =>
    rw [ipFromString_mapped]
    simp only [hextets_of_mapped h]

lemma mem_stringFromIp {hextets : List Hextet} {c : PyChar} (h : c ∈ stringFromIp hextets) :
    c = 58 ∨ isHexDigit c = true ∧ asciiLower c = c := by
  obtain h | ⟨w, hw, hc⟩ := mem_join h
  · exact Or.inl h
  obtain rfl | ⟨x, rfl⟩ := mem_compressHextets hw
  · exact absurd hc List.not_mem_nil
  · exact Or.inr (mem_hex hc)

/-- An address is written with digits, small letters, colons and dots. -/
lemma mem_address {ip : IPv6Address} {c : PyChar} (h : c ∈ ip.address) :
    c = 58 ∨ c = 46 ∨ isHexDigit c = true ∧ asciiLower c = c := by
  unfold address at h
  split at h
  · exact (mem_stringFromIp h).imp_right Or.inr
  · rcases List.mem_append.mp h with h | h
    · exact (mem_stringFromIp h).imp_right Or.inr
    rcases List.mem_cons.mp h with h | h
    · exact Or.inl h
    rcases IPv4Address.mem_str h with h | h
    · exact Or.inr (Or.inl h)
    · refine Or.inr (Or.inr ⟨?_, ?_⟩)
      · rw [isHexDigit, Bool.or_eq_true, Bool.or_eq_true]
        exact Or.inl (Or.inl h)
      · rw [asciiLower, dif_neg]
        simp only [isDigit, Bool.and_eq_true, decide_eq_true_eq] at h
        omega

lemma colon_mem_address (ip : IPv6Address) : 58 ∈ ip.address := by
  unfold address
  split
  · exact sep_mem_join (Nat.le_trans (by omega) (three_le_compressHextets ip.length_hextets))
  · exact List.mem_append_right _ List.mem_cons_self

lemma not_mem_address {ip : IPv6Address} {c : PyChar} (hcolon : c ≠ 58) (hdot : c ≠ 46)
    (hc : isHexDigit c = false) : c ∉ ip.address := fun h => by
  rcases mem_address h with h | h | h
  · exact hcolon h
  · exact hdot h
  · rw [h.1] at hc
    cases hc

lemma mem_str {ip : IPv6Address} {c : PyChar} (h : c ∈ ip.str) :
    c ∈ ip.address ∨ c = 37 ∨ ∃ z ∈ ip.scope_id, c ∈ z.1 := by
  unfold str at h
  split at h
  · exact Or.inl h
  · next z hz =>
    rcases List.mem_append.mp h with h | h
    · exact Or.inl h
    rcases List.mem_cons.mp h with h | h
    · exact Or.inr (Or.inl h)
    · exact Or.inr (Or.inr ⟨z, hz, h⟩)

lemma address_mem_str {ip : IPv6Address} {c : PyChar} (h : c ∈ ip.address) : c ∈ ip.str := by
  unfold str
  split
  · exact h
  · exact List.mem_append_left _ h

/-- The text of an IPv6 address is read as that address. -/
lemma ipv6Address_str (ip : IPv6Address) : ipv6Address ip.str = some ip := by
  have hslash : 47 ∉ ip.str := fun h => by
    rcases mem_str h with h | h | ⟨z, -, h⟩
    · exact not_mem_address (by decide) (by decide) rfl h
    · cases h
    · exact z.2.2.2 h
  have hpercent : 37 ∉ ip.address := not_mem_address (by decide) (by decide) rfl
  have hsplit : splitScopeId ip.str = some (ip.address, ip.scope_id) := by
    unfold str splitScopeId
    cases hz : ip.scope_id with
    | none => exact if_pos hpercent
    | some z =>
      have hmem : 37 ∈ ip.address ++ 37 :: z.1 := List.mem_append_right _ List.mem_cons_self
      simp only [before_append hpercent, after_append hpercent]
      rw [if_neg (not_not_intro hmem), dif_pos z.2]
  rw [ipv6Address, if_neg hslash, hsplit]
  simp only [Option.bind_eq_bind, Option.bind_some, ipFromString_address]
  rfl

end IPv6Address

lemma isDigit_of_parseOctet {s : PyStr} {n : Fin 256} (h : parseOctet s = some n) : ∀ c ∈ s, isDigit c = true := by
  unfold parseOctet at h
  split at h
  · cases h
  split at h
  · cases h
  next hall => exact List.all_eq_true.mp (by simpa using hall)

lemma ofOctets_eq_some {parts : List PyStr} {ip : IPv4Address} (h : ofOctets parts = some ip) :
    ∀ w ∈ parts, ∀ c ∈ w, isDigit c = true := by
  unfold ofOctets at h
  split at h
  · next a b c d =>
    simp only [Option.bind_eq_bind, Option.bind_eq_some_iff] at h
    obtain ⟨x, ha, y, hb, z, hc, t, hd, -⟩ := h
    simp only [List.mem_cons, List.not_mem_nil, or_false, forall_eq_or_imp, forall_eq]
    exact ⟨isDigit_of_parseOctet ha, isDigit_of_parseOctet hb, isDigit_of_parseOctet hc, isDigit_of_parseOctet hd⟩
  · cases h

/-- What is read as an IPv4 address has digits and dots only. -/
lemma mem_of_ipv4Address {s : PyStr} {ip : IPv4Address} (h : ipv4Address s = some ip) :
    ∀ c ∈ s, c = 46 ∨ isDigit c = true := by
  unfold ipv4Address at h
  split at h
  · cases h
  · exact forall_mem_of_split (Or.inl rfl) fun w hw c hc => Or.inr (ofOctets_eq_some h w hw c hc)

/-- **The compressed form of an address is read as that address.** -/
theorem ipAddress_compressed (ip : IpAddress) : ipAddress ip.compressed = some ip := by
  cases ip with
  | v4 ip => rw [ipAddress, IpAddress.compressed, ipv4Address_str]
  | v6 ip =>
    have hnone : ipv4Address ip.str = none := by
      refine Option.eq_none_iff_forall_not_mem.mpr fun x hx => ?_
      rcases mem_of_ipv4Address hx 58 (IPv6Address.address_mem_str ip.colon_mem_address) with h | h
      · cases h
      · cases h
    rw [ipAddress, IpAddress.compressed, hnone, IPv6Address.ipv6Address_str]
    rfl

/-! ### The case of the letters -/

lemma isHexDigit_lower (c : PyChar) : isHexDigit (asciiLower c) = isHexDigit c := by
  unfold asciiLower
  split
  · rw [Bool.eq_iff_iff]
    simp only [isHexDigit, Bool.or_eq_true, Bool.and_eq_true, decide_eq_true_eq]
    omega
  · rfl

lemma hexValue_lower {c : PyChar} (h : isHexDigit c = true) : hexValue (asciiLower c) = hexValue c := by
  unfold asciiLower
  split
  · simp only [isHexDigit, Bool.or_eq_true, Bool.and_eq_true, decide_eq_true_eq] at h
    unfold hexValue
    simp only
    repeat' split
    all_goals omega
  · rfl

lemma all_map_lower (s : PyStr) : (s.map asciiLower).all isHexDigit = s.all isHexDigit := by
  rw [List.all_map]
  exact congrArg s.all (funext isHexDigit_lower)

lemma parseHextet_lower (s : PyStr) : parseHextet (s.map asciiLower) = parseHextet s := by
  unfold parseHextet
  rw [all_map_lower, List.length_map]
  split
  · rfl
  next hall =>
  have hall : ∀ c ∈ s, isHexDigit c = true := List.all_eq_true.mp (by simpa using hall)
  have hvalue : hexadecimal (s.map asciiLower) = hexadecimal s := by
    unfold hexadecimal
    rw [← List.map_reverse, List.map_map]
    exact congrArg _ (List.map_congr_left fun c hc => hexValue_lower (hall c (List.mem_reverse.mp hc)))
  simp only [hvalue, List.map_eq_nil_iff]

lemma ipv4Address_lower (s : PyStr) : ipv4Address (s.map asciiLower) = ipv4Address s := by
  by_cases h : ∀ c ∈ s, c = 46 ∨ isDigit c = true
  · have hsame : s.map asciiLower = s := by
      refine (List.map_congr_left fun c hc => ?_).trans (List.map_id s)
      rw [asciiLower, dif_neg, id]
      rcases h c hc with rfl | h
      · decide
      · simp only [isDigit, Bool.and_eq_true, decide_eq_true_eq] at h
        omega
    rw [hsame]
  · have hnone : ipv4Address s = none :=
      Option.eq_none_iff_forall_not_mem.mpr fun ip hip => h (mem_of_ipv4Address hip)
    have hlower : ipv4Address (s.map asciiLower) = none := by
      refine Option.eq_none_iff_forall_not_mem.mpr fun ip hip => h fun c hc => ?_
      have hchar := mem_of_ipv4Address hip _ (List.mem_map_of_mem hc)
      rw [asciiLower_eq_iff (by decide)] at hchar
      refine hchar.imp_right fun hdigit => ?_
      unfold asciiLower at hdigit
      split at hdigit
      · simp only [isDigit, Bool.and_eq_true, decide_eq_true_eq] at hdigit
        omega
      · exact hdigit
    rw [hnone, hlower]

abbrev lowers (parts : List PyStr) : List PyStr := parts.map (List.map asciiLower)

lemma lowers_hex (hs : List Hextet) : lowers (hs.map hex) = hs.map hex := by
  rw [lowers, List.map_map]
  refine List.map_congr_left fun h _ => ?_
  exact (List.map_congr_left fun c hc => (mem_hex hc).2).trans (List.map_id _)

lemma expandIPv4_lowers (parts : List PyStr) : expandIPv4 (lowers parts) = (expandIPv4 parts).map lowers := by
  unfold expandIPv4
  rw [lowers, List.getLast?_map]
  cases parts.getLast? with
  | none => rfl
  | some last =>
    simp only [Option.map_some, mem_map_iff fun c => asciiLower_eq_iff (c := c) (d := 46) (by decide), ipv4Address_lower]
    split
    · rw [Option.map_map]
      refine congrArg (fun f => (ipv4Address last).map f) (funext fun ip => ?_)
      have happend : lowers (parts.dropLast ++ ip.hextets.map hex) = lowers parts.dropLast ++ lowers (ip.hextets.map hex) :=
        List.map_append
      rw [Function.comp, happend, lowers_hex, ← List.map_dropLast]
    · rfl

lemma sideParts_lowers (e : Bool) (parts : List PyStr) :
    sideParts e (lowers parts) = (sideParts e parts).map lowers := by
  unfold sideParts
  rw [lowers, List.length_map]
  split
  · split <;> rfl
  · rfl

lemma mapM_parseHextet_lowers (parts : List PyStr) : (lowers parts).mapM parseHextet = parts.mapM parseHextet := by
  induction parts with
  | nil => rfl
  | cons w parts ih => rw [lowers, List.map_cons, List.mapM_cons, List.mapM_cons, ← lowers, ih, parseHextet_lower]

lemma some_nil_lowers (w : Option PyStr) : w.map (List.map asciiLower) = some [] ↔ w = some [] := by
  cases w <;> simp

lemma skipIndexes_lowers (parts : List PyStr) : skipIndexes (lowers parts) = skipIndexes parts := by
  unfold skipIndexes
  simp only [lowers, List.length_map, List.getElem?_map, some_nil_lowers]

lemma hextetsOf_lowers (parts : List PyStr) : hextetsOf (lowers parts) = hextetsOf parts := by
  have hhi : ∀ i, (lowers parts).take i = lowers (parts.take i) := fun i => List.map_take.symm
  have hlo : ∀ i, (lowers parts).drop i = lowers (parts.drop i) := fun i => List.map_drop.symm
  unfold hextetsOf
  rw [skipIndexes_lowers, List.length_map, mapM_parseHextet_lowers]
  split
  · rfl
  split
  · rfl
  · simp only [hhi, hlo, List.head?_map, List.getLast?_map, some_nil_lowers, sideParts_lowers,
      Option.bind_eq_bind, Option.bind_map, Function.comp_def, List.length_map, mapM_parseHextet_lowers]
  · rfl

lemma ipFromString_lower (s : PyStr) : ipFromString (s.map asciiLower) = ipFromString s := by
  unfold ipFromString
  rw [split_map fun c => asciiLower_eq_iff (by decide), ← lowers, expandIPv4_lowers, List.length_map]
  simp only [Option.bind_eq_bind, Option.bind_map, Function.comp_def, hextetsOf_lowers]

lemma splitScopeId_eq_some {s addr : PyStr} {scope_id : Option ScopeId}
    (h : splitScopeId s = some (addr, scope_id)) :
    addr = before 37 s ∧ ∀ z ∈ scope_id, z.1 = after 37 s := by
  unfold splitScopeId at h
  split at h
  · next hno =>
    cases h
    exact ⟨(before_eq_self hno).symm, by simp⟩
  · split at h
    · cases h
      simp
    · cases h

/-- A text in small letters is an address when the text is one. -/
lemma ipv6Address_of_lower {s : PyStr} {ip : IPv6Address} (h : ipv6Address (s.map asciiLower) = some ip) :
    ∃ ip', ipv6Address s = some ip' := by
  have hslash : 47 ∈ s.map asciiLower ↔ 47 ∈ s := mem_map_iff fun c => asciiLower_eq_iff (by decide)
  have hpercent : 37 ∈ s.map asciiLower ↔ 37 ∈ s := mem_map_iff fun c => asciiLower_eq_iff (by decide)
  have hafter : after 37 (s.map asciiLower) = (after 37 s).map asciiLower :=
    after_map fun c => asciiLower_eq_iff (by decide)
  have hbefore : before 37 (s.map asciiLower) = (before 37 s).map asciiLower :=
    before_map fun c => asciiLower_eq_iff (by decide)
  unfold ipv6Address at h ⊢
  simp only [hslash] at h
  split at h
  · cases h
  next hno =>
  rw [if_neg hno]
  have hscope : ∀ scope_id addr, splitScopeId (s.map asciiLower) = some (addr, scope_id) →
      ∃ scope_id', splitScopeId s = some (before 37 s, scope_id') := by
    intro scope_id addr hs
    unfold splitScopeId at hs ⊢
    simp only [hpercent] at hs
    split at hs
    · next hper => exact ⟨none, by rw [if_pos hper, before_eq_self hper]⟩
    next hper =>
    split at hs
    · next hz =>
      rw [hafter, mem_map_iff fun c => asciiLower_eq_iff (by decide),
        mem_map_iff fun c => asciiLower_eq_iff (by decide), Ne, List.map_eq_nil_iff] at hz
      exact ⟨some ⟨after 37 s, hz⟩, by rw [if_neg hper, dif_pos hz]⟩
    · cases hs
  simp only [Option.bind_eq_bind, Option.bind_eq_some_iff] at h
  obtain ⟨⟨addr, scope_id⟩, hs, hextets, hread, -⟩ := h
  obtain ⟨scope_id', hs'⟩ := hscope _ _ hs
  rw [(splitScopeId_eq_some hs).1, hbefore, ipFromString_lower] at hread
  rw [hs']
  simp only [Option.bind_eq_bind, Option.bind_some, hread]
  exact ⟨_, rfl⟩

/-! ### The characters of what is read -/

lemma isHexDigit_of_parseHextet {s : PyStr} {h : Hextet} (hs : parseHextet s = some h) : s.all isHexDigit = true := by
  unfold parseHextet at hs
  split at hs
  · cases hs
  · next hall => simpa using hall

lemma all_of_mapM_cons {w : PyStr} {parts : List PyStr} {hs : List Hextet}
    (h : (w :: parts).mapM parseHextet = some hs) : w.all isHexDigit = true := by
  simp only [List.mapM_cons, Option.bind_eq_bind, Option.bind_eq_some_iff] at h
  obtain ⟨x, hx, -⟩ := h
  exact isHexDigit_of_parseHextet hx

lemma hextetsOf_cons {w : PyStr} {parts : List PyStr} {hs : List Hextet} (h : hextetsOf (w :: parts) = some hs) :
    w = [] ∨ w.all isHexDigit = true := by
  by_cases hw : w = []
  · exact Or.inl hw
  refine Or.inr ?_
  unfold hextetsOf at h
  split at h
  · cases h
  split at h
  · split at h
    · exact all_of_mapM_cons h
    · cases h
  · next i hi =>
    have hone : 1 ≤ i := by
      have hmem : i ∈ skipIndexes (w :: parts) := by
        rw [hi]
        exact List.mem_singleton_self i
      have hplace := (List.mem_filter.mp hmem).2
      simp only [decide_eq_true_eq] at hplace
      exact hplace.1
    obtain ⟨j, rfl⟩ : ∃ j, i = j + 1 := ⟨i - 1, by omega⟩
    simp only [List.head?_cons, Option.some.injEq, hw, decide_false, List.take_succ_cons, sideParts,
      Bool.false_eq_true, if_false, Option.bind_eq_bind, Option.bind_some, Option.bind_eq_some_iff] at h
    obtain ⟨lo, -, h⟩ := h
    split at h
    · cases h
    · obtain ⟨x, hx, -⟩ := Option.bind_eq_some_iff.mp h
      exact all_of_mapM_cons hx
  · cases h

lemma ipFromString_eq_some {s : PyStr} {hextets : {l : List Hextet // l.length = 8}}
    (h : ipFromString s = some hextets) : 58 ∈ s ∧ ∃ c t, s = c :: t ∧ (c = 58 ∨ isHexDigit c = true) := by
  unfold ipFromString at h
  split at h
  · cases h
  next hthree =>
  have hcolon : 58 ∈ s := by
    by_contra hno
    rw [split_of_not_mem hno] at hthree
    exact hthree (by simp)
  obtain ⟨parts', hexpand, h⟩ := Option.bind_eq_some_iff.mp h
  obtain ⟨hs, hread, -⟩ := Option.bind_eq_some_iff.mp h
  cases s with
  | nil => exact absurd hcolon List.not_mem_nil
  | cons c s =>
  refine ⟨hcolon, c, s, rfl, ?_⟩
  by_cases hc : c = 58
  · exact Or.inl hc
  refine Or.inr ?_
  -- the first piece starts with `c`, and is not the last one
  obtain ⟨w, v, parts, hsplit⟩ : ∃ w v parts, split 58 (c :: s) = (c :: w) :: v :: parts := by
    rw [split, if_neg hc] at hthree ⊢
    cases hs : split 58 s with
    | nil => exact absurd hs split_ne_nil
    | cons w ws =>
      rw [hs] at hthree
      cases ws with
      | nil => simp at hthree
      | cons v parts => exact ⟨w, v, parts, rfl⟩
  obtain ⟨rest, rfl⟩ : ∃ rest, parts' = (c :: w) :: rest := by
    rw [hsplit] at hexpand
    unfold expandIPv4 at hexpand
    split at hexpand
    · cases hexpand
      exact ⟨_, rfl⟩
    split at hexpand
    · obtain ⟨ip, -, rfl⟩ := Option.map_eq_some_iff.mp hexpand
      exact ⟨_, rfl⟩
    · cases hexpand
      exact ⟨_, rfl⟩
  rcases hextetsOf_cons hread with h | h
  · cases h
  · exact List.all_eq_true.mp h c List.mem_cons_self

/-- A text that is read as an IPv6 address has a colon, starts with a colon or a digit, and holds the
zone. -/
lemma ipv6Address_eq_some {s : PyStr} {ip : IPv6Address} (h : ipv6Address s = some ip) :
    58 ∈ s ∧ (∃ c t, s = c :: t ∧ (c = 58 ∨ isHexDigit c = true)) ∧ ∀ z ∈ ip.scope_id, ∀ c ∈ z.1, c ∈ s := by
  unfold ipv6Address at h
  split at h
  · cases h
  simp only [Option.bind_eq_bind, Option.bind_eq_some_iff] at h
  obtain ⟨⟨addr, scope_id⟩, hs, hextets, hread, hip⟩ := h
  cases hip
  obtain ⟨rfl, hzone⟩ := splitScopeId_eq_some hs
  obtain ⟨hcolon, c, t, hhead, hc⟩ := ipFromString_eq_some hread
  refine ⟨mem_of_mem_before hcolon, ⟨c, ?_⟩, fun z hz d hd => mem_of_mem_after (hzone z hz ▸ hd)⟩
  cases s with
  | nil => exact absurd hhead (by simp [before])
  | cons d s =>
    refine ⟨s, ?_, hc⟩
    have hd : d = c := by
      rw [before, List.takeWhile_cons] at hhead
      split at hhead
      · exact (List.cons.inj hhead).1
      · cases hhead
    rw [hd]

end DataCheck.Lib
