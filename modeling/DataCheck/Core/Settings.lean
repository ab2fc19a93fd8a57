import DataCheck.Lib.Url

/-!
# Trusted origins (`core/settings.py`)

The texts are ASCII: `lower()` changes ASCII letters only.
-/

namespace DataCheck.Core

open Lib PyStr

/-- `[a-z0-9](?:[a-z0-9-]{0,61}[a-z0-9])?` -/
def hostLabelPattern : Regex :=
  let letter : Regex := .cls fun c => (97 ≤ c.val && c.val ≤ 122) || isDigit c
  let inner : Regex := .cls fun c => (97 ≤ c.val && c.val ≤ 122) || isDigit c || c = 45
  .seq letter (.opt (.seq (.upTo inner 61) letter))

/-- A `ValueError` of `canonicalize_origin`; `url` is one of `urlsplit`. -/
inductive OriginError where
  | explicit
  | url
  | scheme
  | userInformation
  | path
  | noHostname
  | hostname
  | port
  | none
  | duplicate
deriving DecidableEq

/-- The part of `canonicalize_origin` about a host in lower case. -/
def canonicalHostname (hostname : PyStr) : Option PyStr :=
  match ipAddress hostname with
  | some address => some address.compressed
  | none =>
    if hostname = py "localhost" then some hostname else
    let labels := split 46 hostname
    if 253 < hostname.length || labels.length < 2 || labels.any fun label => !hostLabelPattern.fullmatch label then none
    else some hostname

/-- The port that a scheme stands for. -/
def defaultPort (scheme : PyStr) : ℕ := if scheme = py "http" then 80 else 443

def writtenPort (scheme : PyStr) (port : Option ℕ) : Option ℕ :=
  if port = some (defaultPort scheme) then none else port

def canonicalizeOrigin (value : PyStr) : Except OriginError PyStr :=
  if value ≠ strip value ∨ 42 ∈ value then .error .explicit
  else match urlsplit value with
  | none => .error .url
  | some parsed =>
    let scheme := parsed.scheme.map asciiLower
    if scheme ≠ py "http" ∧ scheme ≠ py "https" then .error .scheme
    else if parsed.netloc = [] ∨ parsed.username ≠ none ∨ parsed.password ≠ none then .error .userInformation
    else if parsed.path ≠ [] ∨ parsed.query ≠ [] ∨ parsed.fragment ≠ [] then .error .path
    else match parsed.hostname with
    | none => .error .noHostname
    | some hostname =>
      match canonicalHostname (hostname.map asciiLower) with
      | none => .error .hostname
      | some hostname =>
        match parsed.port with
        | none => .error .port
        | some port => .ok (urlOf scheme (netlocOf hostname (writtenPort scheme port)))

/-- `ApiSettings.validate_trusted_origins` -/
def validateTrustedOrigins (value : List PyStr) : Except OriginError (List PyStr) :=
  if value = [] then .error .none else do
  let canonical ← value.mapM canonicalizeOrigin
  if ¬ canonical.Nodup then .error .duplicate else return canonical

example : canonicalizeOrigin (py "HTTP://[2001:DB8:0:0::1]:0080") = .ok (py "http://[2001:db8::1]") := by decide +kernel

/-! ### What is accepted -/

/-- `parsed` has the canonical form `origin`. -/
def Renders (parsed : SplitResult) (origin : PyStr) : Prop :=
  (parsed.scheme = py "http" ∨ parsed.scheme = py "https") ∧ parsed.netloc ≠ [] ∧ 64 ∉ parsed.netloc ∧
    ∃ hostname host port, parsed.hostname = some hostname ∧
      canonicalHostname (hostname.map asciiLower) = some host ∧ parsed.port = some port ∧
      origin = urlOf parsed.scheme (netlocOf host (writtenPort parsed.scheme port))

/-- Only the scheme and the netloc count. -/
lemma Renders.congr {parsed parsed' : SplitResult} {origin : PyStr} (h : Renders parsed origin)
    (hs : parsed'.scheme = parsed.scheme) (hn : parsed'.netloc = parsed.netloc) : Renders parsed' origin := by
  obtain ⟨scheme, netloc, path, query, fragment⟩ := parsed
  obtain ⟨scheme', netloc', path', query', fragment'⟩ := parsed'
  simp only at hs hn
  subst hs hn
  exact h

lemma isScheme_of {scheme : PyStr} (h : scheme = py "http" ∨ scheme = py "https") : IsScheme scheme := by
  rcases h with rfl | rfl
  · exact ⟨by decide, forall_mem_py (by decide), by decide⟩
  · exact ⟨by decide, forall_mem_py (by decide), by decide⟩

lemma no_userinfo {parsed : SplitResult} :
    ¬ (parsed.netloc = [] ∨ parsed.username ≠ none ∨ parsed.password ≠ none) ↔
      parsed.netloc ≠ [] ∧ 64 ∉ parsed.netloc := by
  unfold SplitResult.username SplitResult.password
  by_cases h : 64 ∈ parsed.netloc
  · simp [h]
  · simp [h]

lemma scheme_lower {value : PyStr} {parsed : SplitResult} (h : urlsplit value = some parsed) :
    parsed.scheme.map asciiLower = parsed.scheme := by
  rcases urlsplit_scheme h with hs | hs
  · rw [hs]
    rfl
  · exact hs.lower

lemma canonicalizeOrigin_eq_ok {value origin : PyStr} : canonicalizeOrigin value = .ok origin ↔
    strip value = value ∧ 42 ∉ value ∧ ∃ parsed, urlsplit value = some parsed ∧ parsed.path = [] ∧
      parsed.query = [] ∧ parsed.fragment = [] ∧ Renders parsed origin := by
  unfold canonicalizeOrigin
  constructor
  · intro h
    split at h
    · cases h
    next hexplicit =>
    rw [not_or, not_not] at hexplicit
    split at h
    · cases h
    next parsed hparsed =>
    simp only [scheme_lower hparsed] at h
    split at h
    · cases h
    next hscheme =>
    split at h
    · cases h
    next huser =>
    split at h
    · cases h
    next hpath =>
    split at h
    · cases h
    next hostname hhostname =>
    split at h
    · cases h
    next host hhost =>
    split at h
    · cases h
    next port hport =>
    cases h
    simp only [not_or, not_not] at hpath
    rw [no_userinfo] at huser
    exact ⟨hexplicit.1.symm, hexplicit.2, parsed, hparsed, hpath.1, hpath.2.1, hpath.2.2, by tauto, huser.1, huser.2,
      hostname, host, port, hhostname, hhost, hport, rfl⟩
  · rintro ⟨hstrip, hstar, parsed, hparsed, hpath, hquery, hfragment, hscheme, hne, hat, hostname, host, port,
      hhostname, hhost, hport, rfl⟩
    rw [if_neg (by simp [hstrip, hstar]), hparsed]
    simp only [scheme_lower hparsed]
    rw [if_neg (by tauto), if_neg (no_userinfo.mpr ⟨hne, hat⟩), if_neg (by simp [hpath, hquery, hfragment]), hhostname]
    simp only [hhost, hport]

/-! ### Canonical hosts -/

/-- A character of a host label, or the dot. -/
def isHostChar (c : PyChar) : Bool := (97 ≤ c.val && c.val ≤ 122) || isDigit c || c = 45 || c = 46

lemma within_hostLabelPattern : hostLabelPattern.Within fun c => isHostChar c = true := by
  have hletter : (Regex.cls fun c => (97 ≤ c.val && c.val ≤ 122) || isDigit c).Within
      fun c => isHostChar c = true := by
    intro c hc
    simp [isHostChar, hc]
  have hinner : (Regex.cls fun c => (97 ≤ c.val && c.val ≤ 122) || isDigit c || c = 45).Within
      fun c => isHostChar c = true := by
    intro c hc
    simp [isHostChar, hc]
  exact ⟨hletter, ⟨Regex.within_upTo hinner 61, hletter⟩, trivial⟩

lemma v4_of_ipAddress {s : PyStr} {ip : IPv4Address} (h : ipAddress s = some (.v4 ip)) : ipv4Address s = some ip := by
  unfold ipAddress at h
  split at h
  · next hip =>
    cases h
    exact hip
  · obtain ⟨ip', -, he⟩ := Option.map_eq_some_iff.mp h
    cases he

lemma v6_of_ipAddress {s : PyStr} {ip : IPv6Address} (h : ipAddress s = some (.v6 ip)) : ipv6Address s = some ip := by
  unfold ipAddress at h
  split at h
  · cases h
  · obtain ⟨ip', hip, he⟩ := Option.map_eq_some_iff.mp h
    cases he
    exact hip

lemma canonicalHostname_cases {s host : PyStr} (h : canonicalHostname s = some host) :
    (∃ ip, ipAddress s = some ip ∧ host = ip.compressed) ∨
    ipAddress s = none ∧ host = s ∧ ∀ c ∈ s, isHostChar c = true := by
  unfold canonicalHostname at h
  split at h
  · next ip hip =>
    cases h
    exact Or.inl ⟨ip, hip, rfl⟩
  next hip =>
  refine Or.inr ⟨hip, ?_⟩
  split at h
  · next hlocal =>
    cases h
    exact ⟨rfl, hlocal ▸ forall_mem_py (by decide)⟩
  simp only at h
  split at h
  · cases h
  next hlabels =>
  cases h
  simp only [Bool.or_eq_true, not_or, List.any_eq_true, not_exists, not_and, Bool.not_eq_true, Bool.not_eq_false'] at hlabels
  refine ⟨rfl, @forall_mem_of_split 46 (fun c => isHostChar c = true) rfl s fun label hlabel => ?_⟩
  exact (Regex.fullmatch_iff.mp (hlabels.2 label hlabel)).within within_hostLabelPattern

/-- A host without a colon is a dotted name or address. -/
lemma canonicalHostname_plain {s host : PyStr} (h : canonicalHostname s = some host) (hcolon : 58 ∉ s) :
    ∀ c ∈ s, isHostChar c = true := by
  obtain ⟨ip, hip, -⟩ | ⟨-, -, hchars⟩ := canonicalHostname_cases h
  · cases ip with
    | v4 ip =>
      intro c hc
      rcases mem_of_ipv4Address (v4_of_ipAddress hip) c hc with rfl | hdigit
      · rfl
      · simp [isHostChar, hdigit]
    | v6 ip => exact absurd (ipv6Address_eq_some (v6_of_ipAddress hip)).1 hcolon
  · exact hchars

lemma canonicalHostname_colon {s host : PyStr} (h : canonicalHostname s = some host) (hcolon : 58 ∈ s) :
    ∃ ip, ipv6Address s = some ip := by
  obtain ⟨ip, hip, -⟩ | ⟨-, -, hchars⟩ := canonicalHostname_cases h
  · cases ip with
    | v4 ip =>
      rcases mem_of_ipv4Address (v4_of_ipAddress hip) 58 hcolon with he | he
      · cases he
      · cases he
    | v6 ip => exact ⟨ip, v6_of_ipAddress hip⟩
  · exact absurd (hchars 58 hcolon) (by decide)

lemma canonicalHostname_compressed (ip : IpAddress) : canonicalHostname ip.compressed = some ip.compressed := by
  rw [canonicalHostname, ipAddress_compressed]

lemma canonicalHostname_again {s host : PyStr} (h : canonicalHostname s = some host) :
    canonicalHostname host = some host := by
  obtain ⟨ip, -, rfl⟩ | ⟨-, rfl, -⟩ := canonicalHostname_cases h
  · exact canonicalHostname_compressed ip
  · exact h

lemma mem_canonicalHostname {s host : PyStr} (h : canonicalHostname s = some host) {c : PyChar} (hc : c ∈ host) :
    c ∈ s ∨ c = 37 ∨ c = 58 ∨ c = 46 ∨ isHexDigit c = true ∧ asciiLower c = c := by
  have hdigit : ∀ c, isDigit c = true → isHexDigit c = true ∧ asciiLower c = c := by
    intro c hc
    simp only [isDigit, Bool.and_eq_true, decide_eq_true_eq] at hc
    rw [asciiLower, dif_neg (by omega)]
    simp [isHexDigit, hc]
  obtain ⟨ip, hip, rfl⟩ | ⟨-, rfl, -⟩ := canonicalHostname_cases h
  · cases ip with
    | v4 ip => exact Or.inr (Or.inr (Or.inr ((IPv4Address.mem_str hc).imp_right (hdigit c))))
    | v6 ip =>
      rcases IPv6Address.mem_str hc with hc | hc | ⟨z, hz, hc⟩
      · exact Or.inr (Or.inr (IPv6Address.mem_address hc))
      · exact Or.inr (Or.inl hc)
      · exact Or.inl ((ipv6Address_eq_some (v6_of_ipAddress hip)).2.2 z hz c hc)
  · exact Or.inl hc

/-- A canonical host of a text in small letters is in small letters. -/
lemma canonicalHostname_lower {s host : PyStr} (h : canonicalHostname (s.map asciiLower) = some host) :
    host.map asciiLower = host := by
  refine (List.map_congr_left fun c hc => ?_).trans (List.map_id host)
  rcases mem_canonicalHostname h hc with hc | rfl | rfl | rfl | hc
  · obtain ⟨d, -, rfl⟩ := List.mem_map.mp hc
    exact asciiLower_asciiLower d
  · decide
  · decide
  · decide
  · exact hc.2

/-! ### Hosts that are found again -/

/-- A character that a host of an accepted origin can have. -/
def IsHarmless (c : PyChar) : Prop :=
  isUnsafe c = false ∧ isDelimiter c = false ∧ c ≠ 42 ∧ c ≠ 64 ∧ c ≠ 93

instance : DecidablePred IsHarmless := fun _ => inferInstanceAs (Decidable (_ ∧ _))

lemma isHarmless_of_alnum {c : PyChar} (h : (isLetter c || isDigit c) = true) : IsHarmless c := by
  have hne : ∀ d : PyChar, (isLetter d || isDigit d) = false → c ≠ d := by
    rintro d hd rfl
    rw [h] at hd
    cases hd
  refine ⟨?_, ?_, hne 42 rfl, hne 64 rfl, hne 93 rfl⟩
  · simp [isUnsafe, hne 9 rfl, hne 10 rfl, hne 13 rfl]
  · simp [isDelimiter, hne 47 rfl, hne 63 rfl, hne 35 rfl]

lemma isHarmless_of_isHexDigit {c : PyChar} (h : isHexDigit c = true) : IsHarmless c := by
  refine isHarmless_of_alnum ?_
  simp only [isHexDigit, isLetter, isDigit, Bool.or_eq_true, Bool.and_eq_true, decide_eq_true_eq] at h ⊢
  omega

lemma isHarmless_lower {c : PyChar} (h : IsHarmless c) : IsHarmless (asciiLower c) := by
  by_cases hc : isLetter c = true
  · refine isHarmless_of_alnum ?_
    rw [isLetter_lower hc, Bool.true_or]
  · have hupper : ¬ (65 ≤ c.val ∧ c.val ≤ 90) := fun hupper => hc (by simp [isLetter, hupper])
    rwa [asciiLower, dif_neg hupper]

/-- A host whose origin is accepted. -/
structure Hosts (hostname host : PyStr) : Prop where
  canonical : canonicalHostname (hostname.map asciiLower) = some host
  lower : SplitResult.lowerHost hostname = hostname
  harmless : ∀ c ∈ hostname, IsHarmless c

namespace Hosts

variable {hostname host : PyStr} (h : Hosts hostname host)
include h

lemma hostChar (hcolon : 58 ∉ hostname) {c : PyChar} (hc : c ∈ hostname) : isHostChar (asciiLower c) = true :=
  canonicalHostname_plain h.canonical (fun hmem => hcolon ((mem_map_lower (by decide)).mp hmem)) _
    (List.mem_map_of_mem hc)

lemma isHost : IsHost hostname where
  at_sign hmem := (h.harmless 64 hmem).2.2.2.1 rfl
  plain hcolon := ⟨fun hmem => absurd (h.hostChar hcolon hmem) (by decide), fun hmem => (h.harmless 93 hmem).2.2.2.2 rfl⟩
  bracket _ hmem := (h.harmless 93 hmem).2.2.2.2 rfl

lemma checkBracketedHost (hcolon : 58 ∈ hostname) : checkBracketedHost hostname = true := by
  obtain ⟨ip, hip⟩ := canonicalHostname_colon h.canonical ((mem_map_lower (by decide)).mpr hcolon)
  obtain ⟨ip', hip'⟩ := ipv6Address_of_lower hip
  obtain ⟨-, ⟨c, t, rfl, hc⟩, -⟩ := ipv6Address_eq_some hip'
  have hv : (c :: t).head? ≠ some 118 := by
    rintro he
    cases he
    rcases hc with hc | hc
    · cases hc
    · cases hc
  have hnone : ipv4Address (c :: t) = none := by
    refine Option.eq_none_iff_forall_not_mem.mpr fun x hx => ?_
    rcases mem_of_ipv4Address hx 58 hcolon with he | he
    · cases he
    · cases he
  rw [Lib.checkBracketedHost, if_neg hv, ipAddress, hnone, hip']
  rfl

lemma ne_nil : hostname ≠ [] := by
  rintro rfl
  have hnone : canonicalHostname [] = none := by decide +kernel
  have hcanonical := h.canonical
  rw [List.map_nil, hnone] at hcanonical
  cases hcanonical

lemma again : Hosts host host where
  canonical := by
    rw [canonicalHostname_lower h.canonical]
    exact canonicalHostname_again h.canonical
  lower := SplitResult.lowerHost_eq_self (canonicalHostname_lower h.canonical)
  harmless c hc := by
    rcases mem_canonicalHostname h.canonical hc with hc | rfl | rfl | rfl | hc
    · obtain ⟨d, hd, rfl⟩ := List.mem_map.mp hc
      exact isHarmless_lower (h.harmless d hd)
    · decide
    · decide
    · decide
    · exact isHarmless_of_isHexDigit hc.1

end Hosts

lemma Renders.exists_hosts {value origin : PyStr} {parsed : SplitResult} (h : Renders parsed origin)
    (hparsed : urlsplit value = some parsed) (hstar : 42 ∉ parsed.netloc) :
    ∃ hostname host port, parsed.hostname = some hostname ∧ Hosts hostname host ∧ parsed.port = some port ∧
      origin = urlOf parsed.scheme (netlocOf host (writtenPort parsed.scheme port)) := by
  obtain ⟨-, -, hat, hostname, host, port, hhostname, hhost, hport, horigin⟩ := h
  obtain ⟨tail, hw⟩ := exists_written hat (urlsplit_eq_some.mp hparsed).1
  obtain ⟨-, rfl⟩ := SplitResult.hostname_eq_some.mp hhostname
  refine ⟨_, host, port, hhostname, ⟨hhost, ?_, ?_⟩, hport, horigin⟩
  · exact SplitResult.lowerHost_lowerHost _
  · refine SplitResult.forall_lowerHost (fun c => isHarmless_lower) fun c hc => ?_
    have hnetloc := hw.mem_host hc
    obtain ⟨-, hsafe, hdelimiter⟩ := urlsplit_netloc hparsed hnetloc
    exact ⟨hsafe, hdelimiter, fun he => hstar (he ▸ hnetloc), fun he => hat (he ▸ hnetloc), fun he => hw.closed (he ▸ hc)⟩

/-! ### The canonical form of a URL that is written -/

lemma isSpace_of_isLetter {c : PyChar} (h : isLetter c = true) : isSpace c = false := by
  simp only [isLetter, Bool.or_eq_true, Bool.and_eq_true, decide_eq_true_eq] at h
  simp only [isSpace, Bool.or_eq_false_iff, Bool.and_eq_false_iff, decide_eq_false_iff_not, beq_eq_false_iff_ne]
  omega

lemma isSpace_of_isDigit {c : PyChar} (h : isDigit c = true) : isSpace c = false := by
  simp only [isDigit, Bool.and_eq_true, decide_eq_true_eq] at h
  simp only [isSpace, Bool.or_eq_false_iff, Bool.and_eq_false_iff, decide_eq_false_iff_not, beq_eq_false_iff_ne]
  omega

lemma isSpace_of_isHostChar {c : PyChar} (h : isHostChar (asciiLower c) = true) : isSpace c = false := by
  by_cases hc : 65 ≤ c.val ∧ c.val ≤ 90
  · exact isSpace_of_isLetter (by simp [isLetter, hc])
  · rw [asciiLower, dif_neg hc] at h
    simp only [isHostChar, Bool.or_eq_true, decide_eq_true_eq] at h
    rcases h with ((h | h) | rfl) | rfl
    · exact isSpace_of_isLetter (by simp [isLetter, h])
    · exact isSpace_of_isDigit h
    · rfl
    · rfl

lemma Renders.isSpace_getLast {value origin : PyStr} {parsed : SplitResult} (h : Renders parsed origin)
    (hparsed : urlsplit value = some parsed) (hstar : 42 ∉ parsed.netloc) {c : PyChar}
    (hc : c ∈ parsed.netloc.getLast?) : isSpace c = false := by
  obtain ⟨hostname, host, port, hhostname, hhosts, hport, -⟩ := h.exists_hosts hparsed hstar
  obtain ⟨tail, hw⟩ := exists_written h.2.2.1 (urlsplit_eq_some.mp hparsed).1
  obtain ⟨-, rfl⟩ := SplitResult.hostname_eq_some.mp hhostname
  have htail : c ∈ tail → isSpace c = false := by
    intro hmem
    rcases hw.mem_tail hport hmem with rfl | hdigit
    · rfl
    · exact isSpace_of_isDigit hdigit
  rcases hw.netloc_cases with ⟨hcolon, hn⟩ | hn
  · rw [hn] at hc
    by_cases hnil : tail = []
    · rw [hnil, List.append_nil] at hc
      have hmem := List.mem_map_of_mem (f := asciiLower) (List.mem_of_getLast? hc)
      rw [← SplitResult.map_lowerHost] at hmem
      refine isSpace_of_isHostChar (canonicalHostname_plain hhosts.canonical ?_ _ hmem)
      rwa [mem_map_lower (by decide), mem_lowerHost (by decide)]
    · rw [List.getLast?_append_of_ne_nil _ hnil] at hc
      exact htail (List.mem_of_getLast? hc)
  · rw [hn, List.getLast?_append_of_ne_nil _ (List.cons_ne_nil _ _)] at hc
    rcases List.mem_cons.mp (List.mem_of_getLast? hc) with rfl | hmem
    · rfl
    · exact htail hmem

lemma strip_urlOf {scheme netloc : PyStr} (hs : IsScheme scheme) (hne : netloc ≠ [])
    (hlast : ∀ c ∈ netloc.getLast?, isSpace c = false) : strip (urlOf scheme netloc) = urlOf scheme netloc := by
  refine strip_eq_self_iff.mpr ⟨fun c hc => ?_, fun c hc => hlast c ?_⟩
  · have hletter := hs.letter
    cases scheme with
    | nil => cases hletter
    | cons d scheme =>
      cases hc
      exact isSpace_of_isLetter hletter
  · have happend : urlOf scheme netloc = (scheme ++ [58, 47, 47]) ++ netloc := by simp [urlOf]
    rwa [happend, List.getLast?_append_of_ne_nil _ hne] at hc

lemma star_not_mem_urlOf {scheme netloc : PyStr} (hs : IsScheme scheme) (hn : 42 ∉ netloc) : 42 ∉ urlOf scheme netloc := by
  intro h
  rcases List.mem_append.mp h with h | h
  · exact absurd (hs.chars 42 h) (by decide)
  · simp only [List.mem_cons] at h
    rcases h with h | h | h | h
    · cases h
    · cases h
    · cases h
    · exact hn h

namespace Hosts

variable {hostname host : PyStr} (h : Hosts hostname host) {port : Option ℕ}
include h

lemma isHarmless_netlocOf {c : PyChar} (hc : c ∈ netlocOf hostname port) : IsHarmless c ∨ c = 93 := by
  rcases mem_netlocOf hc with hc | rfl | rfl | rfl | hc
  · exact Or.inl (h.harmless c hc)
  · exact Or.inl (by decide)
  · exact Or.inr rfl
  · exact Or.inl (by decide)
  · exact Or.inl (isHarmless_of_alnum (by rw [hc, Bool.or_true]))

lemma netlocOf_ne_nil : netlocOf hostname port ≠ [] := by
  intro he
  obtain ⟨c, hc⟩ := List.exists_mem_of_ne_nil _ h.ne_nil
  have := @mem_netlocOf_of_mem _ port _ hc
  rw [he] at this
  exact absurd this List.not_mem_nil

lemma isSpace_getLast {c : PyChar} (hc : c ∈ (netlocOf hostname port).getLast?) : isSpace c = false := by
  cases port with
  | some port =>
    rw [netlocOf, List.getLast?_append_of_ne_nil _ (by simp [portText])] at hc
    rcases mem_portText (List.mem_of_getLast? hc) with rfl | hdigit
    · rfl
    · exact isSpace_of_isDigit hdigit
  | none =>
    rw [netlocOf, portText, List.append_nil] at hc
    split at hc
    · rw [List.getLast?_append_of_ne_nil _ (by simp)] at hc
      cases hc
      rfl
    · next hcolon => exact isSpace_of_isHostChar (h.hostChar hcolon (List.mem_of_getLast? hc))

/-- The host and the port of an origin are found again. -/
lemma parsed_eq {parsed : SplitResult} (hn : parsed.netloc = netlocOf hostname port) (hport : ∀ p ∈ port, p ≤ 65535) :
    parsed.hostname = some hostname ∧ parsed.port = some port :=
  h.isHost.parsed_eq h.ne_nil h.lower hn hport

variable {scheme : PyStr} (hs : scheme = py "http" ∨ scheme = py "https")
include hs

lemma urlsplit_eq : urlsplit (urlOf scheme (netlocOf hostname port)) =
    some ⟨scheme, netlocOf hostname port, [], [], []⟩ := by
  have hsafe : ∀ c ∈ netlocOf hostname port, isUnsafe c = false ∧ isDelimiter c = false := by
    intro c hc
    rcases h.isHarmless_netlocOf hc with hc | rfl
    · exact ⟨hc.1, hc.2.1⟩
    · exact ⟨rfl, rfl⟩
  rw [urlsplit_urlOf (isScheme_of hs) hsafe, if_pos (h.isHost.bracketsOk_eq h.checkBracketedHost)]

lemma canonicalizeOrigin_urlOf (hport : ∀ p ∈ port, p ≤ 65535) :
    canonicalizeOrigin (urlOf scheme (netlocOf hostname port)) =
      .ok (urlOf scheme (netlocOf host (writtenPort scheme port))) := by
  have hstar : 42 ∉ netlocOf hostname port := fun hmem => by
    rcases h.isHarmless_netlocOf hmem with hc | hc
    · exact hc.2.2.1 rfl
    · cases hc
  obtain ⟨hhostname, hport'⟩ := @parsed_eq _ _ h _ ⟨scheme, netlocOf hostname port, [], [], []⟩ rfl hport
  exact canonicalizeOrigin_eq_ok.mpr ⟨strip_urlOf (isScheme_of hs) h.netlocOf_ne_nil fun c => h.isSpace_getLast,
    star_not_mem_urlOf (isScheme_of hs) hstar, _, h.urlsplit_eq hs, rfl, rfl, rfl, hs, h.netlocOf_ne_nil,
    h.isHost.at_not_mem, hostname, host, port, hhostname, h.canonical, hport', rfl⟩

end Hosts

lemma writtenPort_writtenPort (scheme : PyStr) (port : Option ℕ) :
    writtenPort scheme (writtenPort scheme port) = writtenPort scheme port := by
  unfold writtenPort
  split
  · rfl
  · rfl

lemma writtenPort_le {scheme : PyStr} {port : Option ℕ} (h : ∀ p ∈ port, p ≤ 65535) :
    ∀ p ∈ writtenPort scheme port, p ≤ 65535 := by
  unfold writtenPort
  split
  · simp
  · exact h

/-- **A canonical origin is canonical.** -/
theorem canonicalizeOrigin_again {value origin : PyStr} (h : canonicalizeOrigin value = .ok origin) :
    canonicalizeOrigin origin = .ok origin := by
  obtain ⟨-, hstar, parsed, hparsed, -, -, -, hr⟩ := canonicalizeOrigin_eq_ok.mp h
  obtain ⟨hostname, host, port, -, hhosts, hport, rfl⟩ :=
    hr.exists_hosts hparsed fun hmem => hstar (urlsplit_netloc hparsed hmem).1
  rw [hhosts.again.canonicalizeOrigin_urlOf hr.1 (writtenPort_le (port_le hport)), writtenPort_writtenPort]

/-! ### Equal origins -/

/-- The port of a URL, where the scheme's own is absent or empty. -/
def effectivePort (parsed : SplitResult) : Option ℕ :=
  parsed.port.map fun port => port.getD (defaultPort parsed.scheme)

/-- Two hosts with the same letters, or with the same address. -/
def SameHost (hostname hostname' : PyStr) : Prop :=
  hostname.map asciiLower = hostname'.map asciiLower ∨
    ∃ ip, ipAddress (hostname.map asciiLower) = some ip ∧ ipAddress (hostname'.map asciiLower) = some ip

/-- Two URLs with the same scheme, host and port. -/
def SameOrigin (value value' : PyStr) : Prop :=
  ∃ parsed parsed' hostname hostname', urlsplit value = some parsed ∧ urlsplit value' = some parsed' ∧
    parsed.scheme = parsed'.scheme ∧ parsed.hostname = some hostname ∧ parsed'.hostname = some hostname' ∧
    SameHost hostname hostname' ∧ effectivePort parsed = effectivePort parsed'

lemma canonicalHostname_eq_iff {s s' host host' : PyStr} (h : canonicalHostname s = some host)
    (h' : canonicalHostname s' = some host') :
    host = host' ↔ s = s' ∨ ∃ ip, ipAddress s = some ip ∧ ipAddress s' = some ip := by
  constructor
  · rintro rfl
    obtain ⟨ip, hip, rfl⟩ | ⟨hnone, rfl, -⟩ := canonicalHostname_cases h
    · obtain ⟨ip', hip', he⟩ | ⟨hnone', rfl, -⟩ := canonicalHostname_cases h'
      · have hsame := congrArg ipAddress he
        rw [ipAddress_compressed, ipAddress_compressed] at hsame
        cases hsame
        exact Or.inr ⟨ip, hip, hip'⟩
      · rw [ipAddress_compressed] at hnone'
        cases hnone'
    · obtain ⟨ip', hip', rfl⟩ | ⟨-, rfl, -⟩ := canonicalHostname_cases h'
      · rw [ipAddress_compressed] at hnone
        cases hnone
      · exact Or.inl rfl
  · rintro (rfl | ⟨ip, hip, hip'⟩)
    · exact Option.some.inj (h.symm.trans h')
    · rw [canonicalHostname, hip] at h
      rw [canonicalHostname, hip'] at h'
      exact Option.some.inj (h.symm.trans h')

lemma writtenPort_eq_iff {scheme : PyStr} {port port' : Option ℕ} :
    writtenPort scheme port = writtenPort scheme port' ↔
      port.getD (defaultPort scheme) = port'.getD (defaultPort scheme) := by
  have hwritten : ∀ p : Option ℕ, writtenPort scheme p =
      if p.getD (defaultPort scheme) = defaultPort scheme then none else some (p.getD (defaultPort scheme)) := by
    intro p
    cases p with
    | none => simp [writtenPort]
    | some p => simp [writtenPort]
  rw [hwritten, hwritten]
  constructor
  · intro h
    split at h
    · next hp =>
      split at h
      · next hp' => rw [hp, hp']
      · cases h
    · split at h
      · cases h
      · exact Option.some.inj h
  · intro h
    rw [h]

/-- **Two accepted origins have one canonical form exactly where they have the same scheme, host and port.** -/
theorem canonicalizeOrigin_eq_iff {value value' origin origin' : PyStr} (h : canonicalizeOrigin value = .ok origin)
    (h' : canonicalizeOrigin value' = .ok origin') : origin = origin' ↔ SameOrigin value value' := by
  obtain ⟨-, hstar, parsed, hparsed, -, -, -, hr⟩ := canonicalizeOrigin_eq_ok.mp h
  obtain ⟨-, hstar', parsed', hparsed', -, -, -, hr'⟩ := canonicalizeOrigin_eq_ok.mp h'
  obtain ⟨hostname, host, port, hhostname, hhosts, hport, rfl⟩ :=
    hr.exists_hosts hparsed fun hmem => hstar (urlsplit_netloc hparsed hmem).1
  obtain ⟨hostname', host', port', hhostname', hhosts', hport', rfl⟩ :=
    hr'.exists_hosts hparsed' fun hmem => hstar' (urlsplit_netloc hparsed' hmem).1
  have hhost := canonicalHostname_eq_iff hhosts.canonical hhosts'.canonical
  have heffective : effectivePort parsed = some (port.getD (defaultPort parsed.scheme)) := by
    rw [effectivePort, hport]
    rfl
  have heffective' : effectivePort parsed' = some (port'.getD (defaultPort parsed'.scheme)) := by
    rw [effectivePort, hport']
    rfl
  constructor
  · intro he
    have hurl := congrArg urlsplit he
    rw [hhosts.again.urlsplit_eq hr.1, hhosts'.again.urlsplit_eq hr'.1] at hurl
    obtain ⟨hscheme, hnetloc, -⟩ := SplitResult.mk.inj (Option.some.inj hurl)
    -- the host and the port that are read from the netloc
    have hread := @Hosts.parsed_eq _ _ hhosts.again _ ⟨[], netlocOf host (writtenPort parsed.scheme port), [], [], []⟩
      rfl (writtenPort_le (port_le hport))
    have hread' := @Hosts.parsed_eq _ _ hhosts'.again _ ⟨[], netlocOf host (writtenPort parsed.scheme port), [], [], []⟩
      hnetloc (writtenPort_le (port_le hport'))
    have hsame : host = host' := Option.some.inj (hread.1.symm.trans hread'.1)
    have hports := Option.some.inj (hread.2.symm.trans hread'.2)
    rw [← hscheme, writtenPort_eq_iff] at hports
    refine ⟨parsed, parsed', hostname, hostname', hparsed, hparsed', hscheme, hhostname, hhostname', hhost.mp hsame, ?_⟩
    rw [heffective, heffective', hports, hscheme]
  · rintro ⟨_, _, _, _, hp, hp', hscheme, hn, hn', hsame, hports⟩
    cases hparsed.symm.trans hp
    cases hparsed'.symm.trans hp'
    cases hhostname.symm.trans hn
    cases hhostname'.symm.trans hn'
    rw [heffective, heffective', ← hscheme, Option.some.injEq, ← writtenPort_eq_iff] at hports
    rw [hhost.mpr hsame, hports, hscheme]

/-! ### Trusted origins -/

lemma mem_of_mapM {ε α β : Type} {f : α → Except ε β} : ∀ {l : List α} {r : List β}, l.mapM f = .ok r →
    ∀ {b : β}, b ∈ r ↔ ∃ a ∈ l, f a = .ok b
  | [], r, h, b => by
    cases h
    simp
  | a :: l, r, h, b => by
    rw [List.mapM_cons] at h
    cases ha : f a with
    | error e =>
      rw [ha] at h
      cases h
    | ok x =>
      cases hl : l.mapM f with
      | error e =>
        rw [ha, hl] at h
        cases h
      | ok xs =>
        rw [ha, hl] at h
        cases h
        rw [List.mem_cons, mem_of_mapM hl, eq_comm]
        simp only [List.mem_cons, exists_eq_or_imp, ha, Except.ok.injEq]

/-- The trusted origins are the canonical forms of those that are configured. -/
lemma mem_validateTrustedOrigins {value trusted : List PyStr} (h : validateTrustedOrigins value = .ok trusted)
    {origin : PyStr} : origin ∈ trusted ↔ ∃ v ∈ value, canonicalizeOrigin v = .ok origin := by
  unfold validateTrustedOrigins at h
  split at h
  · cases h
  cases hm : value.mapM canonicalizeOrigin with
  | error e =>
    rw [hm] at h
    cases h
  | ok canonical =>
    rw [hm] at h
    have htrusted : canonical = trusted := by
      simp only [Bind.bind, Except.bind] at h
      split at h
      · cases h
      · exact Except.ok.inj h
    rw [← htrusted]
    exact mem_of_mapM hm

end DataCheck.Core
