import DataCheck.Lib.IpAddress

/-!
# URLs

`urllib.parse.urlsplit` of an ASCII text, as in CPython 3.13.
-/

namespace DataCheck.Lib

open PyStr

/-- `urllib.parse.SplitResult` -/
structure SplitResult where
  scheme : PyStr
  netloc : PyStr
  path : PyStr
  query : PyStr
  fragment : PyStr
deriving DecidableEq

/-- A character of `_UNSAFE_URL_BYTES_TO_REMOVE`. -/
def isUnsafe (c : PyChar) : Bool := c = 9 || c = 10 || c = 13

/-- `url.lstrip(_WHATWG_C0_CONTROL_OR_SPACE)`, with the unsafe characters removed. -/
def cleanUrl (url : PyStr) : PyStr := (url.dropWhile fun c => c.val ≤ 32).filter fun c => !isUnsafe c

def isLetter (c : PyChar) : Bool := (65 ≤ c.val && c.val ≤ 90) || (97 ≤ c.val && c.val ≤ 122)

/-- A character of `scheme_chars`. -/
def isSchemeChar (c : PyChar) : Bool := isLetter c || isDigit c || c = 43 || c = 45 || c = 46

/-- The scheme in lower case, and what follows it. -/
def splitScheme (url : PyStr) : PyStr × PyStr :=
  if 58 ∈ url ∧ (before 58 url).head?.any isLetter ∧ (before 58 url).all isSchemeChar then
    ((before 58 url).map asciiLower, after 58 url)
  else ([], url)

/-- What ends a `netloc`. -/
def isDelimiter (c : PyChar) : Bool := c = 47 || c = 63 || c = 35

/-- `_splitnetloc(url, 2)`, where `url` starts with two slashes. -/
def splitNetloc (url : PyStr) : PyStr × PyStr :=
  if url.take 2 = [47, 47] then
    ((url.drop 2).takeWhile fun c => !isDelimiter c, (url.drop 2).dropWhile fun c => !isDelimiter c)
  else ([], url)

/-- `\Av[a-fA-F0-9]+\..+\Z` -/
def ipvFuturePattern : Regex :=
  .seq (.oneOf "v") (.seq (.plus (.cls isHexDigit)) (.seq (.oneOf ".") (.plus (.cls fun c => c ≠ 10))))

def checkBracketedHost (hostname : PyStr) : Bool :=
  if hostname.head? = some 118 then ipvFuturePattern.fullmatch hostname
  else match ipAddress hostname with
    | some (.v6 _) => true
    | _ => false

def checkBracketedNetloc (netloc : PyStr) : Bool :=
  let hostname_and_port := afterLast 64 netloc
  if 91 ∈ hostname_and_port then
    let bracketed := after 91 hostname_and_port
    let port := after 93 bracketed
    before 91 hostname_and_port = [] && (port = [] || port.head? = some 58) &&
      checkBracketedHost (before 93 bracketed)
  else checkBracketedHost (before 58 hostname_and_port)

/-- The brackets of a `netloc`. -/
def bracketsOk (netloc : PyStr) : Bool :=
  if 91 ∈ netloc ∧ 93 ∉ netloc ∨ 93 ∈ netloc ∧ 91 ∉ netloc then false
  else if 91 ∈ netloc ∧ 93 ∈ netloc then checkBracketedNetloc netloc
  else true

/-- `urlsplit(url)`; `none` is a `ValueError`. -/
def urlsplit (url : PyStr) : Option SplitResult :=
  let (scheme, url) := splitScheme (cleanUrl url)
  let (netloc, url) := splitNetloc url
  if !bracketsOk netloc then none
  else some
    { scheme, netloc, path := before 63 (before 35 url), query := after 63 (before 35 url)
      fragment := after 35 url }

namespace SplitResult

def username (parsed : SplitResult) : Option PyStr :=
  if 64 ∈ parsed.netloc then some (before 58 (beforeLast 64 parsed.netloc)) else none

def password (parsed : SplitResult) : Option PyStr :=
  if 64 ∈ parsed.netloc ∧ 58 ∈ beforeLast 64 parsed.netloc then some (after 58 (beforeLast 64 parsed.netloc))
  else none

/-- `_hostinfo`: the host and the text of the port. -/
def hostinfo (parsed : SplitResult) : PyStr × Option PyStr :=
  let hostinfo := afterLast 64 parsed.netloc
  let bracketed := after 91 hostinfo
  let (hostname, port) :=
    if 91 ∈ hostinfo then (before 93 bracketed, after 58 (after 93 bracketed))
    else (before 58 hostinfo, after 58 hostinfo)
  (hostname, if port = [] then none else some port)

/-- A host in lower case, but not its zone. -/
def lowerHost (hostname : PyStr) : PyStr :=
  (before 37 hostname).map asciiLower ++ hostname.dropWhile fun c => c ≠ 37

def hostname (parsed : SplitResult) : Option PyStr :=
  if parsed.hostinfo.1 = [] then none else some (lowerHost parsed.hostinfo.1)

/-- `none` is a `ValueError`. -/
def port (parsed : SplitResult) : Option (Option ℕ) :=
  match parsed.hostinfo.2 with
  | none => some none
  | some port =>
    if port.all isDigit && port.length ≤ maxStrDigits && decimal port ≤ 65535 then some (some (decimal port))
    else none

end SplitResult

/-! ### URLs of a scheme and a netloc -/

/-- `f"{scheme}://{netloc}"` -/
def urlOf (scheme netloc : PyStr) : PyStr := scheme ++ 58 :: 47 :: 47 :: netloc

/-- What `urlsplit` finds as a scheme. -/
structure IsScheme (scheme : PyStr) : Prop where
  letter : scheme.head?.any isLetter = true
  chars : ∀ c ∈ scheme, isSchemeChar c = true
  lower : scheme.map asciiLower = scheme

lemma isLetter_lower {c : PyChar} (h : isLetter c = true) : isLetter (asciiLower c) = true := by
  unfold asciiLower
  split
  · simp only [isLetter, Bool.or_eq_true, Bool.and_eq_true, decide_eq_true_eq]
    omega
  · exact h

lemma isSchemeChar_lower {c : PyChar} (h : isSchemeChar c = true) : isSchemeChar (asciiLower c) = true := by
  by_cases hc : 65 ≤ c.val ∧ c.val ≤ 90
  · have hletter : isLetter (asciiLower c) = true := by
      refine isLetter_lower ?_
      simp only [isLetter, Bool.or_eq_true, Bool.and_eq_true, decide_eq_true_eq]
      omega
    simp [isSchemeChar, hletter]
  · rwa [asciiLower, dif_neg hc]

lemma splitScheme_cases (url : PyStr) : splitScheme url = ([], url) ∨
    IsScheme (splitScheme url).1 ∧ ∃ a b, url = a ++ 58 :: b ∧ 58 ∉ a ∧ splitScheme url = (a.map asciiLower, b) := by
  unfold splitScheme
  split
  · next h =>
    obtain ⟨hcolon, hletter, hchars⟩ := h
    refine Or.inr ⟨⟨?_, ?_, lower_lower _⟩, before 58 url, after 58 url, (before_after hcolon).symm, not_mem_before, rfl⟩
    · rw [List.head?_map]
      cases hhead : (before 58 url).head? with
      | none => rw [hhead] at hletter; cases hletter
      | some c =>
        rw [hhead] at hletter
        exact isLetter_lower hletter
    · exact List.forall_mem_map.mpr fun c hc => isSchemeChar_lower (List.all_eq_true.mp hchars c hc)
  · exact Or.inl rfl

lemma takeWhile_append_cons {p : PyChar → Bool} {c : PyChar} (hc : p c = false) (a b : PyStr) :
    (a ++ c :: b).takeWhile p = a.takeWhile p := by
  induction a with
  | nil => simp [hc]
  | cons d a ih => simp only [List.cons_append, List.takeWhile_cons, ih]

lemma cleanUrl_append {url : PyStr} (h : cleanUrl url ≠ []) (t : PyStr) :
    cleanUrl (url ++ t) = cleanUrl url ++ t.filter fun c => !isUnsafe c := by
  unfold cleanUrl at h ⊢
  have hdrop : (url.dropWhile fun c => c.val ≤ 32) ≠ [] := fun he => h (by rw [he]; rfl)
  rw [List.dropWhile_append, if_neg (by simpa using hdrop), List.filter_append]

lemma splitScheme_append {url : PyStr} (h : (splitScheme url).1 ≠ []) (t : PyStr) :
    splitScheme (url ++ t) = ((splitScheme url).1, (splitScheme url).2 ++ t) := by
  obtain he | ⟨hscheme, a, b, rfl, ha, he⟩ := splitScheme_cases url
  · rw [he] at h
    exact absurd rfl h
  · rw [he] at h ⊢
    rw [splitScheme, before_append ha, after_append ha] at he
    rw [splitScheme, List.append_assoc, List.cons_append, before_append ha, after_append ha]
    split at he
    · next hc => rw [if_pos ⟨by simp, hc.2⟩]
    · exact absurd (Prod.mk.inj he).1.symm h

lemma splitNetloc_append {url : PyStr} (h : (splitNetloc url).1 ≠ []) (t : PyStr) :
    (splitNetloc (url ++ 47 :: t)).1 = (splitNetloc url).1 := by
  unfold splitNetloc at h ⊢
  split at h
  · next htwo =>
    have hlen : 2 ≤ url.length := by
      have hlen := congrArg List.length htwo
      rw [List.length_take] at hlen
      simp only [List.length_cons, List.length_nil] at hlen
      omega
    rw [if_pos htwo, List.take_append_of_le_length hlen, if_pos htwo, List.drop_append_of_le_length hlen]
    exact takeWhile_append_cons rfl _ _
  · exact absurd rfl h

/-- What `urlsplit` finds. -/
lemma urlsplit_eq_some {url : PyStr} {parsed : SplitResult} : urlsplit url = some parsed ↔
    bracketsOk parsed.netloc = true ∧ ∃ rest, splitScheme (cleanUrl url) = (parsed.scheme, rest) ∧
      ∃ tail, splitNetloc rest = (parsed.netloc, tail) ∧ parsed.path = before 63 (before 35 tail) ∧
        parsed.query = after 63 (before 35 tail) ∧ parsed.fragment = after 35 tail := by
  unfold urlsplit
  generalize splitScheme (cleanUrl url) = cut
  obtain ⟨scheme, rest⟩ := cut
  simp only [Prod.mk.injEq]
  generalize hcut : splitNetloc rest = cut
  obtain ⟨netloc, tail⟩ := cut
  obtain ⟨scheme', netloc', path, query, fragment⟩ := parsed
  simp only
  constructor
  · intro h
    split at h
    · cases h
    next hok =>
    cases h
    exact ⟨by simpa using hok, rest, ⟨rfl, rfl⟩, tail, hcut, rfl, rfl, rfl⟩
  · rintro ⟨hok, rest', ⟨rfl, rfl⟩, tail', hcut', rfl, rfl, rfl⟩
    rw [hcut] at hcut'
    cases hcut'
    rw [if_neg (by simp [hok])]

lemma urlsplit_scheme {url : PyStr} {parsed : SplitResult} (h : urlsplit url = some parsed) :
    parsed.scheme = [] ∨ IsScheme parsed.scheme := by
  obtain ⟨-, rest, hscheme, -⟩ := urlsplit_eq_some.mp h
  obtain he | ⟨hvalid, -⟩ := splitScheme_cases (cleanUrl url)
  · rw [he] at hscheme
    exact Or.inl (Prod.mk.inj hscheme).1.symm
  · rw [hscheme] at hvalid
    exact Or.inr hvalid

lemma splitScheme_snd_sublist (url : PyStr) : (splitScheme url).2.Sublist url := by
  obtain he | ⟨-, a, b, rfl, -, he⟩ := splitScheme_cases url
  · rw [he]
  · rw [he]
    exact (List.sublist_cons_self _ _).trans (List.sublist_append_right _ _)

lemma urlsplit_netloc {url : PyStr} {parsed : SplitResult} (h : urlsplit url = some parsed) {c : PyChar}
    (hc : c ∈ parsed.netloc) : c ∈ url ∧ isUnsafe c = false ∧ isDelimiter c = false := by
  obtain ⟨-, rest, hscheme, tail, hnetloc, -⟩ := urlsplit_eq_some.mp h
  have hrest : rest.Sublist (cleanUrl url) := by
    have := splitScheme_snd_sublist (cleanUrl url)
    rwa [hscheme] at this
  unfold splitNetloc at hnetloc
  split at hnetloc
  · rw [← (Prod.mk.inj hnetloc).1] at hc
    have hclean : c ∈ cleanUrl url :=
      hrest.mem ((List.drop_sublist 2 rest).mem ((List.takeWhile_sublist _).mem hc))
    obtain ⟨hmem, hsafe⟩ := List.mem_filter.mp hclean
    refine ⟨(List.dropWhile_sublist _).mem hmem, by simpa using hsafe, ?_⟩
    simpa using List.mem_takeWhile_imp hc
  · rw [← (Prod.mk.inj hnetloc).1] at hc
    exact absurd hc List.not_mem_nil

/-- What follows a path does not change the scheme and the netloc. -/
lemma urlsplit_append_slash {url : PyStr} {parsed : SplitResult} (h : urlsplit url = some parsed)
    (hscheme : parsed.scheme ≠ []) (hnetloc : parsed.netloc ≠ []) (t : PyStr) :
    ∃ parsed', urlsplit (url ++ 47 :: t) = some parsed' ∧ parsed'.scheme = parsed.scheme ∧
      parsed'.netloc = parsed.netloc := by
  obtain ⟨hok, rest, hs, tail, hn, -⟩ := urlsplit_eq_some.mp h
  have hclean : cleanUrl url ≠ [] := fun he => by
    rw [he] at hs
    exact hscheme (Prod.mk.inj hs).1.symm
  have hone : (splitScheme (cleanUrl url)).1 ≠ [] := by
    rw [hs]
    exact hscheme
  have htwo : (splitNetloc rest).1 ≠ [] := by
    rw [hn]
    exact hnetloc
  have hs' : splitScheme (cleanUrl (url ++ 47 :: t)) =
      (parsed.scheme, rest ++ 47 :: t.filter fun c => !isUnsafe c) := by
    rw [cleanUrl_append hclean, List.filter_cons_of_pos rfl, splitScheme_append hone, hs]
  have hn' := splitNetloc_append htwo (t.filter fun c => !isUnsafe c)
  rw [hn] at hn'
  generalize htail : (splitNetloc (rest ++ 47 :: t.filter fun c => !isUnsafe c)).2 = tail'
  exact ⟨⟨parsed.scheme, parsed.netloc, before 63 (before 35 tail'), after 63 (before 35 tail'), after 35 tail'⟩,
    urlsplit_eq_some.mpr ⟨hok, _, hs', tail', Prod.ext hn' htail, rfl, rfl, rfl⟩, rfl, rfl⟩

lemma cleanUrl_eq_self {url : PyStr} (hhead : ∀ c ∈ url.head?, 32 < c.val) (hsafe : ∀ c ∈ url, isUnsafe c = false) :
    cleanUrl url = url := by
  have hdrop : (url.dropWhile fun c => c.val ≤ 32) = url := by
    cases url with
    | nil => rfl
    | cons c url => exact List.dropWhile_cons_of_neg (by simpa using hhead c rfl)
  rw [cleanUrl, hdrop]
  exact List.filter_eq_self.mpr fun c hc => by simp [hsafe c hc]

lemma isUnsafe_of_isSchemeChar {c : PyChar} (h : isSchemeChar c = true) : isUnsafe c = false := by
  rw [Bool.eq_false_iff]
  intro hc
  simp only [isUnsafe, Bool.or_eq_true, decide_eq_true_eq] at hc
  rcases hc with (rfl | rfl) | rfl
  · cases h
  · cases h
  · cases h

lemma isUnsafe_lower (c : PyChar) : isUnsafe (asciiLower c) = isUnsafe c := by
  simp only [isUnsafe, asciiLower_eq_iff (c := c) (d := 9) (by decide), asciiLower_eq_iff (c := c) (d := 10) (by decide),
    asciiLower_eq_iff (c := c) (d := 13) (by decide)]

lemma isDelimiter_lower (c : PyChar) : isDelimiter (asciiLower c) = isDelimiter c := by
  simp only [isDelimiter, asciiLower_eq_iff (c := c) (d := 47) (by decide),
    asciiLower_eq_iff (c := c) (d := 63) (by decide), asciiLower_eq_iff (c := c) (d := 35) (by decide)]

lemma urlsplit_urlOf {scheme netloc : PyStr} (hs : IsScheme scheme)
    (hn : ∀ c ∈ netloc, isUnsafe c = false ∧ isDelimiter c = false) :
    urlsplit (urlOf scheme netloc) = if bracketsOk netloc then some ⟨scheme, netloc, [], [], []⟩ else none := by
  have hcolon : 58 ∉ scheme := fun h => absurd (hs.chars 58 h) (by decide)
  have hclean : cleanUrl (urlOf scheme netloc) = urlOf scheme netloc := by
    refine cleanUrl_eq_self ?_ fun c hc => ?_
    · have hletter := hs.letter
      cases scheme with
      | nil => cases hletter
      | cons d scheme =>
        rintro c hc
        cases hc
        simp only [List.head?_cons, Option.any_some, isLetter, Bool.or_eq_true, Bool.and_eq_true,
          decide_eq_true_eq] at hletter
        omega
    · rcases List.mem_append.mp hc with hc | hc
      · exact isUnsafe_of_isSchemeChar (hs.chars c hc)
      simp only [List.mem_cons] at hc
      rcases hc with rfl | rfl | rfl | hc
      · rfl
      · rfl
      · rfl
      · exact (hn c hc).1
  have hscheme : splitScheme (urlOf scheme netloc) = (scheme, 47 :: 47 :: netloc) := by
    have hletter := hs.letter
    rw [splitScheme, urlOf, before_append hcolon, after_append hcolon, hs.lower]
    exact if_pos ⟨by simp, hletter, List.all_eq_true.mpr hs.chars⟩
  have htake : netloc.takeWhile (fun c => !isDelimiter c) = netloc :=
    List.takeWhile_eq_self_iff.mpr fun c hc => by simp [(hn c hc).2]
  have hdrop : netloc.dropWhile (fun c => !isDelimiter c) = [] :=
    List.dropWhile_eq_nil_iff.mpr fun c hc => by simp [(hn c hc).2]
  have hnetloc : splitNetloc (47 :: 47 :: netloc) = (netloc, []) := by
    have htwo : (47 :: 47 :: netloc).take 2 = [47, 47] := rfl
    rw [splitNetloc, if_pos htwo]
    exact Prod.ext htake hdrop
  rw [urlsplit, hclean, hscheme]
  simp only [hnetloc]
  cases bracketsOk netloc with
  | false => rfl
  | true => rfl

lemma urlsplit_no_scheme {netloc : PyStr} {parsed : SplitResult} (hn : ∀ c ∈ netloc, isUnsafe c = false)
    (h : urlsplit (urlOf [] netloc) = some parsed) : parsed.scheme = [] := by
  have hclean : cleanUrl (urlOf [] netloc) = urlOf [] netloc := by
    refine cleanUrl_eq_self ?_ fun c hc => ?_
    · rintro c ⟨⟩
      decide
    · simp only [urlOf, List.nil_append, List.mem_cons] at hc
      rcases hc with rfl | rfl | rfl | hc
      · rfl
      · rfl
      · rfl
      · exact hn c hc
  have hbefore : before 58 (urlOf [] netloc) = [] := before_append List.not_mem_nil
  have hscheme : splitScheme (urlOf [] netloc) = ([], urlOf [] netloc) := by
    rw [splitScheme, hbefore, if_neg (by simp)]
  obtain ⟨-, rest, hs, -⟩ := urlsplit_eq_some.mp h
  rw [hclean, hscheme] at hs
  exact (Prod.mk.inj hs).1.symm

/-! ### The netloc of a host and a port -/

/-- A port behind its colon. -/
def portText : Option ℕ → PyStr
  | none => []
  | some port => 58 :: inBase 10 port

/-- A host, in brackets where it has a colon, and a port. -/
def netlocOf (hostname : PyStr) (port : Option ℕ) : PyStr :=
  (if 58 ∈ hostname then 91 :: hostname ++ [93] else hostname) ++ portText port

lemma mem_portText {port : Option ℕ} {c : PyChar} (h : c ∈ portText port) : c = 58 ∨ isDigit c = true := by
  cases port with
  | none => exact absurd h List.not_mem_nil
  | some port => exact (List.mem_cons.mp h).imp_right (isDigit_inBase c)

lemma not_mem_portText {port : Option ℕ} {c : PyChar} (hcolon : c ≠ 58) (hc : isDigit c = false) :
    c ∉ portText port := fun hmem => by
  rcases mem_portText hmem with h | h
  · exact hcolon h
  · rw [h] at hc
    cases hc

lemma mem_netlocOf {hostname : PyStr} {port : Option ℕ} {c : PyChar} (h : c ∈ netlocOf hostname port) :
    c ∈ hostname ∨ c = 91 ∨ c = 93 ∨ c = 58 ∨ isDigit c = true := by
  rcases List.mem_append.mp h with h | h
  · split at h
    · rcases List.mem_append.mp h with h | h
      · rcases List.mem_cons.mp h with h | h
        · exact Or.inr (Or.inl h)
        · exact Or.inl h
      · exact Or.inr (Or.inr (Or.inl (List.mem_singleton.mp h)))
    · exact Or.inl h
  · exact Or.inr (Or.inr (Or.inr (mem_portText h)))

lemma mem_netlocOf_of_mem {hostname : PyStr} {port : Option ℕ} {c : PyChar} (h : c ∈ hostname) :
    c ∈ netlocOf hostname port := by
  refine List.mem_append_left _ ?_
  split
  · exact List.mem_append_left _ (List.mem_cons_of_mem _ h)
  · exact h

/-- A host that a netloc can hold. -/
structure IsHost (hostname : PyStr) : Prop where
  at_sign : 64 ∉ hostname
  plain : 58 ∉ hostname → 91 ∉ hostname ∧ 93 ∉ hostname
  bracket : 58 ∈ hostname → 93 ∉ hostname

namespace IsHost

variable {hostname : PyStr} (h : IsHost hostname) {port : Option ℕ}
include h

lemma at_not_mem : 64 ∉ netlocOf hostname port := fun hmem => by
  rcases mem_netlocOf hmem with hc | hc | hc | hc | hc
  · exact h.at_sign hc
  all_goals cases hc

/-- The host and the port of a netloc are found again. -/
lemma hostinfo_eq {parsed : SplitResult} (hn : parsed.netloc = netlocOf hostname port) :
    parsed.hostinfo = (hostname, port.map (inBase 10)) := by
  have htext : after 58 (portText port) = (port.map (inBase 10)).getD [] := by
    cases port with
    | none => rfl
    | some port =>
      have hcut : after 58 ([] ++ 58 :: inBase 10 port) = inBase 10 port := after_append List.not_mem_nil
      simpa [portText] using hcut
  have hopt : (if after 58 (portText port) = [] then none else some (after 58 (portText port))) =
      port.map (inBase 10) := by
    rw [htext]
    cases port with
    | none => rfl
    | some port => exact if_neg inBase_ne_nil
  unfold SplitResult.hostinfo
  rw [hn, afterLast_eq_self h.at_not_mem]
  by_cases hcolon : 58 ∈ hostname
  · have hopen : 91 ∈ netlocOf hostname port := by simp [netlocOf, hcolon]
    have hafter : after 91 (netlocOf hostname port) = hostname ++ 93 :: portText port := by
      have hcut : after 91 ([] ++ 91 :: (hostname ++ 93 :: portText port)) = hostname ++ 93 :: portText port :=
        after_append List.not_mem_nil
      simpa [netlocOf, hcolon] using hcut
    simp only [if_pos hopen, hafter, before_append (h.bracket hcolon), after_append (h.bracket hcolon), hopt]
  · have hn : netlocOf hostname port = hostname ++ portText port := by rw [netlocOf, if_neg hcolon]
    have hopen : 91 ∉ netlocOf hostname port := by
      rw [hn, List.mem_append, not_or]
      exact ⟨(h.plain hcolon).1, not_mem_portText (by decide) rfl⟩
    have hbefore : before 58 (netlocOf hostname port) = hostname := by
      rw [hn]
      cases port with
      | none => rw [portText, List.append_nil, before_eq_self hcolon]
      | some port => exact before_append hcolon
    have hafter : after 58 (netlocOf hostname port) = after 58 (portText port) := by
      rw [hn, htext]
      cases port with
      | none =>
        rw [portText, List.append_nil, after_eq_nil hcolon]
        rfl
      | some port => exact after_append hcolon
    simp only [if_neg hopen, hbefore, hafter, hopt]

lemma port_eq {parsed : SplitResult} (hn : parsed.netloc = netlocOf hostname port) (hport : ∀ p ∈ port, p ≤ 65535) :
    parsed.port = some port := by
  unfold SplitResult.port
  rw [h.hostinfo_eq hn]
  cases port with
  | none => rfl
  | some p =>
    have hp : p ≤ 65535 := hport p rfl
    have hdigits : (inBase 10 p).all isDigit = true := List.all_eq_true.mpr isDigit_inBase
    have hlen : (inBase 10 p).length ≤ 5 := length_inBase_le (by omega) (by omega) (by omega)
    simp only [Option.map_some, decimal_inBase, hdigits, Bool.true_and]
    rw [if_pos (by simpa using ⟨Nat.le_trans hlen (by decide), hp⟩)]

lemma bracketsOk_eq (hcheck : 58 ∈ hostname → checkBracketedHost hostname = true) :
    bracketsOk (netlocOf hostname port) = true := by
  unfold bracketsOk
  by_cases hcolon : 58 ∈ hostname
  · have hopen : 91 ∈ netlocOf hostname port := by simp [netlocOf, hcolon]
    have hclose : 93 ∈ netlocOf hostname port := by simp [netlocOf, hcolon]
    have hn : netlocOf hostname port = [] ++ 91 :: (hostname ++ 93 :: portText port) := by simp [netlocOf, hcolon]
    rw [if_neg (by simp [hopen, hclose]), if_pos ⟨hopen, hclose⟩, checkBracketedNetloc, afterLast_eq_self h.at_not_mem]
    simp only [if_pos hopen]
    rw [hn, before_append List.not_mem_nil, after_append List.not_mem_nil, before_append (h.bracket hcolon),
      after_append (h.bracket hcolon), hcheck hcolon]
    cases port with
    | none => rfl
    | some port => simp [portText]
  · have hn : netlocOf hostname port = hostname ++ portText port := by rw [netlocOf, if_neg hcolon]
    have hopen : 91 ∉ netlocOf hostname port := by
      rw [hn, List.mem_append, not_or]
      exact ⟨(h.plain hcolon).1, not_mem_portText (by decide) rfl⟩
    have hclose : 93 ∉ netlocOf hostname port := by
      rw [hn, List.mem_append, not_or]
      exact ⟨(h.plain hcolon).2, not_mem_portText (by decide) rfl⟩
    rw [if_neg (by simp [hopen, hclose]), if_neg (by simp [hopen])]

end IsHost

/-! ### The host and the port of a netloc -/

/-- How a netloc without user information is written: `tail` is the port with its colon, or empty. -/
structure Written (parsed : SplitResult) (tail : PyStr) : Prop where
  tail_cases : tail = [] ∨ ∃ port, tail = 58 :: port
  port_eq : parsed.hostinfo.2 = if tail.drop 1 = [] then none else some (tail.drop 1)
  netloc_cases : 58 ∉ parsed.hostinfo.1 ∧ parsed.netloc = parsed.hostinfo.1 ++ tail ∨
    parsed.netloc = 91 :: parsed.hostinfo.1 ++ 93 :: tail
  closed : 93 ∉ parsed.hostinfo.1

lemma exists_written {parsed : SplitResult} (hat : 64 ∉ parsed.netloc) (hok : bracketsOk parsed.netloc = true) :
    ∃ tail, Written parsed tail := by
  have hlast : afterLast 64 parsed.netloc = parsed.netloc := afterLast_eq_self hat
  by_cases hopen : 91 ∈ parsed.netloc
  · have hclose : 93 ∈ parsed.netloc := by
      by_contra hno
      simp [bracketsOk, hopen, hno] at hok
    rw [bracketsOk, if_neg (by simp [hopen, hclose]), if_pos ⟨hopen, hclose⟩, checkBracketedNetloc, hlast] at hok
    simp only [if_pos hopen, Bool.and_eq_true, Bool.or_eq_true, decide_eq_true_eq] at hok
    obtain ⟨⟨hnone, hport⟩, -⟩ := hok
    have hnetloc : parsed.netloc = 91 :: after 91 parsed.netloc := by
      have := before_after hopen
      rw [hnone] at this
      exact this.symm
    have hclose' : 93 ∈ after 91 parsed.netloc := by
      rw [hnetloc] at hclose
      exact (List.mem_cons.mp hclose).resolve_left (by decide)
    have hhost : parsed.hostinfo.1 = before 93 (after 91 parsed.netloc) := by
      simp only [SplitResult.hostinfo, hlast, if_pos hopen]
    refine ⟨after 93 (after 91 parsed.netloc), ?_, ?_, Or.inr ?_, ?_⟩
    · refine hport.imp_right fun hcolon => ?_
      exact ⟨_, List.eq_cons_of_mem_head? hcolon⟩
    · simp only [SplitResult.hostinfo, hlast, if_pos hopen]
      rcases hport with hport | hport
      · rw [hport]
        rfl
      · obtain ⟨q, hq⟩ : ∃ q, after 93 (after 91 parsed.netloc) = 58 :: q := ⟨_, List.eq_cons_of_mem_head? hport⟩
        have hcut : after 58 ([] ++ 58 :: q) = q := after_append List.not_mem_nil
        rw [hq, ← List.nil_append (58 :: q), hcut]
        rfl
    · rw [hhost, List.cons_append, before_after hclose']
      exact hnetloc
    · rw [hhost]
      exact not_mem_before
  · have hclose : 93 ∉ parsed.netloc := fun hc => by simp [bracketsOk, hopen, hc] at hok
    have hhost : parsed.hostinfo.1 = before 58 parsed.netloc := by
      simp only [SplitResult.hostinfo, hlast, if_neg hopen]
    have hport : parsed.hostinfo.2 =
        if after 58 parsed.netloc = [] then none else some (after 58 parsed.netloc) := by
      simp only [SplitResult.hostinfo, hlast, if_neg hopen]
    have hclosed : 93 ∉ parsed.hostinfo.1 := fun h => hclose (mem_of_mem_before (hhost ▸ h))
    by_cases hcolon : 58 ∈ parsed.netloc
    · exact ⟨58 :: after 58 parsed.netloc, Or.inr ⟨_, rfl⟩, hport,
        Or.inl ⟨hhost ▸ not_mem_before, hhost ▸ (before_after hcolon).symm⟩, hclosed⟩
    · rw [after_eq_nil hcolon] at hport
      rw [before_eq_self hcolon] at hhost
      exact ⟨[], Or.inl rfl, hport, Or.inl ⟨hhost ▸ hcolon, by rw [hhost, List.append_nil]⟩, hclosed⟩

namespace Written

variable {parsed : SplitResult} {tail : PyStr} (h : Written parsed tail)
include h

lemma mem_host {c : PyChar} (hc : c ∈ parsed.hostinfo.1) : c ∈ parsed.netloc := by
  rcases h.netloc_cases with ⟨-, he⟩ | he
  · rw [he]
    exact List.mem_append_left _ hc
  · rw [he]
    exact List.mem_append_left _ (List.mem_cons_of_mem _ hc)

lemma mem_tail {port : Option ℕ} (hport : parsed.port = some port) {c : PyChar} (hc : c ∈ tail) :
    c = 58 ∨ isDigit c = true := by
  rcases h.tail_cases with rfl | ⟨q, rfl⟩
  · exact absurd hc List.not_mem_nil
  refine (List.mem_cons.mp hc).imp_right fun hc => ?_
  have htext := h.port_eq
  rw [List.drop_succ_cons, List.drop_zero, if_neg (List.ne_nil_of_mem hc)] at htext
  simp only [SplitResult.port, htext] at hport
  split at hport
  · next hdigits =>
    simp only [Bool.and_eq_true] at hdigits
    exact List.all_eq_true.mp hdigits.1.1 c hc
  · cases hport

lemma mem_netloc {port : Option ℕ} (hport : parsed.port = some port) {c : PyChar} (hc : c ∈ parsed.netloc) :
    c ∈ parsed.hostinfo.1 ∨ c = 91 ∨ c = 93 ∨ c = 58 ∨ isDigit c = true := by
  rcases h.netloc_cases with ⟨-, he⟩ | he
  · rw [he] at hc
    rcases List.mem_append.mp hc with hc | hc
    · exact Or.inl hc
    · exact Or.inr (Or.inr (Or.inr (h.mem_tail hport hc)))
  · rw [he] at hc
    rcases List.mem_append.mp hc with hc | hc
    · exact (List.mem_cons.mp hc).elim (fun h => Or.inr (Or.inl h)) Or.inl
    rcases List.mem_cons.mp hc with hc | hc
    · exact Or.inr (Or.inr (Or.inl hc))
    · exact Or.inr (Or.inr (Or.inr (h.mem_tail hport hc)))

end Written

lemma port_le {parsed : SplitResult} {port : Option ℕ} (h : parsed.port = some port) : ∀ p ∈ port, p ≤ 65535 := by
  unfold SplitResult.port at h
  split at h
  · cases h
    simp
  · split at h
    · next hp =>
      cases h
      simp only [Bool.and_eq_true, decide_eq_true_eq] at hp
      rintro p ⟨⟩
      exact hp.2
    · cases h

namespace SplitResult

lemma lowerHost_plain {s : PyStr} (h : 37 ∉ s) : lowerHost s = s.map asciiLower := by
  have hdrop : s.dropWhile (fun c => c ≠ 37) = [] :=
    List.dropWhile_eq_nil_iff.mpr fun c hc => by simpa using fun he : c = 37 => h (he ▸ hc)
  rw [lowerHost, before_eq_self h, hdrop, List.append_nil]

lemma lowerHost_zone {s t : PyStr} (h : 37 ∉ s) : lowerHost (s ++ 37 :: t) = s.map asciiLower ++ 37 :: t := by
  have hdrop : (s ++ 37 :: t).dropWhile (fun c => c ≠ 37) = 37 :: t := by
    rw [List.dropWhile_append_of_pos fun c hc => by simpa using fun he : c = 37 => h (he ▸ hc)]
    rfl
  rw [lowerHost, before_append h, hdrop]

lemma lowerHost_lowerHost (s : PyStr) : lowerHost (lowerHost s) = lowerHost s := by
  have hpercent : ∀ {a : PyStr}, 37 ∉ a → 37 ∉ a.map asciiLower := fun ha h =>
    ha ((mem_map_iff fun c => asciiLower_eq_iff (by decide)).mp h)
  by_cases h : 37 ∈ s
  · obtain ⟨a, t, rfl, ha⟩ := List.eq_append_cons_of_mem h
    rw [lowerHost_zone ha, lowerHost_zone (hpercent ha), lower_lower]
  · rw [lowerHost_plain h, lowerHost_plain (hpercent h), lower_lower]

lemma map_lowerHost (s : PyStr) : (lowerHost s).map asciiLower = s.map asciiLower := by
  have hcut : before 37 s ++ s.dropWhile (fun c => c ≠ 37) = s := List.takeWhile_append_dropWhile
  rw [lowerHost, List.map_append, lower_lower, ← List.map_append, hcut]

lemma lowerHost_eq_self {s : PyStr} (h : s.map asciiLower = s) : lowerHost s = s := by
  by_cases hpercent : 37 ∈ s
  · obtain ⟨a, t, rfl, ha⟩ := List.eq_append_cons_of_mem hpercent
    rw [List.map_append] at h
    rw [lowerHost_zone ha, (List.append_inj h (List.length_map _)).1]
  · rw [lowerHost_plain hpercent, h]

lemma lowerHost_ne_nil {s : PyStr} (h : s ≠ []) : lowerHost s ≠ [] := by
  intro he
  have hmap := map_lowerHost s
  rw [he, List.map_nil, eq_comm, List.map_eq_nil_iff] at hmap
  exact h hmap

lemma hostname_eq_some {parsed : SplitResult} {hostname : PyStr} :
    parsed.hostname = some hostname ↔ parsed.hostinfo.1 ≠ [] ∧ hostname = lowerHost parsed.hostinfo.1 := by
  unfold SplitResult.hostname
  split
  · next h => simp [h]
  · next h => simp [h, eq_comm]

/-- What holds of the characters, and of their small letters, holds after `lowerHost`. -/
lemma forall_lowerHost {q : PyChar → Prop} {s : PyStr} (hq : ∀ c, q c → q (asciiLower c)) (h : ∀ c ∈ s, q c) :
    ∀ c ∈ lowerHost s, q c := by
  intro c hc
  rcases List.mem_append.mp hc with hc | hc
  · obtain ⟨d, hd, rfl⟩ := List.mem_map.mp hc
    exact hq d (h d (mem_of_mem_before hd))
  · exact h c ((List.dropWhile_sublist _).mem hc)

end SplitResult

lemma mem_map_lower {s : PyStr} {c : PyChar} (hc : c.val < 65 ∨ 90 < c.val ∧ c.val < 97 ∨ 122 < c.val) :
    c ∈ s.map asciiLower ↔ c ∈ s :=
  mem_map_iff fun _ => asciiLower_eq_iff hc

lemma mem_lowerHost {s : PyStr} {c : PyChar} (hc : c.val < 65 ∨ 90 < c.val ∧ c.val < 97 ∨ 122 < c.val) :
    c ∈ SplitResult.lowerHost s ↔ c ∈ s := by
  rw [← mem_map_lower hc, SplitResult.map_lowerHost, mem_map_lower hc]

/-- The host and the port of a netloc are found again. -/
lemma IsHost.parsed_eq {parsed : SplitResult} {hostname : PyStr} {port : Option ℕ} (h : IsHost hostname)
    (hne : hostname ≠ []) (hlower : SplitResult.lowerHost hostname = hostname)
    (hn : parsed.netloc = netlocOf hostname port) (hport : ∀ p ∈ port, p ≤ 65535) :
    parsed.hostname = some hostname ∧ parsed.port = some port := by
  refine ⟨SplitResult.hostname_eq_some.mpr ?_, h.port_eq hn hport⟩
  rw [h.hostinfo_eq hn, hlower]
  exact ⟨hne, rfl⟩

end DataCheck.Lib
