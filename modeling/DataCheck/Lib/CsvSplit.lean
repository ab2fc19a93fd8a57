import Mathlib.Data.List.Forall2
import DataCheck.Lib.CsvReader

/-!
# Splitting CSV by counting quotes

Another reading of a CSV text: a record ends at an LF with an even number of double quotes before it,
or with the text, and its fields are separated by the commas outside the fields that begin with a quote.
Where every LF in a quoted field has an odd number of quotes before it, `csv.reader` sees no fewer
records, and as many exactly when every line end outside quotes is an LF with an even number before it,
a CR directly before an LF, or the end of the text.
-/

namespace DataCheck.Lib

open CsvReader

namespace CsvSplit

/-! ### Records and fields -/

/-- The records of a text, `q` where the number of quotes before it is odd.  A CR directly before the
LF that ends a record is dropped, and so is a CR or an LF that ends the text. -/
def recordsFrom (q : Bool) : PyStr → List PyStr
  | [] => []
  | c :: s =>
    if q = false ∧ c = LF ∨ (c = LF ∨ c = CR) ∧ s = [] then [] :: recordsFrom false s
    else if q = false ∧ c = CR ∧ s.head? = some LF then recordsFrom false s
    else match recordsFrom (q ^^ c == QUOTE) s with
      | [] => [[c]]
      | l :: ls => (c :: l) :: ls

def records (s : PyStr) : List PyStr := recordsFrom false s

/-- A comma or the end of a line. -/
def isSeparator (c : PyChar) : Bool := c == COMMA || c == LF || c == CR

/-- Where a character stands in a field. -/
inductive Quoting where
  | start | plain | quoted | closing
  deriving DecidableEq

/-- Where the next character stands. -/
def Quoting.next (m : Quoting) (c : PyChar) : Quoting :=
  match m with
  | .start => if c = QUOTE then .quoted else if isSeparator c then .start else .plain
  | .plain => if isSeparator c then .start else .plain
  | .quoted => if c = QUOTE then .closing else .quoted
  | .closing => if c = QUOTE then .quoted else if isSeparator c then .start else .plain

/-- The fields of the rest of a record, the first of which has begun with `field`. -/
def fieldsFrom (m : Quoting) (field : PyStr) : PyStr → List PyStr
  | [] => [field]
  | c :: s =>
    if m ≠ .quoted ∧ c = COMMA then field :: fieldsFrom .start [] s
    else fieldsFrom (m.next c) (field ++ [c]) s

def fields (s : PyStr) : List PyStr := fieldsFrom .start [] s

def undouble : PyStr → PyStr
  | [] => []
  | [c] => [c]
  | c :: d :: s => if c = QUOTE ∧ d = QUOTE then QUOTE :: undouble s else c :: undouble (d :: s)

def isQuoted : PyStr → Bool
  | [] => false
  | c :: s => c == QUOTE && s.getLast? == some QUOTE

/-- The field without the quotes around it. -/
def dequote (field : PyStr) : PyStr := if isQuoted field then field.tail.dropLast else field

/-- The text of a field. -/
def unquote (field : PyStr) : PyStr := if isQuoted field then undouble (dequote field) else field

/-- Every LF in a quoted field has an odd number of quotes before it. -/
def quotedClear (m : Quoting) (q : Bool) : PyStr → Bool
  | [] => true
  | c :: s => (c != LF || m != .quoted || q) && quotedClear (m.next c) (q ^^ c == QUOTE) s

/-- A CR that ends the first line, but not the text, has an even number of quotes before it. -/
def headerClear (m : Quoting) (q : Bool) : PyStr → Bool
  | [] => true
  | c :: s =>
    if m ≠ .quoted ∧ (c = LF ∨ c = CR) then !q || c != CR || s.isEmpty
    else headerClear (m.next c) (q ^^ c == QUOTE) s

/-- Outside quoted fields every LF but one that ends the text has an even number of quotes before it, and every
CR is directly before an LF or ends the text. -/
def linesEnd (m : Quoting) (q : Bool) : PyStr → Bool
  | [] => true
  | c :: s => (m == .quoted || (c != LF || !q || s.isEmpty) && (c != CR || s.head? == some LF || s.isEmpty)) &&
      linesEnd (m.next c) (q ^^ c == QUOTE) s

/-- It is clear what stands in quotes: the LFs of quoted fields, and, where all lines end as they should, no CR
that ends the header. -/
def clear (s : PyStr) : Bool :=
  quotedClear .start false s && (!linesEnd .start false s || headerClear .start false s)

/-- What `csv.reader` yields at the end of the lines. -/
def stop (r : Reader) : List (List PyStr) × Option Error :=
  ([], if r.pending then some .unexpectedEndOfData else none)

/-- What it yields at the end of a line. -/
def emit (r : Reader) (next : Reader → List (List PyStr) × Option Error) : List (List PyStr) × Option Error :=
  if r.mode = .startRecord then (r.fields :: (next start).1, (next start).2) else next r

/-- What it yields on the characters of a text, `fresh` at the start of a line. -/
def scan (limit : ℕ) (fresh : Bool) (r : Reader) : PyStr → List (List PyStr) × Option Error
  | [] => if fresh then stop r else emit r.endOfLine stop
  | c :: s =>
    match r.char limit c with
    | .error x => ([], some x)
    | .ok r' =>
      if c = LF ∨ c = CR ∧ s.head? ≠ some LF then emit r'.endOfLine fun r'' => scan limit true r'' s
      else scan limit false r' s

variable {limit : ℕ}

def double : PyStr → PyStr
  | [] => []
  | c :: s => if c = QUOTE then QUOTE :: QUOTE :: double s else c :: double s

lemma undouble_double (s : PyStr) : undouble (double s) = s := by
  induction s with
  | nil => rfl
  | cons c s ih =>
    rw [double]
    split
    · next hc =>
      rw [undouble, if_pos ⟨rfl, rfl⟩, ih, hc]
    · next hc =>
      cases hd : double s with
      | nil =>
        rw [hd] at ih
        rw [← ih]
        rfl
      | cons d t =>
        rw [undouble, if_neg (fun h => hc h.1), ← hd, ih]

lemma double_append (s t : PyStr) : double (s ++ t) = double s ++ double t := by
  induction s with
  | nil => rfl
  | cons c s ih =>
    rw [List.cons_append, double, double, ih]
    split <;> rfl

lemma unquote_of_head {c : PyChar} {s : PyStr} (hc : c ≠ QUOTE) : unquote (c :: s) = c :: s := by
  have hq : isQuoted (c :: s) = false := by simp [isQuoted, hc]
  simp [unquote, hq]

lemma unquote_quoted (s : PyStr) : unquote (QUOTE :: (double s ++ [QUOTE])) = s := by
  have hq : isQuoted (QUOTE :: (double s ++ [QUOTE])) = true := by simp [isQuoted]
  rw [unquote, dequote, if_pos hq, if_pos hq, List.tail_cons, List.dropLast_concat, undouble_double]

/-- The state of `csv.reader` in a field that has been written so far as `cur`. -/
inductive Reads (r : Reader) : Quoting → PyStr → Prop
  | start (hm : r.mode = .startRecord ∨ r.mode = .startField) (hf : r.field = []) : Reads r .start []
  | plain (hm : r.mode = .inField) (hf : ∃ d s, r.field = d :: s ∧ d ≠ QUOTE) : Reads r .plain r.field
  | quoted (hm : r.mode = .inQuotedField) : Reads r .quoted (QUOTE :: double r.field)
  | closing (hm : r.mode = .quoteInQuotedField) : Reads r .closing (QUOTE :: (double r.field ++ [QUOTE]))

section Reads

variable {r r' : Reader} {m : Quoting} {cur : PyStr} {c : PyChar}

/-- The text of a field that ends here. -/
lemma Reads.unquote (h : Reads r m cur) (hm : m ≠ .quoted) : unquote cur = r.field := by
  cases h with
  | start _ hf => rw [hf]; rfl
  | plain _ hf =>
    obtain ⟨d, s, hr, hd⟩ := hf
    rw [hr]
    exact unquote_of_head hd
  | quoted => exact absurd rfl hm
  | closing => exact unquote_quoted r.field

lemma addChar_ok {md : Mode} (h : r.addChar limit c md = .ok r') : r' = ⟨md, r.field ++ [c], r.fields⟩ := by
  unfold Reader.addChar at h
  split at h
  · cases h
  · cases h
    rfl

lemma Reads.next (h : Reads r m cur) (hc : isSeparator c = true → m = .quoted) (hs : r.char limit c = .ok r') :
    Reads r' (m.next c) (cur ++ [c]) ∧ r'.fields = r.fields ∧ r'.mode ≠ .startRecord := by
  have hsep : m ≠ .quoted → c ≠ LF ∧ c ≠ CR ∧ c ≠ COMMA ∧ isSeparator c = false := fun hm => by
    have hno : isSeparator c = false := by
      by_contra hc'
      exact hm (hc (by simpa using hc'))
    simp only [isSeparator, Bool.or_eq_false_iff, beq_eq_false_iff_ne] at hno ⊢
    exact ⟨hno.1.2, hno.2, hno.1.1, ⟨hno.1.1, hno.1.2⟩, hno.2⟩
  obtain ⟨mode, field, fields⟩ := r
  cases h with
  | start hm hf =>
    obtain ⟨hlf, hcr, hcomma, hno⟩ := hsep (by simp)
    dsimp only at hm hf
    subst hf
    have hstart : Reader.startField limit ⟨mode, [], fields⟩ c = .ok r' := by
      rcases hm with rfl | rfl <;> simpa [Reader.char, hlf, hcr] using hs
    rw [Reader.startField, if_neg (by simp [hlf, hcr])] at hstart
    by_cases hq : c = QUOTE
    · rw [if_pos hq] at hstart
      cases hstart
      subst hq
      exact ⟨.quoted rfl, rfl, by simp⟩
    · rw [if_neg hq, if_neg hcomma] at hstart
      obtain rfl := addChar_ok hstart
      have hnext : Quoting.next .start c = .plain := by simp [Quoting.next, hq, hno]
      rw [hnext]
      exact ⟨.plain rfl ⟨c, [], rfl, hq⟩, rfl, by simp⟩
  | plain hm hf =>
    obtain ⟨hlf, hcr, hcomma, hno⟩ := hsep (by simp)
    dsimp only at hm
    subst hm
    simp only [Reader.char, hlf, hcr, hcomma, or_self, if_false] at hs
    obtain rfl := addChar_ok hs
    obtain ⟨d, s, hd, hne⟩ := hf
    have hnext : Quoting.next .plain c = .plain := by simp [Quoting.next, hno]
    rw [hnext]
    exact ⟨.plain rfl ⟨d, s ++ [c], by rw [hd]; rfl, hne⟩, rfl, by simp⟩
  | quoted hm =>
    dsimp only at hm
    subst hm
    simp only [Reader.char] at hs
    by_cases hq : c = QUOTE
    · rw [if_pos hq] at hs
      cases hs
      subst hq
      exact ⟨.closing rfl, rfl, by simp⟩
    · rw [if_neg hq] at hs
      obtain rfl := addChar_ok hs
      have hnext : Quoting.next .quoted c = .quoted := by simp [Quoting.next, hq]
      have hdouble : double (field ++ [c]) = double field ++ [c] := by simp [double_append, double, hq]
      have hreads : Reads ⟨.inQuotedField, field ++ [c], fields⟩ .quoted (QUOTE :: double (field ++ [c])) :=
        .quoted rfl
      rw [hdouble] at hreads
      rw [hnext]
      exact ⟨hreads, rfl, by simp⟩
  | closing hm =>
    obtain ⟨hlf, hcr, hcomma, hno⟩ := hsep (by simp)
    dsimp only at hm
    subst hm
    simp only [Reader.char, hlf, hcr, hcomma, or_self, if_false] at hs
    by_cases hq : c = QUOTE
    · rw [if_pos hq] at hs
      obtain rfl := addChar_ok hs
      subst hq
      have hdouble : double (field ++ [QUOTE]) = double field ++ [QUOTE, QUOTE] := by simp [double_append, double]
      have hreads : Reads ⟨.inQuotedField, field ++ [QUOTE], fields⟩ .quoted (QUOTE :: double (field ++ [QUOTE])) :=
        .quoted rfl
      rw [hdouble] at hreads
      simpa [Quoting.next] using hreads
    · rw [if_neg hq] at hs
      cases hs

end Reads

/-! ### The records are the rows, or there are fewer of them -/

/-- A row is of a record: it has as many fields. -/
def Fits (row : List PyStr) (record : PyStr) : Prop := row.length = (fields record).length

lemma Fits.of_mem {rows : List (List PyStr)} {rs : List PyStr} (h : List.Forall₂ Fits rows rs) :
    ∀ record ∈ rs, ∃ row ∈ rows, Fits row record := by
  induction h with
  | nil => exact fun record hr => absurd hr List.not_mem_nil
  | cons hfits _ ih =>
    intro record hr
    rcases List.mem_cons.mp hr with rfl | hr
    · exact ⟨_, List.mem_cons_self, hfits⟩
    · obtain ⟨row, hrow, hfits'⟩ := ih record hr
      exact ⟨row, List.mem_cons_of_mem _ hrow, hfits'⟩

/-- The texts of the fields of a record. -/
def texts (record : PyStr) : List PyStr := (fields record).map unquote

/-- The fields of a record without the quotes around them. -/
def names (record : PyStr) : List PyStr := (fields record).map dequote

/-- The rest of the record that a text goes on with. -/
def current (q : Bool) (s : PyStr) : PyStr := (recordsFrom q s).headD []

/-- From the middle of a record on: where every line end outside quotes ends a record, the rows go on as
the records do.  There are no fewer rows than records, and more where some line end does not. -/
structure Alike (r : Reader) (m : Quoting) (q : Bool) (cur s : PyStr) (rows : List (List PyStr)) : Prop where
  same : linesEnd m q s = true → ∃ row rest, rows = row :: rest ∧
    row.length = r.fields.length + (fieldsFrom m cur (current q s)).length ∧
    (headerClear m q s = true → row = r.fields ++ (fieldsFrom m cur (current q s)).map unquote) ∧
    List.Forall₂ Fits rest (recordsFrom q s).tail
  le : (recordsFrom q s).tail.length + 1 ≤ rows.length
  eq : rows.length ≤ (recordsFrom q s).tail.length + 1 → linesEnd m q s = true

/-- The same from the start of a record on. -/
structure AlikeAtStart (s : PyStr) (rows : List (List PyStr)) : Prop where
  same : linesEnd .start false s = true → List.Forall₂ Fits rows (records s) ∧ (headerClear .start false s = true →
    ∀ row record, rows.head? = some row → (records s).head? = some record → row = texts record)
  le : (records s).length ≤ rows.length
  eq : rows.length ≤ (records s).length → linesEnd .start false s = true

/-- A character that stays in its record. -/
def Kept (q : Bool) (c : PyChar) (s : PyStr) : Prop :=
  (c = LF → q = true) ∧ (c = CR → q = true ∨ s.head? ≠ some LF) ∧ (c = LF ∨ c = CR → s ≠ [])

section Records

variable {q : Bool} {m : Quoting} {c : PyChar} {s cur : PyStr}

lemma recordsFrom_cons (h : Kept q c s) : recordsFrom q (c :: s) =
    (c :: current (q ^^ c == QUOTE) s) :: (recordsFrom (q ^^ c == QUOTE) s).tail := by
  obtain ⟨hlf, hcr, hne⟩ := h
  have hend : ¬ (q = false ∧ c = LF ∨ (c = LF ∨ c = CR) ∧ s = []) := by
    rintro (⟨rfl, h⟩ | ⟨h, hs⟩)
    · exact absurd (hlf h) (by simp)
    · exact hne h hs
  have hcrlf : ¬ (q = false ∧ c = CR ∧ s.head? = some LF) := by
    rintro ⟨rfl, h, hs⟩
    simp [hs] at hcr
    exact hcr h
  rw [recordsFrom, if_neg hend, if_neg hcrlf, current]
  cases recordsFrom (q ^^ c == QUOTE) s with
  | nil => rfl
  | cons l ls => rfl

lemma current_cons (h : Kept q c s) : current q (c :: s) = c :: current (q ^^ c == QUOTE) s := by
  rw [current, recordsFrom_cons h]
  rfl

lemma fieldsFrom_cons (hc : m = .quoted ∨ c ≠ COMMA) :
    fieldsFrom m cur (c :: s) = fieldsFrom (m.next c) (cur ++ [c]) s := by
  have hc' : ¬ (m ≠ .quoted ∧ c = COMMA) := fun h => hc.elim h.1 fun hne => hne h.2
  rw [fieldsFrom, if_neg hc']

/-- A character that ends no line, or stands in a quoted field. -/
lemma linesEnd_cons (hc : m = .quoted ∨ c ≠ LF ∧ c ≠ CR) :
    linesEnd m q (c :: s) = linesEnd (m.next c) (q ^^ c == QUOTE) s := by
  have hgood : (m == .quoted || (c != LF || !q || s.isEmpty) && (c != CR || s.head? == some LF || s.isEmpty)) = true := by
    rcases hc with rfl | ⟨hlf, hcr⟩ <;> simp [*]
  rw [linesEnd, hgood, Bool.true_and]

lemma headerClear_cons (hc : m = .quoted ∨ c ≠ LF ∧ c ≠ CR) :
    headerClear m q (c :: s) = headerClear (m.next c) (q ^^ c == QUOTE) s := by
  have hc' : ¬ (m ≠ .quoted ∧ (c = LF ∨ c = CR)) := fun h => hc.elim h.1 fun hne => h.2.elim hne.1 hne.2
  rw [headerClear, if_neg hc']

end Records

section Alike

variable {fresh q : Bool} {r r' : Reader} {m : Quoting} {cur s : PyStr} {c : PyChar}
  {rows rest : List (List PyStr)}

lemma Alike.char (h : Alike r' (m.next c) (q ^^ c == QUOTE) (cur ++ [c]) s rows) (hf : r'.fields = r.fields)
    (hc : m = .quoted ∨ isSeparator c = false) (hk : Kept q c s) : Alike r m q cur (c :: s) rows := by
  have hno : m = .quoted ∨ c ≠ COMMA ∧ c ≠ LF ∧ c ≠ CR :=
    hc.imp_right fun h => by simpa [isSeparator, and_assoc] using h
  have hfields : fieldsFrom m cur (current q (c :: s)) =
      fieldsFrom (m.next c) (cur ++ [c]) (current (q ^^ c == QUOTE) s) := by
    rw [current_cons hk, fieldsFrom_cons (hno.imp_right And.left)]
  refine ⟨fun hcond => ?_, ?_, fun hlen => ?_⟩
  · rw [linesEnd_cons (hno.imp_right And.right)] at hcond
    obtain ⟨row, rest, rfl, hlen, hrow, hrest⟩ := h.same hcond
    rw [headerClear_cons (hno.imp_right And.right), hfields, recordsFrom_cons hk, ← hf]
    exact ⟨row, rest, rfl, hlen, hrow, hrest⟩
  · rw [recordsFrom_cons hk]
    exact h.le
  · rw [recordsFrom_cons hk] at hlen
    rw [linesEnd_cons (hno.imp_right And.right)]
    exact h.eq hlen

/-- The end of a record, by LF or CRLF. -/
lemma Alike.ends {s' : PyStr} (h : AlikeAtStart s rest) (hrec : recordsFrom false s' = [] :: records s)
    (hlines : linesEnd m false s' = linesEnd .start false s) (hu : unquote cur = r.field) :
    Alike r m false cur s' ((r.fields ++ [r.field]) :: rest) := by
  have hcur : current false s' = [] := by rw [current, hrec]; rfl
  refine ⟨fun hcond => ⟨_, rest, rfl, ?_, fun _ => ?_, ?_⟩, ?_, fun hlen => ?_⟩
  · rw [hcur]
    simp [fieldsFrom]
  · rw [hcur]
    simp [fieldsFrom, hu]
  · rw [hrec]
    exact (h.same (hlines ▸ hcond)).1
  · rw [hrec]
    exact Nat.succ_le_succ h.le
  · rw [hrec] at hlen
    rw [hlines]
    exact h.eq (Nat.le_of_succ_le_succ hlen)

/-- An LF or a CR that ends the text. -/
lemma Alike.last (hc : c = LF ∨ c = CR) (hu : unquote cur = r.field) :
    Alike r m q cur [c] [r.fields ++ [r.field]] := by
  have hlines : linesEnd m q [c] = true := by simp [linesEnd]
  have hrec : recordsFrom q [c] = [[]] := by simp [recordsFrom, hc]
  have hcur : current q [c] = [] := by rw [current, hrec]; rfl
  refine ⟨fun _ => ⟨_, [], rfl, ?_, fun _ => ?_, ?_⟩, ?_, fun _ => hlines⟩
  · simp [hcur, fieldsFrom]
  · simp [hcur, fieldsFrom, hu]
  · rw [hrec]
    exact .nil
  · simp [hrec]

/-- From the middle of a record on, where it is clear what stands in quotes. -/
def InRecord (limit : ℕ) (s : PyStr) : Prop :=
  ∀ fresh r m q cur rows, Reads r m cur → (fresh = true → m = .quoted) →
    (r.mode = .startRecord → s ≠ [] ∧ r.fields = []) → quotedClear m q s = true →
    scan limit fresh r s = (rows, none) → (∀ row ∈ rows, row ≠ []) → Alike r m q cur s rows

lemma reads_start : Reads CsvReader.start .start [] := .start (Or.inl rfl) rfl

lemma InRecord.later (h : InRecord limit s) (hs : s ≠ []) (hclear : quotedClear .start q s = true)
    (hscan : scan limit true CsvReader.start s = (rest, none)) (hrest : ∀ row ∈ rest, row ≠ []) :
    Alike CsvReader.start .start q [] s rest := by
  obtain ⟨c, s, rfl⟩ := List.exists_cons_of_ne_nil hs
  exact h false CsvReader.start .start q [] rest reads_start (by simp) (fun _ => ⟨by simp, rfl⟩) hclear hscan hrest

end Alike

end CsvSplit

end DataCheck.Lib
