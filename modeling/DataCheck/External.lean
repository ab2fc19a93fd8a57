import DataCheck.Lib.Text
import Mathlib.Data.List.Nodup
import Mathlib.Data.Int.Notation

/-!
# What the code takes from outside

The Unicode character database and Polars are parameters: what a theorem needs of them it says in
its hypotheses.
-/

namespace DataCheck

open Lib

/-- A `uuid.UUID`, by its number. -/
abbrev Uuid := ℕ

/-- A `datetime` in UTC, in microseconds. -/
abbrev Time := ℤ

/-- The tables behind `unicodedata` and the case conversions of `str`. -/
structure Unicode where
  /-- `unicodedata.category(c).startswith("C")` -/
  isControl : PyChar → Bool
  /-- `unicodedata.normalize("NFC", s)` -/
  nfc : PyStr → PyStr
  /-- `s.lower()` -/
  lower : PyStr → PyStr
  /-- `s.casefold()` -/
  casefold : PyStr → PyStr

def containsControl (U : Unicode) (value : PyStr) : Bool := value.any U.isControl

/-- A column of a data frame; its cells where its dtype is `pl.String`. -/
structure Series where
  name : PyStr
  isString : Bool
  values : List (Option PyStr)

/-- `pl.DataFrame`: columns of one length with pairwise distinct names. -/
structure DataFrame where
  columns : List Series
  height : ℕ
  length_values : ∀ s ∈ columns, s.values.length = height
  nodup_names : (columns.map Series.name).Nodup

namespace DataFrame

/-- `frame.columns` -/
def names (f : DataFrame) : List PyStr := f.columns.map Series.name

/-- `frame.get_column(name)` -/
def getColumn (f : DataFrame) (name : PyStr) : Option Series := f.columns.find? fun s => s.name = name

lemma getColumn_mem {f : DataFrame} {name : PyStr} {s : Series} (h : f.getColumn name = some s) :
    s ∈ f.columns ∧ s.name = name :=
  ⟨List.mem_of_find?_eq_some h, by simpa using List.find?_some h⟩

lemma exists_getColumn {f : DataFrame} {name : PyStr} (h : name ∈ f.names) :
    ∃ s, f.getColumn name = some s := by
  obtain ⟨s, hs, hn⟩ := List.mem_map.mp h
  exact Option.isSome_iff_exists.mp (List.find?_isSome.mpr ⟨s, hs, by simpa using hn⟩)

end DataFrame

/-- What the code calls of Polars. -/
structure Polars where
  /-- `pl.read_csv(BytesIO(content), has_header=True, separator=",", infer_schema=False, …)`; `none`
  is a `PolarsError`, a `UnicodeError` or a `ValueError`. -/
  readCsv : Bytes → Option DataFrame
  /-- `pl.Series(values, dtype=pl.String).str.contains(pattern).to_list()`; `none` is a
  `PolarsError`. -/
  contains : PyStr → List (Option PyStr) → Option (List (Option Bool))

end DataCheck
