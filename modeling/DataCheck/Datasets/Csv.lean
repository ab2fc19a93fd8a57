import DataCheck.Lib.CsvReader
import DataCheck.Datasets.Policies

/-!
# The upload scanner (`datasets/csv.py`)
-/

namespace DataCheck.Datasets

open Lib

/-- `MAX_CSV_BYTES`, also the field size limit of the parser. -/
def maxCsvBytes : ℕ := 10485760

/-- `CsvStructureError`, by its code. -/
inductive CsvCode where
  | empty_csv | invalid_header | duplicate_columns | inconsistent_row_width | invalid_utf8
  | malformed_csv
  deriving DecidableEq

structure CsvStructure where
  row_count : ℕ
  column_names : List PyStr
  deriving DecidableEq

/-- A column name that `_validate_header` refuses. -/
def badColumn (column : PyStr) : Bool :=
  column == [] || column != column.strip || maxColumnNameLength < column.length ||
    column.any fun c => c.val < 32 || c.val == 127

def validateHeader (header : List PyStr) : Except CsvCode (List PyStr) :=
  if header = [] ∨ maxColumns < header.length then .error .invalid_header
  else if header.any badColumn then .error .invalid_header
  else if header.Nodup then .ok header
  else .error .duplicate_columns

/-- The exception that ends the rows, if one does.  Where the text layer raised, it did so before
the parser could see the end of the lines. -/
def stopCode (undecodable : Bool) : Option CsvReader.Error → Option CsvCode
  | none => if undecodable then some .invalid_utf8 else none
  | some .unexpectedEndOfData => some (if undecodable then .invalid_utf8 else .malformed_csv)
  | some _ => some .malformed_csv

/-- `scan_csv` on the rows of a reader and the exception that ends them. -/
def scanRows (stop : Option CsvCode) : List (List PyStr) → Except CsvCode CsvStructure
  | [] => .error (stop.getD .empty_csv)
  | header :: body =>
    match validateHeader header with
    | .error x => .error x
    | .ok columns =>
      if body.any fun row => row.length ≠ columns.length then .error .inconsistent_row_width
      else match stop with
        | some x => .error x
        | none => .ok ⟨body.length, columns⟩

/-- `scan_csv` on the bytes of a file. -/
def scanCsv (content : Bytes) : Except CsvCode CsvStructure :=
  let lines := fileLines content
  let rows := CsvReader.rows maxCsvBytes CsvReader.start lines.1
  scanRows (stopCode lines.2 rows.2) rows.1

lemma validateHeader_ok {header columns : List PyStr} (h : validateHeader header = .ok columns) :
    columns = header ∧ header ≠ [] ∧ header.length ≤ maxColumns ∧
      (∀ c ∈ header, badColumn c = false) ∧ header.Nodup := by
  unfold validateHeader at h
  split at h
  · cases h
  · next h1 =>
    split at h
    · cases h
    · next h2 =>
      split at h
      · next h3 =>
        obtain ⟨hne, hlen⟩ := not_or.mp h1
        cases h
        refine ⟨rfl, hne, Nat.not_lt.mp hlen, fun c hc => ?_, h3⟩
        simpa using fun hb => h2 (List.any_eq_true.mpr ⟨c, hc, hb⟩)
      · cases h

lemma scanRows_ok {stop : Option CsvCode} {rows : List (List PyStr)} {s : CsvStructure}
    (h : scanRows stop rows = .ok s) :
    stop = none ∧ ∃ body, rows = s.column_names :: body ∧ validateHeader s.column_names =
      .ok s.column_names ∧ (∀ row ∈ body, row.length = s.column_names.length) ∧
      s.row_count = body.length := by
  cases rows with
  | nil => cases h
  | cons header body =>
    simp only [scanRows] at h
    cases hv : validateHeader header with
    | error x => rw [hv] at h; cases h
    | ok columns =>
      obtain ⟨rfl, -⟩ := validateHeader_ok hv
      rw [hv] at h
      simp only at h
      split at h
      · cases h
      · next hw =>
        cases stop with
        | some x => cases h
        | none =>
          cases h
          refine ⟨rfl, body, rfl, hv, fun row hr => ?_, rfl⟩
          by_contra hne
          exact hw (List.any_eq_true.mpr ⟨row, hr, by simpa using hne⟩)

end DataCheck.Datasets
