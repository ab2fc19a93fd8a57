import DataCheck.Lib.Text
import DataCheck.Lib.Utf8

/-!
# `csv.reader`

The record parser of the standard library for the dialect `delimiter=","`, `quotechar='"'`,
`doublequote=True`, `strict=True`, without an escape character: a machine that takes the characters
of a line one by one and then the end of the line.  A record may span several lines.
-/

namespace DataCheck.Lib

def QUOTE : PyChar := 34
def COMMA : PyChar := 44

namespace CsvReader

/-- The state of the parser between two characters. -/
inductive Mode where
  | startRecord | startField | inField | inQuotedField | quoteInQuotedField | eatCrnl
  deriving DecidableEq

/-- `csv.Error`, by its message. -/
inductive Error where
  | fieldLimit | newlineInUnquotedField | delimiterExpected | unexpectedEndOfData
  deriving DecidableEq

/-- The parser in the middle of a record: the field so far and the fields before it. -/
structure Reader where
  mode : Mode
  field : PyStr
  fields : List PyStr
  deriving DecidableEq

/-- The parser between two records. -/
def start : Reader := ⟨.startRecord, [], []⟩

namespace Reader

def saveField (r : Reader) (m : Mode) : Reader := ⟨m, [], r.fields ++ [r.field]⟩

def addChar (limit : ℕ) (r : Reader) (c : PyChar) (m : Mode) : Except Error Reader :=
  if limit ≤ r.field.length then .error .fieldLimit else .ok ⟨m, r.field ++ [c], r.fields⟩

/-- A character at the start of a field. -/
def startField (limit : ℕ) (r : Reader) (c : PyChar) : Except Error Reader :=
  if c = LF ∨ c = CR then .ok (r.saveField .eatCrnl)
  else if c = QUOTE then .ok { r with mode := .inQuotedField }
  else if c = COMMA then .ok (r.saveField .startField)
  else r.addChar limit c .inField

/-- `parse_process_char` on a character. -/
def char (limit : ℕ) (r : Reader) (c : PyChar) : Except Error Reader :=
  match r.mode with
  | .startRecord =>
    if c = LF ∨ c = CR then .ok { r with mode := .eatCrnl } else r.startField limit c
  | .startField => r.startField limit c
  | .inField =>
    if c = LF ∨ c = CR then .ok (r.saveField .eatCrnl)
    else if c = COMMA then .ok (r.saveField .startField)
    else r.addChar limit c .inField
  | .inQuotedField =>
    if c = QUOTE then .ok { r with mode := .quoteInQuotedField }
    else r.addChar limit c .inQuotedField
  | .quoteInQuotedField =>
    if c = QUOTE then r.addChar limit c .inQuotedField
    else if c = COMMA then .ok (r.saveField .startField)
    else if c = LF ∨ c = CR then .ok (r.saveField .eatCrnl)
    else .error .delimiterExpected
  | .eatCrnl => if c = LF ∨ c = CR then .ok r else .error .newlineInUnquotedField

/-- `parse_process_char` on the end of a line. -/
def endOfLine (r : Reader) : Reader :=
  match r.mode with
  | .startRecord => r
  | .startField | .inField | .quoteInQuotedField => r.saveField .startRecord
  | .inQuotedField => r
  | .eatCrnl => { r with mode := .startRecord }

def chars (limit : ℕ) : Reader → PyStr → Except Error Reader
  | r, [] => .ok r
  | r, c :: s =>
    match r.char limit c with
    | .ok r' => chars limit r' s
    | .error x => .error x

def line (limit : ℕ) (r : Reader) (l : PyStr) : Except Error Reader :=
  match r.chars limit l with
  | .ok r' => .ok r'.endOfLine
  | .error x => .error x

/-- There is a record in the making when the lines end. -/
def pending (r : Reader) : Bool := r.field ≠ [] || r.mode == .inQuotedField

end Reader

/-- What iterating over `reader` yields: the rows, and the exception it then raises, if any. -/
def rows (limit : ℕ) : Reader → List PyStr → List (List PyStr) × Option Error
  | r, [] => ([], if r.pending then some .unexpectedEndOfData else none)
  | r, l :: ls =>
    match r.line limit l with
    | .error x => ([], some x)
    | .ok r' =>
      if r'.mode = .startRecord then
        (r'.fields :: (rows limit start ls).1, (rows limit start ls).2)
      else rows limit r' ls

end CsvReader

end DataCheck.Lib
