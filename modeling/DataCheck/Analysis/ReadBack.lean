import DataCheck.Analysis.Adapters
import DataCheck.Lib.CsvSplit

/-!
# Whether an upload that was accepted can be analysed

The upload scanner reads a file with `csv.reader`, and the analysis reads it with Polars.  They take
different characters for the end of a record, and count quotes differently.
-/

namespace DataCheck.Analyses

open Lib Datasets

variable {P : Polars} {content : Bytes} {structure_ : CsvStructure}

namespace Sample

def asciiBytes (s : String) : Bytes := (py s).map fun c => UInt8.ofNat c.val

end Sample

end DataCheck.Analyses
