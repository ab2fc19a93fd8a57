import DataCheck.Shared.Session

/-!
# Stored files (`datasets/storage.py`)
-/

namespace DataCheck.Datasets

open Lib Shared

variable {σ : Type}

/-- What successive calls of `source.read(65_536)` answer, `b""` after the last; `none` where the
call raises. -/
abbrev Source := List (Option Bytes)

/-- `CandidateFile`; its digest is that of all the bytes written. -/
structure CandidateFile where
  uuid : Uuid
  size_bytes : ℕ
  content_sha256 : Digest

/-- The loop of `write_candidate`; `written` are the bytes that went into the file so far. -/
def copyChunks (candidate : Uuid) : Source → (written : Bytes) → Body σ Bytes
  | [], written => pure written
  | none :: _, _ => Body.raise .source
  | some [] :: _, written => pure written
  | some (byte :: chunk) :: source, written =>
    if maxCsvBytes < written.length + (byte :: chunk).length then Body.raise .fileTooLarge
    else do
      Body.perform (.write candidate (byte :: chunk))
      copyChunks candidate source (written ++ byte :: chunk)

def writeCandidate (source : Source) : Body σ CandidateFile := do
  let candidate ← Body.uuid4
  Body.perform (.create candidate)
  let written ← (copyChunks candidate source []).catching fun x => do
    Body.perform (.unlink (.candidate candidate))
    Body.raise x
  pure ⟨candidate, written.length, sha256 written⟩

def newStorageKey : Body σ StorageKey := do
  let uuid ← Body.uuid4
  pure ⟨uuid⟩

def install (candidate : CandidateFile) (key : StorageKey) : Body σ Unit := do
  Body.perform (.replace candidate.uuid key)
  Body.perform (.chmod key)

def discardCandidate (candidate : CandidateFile) : Body σ Unit :=
  Body.perform (.unlink (.candidate candidate.uuid))

def remove (key : StorageKey) : Body σ Unit := Body.perform (.unlink (.stored key))

/-- `try: self._storage.remove(key)` / `except OSError: pass` -/
def removeQuietly (key : StorageKey) : Body σ Unit :=
  (remove key).catching fun
    | .os => pure ()
    | x => Body.raise x

def openBinary (key : StorageKey) : Body σ Bytes := Body.perform (.openBinary key)

/-- `scan_csv(candidate.path)` -/
def scanCandidate (candidate : CandidateFile) : Body σ CsvStructure := do
  let content : Bytes ← Body.perform (.readCandidate candidate.uuid)
  Op.ofExcept ((scanCsv content).mapError .csvStructure)

end DataCheck.Datasets
