import DataCheck.Analysis.Adapters
import DataCheck.Analysis.Models
import DataCheck.Lib.Table
import DataCheck.Lib.Threads
import Mathlib.Data.Prod.Lex

/-!
# The shared state

What the services share is the database, with its row locks, and the storage directory.  A service
call reaches them through effects: a SQL statement on one committed snapshot, a commit, an
operation on one file, a reading of the clock, a fresh UUID.  `exec` says what each effect does.

The statements of a transaction see the committed state (`READ COMMITTED`); no transaction of the
services reads what it has itself written, so what it has flushed is only kept for its commit.

The locks are those of `SELECT … FOR UPDATE` on the rows of datasets.  PostgreSQL has two more waits,
which are left out: between that lock and the insertion of an analysis of the dataset (`FOR KEY SHARE`
of its foreign key), and between two deletions of one rule.  The transaction that is waited for there
waits for nothing itself.
-/

namespace DataCheck.Shared

open Lib Datasets Analyses

/-! ### The database -/

/-- The tables of datasets and analyses. -/
structure Db where
  datasets : Table Uuid Dataset Dataset.id
  validation_rules : Table Uuid ValidationRule ValidationRule.id
  analyses : Table Uuid Analysis Analysis.id
  validation_results : Table (Uuid × ℕ) ValidationResult fun r => (r.analysis_id, r.rule_position)

/-- A change that a transaction makes. -/
inductive Write where
  | insertDataset (d : Dataset)
  | updateUpload (dataset_id : Uuid) (upload : UploadColumns) (updated_at : Time)
  | insertRule (r : ValidationRule)
  | deleteRule (rule_id : Uuid)
  | insertAnalysis (a : Analysis)
  | insertResult (r : ValidationResult)

/-- A constraint whose violation is an `IntegrityError`. -/
inductive Constraint where
  | primaryKey | foreignKey | check
  | uq_datasets_storage_key | uq_validation_rules_definition
  | uq_validation_results_analysis_source_rule
  deriving DecidableEq

/-- An exception of the database. -/
inductive DbError where
  | integrity (c : Constraint)
  | data
  | operational
  deriving DecidableEq

namespace Db

def empty : Db := ⟨.empty, .empty, .empty, .empty⟩

def apply (db : Db) : Write → Db
  | .insertDataset d => { db with datasets := db.datasets.put d }
  | .updateUpload dataset_id upload updated_at =>
    match db.datasets.find? dataset_id with
    | some d => { db with datasets := db.datasets.put { d with upload := some upload, updated_at } }
    | none => db
  | .insertRule r => { db with validation_rules := db.validation_rules.put r }
  | .deleteRule rule_id => { db with validation_rules := db.validation_rules.erase rule_id }
  | .insertAnalysis a => { db with analyses := db.analyses.put a.stored }
  | .insertResult r => { db with validation_results := db.validation_results.put r }

/-- The changes of a transaction, in order. -/
def applyAll (db : Db) (ws : List Write) : Db := ws.foldl apply db

/-- The storage key is free, for the dataset `dataset_id`. -/
def keyFree (db : Db) (dataset_id : Uuid) (key : StorageKey) : Bool :=
  db.datasets.rows.all fun d => d.id == dataset_id || d.upload.all fun u => u.storage_key != key

/-- The row `d` can be written. -/
def datasetError (db : Db) (d : Dataset) : Option DbError :=
  if !d.storable then some .data
  else if !d.checks then some (.integrity .check)
  else if d.upload.any fun u => !db.keyFree d.id u.storage_key then
    some (.integrity .uq_datasets_storage_key)
  else none

/-- The exception of a change that the database refuses. -/
def writeError (db : Db) : Write → Option DbError
  | .insertDataset d =>
    if (db.datasets.find? d.id).isSome then some (.integrity .primaryKey) else db.datasetError d
  | .updateUpload dataset_id upload updated_at =>
    match db.datasets.find? dataset_id with
    | some d => db.datasetError { d with upload := some upload, updated_at }
    | none => none
  | .insertRule r =>
    if !r.storable then some .data
    else if !r.checks then some (.integrity .check)
    else if (db.validation_rules.find? r.id).isSome then some (.integrity .primaryKey)
    else if db.validation_rules.rows.any r.sameDefinition then
      some (.integrity .uq_validation_rules_definition)
    else if (db.datasets.find? r.dataset_id).isNone then some (.integrity .foreignKey)
    else none
  | .deleteRule _ => none
  | .insertAnalysis a =>
    if !a.storable then some .data
    else if !a.checks then some (.integrity .check)
    else if (db.analyses.find? a.id).isSome then some (.integrity .primaryKey)
    else if (db.datasets.find? a.dataset_id).isNone then some (.integrity .foreignKey)
    else none
  | .insertResult r =>
    if !r.storable then some .data
    else if !r.checks then some (.integrity .check)
    else if (db.validation_results.find? (r.analysis_id, r.rule_position)).isSome then
      some (.integrity .primaryKey)
    else if db.validation_results.rows.any fun s =>
        s.analysis_id == r.analysis_id && s.source_rule_id == r.source_rule_id then
      some (.integrity .uq_validation_results_analysis_source_rule)
    else if (db.analyses.find? r.analysis_id).isNone then some (.integrity .foreignKey)
    else none

/-- The exception of the first change that the database refuses. -/
def firstError (db : Db) : List Write → Option DbError
  | [] => none
  | w :: ws =>
    match db.writeError w with
    | some x => some x
    | none => firstError (db.apply w) ws

end Db

/-! ### Queries -/

/-- The SELECT statements of the repositories. -/
inductive Query where
  | getForOwner (dataset_id owner_id : Uuid)
  | listForOwner (owner_id : Uuid) (limit offset : ℕ)
  | targetColumns (dataset_id : Uuid)
  | listForDataset (dataset_id : Uuid) (limit offset : ℕ)
  | listAllForDataset (dataset_id : Uuid)
  | getRule (dataset_id rule_id : Uuid)
  | listForDatasetOwner (dataset_id owner_id : Uuid) (limit offset : ℕ)
  | getForDatasetOwner (analysis_id dataset_id owner_id : Uuid)
  | listForAnalysis (analysis_id : Uuid)

def Query.Rows : Query → Type
  | .getForOwner .. => Option Dataset
  | .listForOwner .. => List Dataset
  | .targetColumns .. => List PyStr
  | .listForDataset .. => List ValidationRule
  | .listAllForDataset .. => List ValidationRule
  | .getRule .. => Option ValidationRule
  | .listForDatasetOwner .. => List Analysis
  | .getForDatasetOwner .. => Option Analysis
  | .listForAnalysis .. => List ValidationResult

namespace Db

/-- `Dataset.id == dataset_id, Dataset.owner_id == owner_id` -/
def ownedDataset (db : Db) (dataset_id owner_id : Uuid) : Option Dataset :=
  (db.datasets.find? dataset_id).filter fun d => d.owner_id = owner_id

/-- The rules of a dataset, `ORDER BY created_at, id`. -/
def rulesOf (db : Db) (dataset_id : Uuid) : List ValidationRule :=
  sortOn (fun r => toLex (r.created_at, r.id))
    (db.validation_rules.select fun r => r.dataset_id = dataset_id)

/-- The analyses of a dataset of an owner, `ORDER BY created_at DESC, id DESC`. -/
def analysesOf (db : Db) (dataset_id owner_id : Uuid) : List Analysis :=
  sortOn (fun a => OrderDual.toDual (toLex (a.created_at, a.id)))
    (db.analyses.select fun a => a.dataset_id = dataset_id ∧
      (db.ownedDataset a.dataset_id owner_id).isSome)

/-- The results of an analysis, `ORDER BY rule_position`. -/
def resultsOf (db : Db) (analysis_id : Uuid) : List ValidationResult :=
  sortOn ValidationResult.rule_position
    (db.validation_results.select fun r => r.analysis_id = analysis_id)

def eval (db : Db) : (q : Query) → q.Rows
  | .getForOwner dataset_id owner_id => db.ownedDataset dataset_id owner_id
  | .listForOwner owner_id limit offset =>
    page limit offset (sortOn (fun d => toLex (d.created_at, d.id))
      (db.datasets.select fun d => d.owner_id = owner_id))
  | .targetColumns dataset_id =>
    (db.validation_rules.select fun r => r.dataset_id = dataset_id).map ValidationRule.target_column
  | .listForDataset dataset_id limit offset => page limit offset (db.rulesOf dataset_id)
  | .listAllForDataset dataset_id => db.rulesOf dataset_id
  | .getRule dataset_id rule_id =>
    (db.validation_rules.find? rule_id).filter fun r => r.dataset_id = dataset_id
  | .listForDatasetOwner dataset_id owner_id limit offset =>
    page limit offset (db.analysesOf dataset_id owner_id)
  | .getForDatasetOwner analysis_id dataset_id owner_id =>
    (db.analyses.find? analysis_id).filter fun a => a.dataset_id = dataset_id ∧
      (db.ownedDataset a.dataset_id owner_id).isSome
  | .listForAnalysis analysis_id => db.resultsOf analysis_id

end Db

/-! ### Effects -/

/-- A file of the storage directory. -/
inductive FileName where
  | candidate (uuid : Uuid)
  | stored (key : StorageKey)
  deriving DecidableEq

/-- The database, the storage directory, the row locks that transactions hold on datasets, and the
UUIDs that threads have drawn. -/
structure World where
  db : Db
  files : FileName → Option Bytes
  locks : Uuid → Option Pid
  issued : List (Pid × Uuid)

def World.empty : World := ⟨.empty, fun _ => none, fun _ => none, []⟩

/-- What a service call does to the world. -/
inductive Eff where
  /-- `self._clock()` -/
  | now
  /-- `_utc_now()`, which a flush evaluates for the `onupdate` of a column. -/
  | utcNow
  /-- `uuid.uuid4()` -/
  | uuid4
  | query (q : Query)
  /-- `SELECT … FROM datasets WHERE id = … AND owner_id = … FOR UPDATE` -/
  | getForOwnerForUpdate (dataset_id owner_id : Uuid)
  /-- `database_session.flush()` -/
  | flush (ws : List Write)
  | commit (ws : List Write)
  | rollback
  /-- The end of the session. -/
  | close
  /-- `os.open(candidate_path, os.O_CREAT | os.O_EXCL | os.O_WRONLY)` -/
  | create (candidate : Uuid)
  /-- `destination.write(chunk)` -/
  | write (candidate : Uuid) (chunk : Bytes)
  /-- The candidate, read from its beginning. -/
  | readCandidate (candidate : Uuid)
  /-- `os.replace(candidate.path, destination)` -/
  | replace (candidate : Uuid) (key : StorageKey)
  /-- `destination.chmod(0o600)` -/
  | chmod (key : StorageKey)
  /-- `path.unlink(missing_ok=True)` -/
  | unlink (name : FileName)
  /-- `path.open("rb")`: what can be read through it, also after the name is gone. -/
  | openBinary (key : StorageKey)
  /-- One `source_file.read` on an open file. -/
  | read
  /-- Nothing: it marks the return of `_capture_snapshot`, with the value returned. -/
  | captured (source : SourceSnapshot) (rules : List PersistedRuleSnapshot) (content : Bytes)

def Eff.Resp : Eff → Type
  | .now | .utcNow => Time
  | .uuid4 => Uuid
  | .query q => q.Rows
  | .getForOwnerForUpdate .. => Option Dataset
  | .readCandidate _ => Bytes
  | .openBinary _ => Bytes
  | _ => Unit

/-- The exceptions of the services. -/
inductive Exn where
  | datasetPolicy (code : PolicyCode)
  | csvStructure (code : CsvCode)
  | fileTooLarge
  | datasetNotFound
  | datasetNotReady
  | unknownColumn
  | duplicateRule
  | incompatibleUpload
  | analysisRequiresRules
  | integrityFault (f : IntegrityFault)
  | database (x : DbError)
  | os
  /-- `ValueError` of a clock without a time zone. -/
  | clock
  /-- `source.read` raised. -/
  | source
  /-- `ValueError` of a strict `zip`. -/
  | zipLength
  /-- `decimal.InvalidOperation` -/
  | invalidOperation
  deriving DecidableEq

/-- How an effect goes wrong: not at all; it raises and does nothing; or, for a commit, it is
applied and raises all the same. -/
inductive Fault where
  | none | fails | lostAcknowledgement
  deriving DecidableEq

/-- What the environment chooses when an effect is performed. -/
structure Choice where
  fault : Fault
  time : Time
  uuid : Uuid

/-- The faults that can occur. -/
structure Faults where
  fails : Eff → Bool
  lostAcknowledgement : Bool

/-- The exception of an effect that fails. -/
def Eff.failure : Eff → Exn
  | .now => .clock
  | .query _ | .getForOwnerForUpdate .. | .utcNow | .flush _ | .commit _ | .rollback | .close =>
    .database .operational
  | _ => .os

namespace World

/-- The locks of a thread are released. -/
def unlock (w : World) (p : Pid) : World :=
  { w with locks := fun d => if w.locks d = some p then none else w.locks d }

/-- The file `name` holds `content`, or does not exist. -/
def setFile (w : World) (name : FileName) (content : Option Bytes) : World :=
  { w with files := Function.update w.files name content }

/-- The changes of a transaction are applied. -/
def apply (w : World) (ws : List Write) : World := { w with db := w.db.applyAll ws }

/-- An effect that goes wrong: however it ends, a transaction that ends releases its locks. -/
def failed (w : World) (p : Pid) : Eff → World
  | .commit _ | .rollback | .close => w.unlock p
  | _ => w

/-- The answer to an effect that does not fail, and the next world; `none` where the thread waits
for a lock, or the chosen UUID is not a fresh one. -/
def perform (w : World) (p : Pid) (c : Choice) : (e : Eff) → Option (Except Exn e.Resp × World)
  | .now | .utcNow => some (.ok c.time, w)
  | .uuid4 =>
    if c.uuid ∈ w.issued.map Prod.snd then none
    else some (.ok c.uuid, { w with issued := (p, c.uuid) :: w.issued })
  | .query q => some (.ok (w.db.eval q), w)
  | .getForOwnerForUpdate dataset_id owner_id =>
    match w.db.ownedDataset dataset_id owner_id with
    | none => some (.ok (none : Option Dataset), w)
    | some d =>
      if w.locks dataset_id = none ∨ w.locks dataset_id = some p then
        some (.ok (some d), { w with locks := Function.update w.locks dataset_id (some p) })
      else none
  | .flush ws =>
    match w.db.firstError ws with
    | some x => some (.error (.database x), w)
    | none => some (.ok (), w)
  | .commit ws => some (.ok (), (w.apply ws).unlock p)
  | .rollback => some (.ok (), w.unlock p)
  | .close => some (.ok (), w.unlock p)
  | .create u =>
    match w.files (.candidate u) with
    | some _ => some (.error .os, w)
    | none => some (.ok (), w.setFile (.candidate u) (some []))
  | .write u chunk =>
    some (.ok (), w.setFile (.candidate u) ((w.files (.candidate u)).map (· ++ chunk)))
  | .readCandidate u =>
    match w.files (.candidate u) with
    | some content => some (.ok content, w)
    | none => some (.error .os, w)
  | .replace u key =>
    match w.files (.candidate u) with
    | some content => some (.ok (), (w.setFile (.stored key) (some content)).setFile (.candidate u) none)
    | none => some (.error .os, w)
  | .chmod key => if w.files (.stored key) = none then some (.error .os, w) else some (.ok (), w)
  | .unlink name => some (.ok (), w.setFile name none)
  | .openBinary key =>
    match w.files (.stored key) with
    | some content => some (.ok content, w)
    | none => some (.error .os, w)
  | .read => some (.ok (), w)
  | .captured .. => some (.ok (), w)

end World

/-- The database and the storage directory, where the faults `F` can occur. -/
def machine (F : Faults) : Machine Eff (fun e => Except Exn e.Resp) Choice World where
  exec p e c w :=
    match c.fault with
    | .none => w.perform p c e
    | .fails => if F.fails e then some (.error e.failure, w.failed p e) else none
    | .lostAcknowledgement =>
      match e with
      | .commit ws =>
        if F.lostAcknowledgement then
          some (.error (.database .operational), (w.apply ws).unlock p) else none
      | _ => none

end DataCheck.Shared
