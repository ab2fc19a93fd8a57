import DataCheck.Shared.World

/-!
# Sessions and repositories (`infrastructure/database.py`, `*/repositories.py`)

The body of a service method, its transactions, and the repository methods, each of them one
statement.
-/

namespace DataCheck.Shared

open Lib Datasets Analyses

/-- The body of a service method with local variables of type `σ`. -/
abbrev Body (σ α : Type) : Type := Op Eff Eff.Resp Exn σ α

namespace Body

variable {σ α : Type}

/-- `raise x` -/
def raise (x : Exn) : Body σ α := Op.raise x

def perform (e : Eff) : Body σ e.Resp := Op.perform e

/-- `self._now()` -/
def now : Body σ Time := perform .now

def utcNow : Body σ Time := perform .utcNow

/-- What an UPDATE writes to a column with `onupdate=_utc_now`: an assignment of the value that is
stored is left out of the UPDATE, and then the column gets the time of the flush. -/
def onupdate (stored assigned : Time) : Body σ Time :=
  if assigned = stored then utcNow else pure assigned

/-- `uuid.uuid4()` -/
def uuid4 : Body σ Uuid := perform .uuid4

/-- `database_session.flush()` -/
def flush (ws : List Write) : Body σ Unit := perform (.flush ws)

/-- The policy functions raise `DatasetPolicyError`. -/
def policy (r : Except PolicyCode α) : Body σ α := Op.ofExcept (r.mapError .datasetPolicy)

/-- `with self._session_factory() as database_session` -/
def session (m : Body σ α) : Body σ α := do
  let a ← m.catching fun x => do
    perform .close
    raise x
  perform .close
  pure a

/-- `with database_session.begin()`: the body returns its value and what it leaves to commit. -/
def begin (m : Body σ (α × List Write)) : Body σ α := do
  let (a, ws) ← m.catching fun x => do
    perform .rollback
    raise x
  perform (.commit ws)
  pure a

/-- `with self._session_factory() as database_session, database_session.begin()` -/
def transaction (m : Body σ (α × List Write)) : Body σ α := session (begin m)

end Body

section Repositories

variable {σ : Type}

/-- `DatasetRepository.get_for_owner` -/
def getForOwner (dataset_id owner_id : Uuid) : Body σ (Option Dataset) :=
  Body.perform (.query (.getForOwner dataset_id owner_id))

/-- `DatasetRepository.get_for_owner_for_update` -/
def getForOwnerForUpdate (dataset_id owner_id : Uuid) : Body σ (Option Dataset) :=
  Body.perform (.getForOwnerForUpdate dataset_id owner_id)

/-- `DatasetRepository.list_for_owner` -/
def listForOwner (owner_id : Uuid) (limit offset : ℕ) : Body σ (List Dataset) :=
  Body.perform (.query (.listForOwner owner_id limit offset))

/-- `ValidationRuleRepository.target_columns` -/
def targetColumns (dataset_id : Uuid) : Body σ (List PyStr) :=
  Body.perform (.query (.targetColumns dataset_id))

/-- `ValidationRuleRepository.list_for_dataset` -/
def listForDataset (dataset_id : Uuid) (limit offset : ℕ) : Body σ (List ValidationRule) :=
  Body.perform (.query (.listForDataset dataset_id limit offset))

/-- `ValidationRuleRepository.list_all_for_dataset` -/
def listAllForDataset (dataset_id : Uuid) : Body σ (List ValidationRule) :=
  Body.perform (.query (.listAllForDataset dataset_id))

/-- `ValidationRuleRepository.get` -/
def getRule (dataset_id rule_id : Uuid) : Body σ (Option ValidationRule) :=
  Body.perform (.query (.getRule dataset_id rule_id))

/-- `AnalysisRepository.list_for_dataset_owner` -/
def listForDatasetOwner (dataset_id owner_id : Uuid) (limit offset : ℕ) : Body σ (List Analysis) :=
  Body.perform (.query (.listForDatasetOwner dataset_id owner_id limit offset))

/-- `AnalysisRepository.get_for_dataset_owner` -/
def getForDatasetOwner (analysis_id dataset_id owner_id : Uuid) : Body σ (Option Analysis) :=
  Body.perform (.query (.getForDatasetOwner analysis_id dataset_id owner_id))

/-- `ValidationResultRepository.list_for_analysis` -/
def listForAnalysis (analysis_id : Uuid) : Body σ (List ValidationResult) :=
  Body.perform (.query (.listForAnalysis analysis_id))

end Repositories

end DataCheck.Shared
