import DataCheck.Analysis.Service

/-!
# Service calls

The calls that clients make, in any number and at any time, and what they answer with.
-/

namespace DataCheck.Shared

open Lib Datasets Analyses

/-- A call of a method of the dataset service or the analysis service. -/
inductive Call where
  | createDataset (owner_id : Uuid) (name : PyStr)
  | listDatasets (owner_id : Uuid) (limit offset : ℕ)
  | getDataset (owner_id dataset_id : Uuid)
  | uploadCsv (owner_id dataset_id : Uuid) (original_filename : Option PyStr) (source : Source)
  | createRule (owner_id dataset_id : Uuid) (rule_type target_column : PyStr) (configuration : Dict)
  | listRules (owner_id dataset_id : Uuid) (limit offset : ℕ)
  | deleteRule (owner_id dataset_id rule_id : Uuid)
  | createAnalysis (owner_id dataset_id : Uuid)
  | listAnalyses (owner_id dataset_id : Uuid) (limit offset : ℕ)
  | getAnalysis (owner_id dataset_id analysis_id : Uuid)

/-- The owner that a call is made for. -/
def Call.owner : Call → Uuid
  | .createDataset o _ | .listDatasets o _ _ | .getDataset o _ | .uploadCsv o _ _ _
  | .createRule o _ _ _ _ | .listRules o _ _ _ | .deleteRule o _ _ | .createAnalysis o _
  | .listAnalyses o _ _ _ | .getAnalysis o _ _ => o

/-- What a call returns. -/
inductive Reply where
  | unit
  | dataset (d : DatasetReference)
  | datasets (ds : List DatasetReference)
  | rule (r : ValidationRuleReference)
  | rules (rs : List ValidationRuleReference)
  | analysis (a : AnalysisDetailReference)
  | analyses (as : List AnalysisSummaryReference)

/-- What a call ends with: a reply or an exception. -/
abbrev Outcome := Except Exn Reply × Unit

variable (U : Unicode) (P : Polars)

def Call.op : Call → Body Unit Reply
  | .createDataset o name => do return .dataset (← Datasets.createDataset U o name)
  | .listDatasets o limit offset => do return .datasets (← Datasets.listDatasets o limit offset)
  | .getDataset o d => do return .dataset (← Datasets.getDataset o d)
  | .uploadCsv o d filename source => do return .dataset (← Datasets.uploadCsv U o d filename source)
  | .createRule o d rule_type target_column configuration => do
    return .rule (← Datasets.createRule U o d rule_type target_column configuration)
  | .listRules o d limit offset => do return .rules (← Datasets.listRules o d limit offset)
  | .deleteRule o d r => do
    Datasets.deleteRule o d r
    return .unit
  | .createAnalysis o d => do return .analysis (← Analyses.createAnalysis U P o d)
  | .listAnalyses o d limit offset => do
    return .analyses (← Analyses.listAnalyses o d limit offset)
  | .getAnalysis o d a => do return .analysis (← Analyses.getAnalysis o d a)

/-- The program that a thread runs for a call. -/
def Call.body (k : Call) : Prog Eff (fun e => Except Exn e.Resp) Outcome := k.op U P ()

abbrev SysConfig := Config Call Eff (fun e => Except Exn e.Resp) World Outcome

/-- The configurations that calls in `calls` reach from an empty store, where the faults `F` can
occur. -/
abbrev Reach (F : Faults) (calls : Call → Prop) (cfg : SysConfig) : Prop :=
  Config.Reachable (machine F) (Call.body U P) calls World.empty cfg

end DataCheck.Shared
