import DataCheck.Analysis.Contract

/-!
# Runs of the services

Every call keeps the contract, so the contract holds in every run: any number of calls, interleaved
in any way, each of them failing anywhere.
-/

namespace DataCheck.Shared

open Lib Datasets Analyses Validation

variable {U : Unicode} {P : Polars} {F : Faults} {ok : ValidationRule → Prop} {calls : Call → Prop}
  {cfg cfg' cfg'' : SysConfig} {p : Pid}

/-! ### Every call keeps the contract -/

/-- The rules that these calls create are `ok`. -/
def Creates (calls : Call → Prop) (ok : ValidationRule → Prop) : Prop :=
  ∀ owner_id dataset_id rule_type target_column configuration,
    calls (.createRule owner_id dataset_id rule_type target_column configuration) →
      ∀ id now, ok ⟨id, dataset_id, rule_type, target_column, configuration, now⟩

/-- What is known of a reply. -/
def Replied (t : Caller Call World) (r : Reply) : Assert World := fun h =>
  match t.call with
  | .createAnalysis owner_id dataset_id => ∃ d, r = .analysis d ∧ Returned owner_id dataset_id d h
  | .getAnalysis owner_id dataset_id analysis_id =>
    ∀ d, Earlier t owner_id dataset_id analysis_id d → r = .analysis d
  | _ => True

/-- What is known of an exception. -/
def Threw (U : Unicode) (P : Polars) (F : Faults) (ok : ValidationRule → Prop) (t : Caller Call World)
    (x : Exn) : Prop :=
  match t.call with
  | .createAnalysis .. => RaiseOk U P F ok x
  | .getAnalysis owner_id dataset_id analysis_id =>
    ∀ d, Earlier t owner_id dataset_id analysis_id d → x = .database .operational
  | _ => True

lemma safe_reply {α : Type} {t : Caller Call World} {m : Body Unit α} {f : α → Reply}
    {Q : α → Unit → Assert World} {Z : Exn → Unit → Assert World} {R : Assert World}
    (hm : Does ok F t (fun _ => R) m Q Z) (hR : ∀ h, Since t h → R h)
    (hQ : ∀ a h, Q a () h → Replied t (f a) h) (hZ : ∀ x h, Z x () h → Threw U P F ok t x) :
    Safe (machine F) (contract ok F) t ((do return f (← m) : Body Unit Reply) ()) (Since t)
      (post (fun r _ => Replied t r) fun x _ _ => Threw U P F ok t x) :=
  (((hm.pre fun _ h _ hs => hR h hs).post (fun a _ h _ hq => hQ a h hq) fun x _ h _ hz => hZ x h hz).bind
    fun _ => Triple.pure fun _ _ _ hq => hq) ()

/-- **Every call keeps the contract.** -/
theorem safe_body (hc : Creates calls ok) (t : Caller Call World) (hk : calls t.call) :
    Safe (machine F) (contract ok F) t (t.call.body U P) (Since t)
      (post (fun r _ => Replied t r) fun x _ _ => Threw U P F ok t x) := by
  have hany : ∀ h, Since t h → True := fun _ _ => trivial
  obtain ⟨pid, k, start⟩ := t
  cases k with
  | createDataset owner_id name =>
    exact safe_reply (does_createDataset U) hany (fun _ _ _ => trivial) fun _ _ _ => trivial
  | listDatasets owner_id limit offset =>
    exact safe_reply does_listDatasets hany (fun _ _ _ => trivial) fun _ _ _ => trivial
  | getDataset owner_id dataset_id =>
    exact safe_reply does_getDataset hany (fun _ _ _ => trivial) fun _ _ _ => trivial
  | uploadCsv owner_id dataset_id filename source =>
    exact safe_reply (does_uploadCsv U) hany (fun _ _ _ => trivial) fun _ _ _ => trivial
  | createRule owner_id dataset_id rule_type target_column configuration =>
    exact safe_reply (does_createRule U (hc _ _ _ _ _ hk)) hany (fun _ _ _ => trivial)
      fun _ _ _ => trivial
  | listRules owner_id dataset_id limit offset =>
    exact safe_reply does_listRules hany (fun _ _ _ => trivial) fun _ _ _ => trivial
  | deleteRule owner_id dataset_id rule_id =>
    exact safe_reply (f := fun _ => .unit) does_deleteRule hany (fun _ _ _ => trivial)
      fun _ _ _ => trivial
  | createAnalysis owner_id dataset_id =>
    exact safe_reply (does_createAnalysis U P rfl) (fun _ hs => hs.1) (fun d _ hd => ⟨d, rfl, hd⟩)
      fun _ _ hz => hz
  | listAnalyses owner_id dataset_id limit offset =>
    exact safe_reply does_listAnalyses hany (fun _ _ _ => trivial) fun _ _ _ => trivial
  | getAnalysis owner_id dataset_id analysis_id =>
    exact safe_reply does_getAnalysis (fun _ hs => hs) (fun d _ hd d' hd' => by rw [hd d' hd'])
      fun _ _ hz => hz

lemma since_start (t : Caller Call World) : Stable (contract ok F) t.pid (Since t) ∧ Since t t.start :=
  ⟨stable_since, Hist.le_rfl, fun _ _ h => h, fun _ _ h => h⟩

section Reach

variable (hc : Creates calls ok) (hr : Reach U P F calls cfg)
include hc hr

theorem reach_inv : SysInv ok F cfg.hist :=
  reachable_inv (sysInv_empty ok F) since_start (safe_body hc) hr

theorem reach_past {h : Hist World} (hle : h ≤ cfg.hist) : SysInv ok F h :=
  reachable_past (sysInv_empty ok F) since_start (safe_body hc) hr h hle

theorem reach_start {t : Thread Call Eff (fun e => Except Exn e.Resp) World Outcome}
    (hp : cfg.threads p = some t) : t.start ≤ cfg.hist :=
  ((reachable_safe (sysInv_empty ok F) since_start (safe_body hc) hr).2 p t hp).2.1

theorem reach_reply {k : Call} {h₀ : Hist World} {r : Reply}
    (hp : cfg.threads p = some ⟨k, h₀, .ret (.ok r, ())⟩) : Replied ⟨p, k, h₀⟩ r cfg.hist :=
  reachable_post (sysInv_empty ok F) since_start (safe_body hc) hr hp

theorem reach_threw {k : Call} {h₀ : Hist World} {x : Exn}
    (hp : cfg.threads p = some ⟨k, h₀, .ret (.error x, ())⟩) : Threw U P F ok ⟨p, k, h₀⟩ x :=
  reachable_post (sysInv_empty ok F) since_start (safe_body hc) hr hp

theorem reach_guar {k : Call} {h₀ : Hist World} {e : Eff}
    {f : Except Exn e.Resp → Prog Eff (fun e => Except Exn e.Resp) Outcome}
    (hp : cfg.threads p = some ⟨k, h₀, .vis e f⟩) {c : Choice} {r : Except Exn e.Resp} {w : World}
    (he : (machine F).exec p e c cfg.hist.now = some (r, w)) : SysGuar F p cfg.hist w :=
  reachable_guar (sysInv_empty ok F) since_start (safe_body hc) hr hp he

end Reach

end DataCheck.Shared
