import DataCheck.Datasets.Csv
import DataCheck.Datasets.Schemas
import DataCheck.Lib.Sha256

/-!
# Dataset rows (`datasets/models.py`)

The rows of the tables `datasets` and `validation_rules`, with the CHECK constraints on them.  The
upload columns of a dataset are null together or not at all, so they are one optional record; a
storage key is written from a UUID, so it is one.
-/

namespace DataCheck.Datasets

open Lib

/-- The name of a stored file, `f"{uuid.hex}.csv"`. -/
structure StorageKey where
  uuid : Uuid
  deriving DecidableEq

/-- The upload columns of a dataset. -/
structure UploadColumns where
  original_filename : PyStr
  storage_key : StorageKey
  content_sha256 : Digest
  size_bytes : ℕ
  row_count : ℕ
  column_names : List PyStr
  uploaded_at : Time
  deriving DecidableEq

/-- A row of `datasets`. -/
structure Dataset where
  id : Uuid
  owner_id : Uuid
  name : PyStr
  upload : Option UploadColumns
  created_at : Time
  updated_at : Time
  deriving DecidableEq

/-- A row of `validation_rules`. -/
structure ValidationRule where
  id : Uuid
  dataset_id : Uuid
  rule_type : PyStr
  target_column : PyStr
  configuration : Dict
  created_at : Time

/-! ### What a column can store -/

/-- A text that a text column or a JSON string can store: neither U+0000 nor a lone surrogate. -/
def storableText (s : PyStr) : Bool :=
  s.all fun c => c.val != 0 && !(0xD800 ≤ c.val && c.val ≤ 0xDFFF)

mutual

/-- A JSON value that a `jsonb` column can store. -/
def Json.storable : Json → Bool
  | .null => true
  | .bool _ => true
  | .num _ => true
  | .str s => storableText s
  | .arr items => storableItems items
  | .obj members => storableMembers members

def Json.storableItems : List Json → Bool
  | [] => true
  | item :: items => item.storable && storableItems items

def Json.storableMembers : List (PyStr × Json) → Bool
  | [] => true
  | (name, value) :: members => storableText name && value.storable && storableMembers members

end

mutual

/-- Equality of `jsonb` values. -/
def Json.eq : Json → Json → Bool
  | .null, .null => true
  | .bool a, .bool b => a == b
  | .num p, .num q => p == q
  | .str s, .str t => s == t
  | .arr as, .arr bs => eqItems as bs
  | .obj ms, .obj ns => eqMembers ms ns
  | _, _ => false

def Json.eqItems : List Json → List Json → Bool
  | [], [] => true
  | a :: as, b :: bs => a.eq b && eqItems as bs
  | _, _ => false

def Json.eqMembers : List (PyStr × Json) → List (PyStr × Json) → Bool
  | [], [] => true
  | (m, a) :: ms, (n, b) :: ns => m == n && a.eq b && eqMembers ms ns
  | _, _ => false

end

mutual

/-- Equality of `jsonb` values is equality. -/
theorem Json.eq_iff : ∀ a b : Json, a.eq b = true ↔ a = b
  | .null, b => by cases b <;> simp [Json.eq]
  | .bool x, b => by cases b <;> simp [Json.eq]
  | .num p, b => by cases b <;> simp [Json.eq]
  | .str s, b => by cases b <;> simp [Json.eq]
  | .arr as, b => by
    cases b with
    | arr bs => rw [Json.eq, Json.eqItems_iff as bs, Json.arr.injEq]
    | _ => simp [Json.eq]
  | .obj ms, b => by
    cases b with
    | obj ns => rw [Json.eq, Json.eqMembers_iff ms ns, Json.obj.injEq]
    | _ => simp [Json.eq]

theorem Json.eqItems_iff : ∀ as bs : List Json, Json.eqItems as bs = true ↔ as = bs
  | [], bs => by cases bs <;> simp [Json.eqItems]
  | a :: as, bs => by
    cases bs with
    | nil => simp [Json.eqItems]
    | cons b bs =>
      rw [Json.eqItems, Bool.and_eq_true, Json.eq_iff a b, Json.eqItems_iff as bs, List.cons.injEq]

theorem Json.eqMembers_iff : ∀ ms ns : List (PyStr × Json), Json.eqMembers ms ns = true ↔ ms = ns
  | [], ns => by cases ns <;> simp [Json.eqMembers]
  | (m, a) :: ms, ns => by
    cases ns with
    | nil => simp [Json.eqMembers]
    | cons n ns =>
      obtain ⟨n, b⟩ := n
      rw [Json.eqMembers, Bool.and_eq_true, Bool.and_eq_true, Json.eq_iff a b, Json.eqMembers_iff ms ns,
        beq_iff_eq, List.cons.injEq, Prod.mk.injEq]

end
/-- `btrim(s) = s` -/
def trimmed (s : PyStr) : Bool := s.head? != some 32 && s.getLast? != some 32

/-- The rule types that `ck_validation_rules_type` and `ck_validation_results_rule_type` list. -/
def ruleTypes : List PyStr := [py "required", py "unique", py "type", py "range", py "regex"]

namespace UploadColumns

/-- The upload columns satisfy their constraints in a row created at `created_at` and updated at
`updated_at`. -/
def checks (u : UploadColumns) (created_at updated_at : Time) : Bool :=
  1 ≤ u.original_filename.length && u.original_filename.length ≤ 255 &&
    1 ≤ u.size_bytes && u.size_bytes ≤ 10485760 &&
    1 ≤ u.column_names.length && u.column_names.length ≤ 256 &&
    created_at ≤ u.uploaded_at && u.uploaded_at ≤ updated_at

/-- The upload columns hold only what can be stored. -/
def storable (u : UploadColumns) : Bool :=
  storableText u.original_filename && u.column_names.all storableText

end UploadColumns

namespace Dataset

/-- The CHECK constraints of `datasets`. -/
def checks (d : Dataset) : Bool :=
  1 ≤ d.name.length && d.name.length ≤ 100 && trimmed d.name && d.created_at ≤ d.updated_at &&
    d.upload.all fun u => u.checks d.created_at d.updated_at

/-- The row holds only what can be stored. -/
def storable (d : Dataset) : Bool := storableText d.name && d.upload.all UploadColumns.storable

end Dataset

namespace ValidationRule

/-- The CHECK constraints of `validation_rules`. -/
def checks (r : ValidationRule) : Bool :=
  ruleTypes.contains r.rule_type && 1 ≤ r.target_column.length && r.target_column.length ≤ 128 &&
    trimmed r.target_column

/-- The row holds only what can be stored. -/
def storable (r : ValidationRule) : Bool :=
  storableText r.rule_type && storableText r.target_column && Json.storableMembers r.configuration

/-- The two rows agree on the columns of `uq_validation_rules_definition`. -/
def sameDefinition (r s : ValidationRule) : Bool :=
  r.dataset_id == s.dataset_id && r.rule_type == s.rule_type &&
    r.target_column == s.target_column && Json.eqMembers r.configuration s.configuration

end ValidationRule

end DataCheck.Datasets
