import Mathlib.Data.List.Sort
import Mathlib.Data.List.Nodup
import Mathlib.Data.List.Basic

/-!
# Tables with a primary key

A table is a list of rows no two of which have the same key; the order of the list carries no
meaning, so every query that returns more than one row sorts.  `put` writes a row, in place of the
row with its key if there is one; `erase` deletes; `sortOn` is `ORDER BY`.
-/

namespace DataCheck.Lib

/-- Rows with pairwise distinct keys. -/
structure Table (κ α : Type) (key : α → κ) where
  rows : List α
  nodup : (rows.map key).Nodup

namespace Table

variable {κ α : Type} {key : α → κ}

instance : Membership α (Table κ α key) := ⟨fun t a => a ∈ t.rows⟩

lemma mem_def {a : α} {t : Table κ α key} : a ∈ t ↔ a ∈ t.rows := Iff.rfl

def empty : Table κ α key := ⟨[], List.nodup_nil⟩

@[simp] lemma not_mem_empty (a : α) : a ∉ (empty : Table κ α key) := List.not_mem_nil

/-- Two rows with one key are one row. -/
theorem eq_of_key {t : Table κ α key} {a b : α} (ha : a ∈ t) (hb : b ∈ t) (h : key a = key b) :
    a = b := List.inj_on_of_nodup_map t.nodup ha hb h

lemma rows_nodup (t : Table κ α key) : t.rows.Nodup := List.Nodup.of_map key t.nodup

def select (p : α → Bool) (t : Table κ α key) : List α := t.rows.filter p

@[simp] lemma mem_select {p : α → Bool} {t : Table κ α key} {a : α} :
    a ∈ t.select p ↔ a ∈ t ∧ p a = true := List.mem_filter

lemma select_nodup (p : α → Bool) (t : Table κ α key) : (t.select p).Nodup :=
  t.rows_nodup.filter p

variable [DecidableEq κ]

def find? (t : Table κ α key) (k : κ) : Option α := t.rows.find? fun a => key a = k

theorem find?_eq_some {t : Table κ α key} {k : κ} {a : α} :
    t.find? k = some a ↔ a ∈ t ∧ key a = k := by
  constructor
  · intro h
    exact ⟨List.mem_of_find?_eq_some h, by simpa using List.find?_some h⟩
  · rintro ⟨ha, rfl⟩
    cases hf : t.find? (key a) with
    | none => simpa using List.find?_eq_none.mp hf a ha
    | some b => rw [eq_of_key (List.mem_of_find?_eq_some hf) ha (by simpa using List.find?_some hf)]

theorem find?_eq_none {t : Table κ α key} {k : κ} : t.find? k = none ↔ ∀ a ∈ t, key a ≠ k := by
  simp [find?, mem_def]

lemma isSome_find? {t : Table κ α key} {k : κ} : (t.find? k).isSome ↔ ∃ a ∈ t, key a = k := by
  simp only [Option.isSome_iff_exists, find?_eq_some]

/-- Write a row, in place of the row with its key if there is one. -/
def put (t : Table κ α key) (a : α) : Table κ α key where
  rows := a :: t.rows.filter fun b => key b ≠ key a
  nodup := by
    rw [List.map_cons, List.nodup_cons]
    refine ⟨?_, (List.filter_sublist.map key).nodup t.nodup⟩
    simp only [List.mem_map, List.mem_filter, decide_eq_true_eq, not_exists]
    rintro b ⟨⟨-, hb⟩, he⟩
    exact hb he

@[simp] theorem mem_put {t : Table κ α key} {a b : α} :
    b ∈ t.put a ↔ b = a ∨ b ∈ t ∧ key b ≠ key a := by
  simp [mem_def, put]

theorem mem_put_of_new {t : Table κ α key} {a b : α} (h : ∀ c ∈ t, key c ≠ key a) :
    b ∈ t.put a ↔ b = a ∨ b ∈ t := by
  rw [mem_put]
  exact or_congr_right (and_iff_left_of_imp (h b))

/-- Delete the row with a key. -/
def erase (t : Table κ α key) (k : κ) : Table κ α key where
  rows := t.rows.filter fun b => key b ≠ k
  nodup := (List.filter_sublist.map key).nodup t.nodup

@[simp] theorem mem_erase {t : Table κ α key} {k : κ} {b : α} :
    b ∈ t.erase k ↔ b ∈ t ∧ key b ≠ k := by
  simp [mem_def, erase]

lemma erase_of_notMem {t : Table κ α key} {k : κ} (h : ∀ b ∈ t, key b ≠ k) : t.erase k = t := by
  obtain ⟨rows, hrows⟩ := t
  simp only [erase, mk.injEq, List.filter_eq_self, decide_eq_true_eq]
  exact h

theorem mem_foldl_erase {l : List κ} {b : α} : ∀ {t : Table κ α key},
    b ∈ l.foldl erase t ↔ b ∈ t ∧ key b ∉ l := by
  induction l with
  | nil => simp
  | cons k l ih =>
    intro t
    rw [List.foldl_cons, ih, mem_erase, List.mem_cons, not_or, and_assoc]

/-- Rows with new keys, written one after the other. -/
theorem mem_foldl_put {l : List α} {b : α} : ∀ {t : Table κ α key}, (l.map key).Nodup →
    (∀ a ∈ l, ∀ b ∈ t, key b ≠ key a) → (b ∈ l.foldl put t ↔ b ∈ l ∨ b ∈ t) := by
  induction l with
  | nil => simp
  | cons a l ih =>
    intro t hl ht
    rw [List.map_cons, List.nodup_cons] at hl
    rw [List.foldl_cons, ih hl.2, mem_put, List.mem_cons]
    · have hne : b ∈ t → key b ≠ key a := fun hb => ht a List.mem_cons_self b hb
      tauto
    · intro c hc d hd
      rcases mem_put.mp hd with rfl | ⟨hd, -⟩
      · exact fun he => hl.1 (List.mem_map.mpr ⟨c, hc, he.symm⟩)
      · exact ht c (List.mem_cons_of_mem _ hc) d hd

end Table

/-! ### `ORDER BY` -/

/-- The rows in ascending order of `f`; rows with equal `f` in the order they came. -/
def sortOn {α κ : Type} [LinearOrder κ] (f : α → κ) (l : List α) : List α :=
  l.insertionSort fun a b => f a ≤ f b

section sortOn

variable {α κ : Type} [LinearOrder κ] {f : α → κ}

lemma sortOn_perm (f : α → κ) (l : List α) : (sortOn f l).Perm l := List.perm_insertionSort _ l

@[simp] lemma mem_sortOn {l : List α} {a : α} : a ∈ sortOn f l ↔ a ∈ l := List.mem_insertionSort _

@[simp] lemma length_sortOn (f : α → κ) (l : List α) : (sortOn f l).length = l.length :=
  List.length_insertionSort _ l

lemma sortOn_nodup {l : List α} (h : l.Nodup) : (sortOn f l).Nodup :=
  (sortOn_perm f l).nodup_iff.mpr h

/-- Two lists in ascending order of `f` with the same members are one list, when `f` tells the
members apart. -/
lemma eq_of_sorted {l l' : List α} (hp : l.Perm l') (hf : ∀ a ∈ l, ∀ b ∈ l, f a = f b → a = b)
    (hl : l.Pairwise fun a b => f a ≤ f b) (hl' : l'.Pairwise fun a b => f a ≤ f b) : l = l' :=
  hp.eq_of_pairwise (fun a b ha hb hab hba =>
    hf a ha b (hp.mem_iff.mpr hb) (le_antisymm hab hba)) hl hl'

lemma sortOn_sorted (f : α → κ) (l : List α) : (sortOn f l).Pairwise fun a b => f a ≤ f b := by
  have : IsTrans α fun a b => f a ≤ f b := ⟨fun _ _ _ => le_trans⟩
  have : Std.Total fun a b : α => f a ≤ f b := ⟨fun a b => le_total (f a) (f b)⟩
  exact List.pairwise_insertionSort _ l

/-- **`ORDER BY` a key that tells the rows apart forgets the order of storage.** -/
theorem sortOn_congr {l l' : List α} (hl : l.Nodup) (hl' : l'.Nodup)
    (hm : ∀ a, a ∈ l ↔ a ∈ l') (hf : ∀ a ∈ l, ∀ b ∈ l, f a = f b → a = b) :
    sortOn f l = sortOn f l' := by
  have hp : l.Perm l' := (List.perm_ext_iff_of_nodup hl hl').mpr hm
  refine eq_of_sorted (((sortOn_perm f l).trans hp).trans (sortOn_perm f l').symm) ?_
    (sortOn_sorted f l) (sortOn_sorted f l')
  intro a ha b hb
  exact hf a (mem_sortOn.mp ha) b (mem_sortOn.mp hb)

/-- A list already in ascending order stays as it is. -/
theorem sortOn_eq_self {l : List α} (h : l.Pairwise fun a b => f a ≤ f b) : sortOn f l = l :=
  h.insertionSort_eq

end sortOn

/-! ### `LIMIT` and `OFFSET` -/

/-- `LIMIT limit OFFSET offset` -/
def page {α : Type} (limit offset : ℕ) (l : List α) : List α := (l.drop offset).take limit

/-- **The pages of a list, one after the other, are the list.** -/
theorem flatMap_page {α : Type} (limit : ℕ) (l : List α) (n : ℕ) :
    ((List.range n).flatMap fun i => page limit (i * limit) l) = l.take (n * limit) := by
  induction n with
  | zero => simp
  | succ n ih =>
    rw [List.range_succ, List.flatMap_append, ih, List.flatMap_singleton, page, Nat.succ_mul,
      List.take_add]

end DataCheck.Lib
