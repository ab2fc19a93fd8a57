import DataCheck.Lib.Table
import Mathlib.Data.List.Perm.Subperm

/-!
# Pages of a list that grows

A sorted list is read page by page, by offsets, while elements are added to it anywhere.  An element that
was there before the first page moves back only, so no page steps over it.
-/

namespace DataCheck.Lib

variable {α κ : Type} [LinearOrder κ] {f : α → κ} {l l' : List α} {a : α} {limit offset : ℕ}

/-- The number of elements before the key `x`. -/
def rank (f : α → κ) (l : List α) (x : κ) : ℕ := (l.filter fun a => f a < x).length

/-- In ascending order of `f`, which tells the elements apart. -/
def Ascending (f : α → κ) (l : List α) : Prop := l.Pairwise fun a b => f a < f b

lemma ascending_sortOn {l : List α} (hl : l.Nodup) (hf : ∀ a ∈ l, ∀ b ∈ l, f a = f b → a = b) :
    Ascending f (sortOn f l) := by
  refine ((sortOn_sorted f l).and (sortOn_nodup hl)).imp_of_mem fun ha hb h => lt_of_le_of_ne h.1 fun he => h.2 ?_
  exact hf _ (mem_sortOn.mp ha) _ (mem_sortOn.mp hb) he

/-- The elements before one of a list in order are those in front of it. -/
lemma rank_append {s t : List α} (h : Ascending f (s ++ a :: t)) : rank f (s ++ a :: t) (f a) = s.length := by
  obtain ⟨-, ht, hst⟩ := List.pairwise_append.mp h
  have hs : s.filter (fun b => f b < f a) = s :=
    List.filter_eq_self.mpr fun b hb => decide_eq_true (hst b hb a List.mem_cons_self)
  have ht' : (a :: t).filter (fun b => f b < f a) = [] := by
    refine List.filter_eq_nil_iff.mpr fun b hb => ?_
    rw [decide_eq_true_eq, not_lt]
    rcases List.mem_cons.mp hb with rfl | hb
    · exact le_rfl
    · exact (List.rel_of_pairwise_cons ht hb).le
  rw [rank, List.filter_append, hs, ht', List.append_nil]

/-- A page holds the elements whose ranks it covers. -/
lemma mem_page (h : Ascending f l) (ha : a ∈ l) (hle : offset ≤ rank f l (f a)) (hlt : rank f l (f a) < offset + limit) :
    a ∈ page limit offset l := by
  obtain ⟨s, t, rfl⟩ := List.append_of_mem ha
  rw [rank_append h] at hle hlt
  have hdrop : (s ++ a :: t).drop offset = s.drop offset ++ a :: t := List.drop_append_of_le_length hle
  rw [page, hdrop, List.take_append]
  refine List.mem_append_right _ ?_
  have hpos : 0 < limit - (s.drop offset).length := by
    rw [List.length_drop]
    omega
  obtain ⟨n, hn⟩ := Nat.exists_eq_succ_of_ne_zero hpos.ne'
  rw [hn, List.take_succ_cons]
  exact List.mem_cons_self

/-- A page that is not full is the last one. -/
lemma rank_lt_of_short (h : Ascending f l) (ha : a ∈ l) (hshort : (page limit offset l).length < limit) :
    rank f l (f a) < offset + limit := by
  have hlt : rank f l (f a) < l.length := by
    obtain ⟨s, t, rfl⟩ := List.append_of_mem ha
    rw [rank_append h, List.length_append, List.length_cons]
    omega
  rw [page, List.length_take, List.length_drop] at hshort
  omega

/-- Elements that are added only move the others back. -/
lemma rank_mono (h : Ascending f l) (hsub : ∀ a ∈ l, ∃ b ∈ l', f b = f a) (x : κ) : rank f l x ≤ rank f l' x := by
  have hkeys : ((l.map f).filter (· < x)).Subperm ((l'.map f).filter (· < x)) := by
    have hnodup : (l.map f).Nodup := (List.pairwise_map.mpr h).imp fun hlt => hlt.ne
    refine List.subperm_of_subset (hnodup.filter _) fun y hy => ?_
    obtain ⟨hy, hlt⟩ := List.mem_filter.mp hy
    obtain ⟨a, ha, rfl⟩ := List.mem_map.mp hy
    obtain ⟨b, hb, he⟩ := hsub a ha
    exact List.mem_filter.mpr ⟨List.mem_map.mpr ⟨b, hb, he⟩, hlt⟩
  have hlen := hkeys.length_le
  rwa [List.filter_map, List.filter_map, List.length_map, List.length_map] at hlen

/-- **Pages of a growing list miss nothing.**  The `i`-th page is read off the list `ls i`.  When the last
page is not full, every element that was there at the first page is on one of them. -/
theorem pages_complete {ls : ℕ → List α} {n : ℕ} (hasc : ∀ i ≤ n, Ascending f (ls i))
    (hgrow : ∀ i < n, ∀ a ∈ ls i, ∃ b ∈ ls (i + 1), f b = f a)
    (hshort : (page limit (n * limit) (ls n)).length < limit) {a : α} (ha : a ∈ ls 0) :
    ∃ i ≤ n, ∃ b ∈ page limit (i * limit) (ls i), f b = f a := by
  have hthere : ∀ i ≤ n, ∃ b ∈ ls i, f b = f a := by
    intro i
    induction i with
    | zero => exact fun _ => ⟨a, ha, rfl⟩
    | succ i ih =>
      intro hi
      obtain ⟨b, hb, he⟩ := ih (Nat.le_of_succ_le hi)
      obtain ⟨c, hc, he'⟩ := hgrow i hi b hb
      exact ⟨c, hc, he'.trans he⟩
  by_contra hmissed
  -- the element is always behind the pages that were read
  have hbehind : ∀ i ≤ n, i * limit + limit ≤ rank f (ls i) (f a) := by
    intro i
    induction i with
    | zero =>
      intro hi
      by_contra hlt
      exact hmissed ⟨0, hi, a, mem_page (hasc 0 hi) ha (by omega) (by omega), rfl⟩
    | succ i ih =>
      intro hi
      obtain ⟨b, hb, he⟩ := hthere (i + 1) hi
      have hmono := rank_mono (hasc i (Nat.le_of_succ_le hi)) (hgrow i hi) (f a)
      have hprev := ih (Nat.le_of_succ_le hi)
      by_contra hlt
      refine hmissed ⟨i + 1, hi, b, mem_page (hasc _ hi) hb ?_ ?_, he⟩
      · rw [he, Nat.succ_mul]
        omega
      · rw [he]
        omega
  obtain ⟨b, hb, he⟩ := hthere n le_rfl
  have hlt := rank_lt_of_short (hasc n le_rfl) hb hshort
  rw [he] at hlt
  have hle := hbehind n le_rfl
  omega

end DataCheck.Lib
