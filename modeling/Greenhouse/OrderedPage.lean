import Mathlib.Data.List.Sort
import Mathlib.Order.Defs.LinearOrder

/-!
# Pages of a list ordered by a key

A page is what an ordered query with a limit returns: the first entries of the
list sorted by a key, entries with equal keys being ordered by a rank the
query leaves open. Every entry outside the page has a key at least as large as
every key in it.
-/

namespace Greenhouse.OrderedPage

variable {α κ : Type*} [LinearOrder κ]

/-- The first entry has the smaller key, or an equal key and no larger rank. -/
def Precedes (sortKey : α → κ) (rank : α → ℕ) (a b : α) : Prop :=
  sortKey a<sortKey b ∨ (sortKey a=sortKey b ∧ rank a≤rank b)

variable {sortKey : α → κ} {rank : α → ℕ}

instance : DecidableRel (Precedes sortKey rank) := fun _ _ =>
  inferInstanceAs (Decidable (_ ∨ _))

instance : Std.Total (Precedes sortKey rank) where
  total a b := by
    rcases lt_trichotomy (sortKey a) (sortKey b) with h|h|h
    · exact Or.inl (Or.inl h)
    · rcases le_total (rank a) (rank b) with hr|hr
      · exact Or.inl (Or.inr ⟨h,hr⟩)
      · exact Or.inr (Or.inr ⟨h.symm,hr⟩)
    · exact Or.inr (Or.inl h)

instance : IsTrans α (Precedes sortKey rank) where
  trans a b c := by
    rintro (hab|⟨hab,hr⟩) (hbc|⟨hbc,hs⟩)
    · exact Or.inl (hab.trans hbc)
    · exact Or.inl (hbc ▸ hab)
    · exact Or.inl (hab ▸ hbc)
    · exact Or.inr ⟨hab.trans hbc,hr.trans hs⟩

/-- Preceding never goes from a larger key to a smaller one. -/
theorem Precedes.le {a b : α} (h : Precedes sortKey rank a b) : sortKey a ≤ sortKey b := by
  rcases h with h|⟨h,_⟩
  · exact h.le
  · exact h.le

/-- The first entries of the list in key order, equal keys in rank order. -/
def page (sortKey : α → κ) (rank : α → ℕ) (limit : ℕ) (rows : List α) : List α :=
  (rows.insertionSort (Precedes sortKey rank)).take limit

variable {limit : ℕ} {rows : List α}

/-- Reading only the beginning of a page gives a smaller page. -/
theorem take_page (n : ℕ) :
    (page sortKey rank limit rows).take n=page sortKey rank (min n limit) rows :=
  List.take_take

/-- A page holds listed entries only. -/
theorem mem_of_mem_page {a : α} (h : a∈page sortKey rank limit rows) : a∈rows :=
  (List.mem_insertionSort _).mp (List.mem_of_mem_take h)

/-- A page is sorted by its key. -/
theorem page_sorted :
    (page sortKey rank limit rows).Pairwise fun a b => sortKey a ≤ sortKey b :=
  ((List.pairwise_insertionSort _ rows).sublist (List.take_sublist _ _)).imp Precedes.le

/-- Entries left out of a page come no earlier than the entries in it. -/
theorem le_of_notMem_page {a b : α} (ha : a∈page sortKey rank limit rows)
    (hb : b∈rows) (hn : b∉page sortKey rank limit rows) : sortKey a ≤ sortKey b := by
  have hs := List.pairwise_insertionSort (Precedes sortKey rank) rows
  have hb' : b∈rows.insertionSort (Precedes sortKey rank) := (List.mem_insertionSort _).mpr hb
  rw [←List.take_append_drop limit (rows.insertionSort (Precedes sortKey rank))] at hs hb'
  have hd := (List.mem_append.mp hb').resolve_left hn
  exact ((List.pairwise_append.mp hs).2.2 a ha b hd).le

/-- A page repeats no value that the list does not repeat. -/
theorem page_nodup_map {β : Type*} {f : α → β} (h : (rows.map f).Nodup) :
    ((page sortKey rank limit rows).map f).Nodup := by
  have hp := ((List.perm_insertionSort (Precedes sortKey rank) rows).map f).nodup_iff.mpr h
  exact hp.sublist ((List.take_sublist _ _).map f)

end Greenhouse.OrderedPage
