import Greenhouse.OrderedPage

/-!
# Draining a queue page by page

A reader repeatedly takes the earliest waiting entries, as many as a limit
allows. Entries may be added as long as none is earlier than an entry that has
been taken. Then the pages taken are in order one after the other, and nothing
is lost or taken twice.
-/

namespace Greenhouse.PagedQueue

open OrderedPage

variable {α β κ : Type*} [LinearOrder κ]

/-- A page and the rest of a list of waiting entries. -/
structure IsPage (sortKey : α → κ) (limit : ℕ) (waiting page rest : List α) : Prop where
  split : waiting.Perm (page++rest)
  size : page.length=min limit waiting.length
  sorted : page.Pairwise fun a b => sortKey a ≤ sortKey b
  earliest : ∀ a∈page,∀ b∈rest,sortKey a ≤ sortKey b

/-- Waiting entries, and the entries taken so far in order. -/
structure Queue (α : Type*) where
  waiting : List α
  out : List α

/-- One step of the queue. -/
inductive Step (sortKey : α → κ) (limit : ℕ) : Queue α → Queue α → List α → Prop
  /-- An entry is added. -/
  | insert {q : Queue α} {a : α} (later : ∀ b∈q.out,sortKey b ≤ sortKey a) :
    Step sortKey limit q ⟨q.waiting++[a],q.out⟩ [a]
  /-- A page is taken. -/
  | take {q : Queue α} {page rest : List α} (h : IsPage sortKey limit q.waiting page rest) :
    Step sortKey limit q ⟨rest,q.out++page⟩ []

/-- The entries taken are in order, and none is later than one that waits. -/
structure Ordered (sortKey : α → κ) (q : Queue α) : Prop where
  out : q.out.Pairwise fun a b => sortKey a ≤ sortKey b
  waiting : ∀ a∈q.out,∀ b∈q.waiting,sortKey a ≤ sortKey b

variable {sortKey : α → κ} {limit : ℕ} {q q' : Queue α} {new : List α}

/-- Nothing has been taken from a new queue. -/
theorem ordered_start (waiting : List α) : Ordered sortKey ⟨waiting,[]⟩ :=
  ⟨List.Pairwise.nil,fun _ h => absurd h List.not_mem_nil⟩

/-- A step keeps the order. -/
theorem Ordered.step (h : Ordered sortKey q) (hs : Step sortKey limit q q' new) :
    Ordered sortKey q' := by
  cases hs with
  | insert later =>
    refine ⟨h.out,fun a ha b hb => ?_⟩
    rcases List.mem_append.mp hb with hb|hb
    · exact h.waiting a ha b hb
    · rw [List.mem_singleton.mp hb]
      exact later a ha
  | @take page rest hp =>
    have hold : ∀ b∈page++rest,b∈q.waiting := fun b hb => hp.split.mem_iff.mpr hb
    refine ⟨List.pairwise_append.mpr ⟨h.out,hp.sorted,fun a ha b hb => ?_⟩,fun a ha b hb => ?_⟩
    · exact h.waiting a ha b (hold b (List.mem_append_left _ hb))
    · rcases List.mem_append.mp ha with ha|ha
      · exact h.waiting a ha b (hold b (List.mem_append_right _ hb))
      · exact hp.earliest a ha b hb

/-- A step neither loses nor repeats an entry. -/
theorem Step.perm (hs : Step sortKey limit q q' new) :
    (q'.out++q'.waiting).Perm (q.out++q.waiting++new) := by
  cases hs with
  | insert later => rw [List.append_assoc]
  | take hp =>
    rw [List.append_nil,List.append_assoc]
    exact (hp.split.append_left q.out).symm

/-- What is left after a page. -/
theorem IsPage.length_rest {waiting page rest : List α} (h : IsPage sortKey limit waiting page rest) :
    rest.length=waiting.length-limit := by
  have hlen := h.split.length_eq
  have hsize := h.size
  rw [List.length_append] at hlen
  omega

/-- Pages are seen through every view that keeps the key. -/
theorem IsPage.map {waiting page rest : List α} (h : IsPage sortKey limit waiting page rest)
    (view : α → β) (viewKey : β → κ) (hk : ∀ a,viewKey (view a)=sortKey a) :
    IsPage viewKey limit (waiting.map view) (page.map view) (rest.map view) where
  split := by
    rw [←List.map_append]
    exact h.split.map view
  size := by rw [List.length_map,List.length_map,h.size]
  sorted := by
    rw [List.pairwise_map]
    simp only [hk]
    exact h.sorted
  earliest := by
    intro x hx y hy
    obtain ⟨a,ha,rfl⟩ := List.mem_map.mp hx
    obtain ⟨b,hb,rfl⟩ := List.mem_map.mp hy
    rw [hk,hk]
    exact h.earliest a ha b hb

/-- An ordered query with a limit takes a page of the rows, which are told
apart by an identifier. -/
theorem page_isPage [DecidableEq β] (sortKey : α → κ) (rank : α → ℕ) (limit : ℕ) {rows : List α}
    {ident : α → β} (h : (rows.map ident).Nodup) :
    IsPage sortKey limit rows (page sortKey rank limit rows)
      (rows.filter fun a => decide (ident a∉(page sortKey rank limit rows).map ident)) := by
  have hsort := List.perm_insertionSort (Precedes sortKey rank) rows
  have hsplit : (page sortKey rank limit rows++
      (rows.insertionSort (Precedes sortKey rank)).drop limit).Perm rows := by
    rw [page,List.take_append_drop]
    exact hsort
  have hrest : (rows.filter fun a => decide (ident a∉(page sortKey rank limit rows).map ident)).Perm
      ((rows.insertionSort (Precedes sortKey rank)).drop limit) := by
    refine (hsplit.filter _).symm.trans ?_
    have hnodup := (hsplit.map ident).nodup_iff.mpr h
    rw [List.map_append,List.nodup_append] at hnodup
    rw [List.filter_append]
    have htaken : (page sortKey rank limit rows).filter
        (fun a => decide (ident a∉(page sortKey rank limit rows).map ident))=[] := by
      refine List.filter_eq_nil_iff.mpr fun a ha => ?_
      rw [decide_eq_true_eq]
      exact fun hn => hn (List.mem_map_of_mem ha)
    have hleft : ((rows.insertionSort (Precedes sortKey rank)).drop limit).filter
        (fun a => decide (ident a∉(page sortKey rank limit rows).map ident))=
          (rows.insertionSort (Precedes sortKey rank)).drop limit := by
      refine List.filter_eq_self.mpr fun a ha => decide_eq_true fun hm => ?_
      exact hnodup.2.2 _ hm _ (List.mem_map_of_mem ha) rfl
    rw [htaken,hleft,List.nil_append]
  refine ⟨hsplit.symm.trans (hrest.symm.append_left _),?_,page_sorted,fun a ha b hb => ?_⟩
  · rw [page,List.length_take,List.length_insertionSort]
  · obtain ⟨hb,hn⟩ := List.mem_filter.mp hb
    exact le_of_notMem_page ha hb fun hm => of_decide_eq_true hn (List.mem_map_of_mem hm)

end Greenhouse.PagedQueue
