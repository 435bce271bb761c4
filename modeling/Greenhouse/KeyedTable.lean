import Mathlib.Data.List.Basic
import Mathlib.Data.List.Nodup

/-!
# Tables with a unique key

Rows are a list without two equal keys, so a table that breaks its key
constraint cannot be built. The operations are the ones SQL offers on such a
table: a conditional update that leaves the key alone, an insertion that skips
a present key, and an insertion that updates the row with a present key.
A slice is the list of rows that a predicate selects, and a lookup is the row
with a key.
-/

namespace Greenhouse.KeyedTable

universe u v

/-- A list of rows in which the key is unique. -/
structure Table (α : Type u) {κ : Type v} (key : α → κ) where
  /-- Stored rows, oldest first. -/
  rows : List α
  /-- No two rows share a key. -/
  unique : (rows.map key).Nodup

variable {α : Type u} {κ : Type v} {key : α → κ}

/-- A table without rows. -/
def Table.empty : Table α key := ⟨[],List.nodup_nil⟩

/-- Two stored rows with one key are the same row. -/
theorem Table.eq_of_key (t : Table α key) {a b : α} (ha : a∈t.rows) (hb : b∈t.rows)
    (h : key a=key b) : a=b :=
  List.inj_on_of_nodup_map t.unique ha hb h

/-- Columns that determine the key are not repeated. -/
theorem Table.nodup_map {β : Type*} {f : α → β} (t : Table α key) (hf : ∀ a b,f a=f b → key a=key b) :
    (t.rows.map f).Nodup := by
  refine List.Nodup.map_on (fun a ha b hb he => t.eq_of_key ha hb (hf a b he)) ?_
  exact t.unique.of_map key

/-- The rows a predicate selects, in stored order. -/
def Table.slice (q : α → Bool) (t : Table α key) : List α := t.rows.filter q

theorem Table.mem_slice {q : α → Bool} {t : Table α key} {a : α} :
    a∈t.slice q ↔ a∈t.rows ∧ q a=true := List.mem_filter

/-- Whether a key is present can be read off any slice that selects its rows. -/
theorem Table.key_mem_iff_slice {t : Table α key} {q : α → Bool} {k : κ}
    (hq : ∀ a, key a=k → q a=true) : k∈t.rows.map key ↔ k∈(t.slice q).map key := by
  constructor
  · intro h
    obtain ⟨a,ha,he⟩ := List.mem_map.mp h
    exact List.mem_map.mpr ⟨a,Table.mem_slice.mpr ⟨ha,hq a he⟩,he⟩
  · intro h
    obtain ⟨a,ha,he⟩ := List.mem_map.mp h
    exact List.mem_map.mpr ⟨a,(Table.mem_slice.mp ha).1,he⟩

/-- Changing selected rows keeps the values of every column the change keeps. -/
theorem map_changed {β : Type*} {f : α → β} {p : α → Bool} {g : α → α}
    (hf : ∀ r, f (g r)=f r) (rows : List α) :
    (rows.map fun r => if p r=true then g r else r).map f=rows.map f := by
  rw [List.map_map]
  apply List.map_congr_left
  intro r _
  dsimp only [Function.comp_apply]
  split
  · exact hf r
  · rfl

/-- Change the rows a condition selects; the change must keep the key. -/
def Table.updateWhere (t : Table α key) (p : α → Bool) (g : α → α)
    (hg : ∀ r, key (g r)=key r) : Table α key where
  rows := t.rows.map fun r => if p r=true then g r else r
  unique := by
    rw [map_changed hg]
    exact t.unique

section Update

variable {t : Table α key} {p : α → Bool} {g : α → α} {hg : ∀ r, key (g r)=key r}

/-- Every row after an update is an old row, changed when it was selected. -/
theorem Table.mem_updateWhere {b : α} :
    b∈(t.updateWhere p g hg).rows ↔ ∃ a∈t.rows, (if p a=true then g a else a)=b :=
  List.mem_map

/-- A change that keeps a column keeps the list of that column's values. -/
theorem Table.map_updateWhere {β : Type*} {f : α → β} (hf : ∀ r, f (g r)=f r) :
    (t.updateWhere p g hg).rows.map f=t.rows.map f :=
  map_changed hf t.rows

/-- A change that no selected predicate can see commutes with slicing. -/
theorem Table.slice_updateWhere {q : α → Bool} (hq : ∀ r, q (g r)=q r) :
    (t.updateWhere p g hg).slice q=(t.slice q).map fun r => if p r=true then g r else r := by
  dsimp only [Table.slice,Table.updateWhere]
  rw [List.filter_map]
  congr 1
  apply List.filter_congr
  intro r _
  dsimp only [Function.comp_apply]
  split
  · exact hq r
  · rfl

/-- A slice without updated rows is unchanged. -/
theorem Table.slice_updateWhere_of_disjoint {q : α → Bool} (hq : ∀ r, q (g r)=q r)
    (hd : ∀ r∈t.rows, q r=true → p r=false) :
    (t.updateWhere p g hg).slice q=t.slice q := by
  rw [Table.slice_updateWhere hq]
  conv_rhs => rw [←List.map_id (t.slice q)]
  apply List.map_congr_left
  intro r hr
  obtain ⟨hm,hqr⟩ := Table.mem_slice.mp hr
  rw [hd r hm hqr,if_neg Bool.false_ne_true]
  rfl

/-- Updates of tables with equal slices have equal slices. -/
theorem Table.slice_updateWhere_congr {t' : Table α key} {q : α → Bool} (hq : ∀ r, q (g r)=q r)
    (h : t.slice q=t'.slice q) :
    (t.updateWhere p g hg).slice q=(t'.updateWhere p g hg).slice q := by
  rw [Table.slice_updateWhere hq,Table.slice_updateWhere hq,h]

end Update

section Insert

variable [DecidableEq κ]

/-- Add a row with a new key; a row with a present key is skipped. -/
def Table.insertIgnore (t : Table α key) (r : α) : Table α key :=
  if h : key r∈t.rows.map key then t
  else
    { rows := t.rows++[r]
      unique := by
        rw [List.map_append,List.nodup_append]
        refine ⟨t.unique,List.nodup_singleton _,?_⟩
        intro a ha b hb
        obtain rfl := List.mem_singleton.mp hb
        exact fun he => h (he ▸ ha) }

/-- Add a row with a new key; otherwise change the row that holds the key. -/
def Table.insertOrUpdate (t : Table α key) (r : α) (g : α → α) (hg : ∀ a, key (g a)=key a) :
    Table α key :=
  if key r∈t.rows.map key then t.updateWhere (fun a => decide (key a=key r)) g hg
  else t.insertIgnore r

variable {t : Table α key} {r : α}

/-- Skipping: a present key leaves the table as it was. -/
theorem Table.insertIgnore_of_mem (h : key r∈t.rows.map key) : t.insertIgnore r=t :=
  dif_pos h

/-- Insertion of a new key appends the row. -/
theorem Table.rows_insertIgnore_of_notMem (h : key r∉t.rows.map key) :
    (t.insertIgnore r).rows=t.rows++[r] := by
  rw [Table.insertIgnore,dif_neg h]

/-- Old rows survive every insertion. -/
theorem Table.mem_insertIgnore_of_mem {a : α} (ha : a∈t.rows) : a∈(t.insertIgnore r).rows := by
  by_cases h : key r∈t.rows.map key
  · rw [Table.insertIgnore_of_mem h]
    exact ha
  · rw [Table.rows_insertIgnore_of_notMem h]
    exact List.mem_append_left _ ha

/-- After an insertion a row is old, or it is the new row with a new key. -/
theorem Table.mem_insertIgnore {a : α} :
    a∈(t.insertIgnore r).rows ↔ a∈t.rows ∨ (a=r ∧ key r∉t.rows.map key) := by
  by_cases h : key r∈t.rows.map key
  · rw [Table.insertIgnore_of_mem h]
    exact ⟨Or.inl,fun ha => ha.resolve_right fun hn => hn.2 h⟩
  · rw [Table.rows_insertIgnore_of_notMem h,List.mem_append,List.mem_singleton]
    exact or_congr_right ⟨fun ha => ⟨ha,h⟩,And.left⟩

/-- An insertion whose key is present only with the same columns adds these
columns to the table. -/
theorem Table.mem_map_insertIgnore {β : Type*} {f : α → β}
    (h : ∀ a∈t.rows,key a=key r → f a=f r) {x : β} :
    x∈(t.insertIgnore r).rows.map f ↔ x∈t.rows.map f ∨ x=f r := by
  by_cases hm : key r∈t.rows.map key
  · rw [Table.insertIgnore_of_mem hm]
    obtain ⟨a,ha,hk⟩ := List.mem_map.mp hm
    exact ⟨Or.inl,fun hx => hx.elim id fun he => List.mem_map.mpr ⟨a,ha,(h a ha hk).trans he.symm⟩⟩
  · rw [Table.rows_insertIgnore_of_notMem hm,List.map_append,List.mem_append,List.map_singleton,
      List.mem_singleton]

/-- A slice that does not select the new row does not see its insertion. -/
theorem Table.slice_insertIgnore_of_not {q : α → Bool} (hq : q r=false) :
    (t.insertIgnore r).slice q=t.slice q := by
  by_cases h : key r∈t.rows.map key
  · rw [Table.insertIgnore_of_mem h]
  · rw [Table.slice,Table.rows_insertIgnore_of_notMem h,List.filter_append]
    simp only [List.filter_cons,hq,Bool.false_eq_true,if_false,List.filter_nil,List.append_nil]
    rfl

/-- A slice of a table after the insertion of a new key. -/
theorem Table.slice_insertIgnore_of_notMem {q : α → Bool} (h : key r∉t.rows.map key) :
    (t.insertIgnore r).slice q=t.slice q++[r].filter q := by
  rw [Table.slice,Table.rows_insertIgnore_of_notMem h,List.filter_append]
  rfl

/-- Insertions into tables with equal slices have equal slices, when the slice
selects every row with the new key. -/
theorem Table.slice_insertIgnore_congr {t' : Table α key} {q : α → Bool}
    (hq : ∀ a, key a=key r → q a=true) (h : t.slice q=t'.slice q) :
    (t.insertIgnore r).slice q=(t'.insertIgnore r).slice q := by
  have hk : key r∈t.rows.map key ↔ key r∈t'.rows.map key := by
    rw [Table.key_mem_iff_slice hq,Table.key_mem_iff_slice hq,h]
  by_cases hm : key r∈t.rows.map key
  · rw [Table.insertIgnore_of_mem hm,Table.insertIgnore_of_mem (hk.mp hm)]
    exact h
  · have hm' : key r∉t'.rows.map key := fun hc => hm (hk.mpr hc)
    dsimp only [Table.slice] at h ⊢
    rw [Table.rows_insertIgnore_of_notMem hm,Table.rows_insertIgnore_of_notMem hm',
      List.filter_append,List.filter_append,h]

/-- After an upsert the key belongs to the new row or to a changed row. -/
theorem Table.exists_insertOrUpdate {g : α → α} {hg : ∀ a, key (g a)=key a} :
    ∃ a∈(t.insertOrUpdate r g hg).rows,key a=key r ∧ (a=r ∨ ∃ b,a=g b) := by
  unfold Table.insertOrUpdate
  by_cases hm : key r∈t.rows.map key
  · rw [if_pos hm]
    obtain ⟨b,hb,hk⟩ := List.mem_map.mp hm
    exact ⟨g b,Table.mem_updateWhere.mpr ⟨b,hb,if_pos (decide_eq_true hk)⟩,(hg b).trans hk,
      Or.inr ⟨b,rfl⟩⟩
  · rw [if_neg hm]
    exact ⟨r,Table.mem_insertIgnore.mpr (Or.inr ⟨rfl,hm⟩),rfl,Or.inl rfl⟩

/-- A slice that selects no row with the key does not see an upsert. -/
theorem Table.slice_insertOrUpdate_of_not {q : α → Bool} {g : α → α} {hg : ∀ a, key (g a)=key a}
    (hg' : ∀ a, q (g a)=q a) (hq : ∀ a, key a=key r → q a=false) :
    (t.insertOrUpdate r g hg).slice q=t.slice q := by
  unfold Table.insertOrUpdate
  split
  · apply Table.slice_updateWhere_of_disjoint hg'
    intro a _ ha
    apply decide_eq_false
    intro he
    rw [hq a he] at ha
    exact Bool.false_ne_true ha
  · exact Table.slice_insertIgnore_of_not (hq r rfl)

/-- Upserts into tables with equal slices have equal slices, when the slice
selects every row with the key. -/
theorem Table.slice_insertOrUpdate_congr {t' : Table α key} {q : α → Bool} {g : α → α}
    {hg : ∀ a, key (g a)=key a} (hg' : ∀ a, q (g a)=q a)
    (hq : ∀ a, key a=key r → q a=true) (h : t.slice q=t'.slice q) :
    (t.insertOrUpdate r g hg).slice q=(t'.insertOrUpdate r g hg).slice q := by
  have hk : key r∈t.rows.map key ↔ key r∈t'.rows.map key := by
    rw [Table.key_mem_iff_slice hq,Table.key_mem_iff_slice hq,h]
  unfold Table.insertOrUpdate
  by_cases hm : key r∈t.rows.map key
  · rw [if_pos hm,if_pos (hk.mp hm)]
    exact Table.slice_updateWhere_congr hg' h
  · rw [if_neg hm,if_neg fun hc => hm (hk.mpr hc)]
    exact Table.slice_insertIgnore_congr hq h

end Insert

section Lookup

variable [DecidableEq κ]

/-- The row with a key. -/
def Table.lookup (t : Table α key) (k : κ) : Option α := t.rows.find? fun a => decide (key a=k)

variable {t : Table α key} {r a : α} {k : κ}

/-- The row with a key is the stored row that has it. -/
theorem Table.lookup_eq_some : t.lookup k=some a ↔ a∈t.rows ∧ key a=k := by
  constructor
  · intro h
    exact ⟨List.mem_of_find?_eq_some h,of_decide_eq_true (List.find?_some (p:=fun a => decide (key a=k)) h)⟩
  · rintro ⟨ha,hk⟩
    cases h : t.lookup k with
    | none => exact absurd (decide_eq_true hk) (List.find?_eq_none.mp h a ha)
    | some b =>
      have hb : key b=k := of_decide_eq_true (List.find?_some (p:=fun a => decide (key a=k)) h)
      rw [t.eq_of_key (List.mem_of_find?_eq_some h) ha (hb.trans hk.symm)]

/-- There is no row with an absent key. -/
theorem Table.lookup_eq_none : t.lookup k=none ↔ k∉t.rows.map key := by
  rw [Table.lookup,List.find?_eq_none]
  constructor
  · intro h hk
    obtain ⟨a,ha,he⟩ := List.mem_map.mp hk
    exact h a ha (decide_eq_true he)
  · exact fun h a ha he => h (List.mem_map.mpr ⟨a,ha,of_decide_eq_true he⟩)

/-- An update changes the row with a key when it is selected. -/
theorem Table.lookup_updateWhere {p : α → Bool} {g : α → α} {hg : ∀ r,key (g r)=key r} :
    (t.updateWhere p g hg).lookup k=(t.lookup k).map fun r => if p r=true then g r else r := by
  have hkey : ((fun a => decide (key a=k))∘fun r => if p r=true then g r else r)=
      fun a => decide (key a=k) := by
    funext r
    dsimp only [Function.comp_apply]
    split
    · rw [hg]
    · rfl
  rw [Table.lookup,Table.updateWhere,List.find?_map,hkey]
  rfl

/-- An insertion gives an absent key its row, and no other key. -/
theorem Table.lookup_insertIgnore :
    (t.insertIgnore r).lookup k=(t.lookup k).or (if key r=k then some r else none) := by
  by_cases h : key r∈t.rows.map key
  · rw [Table.insertIgnore_of_mem h]
    split
    · rename_i hk
      obtain ⟨a,ha⟩ := Option.ne_none_iff_exists'.mp fun hn => Table.lookup_eq_none.mp hn (hk ▸ h)
      rw [ha]
      rfl
    · rw [Option.or_none]
  · rw [Table.lookup,Table.rows_insertIgnore_of_notMem h,List.find?_append]
    refine congrArg _ ?_
    by_cases hk : key r=k
    · rw [if_pos hk,List.find?_singleton,if_pos (decide_eq_true hk)]
    · rw [if_neg hk,List.find?_singleton,if_neg (ne_true_of_eq_false (decide_eq_false hk))]

/-- An upsert changes the row with its key, or gives the key its row. -/
theorem Table.lookup_insertOrUpdate {g : α → α} {hg : ∀ a,key (g a)=key a} :
    (t.insertOrUpdate r g hg).lookup k=
      if key r=k then some ((t.lookup k).elim r g) else t.lookup k := by
  unfold Table.insertOrUpdate
  by_cases hm : key r∈t.rows.map key
  · rw [if_pos hm,Table.lookup_updateWhere]
    by_cases hk : key r=k
    · obtain ⟨a,ha⟩ := Option.ne_none_iff_exists'.mp fun hn => Table.lookup_eq_none.mp hn (hk ▸ hm)
      rw [if_pos hk,ha,Option.map_some,if_pos (decide_eq_true _)]
      · rfl
      · rw [(Table.lookup_eq_some.mp ha).2,hk]
    · rw [if_neg hk]
      cases ha : t.lookup k with
      | none => rfl
      | some a =>
        have hne : key a≠key r := fun he => hk (he.symm.trans (Table.lookup_eq_some.mp ha).2)
        rw [Option.map_some,if_neg (ne_true_of_eq_false (decide_eq_false hne))]
  · rw [if_neg hm,Table.lookup_insertIgnore]
    by_cases hk : key r=k
    · rw [if_pos hk,if_pos hk,Table.lookup_eq_none.mpr (hk ▸ hm)]
      rfl
    · rw [if_neg hk,if_neg hk,Option.or_none]

end Lookup

end Greenhouse.KeyedTable
