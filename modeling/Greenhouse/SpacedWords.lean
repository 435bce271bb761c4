import Mathlib.Data.List.Basic

/-!
# Words separated by spaces

Splitting at spaces drops empty words. A list of words without spaces that is
written with single spaces is read back unchanged, and the words of two texts
joined by a space are the words of the first and then those of the second. A
pattern without spaces cannot lie across the space.
-/

namespace Greenhouse.SpacedWords

/-- The words of a text, separated by one or more spaces. -/
def words (text : String) : List String :=
  ((text.toList.splitOn ' ').filter fun w => !w.isEmpty).map String.ofList

/-- Write words with single spaces between them. -/
def unwords (ws : List String) : String :=
  String.ofList (List.intercalate [' '] (ws.map String.toList))

/-- A word has a character, and no space. -/
def IsWord (w : String) : Prop := w≠"" ∧ ' '∉w.toList

instance : DecidablePred IsWord := fun w => inferInstanceAs (Decidable (w≠"" ∧ _))

/-- Parts of a split list have no element at which the list is split. -/
theorem not_of_mem_splitOnP {α : Type*} {p : α → Bool} {xs part : List α}
    (h : part∈xs.splitOnP p) : ∀ x∈part,p x=false := by
  induction xs generalizing part with
  | nil =>
    obtain rfl := List.mem_singleton.mp h
    exact fun x hx => absurd hx List.not_mem_nil
  | cons x xs ih =>
    rw [List.splitOnP_cons_eq_if_modifyHead] at h
    by_cases hx : p x=true
    · rw [if_pos hx] at h
      rcases List.mem_cons.mp h with rfl|h
      · exact fun y hy => absurd hy List.not_mem_nil
      · exact ih h
    · rw [if_neg hx] at h
      obtain ⟨first,rest,hs⟩ := List.exists_cons_of_ne_nil (List.splitOnP_ne_nil p xs)
      rw [hs] at h ih
      rcases List.mem_cons.mp h with rfl|h
      · intro y hy
        rcases List.mem_cons.mp hy with rfl|hy
        · exact eq_false_of_ne_true hx
        · exact ih List.mem_cons_self y hy
      · exact ih (List.mem_cons_of_mem _ h)

/-- Parts of a split list do not contain the separator. -/
theorem notMem_of_mem_splitOn {xs part : List Char} (h : part∈xs.splitOn ' ') : ' '∉part := by
  rw [List.splitOn_eq_splitOnP] at h
  intro hm
  exact absurd (not_of_mem_splitOnP h ' ' hm) (by decide)

/-- The words of a text are words. -/
theorem isWord_of_mem_words {text w : String} (h : w∈words text) : IsWord w := by
  obtain ⟨part,hp,rfl⟩ := List.mem_map.mp h
  obtain ⟨hs,hne⟩ := List.mem_filter.mp hp
  constructor
  · intro he
    have hnil : part=[] := by
      have ht := congrArg String.toList he
      rwa [String.toList_ofList] at ht
    rw [hnil] at hne
    exact Bool.false_ne_true hne
  · rw [String.toList_ofList]
    exact notMem_of_mem_splitOn hs

/-- Words that are written are read back. -/
theorem words_unwords {ws : List String} (h : ∀ w∈ws,IsWord w) : words (unwords ws)=ws := by
  cases hws : ws with
  | nil => rfl
  | cons w rest =>
    rw [←hws]
    have hspace : ∀ l∈ws.map String.toList,' '∉l := by
      intro l hl
      obtain ⟨w,hw,rfl⟩ := List.mem_map.mp hl
      exact (h w hw).2
    have hne : ws.map String.toList≠[] := by
      rw [hws]
      exact List.cons_ne_nil _ _
    have hfilter : (ws.map String.toList).filter (fun w => !w.isEmpty)=ws.map String.toList := by
      refine List.filter_eq_self.mpr fun l hl => ?_
      obtain ⟨w,hw,rfl⟩ := List.mem_map.mp hl
      cases hl : w.toList with
      | nil => exact absurd (String.toList_eq_nil_iff.mp hl) (h w hw).1
      | cons => rfl
    rw [words,unwords,String.toList_ofList,List.splitOn_intercalate ' ' hspace hne,hfilter,
      List.map_map]
    refine (List.map_congr_left fun w _ => ?_).trans (List.map_id ws)
    exact String.ofList_toList

/-- The characters of texts joined by a space. -/
theorem toList_append_space (first second : String) :
    (first++" "++second).toList=first.toList++ ' '::second.toList := by
  rw [String.toList_append,String.toList_append,List.append_assoc]
  rfl

/-- Joining with a space joins the lists of words. -/
theorem words_append_space (first second : String) :
    words (first++" "++second)=words first++words second := by
  rw [words,toList_append_space,List.splitOn_append_cons_self,List.filter_append,List.map_append]
  rfl

/-- A pattern without a separator that occurs around the separator occurs on
one side of it. -/
theorem infix_append_cons_iff {α : Type*} {pattern left right : List α} {separator : α}
    (h : separator∉pattern) :
    pattern<:+:left++separator::right ↔ pattern<:+:left ∨ pattern<:+:right := by
  constructor
  · rintro ⟨front,back,heq⟩
    rcases List.append_eq_append_iff.mp heq with ⟨rest,hl,_⟩|⟨rest,hf,hr⟩
    · exact Or.inl ⟨front,rest,hl.symm⟩
    cases rest with
    | nil =>
      rw [List.append_nil] at hf
      exact Or.inl ⟨front,[],by rw [List.append_nil,hf]⟩
    | cons c rest =>
      obtain ⟨rfl,rfl⟩ := List.cons.inj hr
      rcases List.append_eq_append_iff.mp hf with ⟨pre,_,hp⟩|⟨pre,_,hp⟩
      · refine absurd ?_ h
        rw [hp]
        exact List.mem_append_right pre List.mem_cons_self
      · cases pre with
        | nil =>
          refine absurd ?_ h
          rw [List.nil_append] at hp
          rw [←hp]
          exact List.mem_cons_self
        | cons c pre =>
          obtain ⟨_,rfl⟩ := List.cons.inj hp
          exact Or.inr ⟨pre,back,rfl⟩
  · rintro (hl|hr)
    · exact List.infix_append_of_infix_left hl
    · exact List.infix_append_of_infix_right (List.infix_cons hr)

/-- A pattern occurs in a text. -/
def Contains (text pattern : String) : Prop := pattern.toList<:+:text.toList

instance (text pattern : String) : Decidable (Contains text pattern) :=
  inferInstanceAs (Decidable (_<:+:_))

/-- A pattern without spaces occurs in texts joined by a space when it occurs
in one of them. -/
theorem contains_append_space {first second pattern : String} (h : ' '∉pattern.toList) :
    Contains (first++" "++second) pattern ↔ Contains first pattern ∨ Contains second pattern := by
  rw [Contains,toList_append_space]
  exact infix_append_cons_iff h

/-- A text with a word is not empty. -/
theorem ne_empty_of_mem_words {text w : String} (h : w∈words text) : text≠"" := by
  rintro rfl
  exact absurd h List.not_mem_nil

end Greenhouse.SpacedWords
